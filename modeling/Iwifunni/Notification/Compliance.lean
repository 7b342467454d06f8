/-
Iwifunni/Notification/Compliance.lean

Which choices of a subscriber `PrepareJob` looks at.

A workflow send reads the stored status of the subscriber: a channel that is
'unsubscribed' or 'bounced' is skipped with that reason and never delivered
(`prepareChannels_path`).  The stored preferences are read by no part of
`PrepareJob`: two databases that differ in them only prepare the same job.
-/
import Iwifunni.Subscriber.OptOut

namespace Iwifunni.Notification

open Go Db Effect Effect.Prog Store
open Subscriber (NoUpdate OptedOut storedStatus answer_noUpdate_get calls_prepareResolved
  calls_createSubscriberFromTo orCreate_findOrUpdateSubscriber)

variable {s : Service} {w : World} {c : Circumstances}

/-! ### The channels that are skipped -/

/-- What the delivery of one channel may do to the list. -/
structure Delivery.Next (channel : String) (d d' : Delivery) : Prop where
  channels : d'.channels = d.channels ∨ d'.channels = d.channels ++ [channel]
  skipped : ∀ sk ∈ d.skipped, sk ∈ d'.skipped

theorem Delivery.next_skip (d : Delivery) (channel reason : String) :
    d.Next channel (d.skip channel reason) :=
  ⟨Or.inl rfl, fun _ h => List.mem_append_left _ h⟩

/-- A channel is added. -/
theorem Delivery.next_add {workflow : WorkflowRecord} {subscriber : Db.Subscriber}
    {vars : List (String × Json)} {channel : String} {template : Template} {d d' : Delivery}
    (h : d.add s workflow subscriber vars channel template = .ok d') : d.Next channel d' := by
  unfold Delivery.add at h
  split at h
  · cases h
    exact d.next_skip ..
  · split at h
    · cases h
      exact d.next_skip ..
    · split at h
      · cases h
        exact d.next_skip ..
      · split at h
        · cases h
        · cases h
          exact ⟨Or.inr rfl, fun _ h => h⟩

section Channels

variable {projectID : UUID} {workflow : WorkflowRecord} {subscriber : Db.Subscriber}
  {templateIDs : List (String × String)} {vars : List (String × Json)}

/-- One round of the loop. -/
theorem prepareChannel_path {channel : String} {d d' : Delivery} {tr}
    (h : Path (prepareChannel s projectID workflow subscriber templateIDs vars channel d) tr
      (.ok d')) : d.Next channel d' := by
  unfold prepareChannel at h
  split at h
  · obtain ⟨-, ⟨⟩⟩ := path_ret h
    exact d.next_skip ..
  · dsimp only at h
    split at h
    · obtain ⟨-, ⟨⟩⟩ := path_ret h
      exact d.next_skip ..
    · split at h
      · obtain ⟨-, ⟨⟩⟩ := path_fail h
      · obtain ⟨r, tr', rfl, h₁⟩ := path_ask_bind h
        rcases r with e | template
        · cases e with
          | noRows =>
              obtain ⟨-, ⟨⟩⟩ := path_ret h₁
              exact d.next_skip ..
          | _ => obtain ⟨-, ⟨⟩⟩ := path_fail h₁
        · dsimp only at h₁
          rcases hadd : d.add s workflow subscriber vars channel template with e | d''
          · rw [hadd] at h₁
            obtain ⟨-, ⟨⟩⟩ := path_fail h₁
          · rw [hadd] at h₁
            obtain ⟨-, ⟨⟩⟩ := path_ret h₁
            exact Delivery.next_add hadd

/-- **A channel that is switched off is not delivered, but skipped with its reason.** -/
theorem prepareChannels_path {channel reason : String} {channels : List String}
    {d d' : Delivery} {tr}
    (hoff : skipReasonForSubscriberChannel channel
      (parseSubscriberChannelStatus subscriber.status) = some reason)
    (h : Path (prepareChannels s projectID workflow subscriber templateIDs vars channels d) tr
      (.ok d')) (hd : channel ∉ d.channels) :
    channel ∉ d'.channels ∧ (∀ sk ∈ d.skipped, sk ∈ d'.skipped) ∧
      (channel ∈ channels → ⟨channel, reason⟩ ∈ d'.skipped) := by
  induction channels generalizing d tr with
  | nil =>
      obtain ⟨-, ⟨⟩⟩ := path_ret h
      exact ⟨hd, fun _ hsk => hsk, by simp⟩
  | cons next rest ih =>
      rcases h.bind_inv with ⟨e, -, ⟨⟩⟩ | ⟨d₁, tr₁, tr₂, rfl, h₁, h₂⟩
      have hnext := prepareChannel_path h₁
      by_cases hch : next = channel
      · -- its own round skips it, for this reason
        subst hch
        have hskip : d₁ = d.skip next reason := by
          unfold prepareChannel at h₁
          rw [hoff] at h₁
          obtain ⟨-, ⟨⟩⟩ := path_ret h₁
          rfl
        subst hskip
        obtain ⟨hch', hsk, -⟩ := ih h₂ hd
        exact ⟨hch', fun sk hsk' => hsk sk (hnext.skipped sk hsk'),
          fun _ => hsk _ (List.mem_append_right _ (List.mem_singleton_self _))⟩
      -- another round does not add it
      · have hd₁ : channel ∉ d₁.channels := by
          rcases hnext.channels with he | he
          · rwa [he]
          · rw [he, List.mem_append, List.mem_singleton]
            rintro (hm | rfl)
            · exact hd hm
            · exact hch rfl
        obtain ⟨hch', hsk, hmem⟩ := ih h₂ hd₁
        refine ⟨hch', fun sk hsk' => hsk sk (hnext.skipped sk hsk'), fun hc => ?_⟩
        rcases List.mem_cons.mp hc with rfl | hc
        · exact absurd rfl hch
        · exact hmem hc

end Channels

/-! ### Workflow sends -/

theorem fetch_path {op : Op} {missing : String} {row : op.Res} {tr}
    (h : Path (fetch op missing) tr (.ok row)) : tr = [⟨op, .ok row⟩] := by
  obtain ⟨r, tr', rfl, h₁⟩ := path_ask_bind h
  rcases r with e | row'
  · cases e <;> exact absurd (path_fail h₁).2 (by simp)
  · obtain ⟨rfl, ⟨⟩⟩ := path_ret h₁
    rfl

/-- The workflow and the subscriber a workflow send is prepared for. -/
theorem prepareWorkflowJob_path {job prepared : NotificationJob} {tr}
    (h : Path (prepareWorkflowJob s job) tr (.ok prepared)) (hsys : job.isSystemUser = false) :
    ∃ ids workflow sub tr', parseWorkflowJobIDs job = .ok ids ∧
      ⟨.getWorkflowByID ids.workflowID ids.projectID, .ok workflow⟩ ∈ tr ∧
      ⟨.getSubscriberByID ids.subscriberID ids.projectID, .ok sub⟩ ∈ tr ∧
      Path (prepareForSubscriber s ids.projectID workflow sub job) tr' (.ok prepared) := by
  unfold prepareWorkflowJob at h
  rcases hids : parseWorkflowJobIDs job with e | ids
  · rw [hids] at h
    exact absurd (path_fail h).2 (by simp)
  · rw [hids] at h
    rcases h.bind_inv with ⟨e, -, ⟨⟩⟩ | ⟨workflow, tr₁, tr₂, rfl, h₁, h₂⟩
    rcases h₂.bind_inv with ⟨e, -, ⟨⟩⟩ | ⟨⟨sub, job'⟩, tr₃, tr₄, rfl, h₃, h₄⟩
    unfold resolveWorkflowSubscriber at h₃
    rw [if_neg (by rw [hsys]; exact Bool.false_ne_true)] at h₃
    rcases h₃.bind_inv with ⟨e, -, ⟨⟩⟩ | ⟨sub', tr₅, tr₆, rfl, h₅, h₆⟩
    obtain ⟨rfl, he⟩ := path_ret h₆
    cases he
    refine ⟨ids, workflow, sub, tr₄, rfl, ?_, ?_, h₄⟩
    · rw [fetch_path h₁]
      simp
    · rw [fetch_path h₅]
      simp

/-- The ids of a job that is accepted. -/
theorem parseWorkflowJobIDs_ok {job : NotificationJob} {ids : WorkflowJobIDs}
    (h : parseWorkflowJobIDs job = .ok ids) :
    UUID.parse job.subscriberID = some ids.subscriberID ∧
      UUID.parse job.workflowID = some ids.workflowID := by
  unfold parseWorkflowJobIDs at h
  split at h
  · cases h
  · split at h
    · cases h
    · split at h
      · cases h
      · next hwf =>
        split at h
        · cases h
        · next hsub =>
          cases h
          exact ⟨hsub, hwf⟩

theorem prepareForSubscriber_subscriberID {projectID : UUID} {workflow : WorkflowRecord}
    {subscriber : Db.Subscriber} {job prepared : NotificationJob} {tr}
    (h : Path (prepareForSubscriber s projectID workflow subscriber job) tr (.ok prepared)) :
    prepared.subscriberID = job.subscriberID := by
  rcases h.bind_inv with ⟨e, -, ⟨⟩⟩ | ⟨d, tr₁, tr₂, rfl, -, h₂⟩
  obtain ⟨-, he⟩ := path_ret h₂
  cases he
  rfl

/-- A channel that is switched off is skipped if it was asked for, and not delivered. -/
theorem prepareForSubscriber_path {projectID : UUID} {workflow : WorkflowRecord}
    {subscriber : Db.Subscriber} {job prepared : NotificationJob} {channel reason : String} {tr}
    (hoff : skipReasonForSubscriberChannel channel
      (parseSubscriberChannelStatus subscriber.status) = some reason)
    (h : Path (prepareForSubscriber s projectID workflow subscriber job) tr (.ok prepared)) :
    channel ∉ prepared.channels.getD [] ∧
      (channel ∈ filterRequestedChannels (extractChannelsAndTemplatesFromWorkflow workflow).1
        job.channels → ⟨channel, reason⟩ ∈ prepared.skippedChannels) := by
  rcases h.bind_inv with ⟨e, -, ⟨⟩⟩ | ⟨d, tr₁, tr₂, rfl, h₁, h₂⟩
  obtain ⟨-, he⟩ := path_ret h₂
  cases he
  unfold prepareWorkflowDelivery at h₁
  split at h₁
  · exact absurd (path_fail h₁).2 (by simp)
  · obtain ⟨hch, -, hskip⟩ := prepareChannels_path hoff h₁ (by simp)
    exact ⟨hch, hskip⟩

/-! ### Requests that rewrite no subscriber -/

/-- A request whose "to" brings nothing to update. -/
def WithoutUpdates (job : NotificationJob) : Prop :=
  ∀ target ∈ job.toSubscriber, hasUpdates target = false

/-- A request without an update of its subscriber updates none. -/
theorem calls_prepareJob {job : NotificationJob} (h : WithoutUpdates job) :
    Calls NoUpdate (prepareJob s job) := by
  unfold prepareJob
  rcases ht : job.toSubscriber with - | target
  · exact calls_prepareResolved s _
  · refine Calls.bind ?_ (calls_prepareResolved s)
    refine Calls.bind ?_ fun _ => calls_ret _
    unfold resolveSubscriberFromTo
    split
    · exact calls_fail _
    · dsimp only
      split
      · exact calls_createSubscriberFromTo ..
      · split
        · exact calls_fail _
        · rw [orCreate_findOrUpdateSubscriber]
          refine ⟨True.intro, ?_⟩
          rintro (e | sub)
          · cases e <;> first | exact calls_createSubscriberFromTo .. | exact calls_fail _
          · dsimp only
            rw [h target ht, if_neg Bool.false_ne_true]
            exact calls_ret _

/-- The workflow send a prepared job with a subscriber and a workflow comes from. -/
theorem prepareJob_path {job prepared : NotificationJob} {tr}
    (h : Path (prepareJob s job) tr (.ok prepared)) (hwf : trimSpace job.workflowID ≠ "")
    (hsub : prepared.subscriberID ≠ "") :
    ∃ job' tr' tr'', tr = tr' ++ tr'' ∧ Path (prepareWorkflowJob s job') tr'' (.ok prepared) ∧
      job'.isSystemUser = job.isSystemUser ∧ job'.channels = job.channels ∧
      job'.workflowID = trimSpace job.workflowID := by
  have hresolved : ∀ job' tr'', Path (prepareResolved s job') tr'' (.ok prepared) →
      job'.workflowID = trimSpace job.workflowID →
      Path (prepareWorkflowJob s job') tr'' (.ok prepared) := by
    intro job' tr'' h' hwf'
    unfold prepareResolved at h'
    split at h'
    · split at h'
      · exact absurd (path_fail h').2 (by simp)
      · exact h'
    · next hdirect =>
      -- a direct send keeps the missing subscriber
      rw [hwf'] at hdirect
      have hempty : job'.subscriberID = "" := by
        by_contra hne
        exact hdirect ⟨hwf, hne⟩
      rcases hd : prepareDirectJob job' with e | prepared'
      · rw [hd] at h'
        exact absurd (path_fail h').2 (by simp)
      · rw [hd] at h'
        obtain ⟨-, ⟨⟩⟩ := path_ret h'
        refine absurd ?_ hsub
        unfold prepareDirectJob at hd
        split at hd
        · cases hd
        · dsimp only at hd
          split at hd
          · cases hd
          · rcases hv : validateRecipientForChannels job'.recipient
                (normalizeChannels (job'.channels.getD [])) with e | u
            · rw [hv] at hd
              cases hd
            · rw [hv] at hd
              cases hd
              exact hempty
  unfold prepareJob at h
  rcases ht : job.toSubscriber with - | target
  · rw [ht] at h
    exact ⟨trimJob job, [], tr, rfl, hresolved _ _ h rfl, rfl, rfl, rfl⟩
  · rw [ht] at h
    rcases h.bind_inv with ⟨e, -, ⟨⟩⟩ | ⟨job', tr₁, tr₂, rfl, h₁, h₂⟩
    rcases h₁.bind_inv with ⟨e, -, ⟨⟩⟩ | ⟨sub, tr₃, tr₄, rfl, h₃, h₄⟩
    obtain ⟨rfl, he⟩ := path_ret h₄
    cases he
    exact ⟨_, _, tr₂, rfl, hresolved _ _ h₂ rfl, rfl, rfl, rfl⟩

/-! ### Preferences -/

/-- Two rows that differ in the preferences at most. -/
def SameButPreferences (r r' : Db.Subscriber) : Prop :=
  ∃ preferences, r' = { r with preferences := preferences }

/-- Corresponding calls of two runs of `PrepareJob`. -/
def SameCall : Op → Op → Prop
  | .getSubscriberByID id environmentID, .getSubscriberByID id' environmentID' =>
      id = id' ∧ environmentID = environmentID'
  | .createSubscriber arg, .createSubscriber arg' => arg = arg'
  | .updateSubscriber arg, .updateSubscriber arg' =>
      ∃ preferences, arg' = { arg with preferences := preferences }
  | .getWorkflowByID id environmentID, .getWorkflowByID id' environmentID' =>
      id = id' ∧ environmentID = environmentID'
  | .getTemplateByID id environmentID, .getTemplateByID id' environmentID' =>
      id = id' ∧ environmentID = environmentID'
  | .getUserByID id, .getUserByID id' => id = id'
  | .newUUID, .newUUID => True
  | _, _ => False

/-- Corresponding answers. -/
def SameAnswer : (op op' : Op) → op.Res → op'.Res → Prop
  | .getSubscriberByID _ _, .getSubscriberByID _ _, r, r' => SameButPreferences r r'
  | .createSubscriber _, .createSubscriber _, r, r' => SameButPreferences r r'
  | .updateSubscriber _, .updateSubscriber _, r, r' => SameButPreferences r r'
  | .getWorkflowByID _ _, .getWorkflowByID _ _, r, r' => r = r'
  | .getTemplateByID _ _, .getTemplateByID _ _, r, r' => r = r'
  | .getUserByID _, .getUserByID _, r, r' => r = r'
  | .newUUID, .newUUID, id, id' => id = id'
  | _, _, _, _ => False

theorem Delivery.add_preferences (workflow : WorkflowRecord) (sub : Db.Subscriber)
    (preferences : Option Json) (vars : List (String × Json)) (channel : String)
    (template : Template) (d : Delivery) :
    d.add s workflow { sub with preferences := preferences } vars channel template
      = d.add s workflow sub vars channel template := by
  have hrecipient : appendRecipientChannel d.recipient { sub with preferences := preferences }
      channel = appendRecipientChannel d.recipient sub channel := by
    simp only [appendRecipientChannel]
  rw [Delivery.add, Delivery.add, hrecipient]

/-- Preparing for a subscriber does not look at the preferences. -/
theorem prepareForSubscriber_preferences (projectID : UUID) (workflow : WorkflowRecord)
    (sub : Db.Subscriber) (preferences : Option Json) (job : NotificationJob) :
    prepareForSubscriber s projectID workflow { sub with preferences := preferences } job
      = prepareForSubscriber s projectID workflow sub job := by
  have hchannels : ∀ workflow templateIDs vars channels d,
      prepareChannels s projectID workflow { sub with preferences := preferences } templateIDs
        vars channels d
        = prepareChannels s projectID workflow sub templateIDs vars channels d := by
    intro workflow templateIDs vars channels
    induction channels with
    | nil => exact fun _ => rfl
    | cons channel rest ih =>
        intro d
        have hone : prepareChannel s projectID workflow { sub with preferences := preferences }
            templateIDs vars channel d
              = prepareChannel s projectID workflow sub templateIDs vars channel d := by
          simp only [prepareChannel, Delivery.add_preferences]
        rw [prepareChannels, prepareChannels, hone, funext ih]
  have hdelivery : ∀ workflow, prepareWorkflowDelivery s projectID workflow
      { sub with preferences := preferences } job
        = prepareWorkflowDelivery s projectID workflow sub job := by
    intro workflow
    unfold prepareWorkflowDelivery
    split
    · rfl
    · exact hchannels ..
  unfold prepareForSubscriber
  dsimp only
  rw [hdelivery]
  rfl

theorem lockstep_fetch {op op' : Op} {missing : String} (h : SameCall op op') :
    Lockstep SameCall SameAnswer (SameAnswer op op') (fetch op missing) (fetch op' missing) := by
  refine .call h (fun _ _ hu => .ret hu) fun e => ?_
  cases e <;> exact .fail _

/-- A subscriber with other preferences is treated alike. -/
theorem lockstep_prepareForSubscriber (projectID : UUID) (workflow : WorkflowRecord)
    {sub sub' : Db.Subscriber} (h : SameButPreferences sub sub') (job : NotificationJob) :
    Lockstep SameCall SameAnswer Eq (prepareForSubscriber s projectID workflow sub job)
      (prepareForSubscriber s projectID workflow sub' job) := by
  obtain ⟨preferences, rfl⟩ := h
  rw [prepareForSubscriber_preferences (s := s) projectID workflow sub preferences job]
  refine Lockstep.refl (P := fun op => ∃ id environmentID, op = .getTemplateByID id environmentID)
    (calls_prepareForSubscriber (fun id environmentID => ⟨id, environmentID, rfl⟩) job) ?_ ?_
  · rintro op ⟨id, environmentID, rfl⟩
    exact ⟨rfl, rfl⟩
  · rintro op a b ⟨id, environmentID, rfl⟩ h
    exact h

/-- Neither does the preparation. -/
theorem lockstep_prepareResolved (job : NotificationJob) :
    Lockstep SameCall SameAnswer Eq (prepareResolved s job) (prepareResolved s job) := by
  unfold prepareResolved
  split
  · split
    · exact .fail _
    · unfold prepareWorkflowJob
      split
      · exact .fail _
      · refine (lockstep_fetch (show SameCall (.getWorkflowByID _ _)
          (.getWorkflowByID _ _) from ⟨rfl, rfl⟩)).bind ?_
        rintro workflow _ ⟨⟩
        refine Lockstep.bind (V := fun a b : Db.Subscriber × NotificationJob =>
          SameButPreferences a.1 b.1 ∧ a.2 = b.2) ?_ ?_
        · unfold resolveWorkflowSubscriber
          split
          · split
            · exact .fail _
            · split
              · exact .fail _
              · refine (lockstep_fetch (show SameCall (.getUserByID _) (.getUserByID _)
                  from rfl)).bind ?_
                rintro user _ ⟨⟩
                exact .ret ⟨⟨_, rfl⟩, rfl⟩
          · refine (lockstep_fetch (show SameCall (.getSubscriberByID _ _)
              (.getSubscriberByID _ _) from ⟨rfl, rfl⟩)).bind ?_
            intro sub sub' hsub
            exact .ret ⟨hsub, rfl⟩
        · rintro ⟨sub, job'⟩ ⟨sub', _⟩ ⟨hsub, ⟨⟩⟩
          exact lockstep_prepareForSubscriber _ workflow hsub job'
  · exact lockstep_ofExcept (agree_refl _)

theorem sendTimeUpdate_preferences (target : SubscriberTo) (name : String)
    (sub : Db.Subscriber) (preferences : Option Json) :
    sendTimeUpdate target name { sub with preferences := preferences }
      = { sendTimeUpdate target name sub with preferences := preferences } := by
  simp only [sendTimeUpdate]

/-- `resolveSubscriberFromTo` does not look at preferences. -/
theorem lockstep_resolveSubscriberFromTo (projectID : String) (target : SubscriberTo)
    (workflowName : String) :
    Lockstep SameCall SameAnswer SameButPreferences
      (resolveSubscriberFromTo projectID target workflowName)
      (resolveSubscriberFromTo projectID target workflowName) := by
  -- a row that is created has no preferences yet
  have hcreate : ∀ projectID name, Lockstep SameCall SameAnswer SameButPreferences
      (createSubscriberFromTo projectID target name)
      (createSubscriberFromTo projectID target name) := by
    intro projectID name
    refine (lockstep_perform (show SameCall .newUUID .newUUID from True.intro)).bind ?_
    rintro id _ ⟨⟩
    exact lockstep_perform (show SameCall (.createSubscriber _) (.createSubscriber _) from rfl)
  unfold resolveSubscriberFromTo
  split
  · exact .fail _
  · dsimp only
    split
    · exact hcreate ..
    · split
      · exact .fail _
      · rw [orCreate_findOrUpdateSubscriber]
        have herror : ∀ projectID name (e : GoError),
            Lockstep SameCall SameAnswer SameButPreferences
              (orCreate (createSubscriberFromTo projectID target name) (fail e))
              (orCreate (createSubscriberFromTo projectID target name) (fail e)) := by
          intro projectID name e
          cases e <;> first | exact hcreate .. | exact .fail _
        refine .call ⟨rfl, rfl⟩ ?_ (herror _ _)
        rintro sub _ ⟨preferences, rfl⟩
        dsimp only
        split
        · -- the UPDATE writes them back as they were read
          refine .call ⟨preferences, sendTimeUpdate_preferences target _ sub preferences⟩ ?_ ?_
          · exact fun _ _ h => .ret h
          · exact herror _ _
        · exact .ret ⟨preferences, rfl⟩

/-- `PrepareJob` is in lockstep with itself. -/
theorem lockstep_prepareJob (job : NotificationJob) :
    Lockstep SameCall SameAnswer Eq (prepareJob s job) (prepareJob s job) := by
  unfold prepareJob
  split
  · exact lockstep_prepareResolved _
  · refine Lockstep.bind (V := Eq) ?_ ?_
    · refine (lockstep_resolveSubscriberFromTo ..).bind ?_
      rintro sub _ ⟨preferences, rfl⟩
      exact .ret rfl
    · rintro prepared _ ⟨⟩
      exact lockstep_prepareResolved _

/-- Two databases that differ in the preferences of subscribers at most. -/
def SameWorld (w w' : World) : Prop :=
  ∃ subscribers, w' = { w with subscribers := subscribers } ∧
    ∀ x, Option.Rel SameButPreferences (w.subscribers.get x) (subscribers.get x)

/-- The same row is written to both tables, preferences apart. -/
theorem sameWorld_set {w : World} {subscribers : Table Subscriber.id}
    (h : ∀ x, Option.Rel SameButPreferences (w.subscribers.get x) (subscribers.get x))
    {r r' : Db.Subscriber} (hr : SameButPreferences r r') :
    SameWorld { w with subscribers := w.subscribers.set r }
      { w with subscribers := subscribers.set r' } := by
  refine ⟨_, rfl, fun x => ?_⟩
  have hid : r'.id = r.id := by
    obtain ⟨preferences, rfl⟩ := hr
    rfl
  by_cases hx : x = r.id
  · rw [Table.get_set_of_eq hx.symm, Table.get_set_of_eq (hid.trans hx.symm)]
    exact .some hr
  · rw [Table.get_set_of_ne hx, Table.get_set_of_ne (fun he => hx (he.trans hid))]
    exact h x

/-- The statements of `PrepareJob` on two such databases. -/
theorem answer_sameWorld {op op' : Op} (hop : SameCall op op') {w w' : World}
    (h : SameWorld w w') :
    Agree (SameAnswer op op') (World.answer op w).1 (World.answer op' w').1 ∧
      SameWorld (World.answer op w).2 (World.answer op' w').2 := by
  have hw := h
  obtain ⟨subscribers, rfl, hrel⟩ := h
  unfold SameCall at hop
  split at hop
  -- the query of a subscriber
  · obtain ⟨rfl, rfl⟩ := hop
    next id environmentID =>
    refine ⟨?_, hw⟩
    have hx := hrel id
    simp only [World.answer]
    generalize w.subscribers.get id = o at hx ⊢
    generalize subscribers.get id = o' at hx ⊢
    cases hx with
    | none => rfl
    | some hr =>
        have hsame := hr
        obtain ⟨preferences, rfl⟩ := hr
        simp only [Option.filter_some]
        split
        · exact hsame
        · rfl
  -- the INSERT: the id is taken in both tables or in neither
  · cases hop
    next arg =>
    have hx := hrel arg.id
    simp only [World.answer]
    rcases hg : w.subscribers.get arg.id with - | r <;>
      rcases hg' : subscribers.get arg.id with - | r' <;> rw [hg, hg'] at hx
    · dsimp only
      split
      · exact ⟨⟨_, rfl⟩, sameWorld_set hrel ⟨_, rfl⟩⟩
      · exact ⟨rfl, hw⟩
    · cases hx
    · cases hx
    · exact ⟨rfl, hw⟩
  -- the UPDATE, which may itself write other preferences
  · obtain ⟨preferences, rfl⟩ := hop
    next arg =>
    have hx := hrel arg.id
    have hcontact : hasContact { arg with preferences := preferences } = hasContact arg := rfl
    have hwritten : SameButPreferences (writtenSubscriber arg)
        (writtenSubscriber { arg with preferences := preferences }) := ⟨preferences, rfl⟩
    have hfilter : Option.Rel SameButPreferences
        ((w.subscribers.get arg.id).filter fun r =>
          r.environmentID == arg.environmentID && r.deletedAt.isNone)
        ((subscribers.get arg.id).filter fun r =>
          r.environmentID == arg.environmentID && r.deletedAt.isNone) := by
      generalize w.subscribers.get arg.id = o at hx ⊢
      generalize subscribers.get arg.id = o' at hx ⊢
      cases hx with
      | none => exact .none
      | some hr =>
          have hsame := hr
          obtain ⟨preferences', rfl⟩ := hr
          simp only [Option.filter_some]
          split
          · exact .some hsame
          · exact .none
    simp only [World.answer, hcontact]
    generalize (w.subscribers.get arg.id).filter _ = o at hfilter ⊢
    generalize (subscribers.get arg.id).filter _ = o' at hfilter ⊢
    cases hfilter with
    | none => exact ⟨rfl, hw⟩
    | some =>
        dsimp only
        split
        · exact ⟨hwritten, sameWorld_set hrel hwritten⟩
        · exact ⟨rfl, hw⟩
  -- the other statements do not read subscribers
  · obtain ⟨rfl, rfl⟩ := hop
    refine ⟨?_, hw⟩
    exact agree_refl _
  · obtain ⟨rfl, rfl⟩ := hop
    refine ⟨?_, hw⟩
    exact agree_refl _
  · cases hop
    refine ⟨?_, hw⟩
    exact agree_refl _
  · refine ⟨rfl, hw⟩
  · exact hop.elim

/-- The database with other preferences. -/
def withPreferences (preferences : UUID → Option Json) (w : World) : World :=
  { w with subscribers :=
      w.subscribers.map (fun r => { r with preferences := preferences r.id }) fun _ => rfl }

theorem sameWorld_withPreferences (preferences : UUID → Option Json) (w : World) :
    SameWorld w (withPreferences preferences w) := by
  refine ⟨_, rfl, fun x => ?_⟩
  show Option.Rel _ _ ((w.subscribers.get x).map _)
  rcases w.subscribers.get x with - | r
  · exact .none
  · exact .some ⟨_, rfl⟩

/-- A call fails if the other may. -/
theorem sameCall_fallible {op op' : Op} (h : SameCall op op') :
    (op = .newUUID ∧ op' = .newUUID) ∨ (op.fallible = true ∧ op'.fallible = true) := by
  unfold SameCall at h
  split at h
  · exact Or.inr ⟨rfl, rfl⟩
  · exact Or.inr ⟨rfl, rfl⟩
  · exact Or.inr ⟨rfl, rfl⟩
  · exact Or.inr ⟨rfl, rfl⟩
  · exact Or.inr ⟨rfl, rfl⟩
  · exact Or.inr ⟨rfl, rfl⟩
  · exact Or.inl ⟨rfl, rfl⟩
  · exact h.elim

/-- The preferences do not matter. -/
theorem prepareJob_withPreferences (s : Service) (c : Circumstances) (w : World)
    (job : NotificationJob) (preferences : UUID → Option Json) :
    (c.run (prepareJob s job) (withPreferences preferences w)).2.1
      = (c.run (prepareJob s job) w).2.1 := by
  let R (s s' : World × ℕ) : Prop := SameWorld s.1 s'.1 ∧ s.2 = s'.2
  have hstart : R (w, 0) (withPreferences preferences w, 0) :=
    ⟨sameWorld_withPreferences preferences w, rfl⟩
  have hanswer : ∀ op op' s s', SameCall op op' → R s s' →
      Agree (SameAnswer op op') (c.answer op s).1 (c.answer op' s').1 ∧
        R (c.answer op s).2 (c.answer op' s').2 := by
    intro op op' s₁ s₂ hop hs
    rcases sameCall_fallible hop with ⟨rfl, rfl⟩ | ⟨h₁, h₂⟩
    · exact ⟨congrArg c.uuid hs.2, hs.1, congrArg (· + 1) hs.2⟩
    · exact c.agree_answer h₁ h₂ hs (answer_sameWorld hop hs.1)
  exact ((lockstep_prepareJob job).drive hanswer hstart).1.eq.symm

/-! ### What is enforced -/

/-- The reason a channel is skipped for its status. -/
theorem skipReason_of_optedOut {channel : String} {row : Db.Subscriber}
    (h : OptedOut channel row) :
    skipReasonForSubscriberChannel channel (parseSubscriberChannelStatus row.status)
      = some (if storedStatus channel row = "unsubscribed" then
          "subscriber is unsubscribed for this channel"
        else "subscriber is bounced for this channel") := by
  rcases h with h | h
  · have h' : channelStatus channel (parseSubscriberChannelStatus row.status)
        = "unsubscribed" := h
    rw [skipReasonForSubscriberChannel, if_pos h', if_pos h]
  · have h' : channelStatus channel (parseSubscriberChannelStatus row.status) = "bounced" := h
    have hne : ¬ ("bounced" : String) = "unsubscribed" := by decide
    rw [skipReasonForSubscriberChannel, h', h, if_neg hne, if_neg hne, if_pos rfl]

/-- **What `PrepareJob` enforces.**  A channel whose stored status is 'unsubscribed'
or 'bounced' is never among the channels of a workflow send to that subscriber; if
the workflow has it and the request does not leave it out, it is skipped with its
reason.  The stored preferences have no influence on any send. -/
theorem optOut_enforced (s : Service) (c : Circumstances) (w : World) (job : NotificationJob) :
    (∀ x row channel prepared, w.subscribers.get x = some row → OptedOut channel row →
      trimSpace job.workflowID ≠ "" → job.isSystemUser = false → WithoutUpdates job →
      (c.run (prepareJob s job) w).2.1 = .ok prepared →
      UUID.parse prepared.subscriberID = some x →
      channel ∉ prepared.channels.getD [] ∧
      ∀ workflowID workflow, UUID.parse (trimSpace job.workflowID) = some workflowID →
        w.workflows.get workflowID = some workflow →
        channel ∈ filterRequestedChannels (extractChannelsAndTemplatesFromWorkflow workflow).1
          job.channels →
        ⟨channel, if storedStatus channel row = "unsubscribed" then
          "subscriber is unsubscribed for this channel"
          else "subscriber is bounced for this channel"⟩ ∈ prepared.skippedChannels) ∧
    ∀ preferences, (c.run (prepareJob s job) (withPreferences preferences w)).2.1
      = (c.run (prepareJob s job) w).2.1 := by
  refine ⟨?_, fun preferences => prepareJob_withPreferences s c w job preferences⟩
  intro x row channel prepared hrow hout hwf hsys hto hrun hsub
  have hpath := path_drive c.answer (prepareJob s job) (w, 0)
  have hout' : ((prepareJob s job).drive c.answer (w, 0)).2.1 = .ok prepared := hrun
  rw [hout'] at hpath
  have hne : prepared.subscriberID ≠ "" := by
    intro he
    rw [he] at hsub
    cases hsub
  obtain ⟨job', tr', tr'', htr, hjob, hsys', hch', hwf'⟩ := prepareJob_path hpath hwf hne
  obtain ⟨ids, workflow, sub, tr₃, hids, hworkflow, hsubscriber, hfor⟩ :=
    prepareWorkflowJob_path hjob (hsys'.trans hsys)
  -- what the rows were when they were read
  let I : World × ℕ → Prop := fun s => s.1.subscribers.get x = some row ∧
    s.1.workflows.get = w.workflows.get
  have hI : ∀ op s, NoUpdate op → I s → I (c.answer op s).2 := by
    rintro op s hop ⟨hget, hwfs⟩
    rcases c.answer_world op s with he | he
    · exact ⟨by rw [he, hget], by rw [he, hwfs]⟩
    · refine ⟨by rw [he, answer_noUpdate_get hop hget], ?_⟩
      rw [he, (World.answer_directory op s.1).1, hwfs]
  have hread : ∀ a ∈ tr'', ∃ s, I s ∧ a.2 = (c.answer a.1 s).1 := by
    intro a ha
    refine Calls.mem_drive (w := (w, 0)) hI (calls_prepareJob (s := s) hto) ⟨hrow, rfl⟩ ?_
    rw [htr]
    exact List.mem_append_right _ ha
  have hid : ids.subscriberID = x ∧
      UUID.parse (trimSpace job.workflowID) = some ids.workflowID := by
    obtain ⟨hsubid, hworkflowid⟩ := parseWorkflowJobIDs_ok hids
    have hprepared := (prepareForSubscriber_subscriberID hfor)
    rw [hprepared, hsubid] at hsub
    rw [hwf'] at hworkflowid
    exact ⟨Option.some.inj hsub, hworkflowid⟩
  have hrow' : sub = row := by
    obtain ⟨st, ⟨hget, -⟩, hans⟩ := hread _ hsubscriber
    have hok := orNoRows_ok (c.answer_ok rfl hans.symm)
    have hsome := (Option.filter_eq_some_iff.mp hok).1
    rw [hid.1, hget] at hsome
    exact (Option.some.inj hsome).symm
  subst hrow'
  obtain ⟨hnot, hskip⟩ := prepareForSubscriber_path (skipReason_of_optedOut hout) hfor
  refine ⟨hnot, ?_⟩
  intro workflowID workflow' hparse hget' hmem
  have hworkflow' : workflow = workflow' := by
    obtain ⟨st, ⟨-, hwfs⟩, hans⟩ := hread _ hworkflow
    have hok := orNoRows_ok (c.answer_ok rfl hans.symm)
    have hsome := (Option.filter_eq_some_iff.mp hok).1
    rw [hwfs] at hsome
    rw [hid.2] at hparse
    cases hparse
    rw [hget'] at hsome
    exact (Option.some.inj hsome).symm
  subst hworkflow'
  rw [hch'] at hskip
  exact hskip hmem

/-! ### A workflow send by e-mail -/

namespace Sample

def template : Template where
  id := UUID.ofDigit 4
  environmentID := UUID.ofDigit 2
  channel := "email"
  subject := some "Welcome"
  body := "Hello"
  isActive := true

def workflow : WorkflowRecord where
  id := UUID.ofDigit 3
  environmentID := UUID.ofDigit 2
  status := .active
  triggerEvent := none
  definitionJson := none
  name := "Welcome"
  key := "welcome"
  channels := ["email"]
  templateIDs := some (.obj [("email", .str (UUID.ofDigit 4).toString)])

/-- The preferences the dashboard writes when every channel but SMS is switched off. -/
def onlySms : Json :=
  .obj [("global", .obj [("channels", .arr [.str "sms"])])]

/-- A database with one subscriber, one workflow and one template. -/
def world (subscriber : Db.Subscriber) : World where
  subscribers := (Table.empty _).set subscriber
  workflows := (Table.empty _).set workflow
  templates := (Table.empty _).set template
  users := Table.empty _
  notifications := []
  deliveryAttempts := []
  integrations := []

/-- A subscriber who wants SMS only, by her preferences. -/
def smsOnly : Db.Subscriber :=
  { Subscriber.Sample.ada with
    status := some (.obj [("email", .str "subscribed")])
    preferences := some onlySms }

def request : NotificationJob where
  jobID := ""
  projectID := (UUID.ofDigit 2).toString
  workflowID := (UUID.ofDigit 3).toString
  subscriberID := (UUID.ofDigit 1).toString

/-- What `PrepareJob` makes of the request. -/
def prepared (subscriber : Db.Subscriber) : Except GoError NotificationJob :=
  (Circumstances.run {} (prepareJob Subscriber.Sample.service request) (world subscriber)).2.1

end Sample

/-- Ada does not want e-mail, and gets none. -/
theorem optOut_enforced_ada : ∃ prepared, Sample.prepared Subscriber.Sample.ada = .ok prepared ∧
    "email" ∉ prepared.channels.getD [] := by
  have hprepared : (Sample.prepared Subscriber.Sample.ada).toOption.map
      (fun p => UUID.parse p.subscriberID) = some (some (UUID.ofDigit 1)) := by decide +kernel
  rcases hp : Sample.prepared Subscriber.Sample.ada with e | prepared
  · rw [hp] at hprepared
    cases hprepared
  · rw [hp] at hprepared
    have hid : UUID.parse prepared.subscriberID = some (UUID.ofDigit 1) :=
      Option.some.inj hprepared
    have henforced := (optOut_enforced Subscriber.Sample.service {} (Sample.world
      Subscriber.Sample.ada) Sample.request).1 (UUID.ofDigit 1) Subscriber.Sample.ada "email"
      prepared rfl (Or.inl (by decide)) (by decide +kernel) rfl (by rintro _ ⟨⟩) hp hid
    exact ⟨prepared, rfl, henforced.1⟩

/-- Preferences without e-mail, and a send by e-mail. -/
theorem sent_against_preferences : Sample.smsOnly.preferences = some Sample.onlySms ∧
    (Sample.prepared Sample.smsOnly).toOption.map (fun p => (p.subscriberID, p.channels))
      = some (Sample.smsOnly.id.toString, some ["email"]) :=
  ⟨rfl, by decide +kernel⟩

end Iwifunni.Notification
