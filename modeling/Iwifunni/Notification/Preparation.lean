/-
Iwifunni/Notification/Preparation.lean

Where the channels of a workflow send go.

The loop of `prepareWorkflowDelivery` has seven ways out of a round, and writes to four
places.  Seen from outside there are two kinds of rounds: a channel is skipped,

    channels, content, recipient as they were      one more skipped channel

or it is going to be delivered,

    one more channel, its content and its target   skipped as it was

`Accounts` is what all four places say about the channels of the rounds so far.
-/
import Iwifunni.Go.Trim
import Iwifunni.Notification.Compliance

namespace Iwifunni.Notification

open Go Db Effect Effect.Prog Store

/-! ### What a prepared channel has -/

/-- The channels a template may have: the check on `templates.channel`. -/
def templateChannels : List String := ["email", "sms", "push"]

/-- The recipient has a target for the channel, and it is not blank. -/
def HasTarget (recipient : Recipient) (channel : String) : Prop :=
  if channel = "email" then trimSpace recipient.email ≠ ""
  else if channel = "sms" then trimSpace recipient.phoneNumber ≠ ""
  else if channel = "push" then ∃ token ∈ recipient.pushTokens, trimSpace token ≠ ""
  else False

/-- The subscriber is neither unsubscribed from the channel, nor does mail to it bounce. -/
def MayReach (subscriber : Subscriber) (channel : String) : Prop :=
  channelStatus channel (parseSubscriberChannelStatus subscriber.status) ≠ "unsubscribed" ∧
    channelStatus channel (parseSubscriberChannelStatus subscriber.status) ≠ "bounced"

section Accounts

variable {s : Service} {projectID : UUID} {workflow : WorkflowRecord} {subscriber : Subscriber}
  {templateIDs : List (String × String)} {vars : List (String × Json)} {channel : String}
  {d d' : Delivery} {done : List String} {log tr : List (Answered Op.Res GoError)}

/-- The template linked to the channel has been read: it is active and made for just
this channel. -/
def ReadsTemplate (log : List (Answered Op.Res GoError)) (projectID : UUID)
    (templateIDs : List (String × String)) (channel : String) : Prop :=
  ∃ id template, UUID.parse (trimSpace ((Json.lookup templateIDs channel).getD "")) = some id ∧
    ⟨.getTemplateByID id projectID, .ok template⟩ ∈ log ∧ template.isActive = true ∧
    template.channel = channel

theorem ReadsTemplate.mono (h : ReadsTemplate tr projectID templateIDs channel)
    (hlog : ∀ c ∈ tr, c ∈ log) : ReadsTemplate log projectID templateIDs channel := by
  obtain ⟨id, template, hid, hread, htemplate⟩ := h
  exact ⟨id, template, hid, hlog _ hread, htemplate⟩

/-- The channels looked at so far: each is in one of two lists, and the others places know
of those that are going to be delivered. -/
structure Accounts (log : List (Answered Op.Res GoError)) (projectID : UUID)
    (templateIDs : List (String × String)) (subscriber : Subscriber) (done : List String)
    (d : Delivery) : Prop where
  once : (d.channels ++ d.skipped.map SkippedChannel.channel).Perm done
  channelsInOrder : d.channels.Sublist done
  skippedInOrder : (d.skipped.map SkippedChannel.channel).Sublist done
  content : ∀ channel, channel ∈ d.channels ↔ channel ∈ d.content.map Prod.fst
  target : ∀ channel, channel ∈ d.channels ↔ HasTarget d.recipient channel
  reached : ∀ channel ∈ d.channels, MayReach subscriber channel
  template : ∀ channel ∈ d.channels, ReadsTemplate log projectID templateIDs channel

/-! ### One round -/

/-- A channel whose status gives no reason to skip it. -/
theorem mayReach_of_noReason (h : skipReasonForSubscriberChannel channel
    (parseSubscriberChannelStatus subscriber.status) = none) : MayReach subscriber channel := by
  unfold skipReasonForSubscriberChannel at h
  split at h
  · cases h
  · next hunsubscribed =>
    split at h
    · cases h
    · next hbounced => exact ⟨hunsubscribed, hbounced⟩

/-- What a round adds for a channel that is going to be delivered. -/
structure Adds (log : List (Answered Op.Res GoError)) (projectID : UUID)
    (templateIDs : List (String × String)) (subscriber : Subscriber) (channel : String)
    (d d' : Delivery) : Prop where
  channels : d'.channels = d.channels ++ [channel]
  skipped : d'.skipped = d.skipped
  content : ∃ content, d'.content = Json.insert d.content channel content
  recipient : appendRecipientChannel d.recipient subscriber channel = .ok d'.recipient
  reached : MayReach subscriber channel
  template : ReadsTemplate log projectID templateIDs channel

/-- Once there is a template, the channel is skipped or added. -/
theorem add_cases {template : Template}
    (h : d.add s workflow subscriber vars channel template = .ok d') :
    (∃ reason, d' = d.skip channel reason) ∨
    template.isActive = true ∧ template.channel = channel ∧
      d'.channels = d.channels ++ [channel] ∧ d'.skipped = d.skipped ∧
      (∃ content, d'.content = Json.insert d.content channel content) ∧
      appendRecipientChannel d.recipient subscriber channel = .ok d'.recipient := by
  unfold Delivery.add at h
  split at h
  · cases h
    exact Or.inl ⟨_, rfl⟩
  · next hactive =>
    split at h
    · cases h
      exact Or.inl ⟨_, rfl⟩
    · next hchannel =>
      split at h
      · cases h
        exact Or.inl ⟨_, rfl⟩
      · next recipient hrecipient =>
        split at h
        · cases h
        · cases h
          refine Or.inr ⟨?_, Decidable.not_not.mp hchannel, rfl, rfl, ⟨_, rfl⟩, hrecipient⟩
          simpa using hactive

/-- A round skips its channel, or adds it everywhere. -/
theorem prepareChannel_cases
    (h : Path (prepareChannel s projectID workflow subscriber templateIDs vars channel d) log
      (.ok d')) :
    (∃ reason, d' = d.skip channel reason) ∨
      Adds log projectID templateIDs subscriber channel d d' := by
  unfold prepareChannel at h
  split at h
  · obtain ⟨-, hd⟩ := path_ret h
    cases hd
    exact Or.inl ⟨_, rfl⟩
  · next hreason =>
    dsimp only at h
    split at h
    · obtain ⟨-, hd⟩ := path_ret h
      cases hd
      exact Or.inl ⟨_, rfl⟩
    · split at h
      · exact absurd h not_path_fail
      · next id hid =>
        -- the template is fetched: a missing one skips the channel, another failure stops it
        obtain ⟨r, tr', rfl, hrest⟩ := path_ask_bind h
        rcases r with e | template
        · cases e with
          | noRows =>
              obtain ⟨-, hd⟩ := path_ret hrest
              cases hd
              exact Or.inl ⟨_, rfl⟩
          | _ => exact absurd hrest not_path_fail
        · rcases hadd : d.add s workflow subscriber vars channel template with e | d₁
          · dsimp only at hrest
            rw [hadd] at hrest
            exact absurd hrest not_path_fail
          · dsimp only at hrest
            rw [hadd] at hrest
            obtain ⟨-, hd⟩ := path_ret hrest
            cases hd
            rcases add_cases hadd with hskip | ⟨hactive, hchannel, hchannels, hskipped, hcontent,
              hrecipient⟩
            · exact Or.inl hskip
            · exact Or.inr ⟨hchannels, hskipped, hcontent, hrecipient,
                mayReach_of_noReason hreason,
                ⟨id, template, hid, List.mem_cons_self .., hactive, hchannel⟩⟩

/-! ### The targets -/

/-- A round sets the target of its channel, and leaves the others. -/
theorem hasTarget_append {recipient recipient' : Recipient}
    (hchannel : channel ∈ templateChannels)
    (h : appendRecipientChannel recipient subscriber channel = .ok recipient') (name : String) :
    HasTarget recipient' name ↔ HasTarget recipient name ∨ name = channel := by
  have hcases : channel = "email" ∨ channel = "sms" ∨ channel = "push" := by
    simpa [templateChannels] using hchannel
  rcases hcases with rfl | rfl | rfl
  · simp only [appendRecipientChannel, if_true] at h
    split at h
    · cases h
    · next hne =>
      cases h
      by_cases hname : name = "email"
      · simp [HasTarget, hname, trimSpace_trimSpace, hne]
      · simp [HasTarget, hname]
  · simp only [appendRecipientChannel, if_true] at h
    rw [if_neg (by decide)] at h
    split at h
    · cases h
    · next hne =>
      cases h
      by_cases hname : name = "sms"
      · simp [HasTarget, hname, trimSpace_trimSpace, hne]
      · simp [HasTarget, hname]
  · simp only [appendRecipientChannel, if_true] at h
    rw [if_neg (by decide), if_neg (by decide)] at h
    split at h
    · cases h
    · next hne =>
      cases h
      by_cases hname : name = "push"
      · simp [HasTarget, hname, trimSpace_trimSpace, hne]
      · simp [HasTarget, hname]

/-- The keys of a map after one has been set. -/
theorem mem_keys_insert {α : Type} (fields : List (String × α)) (key name : String) (value : α) :
    name ∈ (Json.insert fields key value).map Prod.fst ↔
      name ∈ fields.map Prod.fst ∨ name = key := by
  by_cases hname : name = key
  · simp [Json.insert, hname]
  · simp [Json.insert, hname]

/-! ### The loop -/

/-- Before the first round there is nothing to account for. -/
theorem accounts_nil (reference : String) :
    Accounts log projectID templateIDs subscriber [] { recipient := { reference := reference } } where
  once := .refl _
  channelsInOrder := .refl _
  skippedInOrder := .refl _
  content _ := by simp
  target channel := by
    have hblank : trimSpace "" = "" := by decide
    simp [HasTarget, hblank]
  reached _ h := by cases h
  template _ h := by cases h

/-- A skipped channel. -/
theorem Accounts.skip (h : Accounts log projectID templateIDs subscriber done d)
    (channel reason : String) :
    Accounts log projectID templateIDs subscriber (done ++ [channel]) (d.skip channel reason) where
  once := by
    rw [Delivery.skip, List.map_append, ← List.append_assoc]
    exact h.once.append_right _
  channelsInOrder := h.channelsInOrder.trans (List.sublist_append_left ..)
  skippedInOrder := by
    rw [Delivery.skip, List.map_append]
    exact h.skippedInOrder.append (.refl _)
  content := h.content
  target := h.target
  reached := h.reached
  template := h.template

/-- A channel that is going to be delivered. -/
theorem Accounts.add (h : Accounts log projectID templateIDs subscriber done d)
    (hchannel : channel ∈ templateChannels)
    (hadds : Adds log projectID templateIDs subscriber channel d d') :
    Accounts log projectID templateIDs subscriber (done ++ [channel]) d' where
  once := by
    have hswap : (d.channels ++ [channel] ++ d.skipped.map SkippedChannel.channel).Perm
        (d.channels ++ d.skipped.map SkippedChannel.channel ++ [channel]) := by
      rw [List.append_assoc, List.append_assoc]
      exact List.perm_append_comm.append_left _
    rw [hadds.channels, hadds.skipped]
    exact hswap.trans (h.once.append_right _)
  channelsInOrder := by
    rw [hadds.channels]
    exact h.channelsInOrder.append (.refl _)
  skippedInOrder := by
    rw [hadds.skipped]
    exact h.skippedInOrder.trans (List.sublist_append_left ..)
  content name := by
    obtain ⟨content, hcontent⟩ := hadds.content
    rw [hadds.channels, hcontent, mem_keys_insert, ← h.content, List.mem_append,
      List.mem_singleton]
  target name := by
    rw [hadds.channels, hasTarget_append hchannel hadds.recipient, ← h.target, List.mem_append,
      List.mem_singleton]
  reached name hname := by
    rw [hadds.channels, List.mem_append, List.mem_singleton] at hname
    rcases hname with hname | rfl
    · exact h.reached name hname
    · exact hadds.reached
  template name hname := by
    rw [hadds.channels, List.mem_append, List.mem_singleton] at hname
    rcases hname with hname | rfl
    · exact h.template name hname
    · exact hadds.template

/-- A template that has been read is for one of three channels. -/
def Checked (log : List (Answered Op.Res GoError)) : Prop :=
  ∀ id environmentID template, ⟨.getTemplateByID id environmentID, .ok template⟩ ∈ log →
    template.channel ∈ templateChannels

/-- The loop accounts for the channels it goes through. -/
theorem Accounts.loop (hcheck : Checked log) (rest : List String)
    (h : Accounts log projectID templateIDs subscriber done d)
    (hpath : Path (prepareChannels s projectID workflow subscriber templateIDs vars rest d) tr
      (.ok d')) (hlog : ∀ c ∈ tr, c ∈ log) :
    Accounts log projectID templateIDs subscriber (done ++ rest) d' := by
  induction rest generalizing done d tr with
  | nil =>
      obtain ⟨-, hd⟩ := path_ret hpath
      cases hd
      rw [List.append_nil]
      exact h
  | cons channel rest ih =>
      obtain ⟨d₁, tr₁, tr₂, rfl, h₁, h₂⟩ := path_bind_ok hpath
      have hlog₁ : ∀ c ∈ tr₁, c ∈ log := fun c hc => hlog c (List.mem_append_left _ hc)
      have hround : Accounts log projectID templateIDs subscriber (done ++ [channel]) d₁ := by
        rcases prepareChannel_cases h₁ with ⟨reason, rfl⟩ | hadds
        · exact h.skip channel reason
        · obtain ⟨id, template, -, hread, -, hchannel⟩ := hadds.template
          refine h.add (hchannel ▸ hcheck _ _ _ (hlog₁ _ hread)) ⟨hadds.channels, hadds.skipped,
            hadds.content, hadds.recipient, hadds.reached, hadds.template.mono hlog₁⟩
      rw [List.append_cons]
      exact ih hround h₂ fun c hc => hlog c (List.mem_append_right _ hc)

end Accounts

/-! ### The channels that are asked for -/

section Asked

variable {workflow : WorkflowRecord} {acc : List String × List (String × String)}

/-- A channel is appended where it is not there yet. -/
theorem nodup_addNodeChannels (config : Workflow.NotificationConfig) (h : acc.1.Nodup) :
    (addNodeChannels config acc).1.Nodup := by
  unfold addNodeChannels
  induction config.channels generalizing acc with
  | nil => exact h
  | cons channel rest ih =>
      rw [List.foldl_cons]
      apply ih
      dsimp only
      split
      · exact h
      · next hnew =>
        rw [List.nodup_append]
        refine ⟨h, by simp, ?_⟩
        rintro a ha b hb rfl
        exact hnew (List.mem_singleton.mp hb ▸ ha)

/-- The channels of a workflow are distinct if its columns are. -/
theorem nodup_extract (h : workflow.channels.Nodup) :
    (extractChannelsAndTemplatesFromWorkflow workflow).1.Nodup := by
  unfold extractChannelsAndTemplatesFromWorkflow
  dsimp only
  split
  · exact h
  · next nodes _ =>
    refine List.foldlRecOn nodes _
      (motive := fun acc : List String × List (String × String) => acc.1.Nodup) h
      fun acc hacc node _ => ?_
    split
    · split
      · exact nodup_addNodeChannels _ hacc
      · exact hacc
    · exact hacc

/-- The channels of a workflow that pass the filter. -/
def asked (workflow : WorkflowRecord) (requested : Option (List String)) : List String :=
  filterRequestedChannels (extractChannelsAndTemplatesFromWorkflow workflow).1 requested

theorem nodup_asked (requested : Option (List String)) (h : workflow.channels.Nodup) :
    (asked workflow requested).Nodup := by
  cases requested with
  | none => exact nodup_extract h
  | some channels => exact (nodup_extract h).filter _

/-- The template map the channels are looked up in. -/
def linkedTemplates (workflow : WorkflowRecord) : Except DecodeError (List (String × String)) :=
  let templateIDs := (extractChannelsAndTemplatesFromWorkflow workflow).2
  parseWorkflowTemplateIDs (if templateIDs.isEmpty then workflow.templateIDs
    else some (.obj (templateIDs.map fun f => (f.1, .str f.2))))

end Asked

/-! ### A prepared job -/

section Prepared

variable {s : Service} {projectID : UUID} {workflow : WorkflowRecord} {subscriber : Subscriber}
  {job job' prepared : NotificationJob} {log tr : List (Answered Op.Res GoError)}

/-- The subscriber that has been read, or what stands in for a user that has been. -/
def ReadsSubscriber (log : List (Answered Op.Res GoError)) (subscriber : Subscriber) : Prop :=
  (∃ id environmentID, ⟨.getSubscriberByID id environmentID, .ok subscriber⟩ ∈ log) ∨
    ∃ id user, ⟨.getUserByID id, .ok user⟩ ∈ log ∧ subscriber = userSubscriber user id

/-- Looking the subscriber up leaves the requested channels. -/
theorem resolveWorkflowSubscriber_path {ids : WorkflowJobIDs}
    (h : Path (resolveWorkflowSubscriber job ids) tr (.ok (subscriber, job'))) :
    ReadsSubscriber tr subscriber ∧ job'.channels = job.channels := by
  unfold resolveWorkflowSubscriber at h
  split at h
  · split at h
    · exact absurd h not_path_fail
    split at h
    · exact absurd h not_path_fail
    · next userID _ =>
      obtain ⟨user, tr₁, tr₂, rfl, h₁, h₂⟩ := path_bind_ok h
      obtain ⟨-, he⟩ := path_ret h₂
      cases he
      refine ⟨Or.inr ⟨userID, user, ?_, rfl⟩, rfl⟩
      rw [fetch_path h₁]
      simp
  · obtain ⟨sub, tr₁, tr₂, rfl, h₁, h₂⟩ := path_bind_ok h
    obtain ⟨-, he⟩ := path_ret h₂
    cases he
    refine ⟨Or.inl ⟨ids.subscriberID, ids.projectID, ?_⟩, rfl⟩
    rw [fetch_path h₁]
    exact List.mem_append_left _ (List.mem_singleton_self _)

/-- A prepared job accounts for the channels that were asked for, which are distinct. -/
structure Accounted (log : List (Answered Op.Res GoError)) (projectID : UUID)
    (workflow : WorkflowRecord) (subscriber : Subscriber) (requested : Option (List String))
    (prepared : NotificationJob) : Prop where
  distinct : (asked workflow requested).Nodup
  accounts : ∃ channels templateIDs, prepared.channels = some channels ∧
    linkedTemplates workflow = .ok templateIDs ∧
    Accounts log projectID templateIDs subscriber (asked workflow requested)
      ⟨channels, prepared.channelContent, prepared.skippedChannels, prepared.recipient⟩

/-- The loop accounts for the channels that were asked for. -/
theorem accounted_of_prepareForSubscriber (hnodup : workflow.channels.Nodup)
    (hcheck : Checked log)
    (h : Path (prepareForSubscriber s projectID workflow subscriber job) tr (.ok prepared))
    (hlog : ∀ c ∈ tr, c ∈ log) :
    Accounted log projectID workflow subscriber job.channels prepared := by
  obtain ⟨d, tr₁, tr₂, rfl, h₁, h₂⟩ := path_bind_ok h
  obtain ⟨-, he⟩ := path_ret h₂
  cases he
  refine ⟨nodup_asked _ hnodup, ?_⟩
  unfold prepareWorkflowDelivery at h₁
  split at h₁
  · exact absurd h₁ not_path_fail
  · next templateIDs hids =>
    refine ⟨d.channels, templateIDs, rfl, hids, ?_⟩
    have hloop := (accounts_nil subscriber.id.toString).loop hcheck _ h₁
      fun c hc => hlog c (List.mem_append_left _ hc)
    exact hloop

/-- **A workflow send accounts for every channel that was asked for exactly once**: it is
skipped, or it is delivered with content, a target and an active template of its own. -/
theorem prepareWorkflowJob_accounted (h : Path (prepareWorkflowJob s job) log (.ok prepared))
    (hnodup : ∀ id environmentID workflow,
      ⟨.getWorkflowByID id environmentID, .ok workflow⟩ ∈ log → workflow.channels.Nodup)
    (hcheck : Checked log) :
    ∃ ids workflow subscriber, parseWorkflowJobIDs job = .ok ids ∧
      ⟨.getWorkflowByID ids.workflowID ids.projectID, .ok workflow⟩ ∈ log ∧
      ReadsSubscriber log subscriber ∧
      Accounted log ids.projectID workflow subscriber job.channels prepared := by
  unfold prepareWorkflowJob at h
  rcases hids : parseWorkflowJobIDs job with e | ids
  · rw [hids] at h
    exact absurd h not_path_fail
  rw [hids] at h
  obtain ⟨workflow, tr₁, tr₂, rfl, h₁, h₂⟩ := path_bind_ok h
  obtain ⟨⟨subscriber, job'⟩, tr₃, tr₄, rfl, h₃, h₄⟩ := path_bind_ok h₂
  obtain ⟨hsubscriber, hchannels⟩ := resolveWorkflowSubscriber_path h₃
  have hworkflow : (⟨.getWorkflowByID ids.workflowID ids.projectID, .ok workflow⟩ :
      Answered Op.Res GoError) ∈ tr₁ ++ (tr₃ ++ tr₄) := by
    rw [fetch_path h₁]
    exact List.mem_append_left _ (List.mem_singleton_self _)
  refine ⟨ids, workflow, subscriber, rfl, hworkflow, ?_, ?_⟩
  · -- the subscriber is read in the middle of the log
    have hmiddle : ∀ c ∈ tr₃, c ∈ tr₁ ++ (tr₃ ++ tr₄) := fun c hc =>
      List.mem_append_right _ (List.mem_append_left _ hc)
    rcases hsubscriber with ⟨id, environmentID, hread⟩ | ⟨id, user, hread, he⟩
    · exact Or.inl ⟨id, environmentID, hmiddle _ hread⟩
    · exact Or.inr ⟨id, user, hmiddle _ hread, he⟩
  · rw [← hchannels]
    exact accounted_of_prepareForSubscriber (hnodup _ _ _ hworkflow) hcheck h₄ fun c hc =>
      List.mem_append_right _ (List.mem_append_right _ hc)

end Prepared

/-! ### A send by three channels -/

/-- What a driven program reads has been in the tables all the time. -/
theorem directory_of_mem_drive {α : Type} {p : Act α} {w : World} {c : Answered Op.Res GoError}
    (h : c ∈ (p.drive World.answer w).1) :
    ∃ w', w'.workflows = w.workflows ∧ w'.templates = w.templates ∧
      c.2 = (World.answer c.1 w').1 := by
  obtain ⟨w', ⟨hworkflows, htemplates⟩, hc⟩ := (calls_true p).mem_drive
    (I := fun w' => w'.workflows = w.workflows ∧ w'.templates = w.templates)
    (fun op w' _ hw' => by
      obtain ⟨hworkflows, htemplates, -⟩ := World.answer_directory op w'
      exact ⟨hworkflows.trans hw'.1, htemplates.trans hw'.2⟩) ⟨rfl, rfl⟩ h
  exact ⟨w', hworkflows, htemplates, hc⟩

namespace Sample

def smsTemplate : Template :=
  { template with id := UUID.ofDigit 5, channel := "sms", subject := none }

/-- A workflow for three channels, with templates for two of them. -/
def threeChannelWorkflow : WorkflowRecord :=
  { workflow with
    channels := ["email", "sms", "push"]
    templateIDs := some (.obj [("email", .str template.id.toString),
      ("sms", .str smsTemplate.id.toString)]) }

/-- A subscriber who can be reached by e-mail and by SMS. -/
def reachable : Db.Subscriber :=
  { Subscriber.Sample.ada with phone := some "+4915112345678", status := none }

def threeChannelWorld : World :=
  { world reachable with
    workflows := (Table.empty _).set threeChannelWorkflow
    templates := ((Table.empty _).set template).set smsTemplate }

def threeChannelRequest : NotificationJob :=
  { request with channels := some ["email", "push", "sms"] }

/-- The preparation of the request. -/
def preparation : List (Answered Op.Res GoError) × Except GoError NotificationJob × World :=
  (prepareWorkflowJob Subscriber.Sample.service threeChannelRequest).drive World.answer
    threeChannelWorld

end Sample

/-- Of three channels that are asked for, two are delivered and one is skipped. -/
theorem prepareWorkflowJob_accounted_threeChannels : ∃ log prepared,
    Path (prepareWorkflowJob Subscriber.Sample.service Sample.threeChannelRequest) log
      (.ok prepared) ∧
    prepared.channels = some ["email", "sms"] ∧
    prepared.skippedChannels.map (·.channel) = ["push"] ∧
    ∃ ids workflow subscriber, parseWorkflowJobIDs Sample.threeChannelRequest = .ok ids ∧
      ⟨.getWorkflowByID ids.workflowID ids.projectID, .ok workflow⟩ ∈ log ∧
      ReadsSubscriber log subscriber ∧
      Accounted log ids.projectID workflow subscriber Sample.threeChannelRequest.channels
        prepared := by
  have hpath : Path _ _ (Sample.preparation.2.1) := path_drive World.answer
    (prepareWorkflowJob Subscriber.Sample.service Sample.threeChannelRequest)
    Sample.threeChannelWorld
  have hok : Sample.preparation.2.1.toOption.map
      (fun p => (p.channels, p.skippedChannels.map (·.channel))) =
        some (some ["email", "sms"], ["push"]) := by
    decide +kernel
  rcases hout : Sample.preparation.2.1 with e | prepared
  · rw [hout] at hok
    cases hok
  rw [hout] at hok hpath
  obtain ⟨hchannels, hskipped⟩ := Prod.mk.inj (Option.some.inj hok)
  refine ⟨_, prepared, hpath, hchannels, hskipped, prepareWorkflowJob_accounted hpath ?_ ?_⟩
  · intro id environmentID workflow hread
    obtain ⟨w, hworkflows, -, hanswer⟩ := directory_of_mem_drive hread
    obtain ⟨hget, -⟩ := Option.filter_eq_some_iff.mp (orNoRows_ok hanswer.symm)
    rw [hworkflows] at hget
    rcases Table.get_set_eq_some hget with ⟨-, rfl⟩ | ⟨-, hnone⟩
    · decide
    · cases hnone
  · intro id environmentID template hread
    obtain ⟨w, -, htemplates, hanswer⟩ := directory_of_mem_drive hread
    obtain ⟨hget, -⟩ := Option.filter_eq_some_iff.mp (orNoRows_ok hanswer.symm)
    rw [htemplates] at hget
    -- it is one of the two templates
    rcases Table.get_set_eq_some hget with ⟨-, rfl⟩ | ⟨-, hold⟩
    · decide
    rcases Table.get_set_eq_some hold with ⟨-, rfl⟩ | ⟨-, hnone⟩
    · decide
    · cases hnone

end Iwifunni.Notification
