/-
Iwifunni/Notification/Attempts.lean

What a delivery leaves in `delivery_attempts`, and the status it ends in.

A delivery keeps two books.  The rows are written by key, so that of all the attempts of
one channel the last one stays; the status is computed from two counters and a length:

    channel              rows written                         counted as
    skipped              'skipped'                            skipped
    delivered            one for each attempt                 success
    not delivered        one for each attempt, then 'failed'  failure

`Writes` says what a part of the delivery does to the rows, and the parts compose.
-/
import Iwifunni.Effect.Upsert
import Iwifunni.Notification.Idempotence

namespace Iwifunni.Notification

open Go Db Effect Effect.Prog Store

/-! ### Conditions on the log -/

/-- The statements of a delivery that write. -/
def writes : Op → Bool
  | .upsertByProjectJob _ | .updateStatus _ _ _ | .insertDeliveryAttempt _ => true
  | _ => false

/-- No write has failed. -/
def Served (log : List (Answered Op.Res GoError)) : Prop :=
  ∀ op e, writes op = true → (⟨op, .error e⟩ : Answered Op.Res GoError) ∉ log

/-- Every provider has reported an attempt, and an error exactly if an attempt has one. -/
def Honest (log : List (Answered Op.Res GoError)) : Prop :=
  ∀ provider job config attempts err,
    (⟨.send provider job config, .ok (attempts, err)⟩ : Answered Op.Res GoError) ∈ log →
      attempts ≠ [] ∧ (err.isSome = true ↔ ∃ a ∈ attempts, a.err.isSome = true)

section Log

variable {log tr tr' : List (Answered Op.Res GoError)}

theorem Served.mono (h : Served log) (hlog : ∀ c ∈ tr, c ∈ log) : Served tr :=
  fun op e hop hmem => h op e hop (hlog _ hmem)

theorem Served.left (h : Served (tr ++ tr')) : Served tr :=
  h.mono fun _ hc => List.mem_append_left _ hc

theorem Served.right (h : Served (tr ++ tr')) : Served tr' :=
  h.mono fun _ hc => List.mem_append_right _ hc

theorem Honest.mono (h : Honest log) (hlog : ∀ c ∈ tr, c ∈ log) : Honest tr :=
  fun provider job config attempts err hmem => h provider job config attempts err (hlog _ hmem)

theorem Honest.left (h : Honest (tr ++ tr')) : Honest tr :=
  h.mono fun _ hc => List.mem_append_left _ hc

theorem Honest.right (h : Honest (tr ++ tr')) : Honest tr' :=
  h.mono fun _ hc => List.mem_append_right _ hc

end Log

/-! ### Calls -/

section Calls

variable {w w' : World} {tr : List (Answered Op.Res GoError)}

/-- The calls of a delivery that change nothing. -/
def reads : Op → Bool
  | .listByChannel _ _ | .send _ _ _ | .dispatch _ _ _ _ | .now | .newUUID => true
  | _ => false

theorem call_reads {op : Op} {r : Except GoError op.Res} (h : Call op w r w')
    (hop : reads op = true) : w' = w := by
  rcases call_world h with rfl | ⟨-, rfl⟩
  · rfl
  · cases op <;> first | rfl | cases hop

/-- A call that cannot fail has not failed. -/
theorem not_call_error {op : Op} {e : GoError} (hop : op.fallible = false) :
    ¬ Call op w (.error e) w' := by
  intro h
  generalize hr : (Except.error e : Except GoError op.Res) = r at h
  cases h with
  | answer =>
      have hok : ∃ a, (World.answer op w).1 = .ok a := by
        cases op <;> first | exact ⟨_, rfl⟩ | cases hop
      obtain ⟨a, ha⟩ := hok
      rw [ha] at hr
      cases hr
  | fault hfallible =>
      rw [hop] at hfallible
      cases hfallible
  | _ => cases hr

/-- A call that is made and does not fail. -/
theorem runs_served {op : Op} {f : op.Res → Act β} {out : Except GoError β}
    (h : Runs Call (perform op >>= f) w tr (ofExcept out) w') (hserved : Served tr)
    (hop : writes op = true ∨ op.fallible = false) :
    ∃ a w₁ tr', tr = ⟨op, .ok a⟩ :: tr' ∧ Call op w (.ok a) w₁ ∧
      Runs Call (f a) w₁ tr' (ofExcept out) w' := by
  rcases runs_perform_bind h with ⟨e, rfl, hcall, -⟩ | hok
  · rcases hop with hop | hop
    · exact absurd (List.mem_singleton_self _) (hserved op e hop)
    · exact absurd hcall (not_call_error hop)
  · exact hok

end Calls

/-! ### The rows of a notification -/

/-- The attempts of a notification. -/
def attemptsOf (w : World) (id : UUID) : List DeliveryAttempt :=
  w.deliveryAttempts.filter (·.notificationID == id)

/-- What they say about which channel. -/
def told (w : World) (id : UUID) : List (String × AttemptStatus) :=
  (attemptsOf w id).map fun r => (r.channel, r.status)

/-- A part of a delivery that does nothing but write attempts of a notification. -/
structure Writes (id : UUID) (w w' : World) (ps : List (String × AttemptStatus)) : Prop where
  told : told w' id = upserts ps (told w id)
  notifications : w'.notifications = w.notifications

section Writes

variable {id : UUID} {w w₁ w' : World} {ps ps' : List (String × AttemptStatus)}

theorem Writes.refl (id : UUID) (w : World) : Writes id w w [] := ⟨rfl, rfl⟩

theorem Writes.trans (h : Writes id w w₁ ps) (h' : Writes id w₁ w' ps') :
    Writes id w w' (ps ++ ps') where
  told := by rw [upserts_append, ← h.told, h'.told]
  notifications := h'.notifications.trans h.notifications

theorem keys_told (w : World) (id : UUID) :
    (told w id).map Prod.fst = (attemptsOf w id).map (·.channel) := by
  rw [told, List.map_map]
  rfl

/-- A channel is a key if it has a row. -/
theorem mem_keys_told {arg : DeliveryAttempt} :
    arg.channel ∈ (told w arg.notificationID).map Prod.fst ↔
      (w.deliveryAttempts.any fun r =>
        r.notificationID == arg.notificationID && r.channel == arg.channel) = true := by
  rw [keys_told, List.any_eq_true]
  simp [attemptsOf, and_assoc]

/-- An INSERT that succeeds writes its row under its channel. -/
theorem told_insert {arg : DeliveryAttempt} {a : Unit}
    (h : (World.answer (.insertDeliveryAttempt arg) w).1 = .ok a) :
    told (World.answer (.insertDeliveryAttempt arg) w).2 arg.notificationID =
      upsert (arg.channel, arg.status) (told w arg.notificationID) := by
  simp only [World.answer] at h ⊢
  split at h
  · next hany =>
    -- the rows of the notification stay the rows of the notification
    have hkept : ((fun r : DeliveryAttempt => r.notificationID == arg.notificationID) ∘ fun r =>
        if r.notificationID == arg.notificationID && r.channel == arg.channel then
          upsertedAttempt arg r else r) = fun r => r.notificationID == arg.notificationID := by
      funext r
      simp only [Function.comp_apply]
      split <;> rfl
    rw [if_pos hany, upsert_of_mem (mem_keys_told.mpr hany)]
    simp only [told, attemptsOf, List.filter_map, List.map_map, hkept]
    refine List.map_congr_left fun r hr => ?_
    have hid : r.notificationID = arg.notificationID := by
      simpa using (List.mem_filter.mp hr).2
    by_cases hchannel : r.channel = arg.channel
    · simp [hid, hchannel, upsertedAttempt]
    · simp [hid, hchannel]
  · next hany =>
    split at h
    · cases h
    · next hid =>
      rw [if_neg hany, if_neg hid, upsert_of_notMem fun hkey => hany (mem_keys_told.mp hkey)]
      simp [told, attemptsOf]

theorem notifications_insert (arg : DeliveryAttempt) (w : World) :
    (World.answer (.insertDeliveryAttempt arg) w).2.notifications = w.notifications := by
  simp only [World.answer]
  split
  · rfl
  · split <;> rfl

theorem writes_insert {arg : DeliveryAttempt} {a : Unit}
    (h : Call (.insertDeliveryAttempt arg) w (.ok a) w') :
    Writes arg.notificationID w w' [(arg.channel, arg.status)] := by
  generalize hr : (Except.ok a : Except GoError Unit) = r at h
  cases h with
  | answer => exact ⟨told_insert hr.symm, notifications_insert arg w⟩
  | fault => cases hr

end Writes

/-! ### Single attempts -/

section Attempts

variable {s : Service} {projectID id : UUID} {channel : String} {w w' : World}
  {tr : List (Answered Op.Res GoError)}

/-- An attempt gets its row. -/
theorem runs_recordAttempt {destination : String} {status : AttemptStatus}
    {errorMessage : Option String} {out : Except GoError Unit}
    (h : Runs Call (recordAttempt id channel destination status errorMessage) w tr
      (ofExcept out) w') (hserved : Served tr) :
    out = .ok () ∧ Writes id w w' [(channel, status)] := by
  obtain ⟨attemptID, w₁, tr₁, rfl, hcall₁, h₁⟩ := runs_served h hserved (Or.inr rfl)
  obtain ⟨nowTs, w₂, tr₂, rfl, hcall₂, h₂⟩ := runs_served h₁
    (hserved.mono fun c hc => List.mem_cons_of_mem _ hc) (Or.inr rfl)
  rw [← bind_ret (perform (Op.insertDeliveryAttempt _))] at h₂
  obtain ⟨a, w₃, tr₃, rfl, hcall₃, h₃⟩ := runs_served h₂
    (hserved.mono fun c hc => List.mem_cons_of_mem _ (List.mem_cons_of_mem _ hc)) (Or.inl rfl)
  obtain ⟨-, hout, rfl⟩ := runs_ret h₃
  rw [call_reads hcall₂ rfl, call_reads hcall₁ rfl] at hcall₃
  exact ⟨ofExcept_injective hout, writes_insert hcall₃⟩

theorem runs_recordFailed {destination : String} {e : GoError}
    {out : Except GoError (Option GoError)}
    (h : Runs Call (recordFailed id channel destination e) w tr (ofExcept out) w')
    (hserved : Served tr) : out = .ok (some e) ∧ Writes id w w' [(channel, .failed)] := by
  obtain ⟨r, w₁, tr₁, tr₂, rfl, h₁, h₂⟩ := runs_outcome_bind h
  obtain ⟨-, hout, rfl⟩ := runs_ret h₂
  exact ⟨ofExcept_injective hout, (runs_recordAttempt h₁ hserved.left).2⟩

/-- Every skipped channel gets its row. -/
theorem runs_recordSkippedChannels {skipped : List SkippedChannel} {out : Except GoError Unit}
    (h : Runs Call (recordSkippedChannels id skipped) w tr (ofExcept out) w')
    (hserved : Served tr) :
    out = .ok () ∧ Writes id w w' (skipped.map fun k => (k.channel, .skipped)) := by
  induction skipped generalizing w tr with
  | nil =>
      obtain ⟨-, hout, rfl⟩ := runs_ret h
      exact ⟨ofExcept_injective hout, .refl id _⟩
  | cons k rest ih =>
      obtain ⟨r, w₁, tr₁, tr₂, rfl, h₁, h₂⟩ := runs_outcome_bind h
      obtain ⟨hout, hrest⟩ := ih h₂ hserved.right
      exact ⟨hout, (runs_recordAttempt h₁ hserved.left).2.trans hrest⟩

/-- The status an error gives an attempt, or a channel. -/
def statusOf (err : Option GoError) : AttemptStatus := if err.isSome then .failed else .sent

/-- Every attempt gets its row. -/
theorem runs_recordAttempts {attempts : List ProviderAttempt} {out : Except GoError Unit}
    (h : Runs Call (recordAttempts id channel attempts) w tr (ofExcept out) w')
    (hserved : Served tr) :
    out = .ok () ∧ Writes id w w' (attempts.map fun a => (channel, statusOf a.err)) := by
  induction attempts generalizing w tr with
  | nil =>
      obtain ⟨-, hout, rfl⟩ := runs_ret h
      exact ⟨ofExcept_injective hout, .refl id _⟩
  | cons a rest ih =>
      obtain ⟨r, w₁, tr₁, tr₂, rfl, h₁, h₂⟩ := runs_outcome_bind h
      have hwrites : Writes id w w₁ [(channel, statusOf a.err)] := by
        rcases herr : a.err with - | e
        · rw [herr] at h₁
          exact (runs_recordAttempt h₁ hserved.left).2
        · rw [herr] at h₁
          rcases runs_bind h₁ with ⟨e', hfailed, -⟩ | ⟨err, w₂, tr₃, tr₄, rfl, hfailed, hret⟩
          · have hfailed' : Runs Call (recordFailed id channel a.destination e) w tr₁
                (ofExcept (.error e')) w₁ := hfailed
            exact (runs_recordFailed hfailed' hserved.left).2
          · have hfailed' : Runs Call (recordFailed id channel a.destination e) w tr₃
                (ofExcept (.ok err)) w₂ := hfailed
            obtain ⟨-, -, rfl⟩ := runs_ret hret
            exact (runs_recordFailed hfailed' hserved.left.left).2
      obtain ⟨hout, hrest⟩ := ih h₂ hserved.right
      exact ⟨hout, hwrites.trans hrest⟩

end Attempts

/-! ### Where the channels are in the log -/

/-- A call that looks for providers of these channels only. -/
def ListsAmong (channels : List String) (op : Op) : Prop :=
  ∀ projectID channel, op = .listByChannel projectID channel → channel ∈ channels

section Lists

variable {s : Service} {projectID id : UUID} {channels : List String}

theorem lists_recordAttempt (channel destination : String) (status : AttemptStatus)
    (errorMessage : Option String) :
    Calls (ListsAmong channels) (recordAttempt id channel destination status errorMessage) := by
  refine Calls.bind (calls_perform (by rintro _ _ ⟨⟩)) fun _ => ?_
  refine Calls.bind (calls_perform (by rintro _ _ ⟨⟩)) fun _ => ?_
  exact calls_perform (by rintro _ _ ⟨⟩)

theorem lists_recordFailed (channel destination : String) (e : GoError) :
    Calls (ListsAmong channels) (recordFailed id channel destination e) :=
  Calls.bind (lists_recordAttempt ..).outcome fun _ => calls_ret _

theorem lists_recordAttempts (channel : String) (attempts : List ProviderAttempt) :
    Calls (ListsAmong channels) (recordAttempts id channel attempts) := by
  induction attempts with
  | nil => exact calls_ret _
  | cons a rest ih =>
      refine Calls.bind (Calls.outcome ?_) fun _ => ih
      split
      · exact Calls.bind (lists_recordFailed ..) fun _ => calls_ret _
      · exact lists_recordAttempt ..

theorem lists_recordSkippedChannels (skipped : List SkippedChannel) :
    Calls (ListsAmong channels) (recordSkippedChannels id skipped) := by
  induction skipped with
  | nil => exact calls_ret _
  | cons k rest ih => exact Calls.bind (lists_recordAttempt ..).outcome fun _ => ih

/-- A delivery looks up the providers of its own channel. -/
theorem lists_deliverProjectChannel {channel : String} (job : NotificationJob)
    (hchannel : channel ∈ channels) :
    Calls (ListsAmong channels) (deliverProjectChannel s projectID id channel job) := by
  refine (calls_ask (by rintro _ _ ⟨⟩; exact hchannel)).bind ?_
  rintro (e | providers)
  · exact lists_recordFailed ..
  · dsimp only
    split
    · exact lists_recordFailed ..
    · split
      · exact lists_recordFailed ..
      · refine (calls_perform (by rintro _ _ ⟨⟩)).bind ?_
        rintro ⟨attempts, err⟩
        refine (lists_recordAttempts ..).bind fun _ => ?_
        split
        · exact lists_recordFailed ..
        · exact calls_ret _

theorem lists_deliverChannels (job : NotificationJob) (reportErrors : Bool) (t : Tally)
    {rest : List String} (h : ∀ channel ∈ rest, channel ∈ channels) :
    Calls (ListsAmong channels) (deliverChannels s projectID id job reportErrors rest t) := by
  induction rest generalizing t with
  | nil => exact calls_ret _
  | cons channel rest ih =>
      refine (lists_deliverProjectChannel job (h _ (List.mem_cons_self ..))).bind fun _ => ?_
      exact ih _ fun c hc => h c (List.mem_cons_of_mem _ hc)

end Lists

/-! ### One channel -/

section Channel

variable {s : Service} {projectID id : UUID} {channel : String} {w w' : World}
  {tr : List (Answered Op.Res GoError)}

/-- The calls of one channel: its providers are looked up, and it has not failed if one of
them is then asked to send and reports no error. -/
structure Part (projectID : UUID) (channel : String) (err : Option GoError)
    (r : Except GoError (List Integration)) (rest : List (Answered Op.Res GoError)) : Prop where
  continued : rest ≠ []
  once : ∀ c ∈ rest, ListsAmong [] c.1
  sent : err.isNone = true ↔ (∃ providers, r = .ok providers) ∧
    ∃ provider job config attempts rest',
      rest = ⟨.send provider job config, .ok (attempts, none)⟩ :: rest'

/-- A failed attempt starts with a new id. -/
theorem head_recordFailed {destination : String} {e : GoError}
    {out : Except GoError (Option GoError)}
    (h : Runs Call (recordFailed id channel destination e) w tr (ofExcept out) w') :
    ∃ r tr', tr = ⟨.newUUID, r⟩ :: tr' := by
  rcases Runs.call_inv h with ⟨-, hout, -⟩ | ⟨r, w₁, tr', rfl, -, -⟩
  · cases out <;> cases hout
  · exact ⟨r, tr', rfl⟩

/-- A channel that fails before a provider has been asked. -/
theorem part_recordFailed {destination : String} {e : GoError}
    {out : Except GoError (Option GoError)} (r : Except GoError (List Integration))
    (h : Runs Call (recordFailed id channel destination e) w tr (ofExcept out) w')
    (hserved : Served tr) :
    ∃ err, out = .ok err ∧ Writes id w w' [(channel, statusOf err)] ∧
      Part projectID channel err r tr := by
  obtain ⟨hout, hwrites⟩ := runs_recordFailed h hserved
  obtain ⟨r', tr', rfl⟩ := head_recordFailed h
  refine ⟨some e, hout, hwrites, by simp, ?_, ?_⟩
  · exact fun c hc => (lists_recordFailed ..).of_mem_path h.path hc
  · refine iff_of_false (by simp) ?_
    rintro ⟨-, provider, job, config, attempts, rest', he⟩
    cases he

/-- The last attempt of a channel counts. -/
theorem Writes.last {ps : List (String × AttemptStatus)} {p : String × AttemptStatus}
    (h : Writes id w w' (ps ++ [p])) (hps : ∀ q ∈ ps, q.1 = p.1) : Writes id w w' [p] where
  told := by
    rw [h.told, upserts_concat hps]
    rfl
  notifications := h.notifications

/-- The attempts of a provider that reports no error. -/
theorem Writes.sent {attempts : List ProviderAttempt}
    (h : Writes id w w' (attempts.map fun a => (channel, statusOf a.err)))
    (hne : attempts ≠ []) (hsent : ∀ a ∈ attempts, a.err = none) :
    Writes id w w' [(channel, .sent)] := by
  obtain ⟨init, last, rfl⟩ := (List.eq_nil_or_concat' attempts).resolve_left hne
  rw [List.map_append, List.map_singleton, hsent last (by simp)] at h
  refine h.last fun q hq => ?_
  obtain ⟨a, -, rfl⟩ := List.mem_map.mp hq
  rfl

/-- One channel: the attempts that are written, and how it fared. -/
theorem runs_deliverProjectChannel {job : NotificationJob} {out : Except GoError (Option GoError)}
    (h : Runs Call (deliverProjectChannel s projectID id channel job) w tr (ofExcept out) w')
    (hserved : Served tr) (hhonest : Honest tr) :
    ∃ err, out = .ok err ∧ Writes id w w' [(channel, statusOf err)] ∧
      ∃ r rest, tr = ⟨.listByChannel projectID channel, r⟩ :: rest ∧
        Part projectID channel err r rest := by
  obtain ⟨r, w₁, rest, rfl, hcall, h₁⟩ := runs_ask_bind h
  obtain rfl := call_reads hcall rfl
  have hserved₁ : Served rest := hserved.mono fun c hc => List.mem_cons_of_mem _ hc
  have hhonest₁ : Honest rest := hhonest.mono fun c hc => List.mem_cons_of_mem _ hc
  suffices hrest : ∃ err, out = .ok err ∧ Writes id w₁ w' [(channel, statusOf err)] ∧
      Part projectID channel err r rest by
    obtain ⟨err, hout, hwrites, hpart⟩ := hrest
    exact ⟨err, hout, hwrites, r, rest, rfl, hpart⟩
  rcases r with e | providers
  -- nobody to deliver by: one failed attempt is written
  · exact part_recordFailed _ h₁ hserved₁
  dsimp only at h₁
  split at h₁
  · exact part_recordFailed _ h₁ hserved₁
  split at h₁
  · exact part_recordFailed _ h₁ hserved₁
  have hasked := runs_served h₁ hserved₁
  obtain ⟨⟨attempts, err⟩, w₂, tr₂, rfl, hcall₂, h₂⟩ := hasked (Or.inr rfl)
  obtain rfl := call_reads hcall₂ rfl
  have hserved₂ : Served tr₂ := hserved₁.mono fun c hc => List.mem_cons_of_mem _ hc
  -- the providers have been tried one after the other
  obtain ⟨hne, herr⟩ := hhonest₁ _ _ _ _ _ (List.mem_cons_self ..)
  rcases runs_bind h₂ with ⟨e, hfailed, -⟩ | ⟨⟨⟩, w₃, tr₃, tr₄, rfl, hattempts, h₃⟩
  · have hok : (Except.error e : Except GoError Unit) = .ok () :=
      (runs_recordAttempts hfailed hserved₂).1
    cases hok
  have hwrites : Writes id w₂ w₃ (attempts.map fun a => (channel, statusOf a.err)) :=
    (runs_recordAttempts (show Runs Call _ _ _ (ofExcept (.ok ())) _ from hattempts)
      hserved₂.left).2
  have honce₃ : ∀ c ∈ tr₃, ListsAmong [] c.1 := by
    have hpath : Path (recordAttempts id channel attempts) tr₃ (.ok ()) := Runs.path hattempts
    exact fun c hc => (lists_recordAttempts ..).of_mem_path hpath hc
  rcases err with - | e
  · -- all attempts have been sent, and there is one
    obtain ⟨rfl, hout, rfl⟩ := runs_ret h₃
    refine ⟨none, ofExcept_injective hout, hwrites.sent hne fun a ha => ?_, by simp, ?_, ?_⟩
    · by_contra hfailed
      have hsome := herr.mpr ⟨a, ha, Option.isSome_iff_ne_none.mpr hfailed⟩
      cases hsome
    · rw [List.append_nil]
      exact List.forall_mem_cons.mpr ⟨by rintro _ _ ⟨⟩, honce₃⟩
    · exact iff_of_true rfl ⟨⟨providers, rfl⟩, _, _, _, _, _, rfl⟩
  · -- a failed attempt follows those of the provider
    obtain ⟨hout, hfailed⟩ := runs_recordFailed h₃ hserved₂.right
    refine ⟨some e, hout, (hwrites.trans hfailed).last fun q hq => ?_, by simp, ?_, ?_⟩
    · obtain ⟨a, -, rfl⟩ := List.mem_map.mp hq
      rfl
    · refine List.forall_mem_cons.mpr ⟨by rintro _ _ ⟨⟩, List.forall_mem_append.mpr ⟨honce₃, ?_⟩⟩
      exact fun c hc => (lists_recordFailed ..).of_mem_path h₃.path hc
    · refine iff_of_false (by simp) ?_
      rintro ⟨-, provider, job', config, attempts', rest', he⟩
      cases he

end Channel

/-! ### All channels -/

section Loop

variable {s : Service} {projectID id : UUID} {channel : String} {w w' : World}
  {err : Option GoError} {log tr : List (Answered Op.Res GoError)}

/-- The providers of the channel have been looked up, and the first one that could be asked
has sent without an error. -/
def Delivered (projectID : UUID) (log : List (Answered Op.Res GoError)) (channel : String) :
    Prop :=
  ∃ before providers provider job config attempts after,
    log = before ++ ⟨.listByChannel projectID channel, .ok providers⟩ ::
      ⟨.send provider job config, .ok (attempts, none)⟩ :: after

/-- A log with the calls of one channel, and no other look-up for it. -/
def Fared (projectID : UUID) (log : List (Answered Op.Res GoError)) (channel : String)
    (err : Option GoError) : Prop :=
  ∃ before r rest after, log = before ++ ⟨.listByChannel projectID channel, r⟩ :: (rest ++ after) ∧
    Part projectID channel err r rest ∧
    (∀ c ∈ before, c.1 ≠ .listByChannel projectID channel) ∧
    ∀ c ∈ after, c.1 ≠ .listByChannel projectID channel

theorem Fared.extend (h : Fared projectID tr channel err) {before after}
    (hbefore : ∀ c ∈ before, c.1 ≠ .listByChannel projectID channel)
    (hafter : ∀ c ∈ after, c.1 ≠ .listByChannel projectID channel) :
    Fared projectID (before ++ tr ++ after) channel err := by
  obtain ⟨b, r, rest, a, rfl, hpart, hb, ha⟩ := h
  refine ⟨before ++ b, r, rest, a ++ after, by simp, hpart, ?_, ?_⟩
  · exact List.forall_mem_append.mpr ⟨hbefore, hb⟩
  · exact List.forall_mem_append.mpr ⟨ha, hafter⟩

/-- The log says whether the channel was delivered. -/
theorem Fared.delivered_iff (h : Fared projectID log channel err) :
    Delivered projectID log channel ↔ err.isNone = true := by
  obtain ⟨before, r, rest, after, rfl, hpart, hbefore, hafter⟩ := h
  constructor
  · rintro ⟨before', providers, provider, job, config, attempts, after', he⟩
    -- there is only one look-up for the channel
    have hfree : (⟨.listByChannel projectID channel, .ok providers⟩ :
        Answered Op.Res GoError) ∉ rest ++ after := by
      rw [List.mem_append, not_or]
      refine ⟨fun hmem => ?_, fun hmem => hafter _ hmem rfl⟩
      have hnone : channel ∈ [] := hpart.once _ hmem projectID channel rfl
      cases hnone
    obtain ⟨-, hlist, hrest⟩ := (List.append_cons_inj_of_notMem
      (fun hmem => hbefore _ hmem rfl) hfree).mp he
    obtain ⟨a, rest', rfl⟩ := List.exists_cons_of_ne_nil hpart.continued
    cases hlist
    injection hrest with ha
    exact hpart.sent.mpr ⟨⟨providers, rfl⟩, provider, job, config, attempts, rest', ha ▸ rfl⟩
  · intro herr
    obtain ⟨⟨providers, rfl⟩, provider, job, config, attempts, rest', rfl⟩ := hpart.sent.mp herr
    exact ⟨before, providers, provider, job, config, attempts, rest' ++ after, rfl⟩

/-- The loop writes one row for each channel and counts each channel once. -/
theorem runs_deliverChannels {job : NotificationJob} {reportErrors : Bool}
    {channels : List String} {t : Tally} {out : Except GoError Tally} (hnodup : channels.Nodup)
    (h : Runs Call (deliverChannels s projectID id job reportErrors channels t) w tr
      (ofExcept out) w') (hserved : Served tr) (hhonest : Honest tr) :
    ∃ results : List (String × Option GoError), results.map Prod.fst = channels ∧
      out = .ok (results.foldl (fun t p => t.add reportErrors p.1 p.2) t) ∧
      Writes id w w' (results.map fun p => (p.1, statusOf p.2)) ∧
      ∀ p ∈ results, Fared projectID tr p.1 p.2 := by
  induction channels generalizing w t tr with
  | nil =>
      obtain ⟨-, hout, rfl⟩ := runs_ret h
      exact ⟨[], rfl, ofExcept_injective hout, .refl id _, fun p hp => by cases hp⟩
  | cons channel rest ih =>
      obtain ⟨hnew, hnodup⟩ := List.nodup_cons.mp hnodup
      rcases runs_bind h with ⟨e, hfailed, -⟩ | ⟨err, w₁, tr₁, tr₂, rfl, h₁, h₂⟩
      · obtain ⟨err, hout, -⟩ := runs_deliverProjectChannel
          (show Runs Call _ _ _ (ofExcept (.error e)) _ from hfailed) hserved hhonest
        cases hout
      -- the first channel writes its row, the rest is the induction hypothesis
      obtain ⟨err', hout, hwrites, r, rest₁, rfl, hpart⟩ := runs_deliverProjectChannel
        (show Runs Call _ _ _ (ofExcept (.ok err)) _ from h₁) hserved.left hhonest.left
      cases hout
      obtain ⟨results, hkeys, hout, hrest, hfared⟩ := ih hnodup h₂ hserved.right hhonest.right
      refine ⟨(channel, err) :: results, by rw [List.map_cons, hkeys], hout,
        hwrites.trans hrest, List.forall_mem_cons.mpr ⟨?_, fun p hp => ?_⟩⟩
      · -- the other channels are looked up later
        refine ⟨[], r, rest₁, tr₂, rfl, hpart, fun c hc => (by cases hc), fun c hc he => hnew ?_⟩
        have hlists : Calls (ListsAmong rest) (deliverChannels s projectID id job reportErrors rest
            (t.add reportErrors channel err)) := lists_deliverChannels _ _ _ fun _ hmem => hmem
        exact hlists.of_mem_path h₂.path hc projectID channel he
      -- the results of the rest are for other channels
      · have hne : p.1 ≠ channel := by
          rintro rfl
          exact hnew (hkeys ▸ List.mem_map_of_mem hp)
        rw [← List.append_nil (_ ++ tr₂)]
        refine (hfared p hp).extend (List.forall_mem_cons.mpr ⟨?_, fun c hc he => ?_⟩)
          fun c hc => by cases hc
        · rintro ⟨⟩
          exact hne rfl
        · have hnone : p.1 ∈ [] := hpart.once c hc projectID p.1 he
          cases hnone

end Loop

/-! ### The status -/

/-- The status of a notification is what the statuses of its attempts say. -/
structure Story (attempts : List AttemptStatus) (status : NotificationStatus) : Prop where
  sent : status = .sent ↔ .sent ∈ attempts ∧ ∀ a ∈ attempts, a = .sent
  skipped : status = .skipped ↔ attempts ≠ [] ∧ ∀ a ∈ attempts, a = .skipped
  partialSkipped : status = .partialSkipped ↔
    .sent ∈ attempts ∧ .skipped ∈ attempts ∧ .failed ∉ attempts
  partialFailed : status = .partialFailed ↔ .sent ∈ attempts ∧ .failed ∈ attempts
  failed : status = .failed ↔ status ≠ .sent ∧ status ≠ .skipped ∧
    status ≠ .partialSkipped ∧ status ≠ .partialFailed

section Story

variable {attempts : List AttemptStatus} {successCount failureCount skippedCount : ℕ}

theorem all_sent_iff :
    (∀ a ∈ attempts, a = .sent) ↔ .failed ∉ attempts ∧ .skipped ∉ attempts := by
  constructor
  · intro h
    exact ⟨fun hmem => (by cases h _ hmem), fun hmem => (by cases h _ hmem)⟩
  · rintro ⟨hfailed, hskipped⟩ a ha
    cases a with
    | sent => rfl
    | failed => exact absurd ha hfailed
    | skipped => exact absurd ha hskipped

/-- Everything was skipped exactly if nothing was sent and nothing failed. -/
theorem all_skipped_iff : attempts ≠ [] ∧ (∀ a ∈ attempts, a = .skipped) ↔
    .skipped ∈ attempts ∧ .sent ∉ attempts ∧ .failed ∉ attempts := by
  constructor
  · rintro ⟨hne, h⟩
    obtain ⟨a, rest, rfl⟩ := List.exists_cons_of_ne_nil hne
    have ha := h a (List.mem_cons_self ..)
    exact ⟨by simp [ha], fun hmem => (by cases h _ hmem), fun hmem => (by cases h _ hmem)⟩
  · rintro ⟨hskipped, hsent, hfailed⟩
    refine ⟨List.ne_nil_of_mem hskipped, fun a ha => ?_⟩
    cases a with
    | sent => exact absurd ha hsent
    | failed => exact absurd ha hfailed
    | skipped => rfl

/-- The counters tell the same story as the attempts they count. -/
theorem story_final (hsent : .sent ∈ attempts ↔ 0 < successCount)
    (hfailed : .failed ∈ attempts ↔ 0 < failureCount)
    (hskipped : .skipped ∈ attempts ↔ 0 < skippedCount) :
    Story attempts (finalNotificationStatus successCount failureCount skippedCount) := by
  have hs := Nat.eq_zero_or_pos successCount
  have hf := Nat.eq_zero_or_pos failureCount
  have hk := Nat.eq_zero_or_pos skippedCount
  constructor
  · rw [all_sent_iff, hsent, hfailed, hskipped]
    rcases hs with hs | hs <;> rcases hf with hf | hf <;> rcases hk with hk | hk <;>
      simp [finalNotificationStatus, hs, hf, hk, Nat.ne_of_gt]
  · rw [all_skipped_iff, hsent, hfailed, hskipped]
    rcases hs with hs | hs <;> rcases hf with hf | hf <;> rcases hk with hk | hk <;>
      simp [finalNotificationStatus, hs, hf, hk, Nat.ne_of_gt]
  · rw [hsent, hfailed, hskipped]
    rcases hs with hs | hs <;> rcases hf with hf | hf <;> rcases hk with hk | hk <;>
      simp [finalNotificationStatus, hs, hf, hk, Nat.ne_of_gt]
  · rw [hsent, hfailed]
    rcases hs with hs | hs <;> rcases hf with hf | hf <;> rcases hk with hk | hk <;>
      simp [finalNotificationStatus, hs, hf, hk, Nat.ne_of_gt]
  · rcases hs with hs | hs <;> rcases hf with hf | hf <;> rcases hk with hk | hk <;>
      simp [finalNotificationStatus, hs, hf, hk, Nat.ne_of_gt]

end Story

/-! ### The counters -/

section Tally

variable {reportErrors : Bool} {t : Tally}

/-- So are the successes. -/
theorem successCount_foldl (results : List (String × Option GoError)) :
    (results.foldl (fun t p => t.add reportErrors p.1 p.2) t).successCount =
      t.successCount + results.countP (·.2.isNone) := by
  induction results generalizing t with
  | nil => rfl
  | cons p rest ih =>
      obtain ⟨channel, - | e⟩ := p
      · rw [List.foldl_cons, ih, List.countP_cons_of_pos rfl]
        simp only [Tally.add]
        omega
      · rw [List.foldl_cons, ih, List.countP_cons_of_neg (by simp)]
        rfl

/-- The failures are counted. -/
theorem failureCount_foldl (results : List (String × Option GoError)) :
    (results.foldl (fun t p => t.add reportErrors p.1 p.2) t).failureCount =
      t.failureCount + results.countP (·.2.isSome) := by
  induction results generalizing t with
  | nil => rfl
  | cons p rest ih =>
      obtain ⟨channel, - | e⟩ := p
      · rw [List.foldl_cons, ih, List.countP_cons_of_neg (by simp)]
        rfl
      · rw [List.foldl_cons, ih, List.countP_cons_of_pos rfl]
        simp only [Tally.add]
        omega

end Tally

/-! ### A whole delivery -/

section Delivery

variable {s : Service} {projectID id : UUID} {w w' : World} {job : NotificationJob}
  {log tr : List (Answered Op.Res GoError)}

/-- An upsert that succeeds returns a row that is there, with the status it was given. -/
theorem call_upsert {arg row : Db.Notification} (h : Call (.upsertByProjectJob arg) w (.ok row) w') :
    row ∈ w'.notifications ∧ row.status = arg.status ∧
      w'.deliveryAttempts = w.deliveryAttempts := by
  generalize hr : (Except.ok row : Except GoError Db.Notification) = r at h
  cases h with
  | fault => cases hr
  | answer =>
      simp only [World.answer] at hr ⊢
      split at hr
      · next row' hfind =>
        cases hr
        have hjob := List.find?_some hfind
        refine ⟨List.mem_map.mpr ⟨row', List.mem_of_find?_eq_some hfind, if_pos hjob⟩, rfl, rfl⟩
      · split at hr
        · cases hr
        · next hid =>
          cases hr
          rw [if_neg hid]
          exact ⟨List.mem_append_right _ (List.mem_singleton_self _), rfl, rfl⟩

/-- The final status is written to the row. -/
theorem call_updateStatus {status : NotificationStatus} {updatedAt : Time} {a : Unit}
    (h : Call (.updateStatus id status updatedAt) w (.ok a) w') :
    w'.deliveryAttempts = w.deliveryAttempts ∧
      w'.notifications = w.notifications.map fun r =>
        if r.id == id then { r with status := status, updatedAt := updatedAt } else r := by
  generalize hr : (Except.ok a : Except GoError Unit) = r at h
  cases h with
  | answer => exact ⟨rfl, rfl⟩
  | fault => cases hr

/-- The results of the channels of a job, in the log and in the database. -/
structure Settled (projectID id : UUID) (job : NotificationJob)
    (log : List (Answered Op.Res GoError)) (w w' : World)
    (results : List (String × Option GoError)) : Prop where
  channels : results.map Prod.fst = job.channels.getD []
  fared : ∀ p ∈ results, Fared projectID log p.1 p.2
  told : told w' id = upserts (job.skippedChannels.map (fun k => (k.channel, .skipped)) ++
    results.map fun p => (p.1, statusOf p.2)) (told w id)
  status : ∃ updatedAt, w'.notifications = w.notifications.map fun r =>
    if r.id == id then
      { r with
        status := finalNotificationStatus (results.countP (·.2.isNone))
          (results.countP (·.2.isSome)) job.skippedChannels.length
        updatedAt := updatedAt }
    else r

/-- Announcing the final status changes nothing and does not fail. -/
theorem runs_announce {β : Type} {event : String} {f : Unit → Act β} {out : Except GoError β}
    (h : Runs Call (if s.dispatcher = true then do
        let timestamp ← perform Op.now
        perform (Op.dispatch projectID event id timestamp) >>= f
      else ret () >>= f) w tr (ofExcept out) w') (hserved : Served tr) :
    ∃ tr', Runs Call (f ()) w tr' (ofExcept out) w' := by
  by_cases hdispatcher : s.dispatcher = true
  · rw [if_pos hdispatcher] at h
    obtain ⟨timestamp, w₁, tr₁, rfl, hcall₁, h₁⟩ := runs_served h hserved (Or.inr rfl)
    obtain ⟨⟨⟩, w₂, tr₂, rfl, hcall₂, h₂⟩ := runs_served h₁
      (hserved.mono fun c hc => List.mem_cons_of_mem _ hc) (Or.inr rfl)
    obtain rfl := call_reads hcall₁ rfl
    obtain rfl := call_reads hcall₂ rfl
    exact ⟨tr₂, h₂⟩
  · rw [if_neg hdispatcher] at h
    exact ⟨tr, h⟩

/-- What a run of `deliverJob` leaves behind as long as no statement fails. -/
theorem runs_deliverJob {notification : Db.Notification} {reportErrors : Bool}
    {out : Except GoError (UUID × Option GoError)} (hstatus : notification.status = .pending)
    (h : Runs Call (deliverJob s projectID notification job reportErrors) w tr (ofExcept out) w')
    (hserved : Served tr) (hhonest : Honest tr) (hnodup : (job.channels.getD []).Nodup) :
    ∃ err results, out = .ok (notification.id, err) ∧
      Settled projectID notification.id job tr w w' results := by
  unfold deliverJob at h
  rw [hstatus, if_neg (by decide)] at h
  -- first the skipped channels, which cannot fail here
  rcases runs_bind h with ⟨e, hfailed, -⟩ | ⟨⟨⟩, w₁, tr₁, tr₂, rfl, hskipped, h₂⟩
  · have hok : (Except.error e : Except GoError Unit) = .ok () :=
      (runs_recordSkippedChannels hfailed hserved).1
    cases hok
  have hskipped' : Runs Call (recordSkippedChannels notification.id job.skippedChannels) w tr₁
      (ofExcept (.ok ())) w₁ := hskipped
  have hfirst := (runs_recordSkippedChannels hskipped' hserved.left).2
  -- then the loop
  rcases runs_bind h₂ with ⟨e, hfailed, -⟩ | ⟨t, w₂, tr₃, tr₄, rfl, hloop, h₃⟩
  · obtain ⟨results, -, hout, -⟩ := runs_deliverChannels hnodup
      (show Runs Call _ _ _ (ofExcept (.error e)) _ from hfailed) hserved.right hhonest.right
    cases hout
  obtain ⟨results, hkeys, hout, hsecond, hfared⟩ := runs_deliverChannels hnodup
    (show Runs Call _ _ _ (ofExcept (.ok t)) _ from hloop) hserved.right.left hhonest.right.left
  cases hout
  have hserved₃ := hserved.right.right
  -- and last the status of the notification
  obtain ⟨nowTs, w₃, tr₅, rfl, hcall₃, h₄⟩ := runs_served h₃ hserved₃ (Or.inr rfl)
  obtain rfl := call_reads hcall₃ rfl
  obtain ⟨r, w₄, tr₆, rfl, hcall₄, h₅⟩ := runs_ask_bind h₄
  rcases r with e | ⟨⟩
  · exact absurd (List.mem_cons_of_mem _ (List.mem_cons_self ..)) (hserved₃ _ e rfl)
  dsimp only at h₅
  -- webhooks are told, whatever comes of it
  have hend : (∃ err, out = .ok (notification.id, err)) ∧ w' = w₄ := by
    have hserved₅ := hserved₃.mono fun c hc =>
      List.mem_cons_of_mem _ (List.mem_cons_of_mem _ hc)
    obtain ⟨tr₇, h₆⟩ := runs_announce h₅ hserved₅
    split at h₆
    · obtain ⟨-, hout, hw⟩ := runs_ret h₆
      exact ⟨⟨_, ofExcept_injective hout⟩, hw⟩
    · obtain ⟨-, hout, hw⟩ := runs_ret h₆
      exact ⟨⟨_, ofExcept_injective hout⟩, hw⟩
  obtain ⟨⟨err, hout⟩, rfl⟩ := hend
  obtain ⟨hattempts, hnotifications⟩ := call_updateStatus hcall₄
  have hwrites := hfirst.trans hsecond
  refine ⟨err, results, hout, hkeys, fun p hp => ?_, ?_, nowTs, ?_⟩
  · -- neither the skipped channels nor the final status look providers up
    rw [← List.append_assoc]
    refine (hfared p hp).extend (fun c hc he => ?_) (List.forall_mem_cons.mpr
      ⟨by rintro ⟨⟩, List.forall_mem_cons.mpr ⟨by rintro ⟨⟩, fun c hc he => ?_⟩⟩)
    · have hlists : Calls (ListsAmong [])
          (recordSkippedChannels notification.id job.skippedChannels) :=
        lists_recordSkippedChannels _
      have hnone := hlists.of_mem_path hskipped'.path hc _ _ he
      cases hnone
    · have hnone : p.1 ∈ [] := by
        refine Calls.of_mem_path (P := ListsAmong []) ?_ h₅.path hc _ _ he
        split
        · refine Calls.bind (calls_perform (by rintro _ _ ⟨⟩)) fun _ => ?_
          refine Calls.bind (calls_perform (by rintro _ _ ⟨⟩)) fun _ => ?_
          split <;> exact calls_ret _
        · refine Calls.bind (calls_ret _) fun _ => ?_
          split <;> exact calls_ret _
      cases hnone
  · rw [← hwrites.told]
    simp only [told, attemptsOf, hattempts]
  · rw [hnotifications, hwrites.notifications, successCount_foldl, failureCount_foldl]
    simp only [Nat.zero_add]

/-- What the attempts and the status of a notification say after its delivery. -/
structure SameStory (projectID id : UUID) (job : NotificationJob)
    (log : List (Answered Op.Res GoError)) (w' : World) : Prop where
  once : ((attemptsOf w' id).map (·.channel)).Nodup
  channels : ∀ channel, channel ∈ (attemptsOf w' id).map (·.channel) ↔
    channel ∈ job.channels.getD [] ∨ channel ∈ job.skippedChannels.map SkippedChannel.channel
  skipped : ∀ row ∈ attemptsOf w' id,
    row.channel ∈ job.skippedChannels.map SkippedChannel.channel → row.status = .skipped
  delivered : ∀ row ∈ attemptsOf w' id, row.channel ∈ job.channels.getD [] →
    (row.status = .sent ↔ Delivered projectID log row.channel) ∧
    (row.status = .failed ↔ ¬ Delivered projectID log row.channel)
  stored : ∃ row ∈ w'.notifications, row.id = id
  status : ∀ row ∈ w'.notifications, row.id = id →
    Story ((attemptsOf w' id).map (·.status)) row.status

theorem statusOf_eq_sent {err : Option GoError} : statusOf err = .sent ↔ err.isNone = true := by
  cases err <;> simp [statusOf]

theorem statusOf_eq_failed {err : Option GoError} : statusOf err = .failed ↔ err.isSome = true := by
  cases err <;> simp [statusOf]

theorem statusOf_ne_skipped (err : Option GoError) : statusOf err ≠ .skipped := by
  cases err <;> simp [statusOf]

variable {results : List (String × Option GoError)}

/-- The rows of a notification that had none. -/
theorem mem_told (h : Settled projectID id job log w w' results)
    (hfresh : attemptsOf w id = []) (hnodup : (job.channels.getD []).Nodup)
    (hdisjoint : ∀ k ∈ job.skippedChannels, k.channel ∉ job.channels.getD [])
    {channel : String} {status : AttemptStatus} :
    (channel, status) ∈ told w' id ↔
      (∃ k ∈ job.skippedChannels, k.channel = channel ∧ status = .skipped) ∨
      ∃ p ∈ results, p.1 = channel ∧ status = statusOf p.2 := by
  rw [h.told, mem_upserts ?_, told, hfresh]
  · simp only [List.mem_append, List.mem_map, List.map_nil, List.not_mem_nil, and_false,
      or_false, Prod.mk.injEq, eq_comm]
  · -- a channel is skipped or delivered, and delivered once
    have hne : ∀ k ∈ job.skippedChannels, ∀ p ∈ results, k.channel ≠ p.1 := by
      intro k hk p hp he
      apply hdisjoint k hk
      rw [he, ← h.channels]
      exact List.mem_map_of_mem hp
    intro p hp q hq he
    simp only [List.mem_append, List.mem_map] at hp hq
    rcases hp with ⟨k, hk, rfl⟩ | ⟨p, hp, rfl⟩ <;> rcases hq with ⟨k', hk', rfl⟩ | ⟨q, hq, rfl⟩
    · exact Prod.ext he rfl
    · exact absurd he (hne k hk q hq)
    · exact absurd he.symm (hne k' hk' p hp)
    · have hkeys : (results.map Prod.fst).Nodup := h.channels ▸ hnodup
      rw [List.inj_on_of_nodup_map hkeys hp hq he]

theorem mem_statuses {status : AttemptStatus} :
    status ∈ (attemptsOf w' id).map (·.status) ↔ ∃ channel, (channel, status) ∈ told w' id := by
  simp only [told, List.mem_map, Prod.mk.injEq]
  constructor
  · rintro ⟨row, hrow, rfl⟩
    exact ⟨row.channel, row, hrow, rfl, rfl⟩
  · rintro ⟨channel, row, hrow, -, he⟩
    exact ⟨row, hrow, he⟩

/-- The final status is drawn from the results the rows tell of. -/
theorem story_of_settled (h : Settled projectID id job log w w' results)
    (hfresh : attemptsOf w id = []) (hnodup : (job.channels.getD []).Nodup)
    (hdisjoint : ∀ k ∈ job.skippedChannels, k.channel ∉ job.channels.getD []) :
    Story ((attemptsOf w' id).map (·.status))
      (finalNotificationStatus (results.countP (·.2.isNone)) (results.countP (·.2.isSome))
        job.skippedChannels.length) := by
  have hmem : ∀ channel status, (channel, status) ∈ told w' id ↔ _ := fun _ _ =>
    mem_told h hfresh hnodup hdisjoint
  apply story_final
  · rw [mem_statuses, List.countP_pos_iff]
    constructor
    · rintro ⟨channel, htold⟩
      rcases (hmem _ _).mp htold with ⟨k, -, -, he⟩ | ⟨p, hp, -, he⟩
      · cases he
      · exact ⟨p, hp, statusOf_eq_sent.mp he.symm⟩
    · rintro ⟨p, hp, hsent⟩
      exact ⟨p.1, (hmem _ _).mpr (Or.inr ⟨p, hp, rfl, (statusOf_eq_sent.mpr hsent).symm⟩)⟩
  · rw [mem_statuses, List.countP_pos_iff]
    constructor
    · rintro ⟨channel, htold⟩
      rcases (hmem _ _).mp htold with ⟨k, -, -, he⟩ | ⟨p, hp, -, he⟩
      · cases he
      · exact ⟨p, hp, statusOf_eq_failed.mp he.symm⟩
    · rintro ⟨p, hp, hfailed⟩
      exact ⟨p.1, (hmem _ _).mpr (Or.inr ⟨p, hp, rfl, (statusOf_eq_failed.mpr hfailed).symm⟩)⟩
  · rw [mem_statuses, List.length_pos_iff_exists_mem]
    constructor
    · rintro ⟨channel, htold⟩
      rcases (hmem _ _).mp htold with ⟨k, hk, -, -⟩ | ⟨p, -, -, he⟩
      · exact ⟨k, hk⟩
      · exact absurd he.symm (statusOf_ne_skipped _)
    · rintro ⟨k, hk⟩
      exact ⟨k.channel, (hmem _ _).mpr (Or.inl ⟨k, hk, rfl, rfl⟩)⟩

/-- The attempts, the results and the status of a delivery that has settled tell the same story.
-/
theorem sameStory (h : Settled projectID id job log w w' results)
    (hfresh : attemptsOf w id = []) (hstored : ∃ row ∈ w.notifications, row.id = id)
    (hnodup : (job.channels.getD []).Nodup)
    (hdisjoint : ∀ k ∈ job.skippedChannels, k.channel ∉ job.channels.getD []) :
    SameStory projectID id job log w' := by
  -- a channel is told of once, as skipped or with its result
  have hmem : ∀ channel status, (channel, status) ∈ told w' id ↔ _ := fun _ _ =>
    mem_told h hfresh hnodup hdisjoint
  have hrow : ∀ row ∈ attemptsOf w' id, (row.channel, row.status) ∈ told w' id := fun row hrow =>
    List.mem_map.mpr ⟨row, hrow, rfl⟩
  constructor
  -- no channel has two rows
  · rw [← keys_told, h.told, told, hfresh]
    exact nodup_upserts _ (by simp)
  -- the channels with a row are those of the job
  · intro channel
    rw [← keys_told, ← h.channels, List.mem_map, List.mem_map, List.mem_map]
    constructor
    · rintro ⟨⟨channel, status⟩, htold, rfl⟩
      rcases (hmem channel status).mp htold with ⟨k, hk, rfl, -⟩ | ⟨p, hp, rfl, -⟩
      · exact Or.inr ⟨k, hk, rfl⟩
      · exact Or.inl ⟨p, hp, rfl⟩
    · rintro (⟨p, hp, rfl⟩ | ⟨k, hk, rfl⟩)
      · exact ⟨_, (hmem p.1 _).mpr (Or.inr ⟨p, hp, rfl, rfl⟩), rfl⟩
      · exact ⟨_, (hmem k.channel _).mpr (Or.inl ⟨k, hk, rfl, rfl⟩), rfl⟩
  -- a row of a skipped channel says so
  · intro row hmemrow hchannel
    rcases (hmem _ _).mp (hrow row hmemrow) with ⟨k, hk, he, hskipped⟩ | ⟨p, hp, he, -⟩
    · exact hskipped
    · obtain ⟨k, hk, hkey⟩ := List.mem_map.mp hchannel
      refine absurd ?_ (hdisjoint k hk)
      rw [hkey, ← he, ← h.channels]
      exact List.mem_map_of_mem hp
  -- and the row of a delivered one has the result
  · intro row hmemrow hchannel
    rcases (hmem _ _).mp (hrow row hmemrow) with ⟨k, hk, he, -⟩ | ⟨p, hp, he, hstatus⟩
    · exact absurd (he ▸ hchannel) (hdisjoint k hk)
    · have hdelivered := (h.fared p hp).delivered_iff
      rw [he] at hdelivered
      rw [hstatus, statusOf_eq_sent, statusOf_eq_failed, hdelivered, Option.isNone_iff_eq_none,
        Option.isSome_iff_ne_none]
      exact ⟨Iff.rfl, Iff.rfl⟩
  · obtain ⟨updatedAt, hnotifications⟩ := h.status
    obtain ⟨row, hmemrow, hid⟩ := hstored
    rw [hnotifications]
    refine ⟨_, List.mem_map_of_mem hmemrow, ?_⟩
    rw [if_pos (by rw [hid, BEq.rfl])]
    exact hid
  -- the status of the notification is drawn from the same results
  · obtain ⟨updatedAt, hnotifications⟩ := h.status
    intro row hmemrow hid
    rw [hnotifications] at hmemrow
    obtain ⟨row', -, rfl⟩ := List.mem_map.mp hmemrow
    by_cases hrow' : (row'.id == id) = true
    · rw [if_pos hrow']
      exact story_of_settled h hfresh hnodup hdisjoint
    · rw [if_neg hrow'] at hid
      exact absurd (beq_iff_eq.mpr hid) hrow'

/-- The notification that is written to has no attempts yet. -/
def Fresh (w : World) (log : List (Answered Op.Res GoError)) : Prop :=
  ∀ arg row, (⟨.upsertByProjectJob arg, .ok row⟩ : Answered Op.Res GoError) ∈ log →
    attemptsOf w row.id = []

/-- **Attempts and status tell the same story**: a delivery whose writes succeed leaves one
row for each channel, as the channel fared, and the status that these rows add up to. -/
theorem send_sameStory {reportErrors : Bool} {out : Except GoError (Option UUID × Option GoError)}
    (h : Runs Call (Notification.send s job reportErrors) w log (ofExcept out) w')
    (hjob : trimSpace job.jobID ≠ "") (hproject : UUID.parse job.projectID = some projectID)
    (hserved : Served log) (hhonest : Honest log) (hfresh : Fresh w log)
    (hnodup : (job.channels.getD []).Nodup)
    (hdisjoint : ∀ k ∈ job.skippedChannels, k.channel ∉ job.channels.getD []) :
    ∃ id err, out = .ok (some id, err) ∧ SameStory projectID id job log w' := by
  have hnonempty : job.projectID ≠ "" := by
    intro hempty
    rw [hempty, show UUID.parse "" = none by decide +kernel] at hproject
    cases hproject
  unfold Notification.send at h
  dsimp only at h
  rw [if_neg hjob] at h
  obtain ⟨nowTs, w₁, tr₁, rfl, hcall₁, h₁⟩ := runs_served h hserved (Or.inr rfl)
  obtain rfl := call_reads hcall₁ rfl
  rw [if_neg hnonempty, hproject] at h₁
  have hserved₁ : Served tr₁ := hserved.mono fun c hc => List.mem_cons_of_mem _ hc
  obtain ⟨newID, w₂, tr₂, rfl, hcall₂, h₂⟩ := runs_served h₁ hserved₁ (Or.inr rfl)
  obtain rfl := call_reads hcall₂ rfl
  have hserved₂ : Served tr₂ := hserved₁.mono fun c hc => List.mem_cons_of_mem _ hc
  obtain ⟨row, w₃, tr₃, rfl, hcall₃, h₃⟩ := runs_served h₂ hserved₂ (Or.inl rfl)
  obtain ⟨hstored, hstatus, hattempts⟩ := call_upsert hcall₃
  have hserved₃ : Served tr₃ := hserved₂.mono fun c hc => List.mem_cons_of_mem _ hc
  have hhonest₃ : Honest tr₃ := hhonest.mono fun c hc =>
    List.mem_cons_of_mem _ (List.mem_cons_of_mem _ (List.mem_cons_of_mem _ hc))
  have hempty : attemptsOf w₃ row.id = [] := by
    rw [attemptsOf, hattempts]
    exact hfresh _ row (List.mem_cons_of_mem _ (List.mem_cons_of_mem _ (List.mem_cons_self ..)))
  rcases runs_bind h₃ with ⟨e, hfailed, -⟩ | ⟨⟨id, err⟩, w₄, tr₄, tr₅, rfl, hdeliver, h₄⟩
  · obtain ⟨err, results, hout, -⟩ := runs_deliverJob hstatus
      (show Runs Call _ _ _ (ofExcept (.error e)) _ from hfailed) hserved₃ hhonest₃ hnodup
    cases hout
  obtain ⟨rfl, hout, rfl⟩ := runs_ret h₄
  obtain ⟨err', results, hout', hsettled⟩ := runs_deliverJob hstatus
    (show Runs Call _ _ _ (ofExcept (.ok (id, err))) _ from hdeliver) hserved₃.left hhonest₃.left
    hnodup
  cases hout'
  refine ⟨row.id, err, ofExcept_injective hout, ?_⟩
  -- before the delivery, no providers are looked up
  let opening : List (Answered Op.Res GoError) := [⟨Op.now, .ok nowTs⟩, ⟨Op.newUUID, .ok newID⟩,
    ⟨Op.upsertByProjectJob (notificationRow { job with jobID := trimSpace job.jobID } projectID
      newID .pending nowTs), .ok row⟩]
  have hopening : ∀ channel, ∀ c ∈ opening, c.1 ≠ .listByChannel projectID channel := by
    simp [opening]
  have hextended : Settled projectID row.id job (opening ++ tr₄ ++ []) w₃ w' results :=
    { hsettled with
      fared := fun p hp => (hsettled.fared p hp).extend (hopening p.1) fun c hc => (by cases hc) }
  rw [List.append_assoc] at hextended
  exact sameStory hextended hempty ⟨row, hstored, rfl⟩ hnodup hdisjoint

end Delivery

/-! ### A delivery by three channels -/

namespace Sample

/-- E-mail has a provider, there is none for SMS, and push is skipped. -/
def threeChannels : NotificationJob :=
  { job with
    channels := some ["email", "sms"]
    skippedChannels := [⟨"push", "subscriber has no push target"⟩] }

/-- Every provider delivers to one address; new ids are new. -/
def delivering (op : Op) (w : World) : Except GoError op.Res × World :=
  match op with
  | .send _ _ _ => (.ok ([⟨"user@example.com", none⟩], none), w)
  | .newUUID => (.ok (UUID.ofDigit (8 + w.deliveryAttempts.length)), w)
  | op => World.answer op w

theorem call_delivering (op : Op) (w : World) :
    Call op w (delivering op w).1 (delivering op w).2 := by
  cases op with
  | send provider job config => exact .send provider job config w _
  | newUUID => exact .newUUID w _
  | _ => exact .answer _ w

end Sample

/-- A send by three channels. -/
theorem send_sameStory_threeChannels : ∃ log out w',
    Runs Call (Notification.send Sample.sender Sample.threeChannels false) Sample.before log
      (ofExcept out) w' ∧
    ∃ id err, out = .ok (some id, err) ∧
      SameStory (UUID.ofDigit 2) id Sample.threeChannels log w' := by
  have hruns := runs_drive Sample.call_delivering
    (Notification.send Sample.sender Sample.threeChannels false) Sample.before
  have hserved : ((Notification.send Sample.sender Sample.threeChannels false).drive
      Sample.delivering Sample.before).1.all
        (fun c => !writes c.1 || c.2.toOption.isSome) = true := by decide +kernel
  refine ⟨_, _, _, hruns, send_sameStory hruns (by decide +kernel) (UUID.parse_toString _) ?_ ?_
    (fun _ _ _ => rfl) (by decide) (by decide)⟩
  · intro op e hop hmem
    have hanswered := List.all_eq_true.mp hserved _ hmem
    rw [hop] at hanswered
    cases hanswered
  · intro provider job config attempts err hmem
    obtain ⟨w', hanswer⟩ := mem_drive hmem
    cases hanswer
    simp

end Iwifunni.Notification
