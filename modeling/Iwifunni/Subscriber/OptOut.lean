/-
Iwifunni/Subscriber/OptOut.lean

What the service operations do to the stored status of a channel.

Two operations rewrite subscribers: `subscriber.Service.Update`, and `PrepareJob`
with a "to" that brings a name or an address.  Both set the whole status column,

    Update        'subscribed' for every channel with an address
    PrepareJob    'subscribed' for all three channels

so that no write keeps 'unsubscribed' or 'bounced'.  `step_get` says which row an
operation leaves; everything else is a case analysis over it.
-/
import Iwifunni.Notification.Service
import Iwifunni.Subscriber.Service

namespace Iwifunni.Subscriber

open Go Db Effect Effect.Prog Store

/-! ### Operations -/

/-- The operations that rewrite subscribers. -/
inductive Operation
  /-- `subscriber.Service.Update` -/
  | update (input : UpdateInput)
  /-- `notification.Service.PrepareJob` -/
  | prepare (job : NotificationJob)

def Operation.program (s : Notification.Service) : Operation → Act Unit
  | update input => do
      let _ ← Subscriber.update input
      ret ()
  | prepare job => do
      let _ ← Notification.prepareJob s job
      ret ()

/-- An operation and the circumstances it runs under. -/
structure Attempt where
  operation : Operation
  circumstances : Circumstances

/-- The world after an operation. -/
def step (s : Notification.Service) (w : World) (a : Attempt) : World :=
  (a.circumstances.run (a.operation.program s) w).2.2

/-- The world after a sequence of operations. -/
def after (s : Notification.Service) (w : World) (as : List Attempt) : World :=
  as.foldl (step s) w

/-! ### Status and address of a channel -/

/-- The stored status of a channel. -/
def storedStatus (channel : String) (row : Subscriber) : String :=
  Notification.channelStatus channel (Notification.parseSubscriberChannelStatus row.status)

/-- The subscriber opted out of the channel, or mail to it bounced. -/
def OptedOut (channel : String) (row : Subscriber) : Prop :=
  storedStatus channel row = "unsubscribed" ∨ storedStatus channel row = "bounced"

/-- The address of a channel. -/
def contact (channel : String) (row : Subscriber) : Option String :=
  if channel = "email" then row.email
  else if channel = "sms" then row.phone
  else if channel = "push" then row.pushToken
  else none

/-- The channel gets a different address. -/
def Readdressed (channel : String) (row row' : Subscriber) : Prop :=
  ∃ address, contact channel row' = some address ∧ contact channel row ≠ some address

/-! ### The statement an operation makes -/

/-- The UPDATE of a row that an operation asks for. -/
def Operation.params (row : Subscriber) : Operation → Option SubscriberParams
  | update input =>
      match buildUpdateParams input with
      | .ok params =>
          if input.id = row.id ∧ input.environmentID = row.environmentID then some params
          else none
      | .error _ => none
  | prepare job => do
      let target ← job.toSubscriber
      let projectID ← UUID.parse job.projectID
      let subscriberID ← UUID.parse target.subscriberID
      if subscriberID = row.id ∧ projectID = row.environmentID ∧
          Notification.hasUpdates target = true then
        some (Notification.sendTimeUpdate target
          (Notification.sendTimeName target (trimSpace job.workflowID)) row)
      else none

/-- The calls of an operation up to its UPDATE. -/
def Operation.callsToUpdate : Operation → List ℕ
  | update _ => [0]
  | prepare _ => [0, 1]

/-- The UPDATE of a row that an operation carries out: the row is not deleted, it
keeps an address, and no statement fails. -/
def Attempt.write (a : Attempt) (row : Subscriber) : Option SubscriberParams :=
  (a.operation.params row).filter fun p =>
    row.deletedAt.isNone && hasContact p &&
      a.operation.callsToUpdate.all fun n => (a.circumstances.fails n).isNone

/-- The row an operation leaves. -/
def Attempt.rowAfter (a : Attempt) (row : Subscriber) : Subscriber :=
  ((a.write row).map writtenSubscriber).getD row

/-! ### What the calls do to a row -/

/-- The calls other than an UPDATE of a subscriber. -/
def NoUpdate : Op → Prop
  | .updateSubscriber _ => False
  | _ => True

/-- The calls that write no subscriber. -/
def NoWrite : Op → Prop
  | .createSubscriber _ => False
  | .updateSubscriber _ => False
  | _ => True

variable {w : World} {x : UUID} {row : Subscriber}

/-- An INSERT leaves the rows that are there. -/
theorem answer_createSubscriber_get (arg : SubscriberParams)
    (h : w.subscribers.get x = some row) :
    (World.answer (.createSubscriber arg) w).2.subscribers.get x = some row := by
  simp only [World.answer]
  split
  · exact h
  · next hnone =>
    split
    · have hne : x ≠ (writtenSubscriber arg).id := by
        rintro rfl
        rw [show w.subscribers.get (writtenSubscriber arg).id = none from hnone] at h
        cases h
      exact (Table.get_set_of_ne hne).trans h
    · exact h

/-- Only an INSERT or an UPDATE of subscribers changes their table. -/
theorem answer_noWrite_subscribers {op : Op} (hop : NoWrite op) :
    (World.answer op w).2.subscribers = w.subscribers := by
  have hmodify : ∀ id environmentID f,
      (w.modifyIntegration id environmentID f).2.subscribers = w.subscribers := by
    intro id environmentID f
    unfold World.modifyIntegration
    split
    · rfl
    · dsimp only
      split <;> rfl
  cases op with
  | updateSubscriber => exact hop.elim
  | createSubscriber => exact hop.elim
  | updateIntegration => exact hmodify ..
  | updateIntegrationState => exact hmodify ..
  | upsertByProjectJob arg =>
      simp only [World.answer]
      split
      · rfl
      · split <;> rfl
  | insertDeliveryAttempt arg =>
      simp only [World.answer]
      split
      · rfl
      · split <;> rfl
  | createIntegration arg =>
      simp only [World.answer]
      split <;> rfl
  | _ => rfl

/-- Without an UPDATE the row stays. -/
theorem answer_noUpdate_get {op : Op} (hop : NoUpdate op)
    (h : w.subscribers.get x = some row) :
    (World.answer op w).2.subscribers.get x = some row := by
  cases op with
  | updateSubscriber => exact hop.elim
  | createSubscriber arg => exact answer_createSubscriber_get arg h
  | _ =>
      rw [answer_noWrite_subscribers]
      · exact h
      · exact True.intro

/-- An UPDATE changes the row it is for, if there is one and the constraint allows it. -/
theorem answer_updateSubscriber_get (arg : SubscriberParams)
    (h : w.subscribers.get x = some row) :
    (World.answer (.updateSubscriber arg) w).2.subscribers.get x
      = some (if arg.id = row.id ∧ arg.environmentID = row.environmentID ∧
          row.deletedAt.isNone = true ∧ hasContact arg = true then
          writtenSubscriber arg else row) := by
  have hid : row.id = x := w.subscribers.keyed h
  by_cases hx : arg.id = row.id
  · have hget : w.subscribers.get arg.id = some row := by rw [hx, hid, h]
    have hkey : ((w.subscribers.set (writtenSubscriber arg)).get x)
        = some (writtenSubscriber arg) := Table.get_set_of_eq (hx.trans hid)
    -- the WHERE clause selects the row
    by_cases hfound : arg.environmentID = row.environmentID ∧ row.deletedAt.isNone = true
    · have hf : (w.subscribers.get arg.id).filter (fun r =>
          r.environmentID == arg.environmentID && r.deletedAt.isNone) = some row := by
        rw [hget, Option.filter_some, hfound.1, hfound.2]
        simp
      simp only [World.answer, hf]
      -- the CHECK lets the new row in
      by_cases hc : hasContact arg = true
      · rw [if_pos hc, if_pos ⟨hx, hfound.1, hfound.2, hc⟩]
        exact hkey
      · rw [if_neg hc, if_neg fun hall => hc hall.2.2.2]
        exact h
    · have hf : (w.subscribers.get arg.id).filter (fun r =>
          r.environmentID == arg.environmentID && r.deletedAt.isNone) = none := by
        rw [hget, Option.filter_some, if_neg]
        rw [Bool.and_eq_true, beq_iff_eq]
        exact fun hall => hfound ⟨hall.1.symm, hall.2⟩
      simp only [World.answer, hf]
      rw [if_neg fun hall => hfound ⟨hall.2.1, hall.2.2.1⟩]
      exact h
  · have hne : x ≠ (writtenSubscriber arg).id := fun he => hx (he.symm.trans hid.symm)
    rw [if_neg fun hall => hx hall.1]
    simp only [World.answer]
    split
    · exact h
    · split
      · exact (Table.get_set_of_ne hne).trans h
      · exact h

/-- The rest of `PrepareJob` only reads. -/
theorem calls_prepareResolved (s : Notification.Service) (job : NotificationJob) :
    Calls NoUpdate (Notification.prepareResolved s job) :=
  Notification.calls_afterTo (fun _ _ => True.intro) (fun _ => True.intro)
    (fun _ _ _ => True.intro) (fun _ _ => True.intro)

/-! ### The row an operation leaves -/

variable {c : Circumstances}

/-- Programs that update no subscriber leave every row that is there. -/
theorem drive_noUpdate_get {p : Act α} (hp : Calls NoUpdate p) {s : World × ℕ}
    (h : s.1.subscribers.get x = some row) :
    (p.drive c.answer s).2.2.1.subscribers.get x = some row := by
  refine hp.drive (I := fun s : World × ℕ => s.1.subscribers.get x = some row) ?_ h
  intro op s hop hs
  rcases c.answer_world op s with he | he
  · rw [he, hs]
  · rw [he, answer_noUpdate_get hop hs]

/-- What a program leaves of a row is not changed by a continuation without updates. -/
theorem drive_bind_get {p : Act α} {f : α → Act β} (hf : ∀ a, Calls NoUpdate (f a))
    {s : World × ℕ} (h : (p.drive c.answer s).2.2.1.subscribers.get x = some row) :
    ((p >>= f).drive c.answer s).2.2.1.subscribers.get x = some row := by
  rw [drive_bind]
  split
  · exact drive_noUpdate_get (hf _) h
  · exact h

/-- An UPDATE under the circumstances of a run. -/
theorem answer_update_get (arg : SubscriberParams) {s : World × ℕ}
    (h : s.1.subscribers.get x = some row) :
    (c.answer (.updateSubscriber arg) s).2.1.subscribers.get x
      = some (if arg.id = row.id ∧ arg.environmentID = row.environmentID ∧
          row.deletedAt.isNone = true ∧ hasContact arg = true ∧ (c.fails s.2).isNone = true then
          writtenSubscriber arg else row) := by
  rcases hf : c.fails s.2 with - | text
  · have hans : (c.answer (.updateSubscriber arg) s).2.1
        = (World.answer (.updateSubscriber arg) s.1).2 := by
      simp only [Circumstances.answer, hf]
    rw [hans, answer_updateSubscriber_get arg h]
    simp
  · have hans : (c.answer (.updateSubscriber arg) s).2.1 = s.1 := by
      simp only [Circumstances.answer, hf, Op.fallible, if_true]
    rw [hans, h]
    simp

theorem calls_createSubscriberFromTo (projectID : UUID) (target : SubscriberTo) (name : String) :
    Calls NoUpdate (Notification.createSubscriberFromTo projectID target name) :=
  (calls_perform (show NoUpdate .newUUID from True.intro)).bind fun _ =>
    calls_perform (show NoUpdate (.createSubscriber _) from True.intro)

/-- `findOrUpdateSubscriber` and the creation that may follow, call by call. -/
theorem orCreate_findOrUpdateSubscriber (create : Act Subscriber) (projectID subscriberID : UUID)
    (target : SubscriberTo) (name : String) :
    Notification.orCreate create
        (Notification.findOrUpdateSubscriber projectID target name subscriberID)
      = .call (.getSubscriberByID subscriberID projectID) fun r => match r with
        | .error e => Notification.orCreate create (fail e)
        | .ok sub =>
            if Notification.hasUpdates target then
              .call (.updateSubscriber (Notification.sendTimeUpdate target name sub)) fun r =>
                Notification.orCreate create (ofExcept r)
            else ret sub := by
  show Prog.call _ _ = _
  congr 1
  funext r
  rcases r with e | sub
  · rfl
  · show Notification.orCreate create (if _ then _ else _) = _
    split <;> rfl

/-- The row `findOrUpdateSubscriber` leaves, with the creation that may follow. -/
theorem findOrUpdateSubscriber_get (projectID subscriberID : UUID) (target : SubscriberTo)
    (name : String) (h : w.subscribers.get x = some row) :
    ((Notification.orCreate (Notification.createSubscriberFromTo projectID target name)
      (Notification.findOrUpdateSubscriber projectID target name subscriberID)).drive
      c.answer (w, 0)).2.2.1.subscribers.get x
      = some (if (subscriberID = row.id ∧ projectID = row.environmentID ∧
            Notification.hasUpdates target = true) ∧ row.deletedAt.isNone = true ∧
          hasContact (Notification.sendTimeUpdate target name row) = true ∧
          (c.fails 0).isNone = true ∧ (c.fails 1).isNone = true then
          writtenSubscriber (Notification.sendTimeUpdate target name row) else row) := by
  have hid : row.id = x := w.subscribers.keyed h
  have hcreate := calls_createSubscriberFromTo projectID target name
  have horCreate : ∀ r, Calls NoUpdate (Notification.orCreate
      (Notification.createSubscriberFromTo projectID target name) (ofExcept r)) := by
    rintro (e | sub)
    · cases e <;> first | exact hcreate | exact True.intro
    · exact True.intro
  rw [orCreate_findOrUpdateSubscriber]
  have hdrive : ∀ r n, c.answer (.getSubscriberByID subscriberID projectID) (w, 0) = (r, w, n) →
      ∀ k : _ → Act Subscriber, (Prog.call (.getSubscriberByID subscriberID projectID) k).drive
        c.answer (w, 0) = (⟨_, r⟩ :: ((k r).drive c.answer (w, n)).1,
          ((k r).drive c.answer (w, n)).2) := by
    intro r n hr k
    rw [Prog.drive, hr]
  -- the lookup fails, finds nothing or finds a row
  rcases hf : c.fails 0 with - | text
  · rcases hg : (w.subscribers.get subscriberID).filter (fun r =>
        r.environmentID == projectID && r.deletedAt.isNone) with - | sub
    · -- the row is not found, and another one is created
      have hans : c.answer (.getSubscriberByID subscriberID projectID) (w, 0)
          = (.error .noRows, w, 1) := by
        simp only [Circumstances.answer, hf, World.answer, hg, orNoRows]
      rw [hdrive _ _ hans, if_neg]
      · exact drive_noUpdate_get (horCreate (.error .noRows)) h
      · rintro ⟨⟨rfl, rfl, -⟩, hdel, -⟩
        rw [hid, h, Option.filter_some, hdel] at hg
        simp at hg
    · have hans : c.answer (.getSubscriberByID subscriberID projectID) (w, 0)
          = (.ok sub, w, 1) := by
        simp only [Circumstances.answer, hf, World.answer, hg, orNoRows]
      obtain ⟨hget, hsub⟩ := Option.filter_eq_some_iff.mp hg
      rw [Bool.and_eq_true, beq_iff_eq] at hsub
      have hsubid : sub.id = subscriberID := w.subscribers.keyed hget
      rw [hdrive _ _ hans]
      dsimp only
      by_cases hu : Notification.hasUpdates target = true
      · rw [if_pos hu]
        refine (drive_noUpdate_get (horCreate _) (answer_update_get _ (s := (w, 1)) h)).trans ?_
        -- the row that is found is the one in question or another
        by_cases hx : subscriberID = row.id
        · have hrow : sub = row := by
            rw [hx, hid, h] at hget
            exact (Option.some.inj hget).symm
          subst hrow
          simp [Notification.sendTimeUpdate, hx, hsub.1, hu]
        · have hne : (Notification.sendTimeUpdate target name sub).id ≠ row.id :=
            fun he => hx (hsubid.symm.trans he)
          rw [if_neg fun hall => hne hall.1, if_neg fun hall => hx hall.1.1]
      · rw [if_neg hu, if_neg fun hall => hu hall.1.2.2]
        exact h
  -- a lookup that has failed is the end of it
  · have hans : c.answer (.getSubscriberByID subscriberID projectID) (w, 0)
        = (.error (.other text), w, 1) := by
      simp only [Circumstances.answer, hf, Op.fallible, if_true]
    rw [hdrive _ _ hans, if_neg]
    · exact h
    · rintro ⟨-, -, -, hcall, -⟩
      cases hcall

/-- What the dashboard writes: every channel is subscribed again. -/
theorem buildUpdateParams_ok {input : UpdateInput} {params : SubscriberParams}
    (h : buildUpdateParams input = .ok params) :
    params.id = input.id ∧ params.environmentID = input.environmentID ∧
      params.status = some (buildDefaultStatusJSON params.channels) := by
  unfold buildUpdateParams at h
  dsimp only at h
  split at h
  · cases h
  · rcases hv : validateName _ with e | u
    · rw [hv] at h
      cases h
    · rw [hv] at h
      cases h
      exact ⟨rfl, rfl, rfl⟩

/-- The row `Service.Update` leaves. -/
theorem update_get (input : UpdateInput) (h : w.subscribers.get x = some row) :
    ((Subscriber.update input).drive c.answer (w, 0)).2.2.1.subscribers.get x
      = some (Attempt.rowAfter ⟨.update input, c⟩ row) := by
  unfold Subscriber.update
  rcases hb : buildUpdateParams input with e | params
  · have hrow : Attempt.rowAfter ⟨.update input, c⟩ row = row := by
      simp [Attempt.rowAfter, Attempt.write, Operation.params, hb]
    rw [hrow]
    exact h
  · obtain ⟨hid, henv, -⟩ := buildUpdateParams_ok hb
    have hupdate : ((perform (Op.updateSubscriber params) : Act Subscriber).drive c.answer
        (w, 0)).2.2 = (c.answer (.updateSubscriber params) (w, 0)).2 := by
      show ((ofExcept _ : Act Subscriber).drive c.answer _).2.2 = _
      rw [drive_ofExcept]
    dsimp only
    rw [hupdate, answer_update_get params h, hid, henv]
    simp only [Attempt.rowAfter, Attempt.write, Operation.params, hb,
      Operation.callsToUpdate, List.all_cons, List.all_nil, Bool.and_true]
    by_cases hmatch : input.id = row.id ∧ input.environmentID = row.environmentID
    · simp only [hmatch, and_self, if_true, true_and, Option.filter_some, Bool.and_eq_true,
        ← and_assoc]
      split <;> rfl
    · rw [if_neg hmatch, if_neg fun hall => hmatch ⟨hall.1, hall.2.1⟩]
      rfl

/-- The row that resolving "to" leaves. -/
theorem resolveSubscriberFromTo_get (job : NotificationJob) (target : SubscriberTo)
    (ht : job.toSubscriber = some target) (h : w.subscribers.get x = some row) :
    ((Notification.resolveSubscriberFromTo job.projectID target
      (trimSpace job.workflowID)).drive c.answer (w, 0)).2.2.1.subscribers.get x
      = some (Attempt.rowAfter ⟨.prepare job, c⟩ row) := by
  have hunchanged : Operation.params row (.prepare job) = none →
      Attempt.rowAfter ⟨.prepare job, c⟩ row = row := by
    intro hnone
    rw [Attempt.rowAfter, Attempt.write, hnone]
    rfl
  unfold Notification.resolveSubscriberFromTo
  -- ids that do not parse update nothing
  rcases hp : UUID.parse job.projectID with - | projectID
  · rw [hunchanged]
    · exact h
    · simp only [Operation.params, ht, hp, Option.bind_eq_bind, Option.bind_some,
        Option.bind_none]
  dsimp only
  rcases hs : UUID.parse target.subscriberID with - | subscriberID
  · rw [hunchanged]
    · split
      · exact drive_noUpdate_get (calls_createSubscriberFromTo ..) h
      · exact h
    · simp only [Operation.params, ht, hp, hs, Option.bind_eq_bind, Option.bind_some,
        Option.bind_none]
  have hne : target.subscriberID ≠ "" := by
    intro hempty
    rw [hempty] at hs
    cases hs
  rw [if_neg hne]
  refine (findOrUpdateSubscriber_get projectID subscriberID target _ h).trans ?_
  simp only [Attempt.rowAfter, Attempt.write, Operation.params, ht, hp, hs,
    Operation.callsToUpdate, List.all_cons, List.all_nil, Bool.and_true,
    Option.bind_eq_bind, Option.bind_some]
  -- the UPDATE selects this row or another one
  by_cases hmatch : subscriberID = row.id ∧ projectID = row.environmentID ∧
      Notification.hasUpdates target = true
  · rw [if_pos hmatch, Option.filter_some]
    simp only [hmatch, and_self, true_and, Bool.and_eq_true, ← and_assoc]
    split <;> rfl
  · rw [if_neg hmatch, if_neg fun hall => hmatch hall.1]
    rfl

/-- The row `PrepareJob` leaves. -/
theorem prepareJob_get (s : Notification.Service) (job : NotificationJob)
    (h : w.subscribers.get x = some row) :
    ((Notification.prepareJob s job).drive c.answer (w, 0)).2.2.1.subscribers.get x
      = some (Attempt.rowAfter ⟨.prepare job, c⟩ row) := by
  rcases ht : job.toSubscriber with - | target
  · have hrow : Attempt.rowAfter ⟨.prepare job, c⟩ row = row := by
      simp [Attempt.rowAfter, Attempt.write, Operation.params, ht]
    have hprog : Notification.prepareJob s job
        = Notification.prepareResolved s (Notification.trimJob job) := by
      simp only [Notification.prepareJob, ht]
    rw [hrow, hprog]
    exact drive_noUpdate_get (calls_prepareResolved ..) h
  · have hprog : Notification.prepareJob s job
        = Notification.resolveToAndBuildRecipient (Notification.trimJob job) target >>=
            Notification.prepareResolved s := by
      simp only [Notification.prepareJob, ht]
    rw [hprog]
    refine drive_bind_get (calls_prepareResolved s) ?_
    unfold Notification.resolveToAndBuildRecipient
    exact drive_bind_get (fun _ => calls_ret _) (resolveSubscriberFromTo_get job target ht h)

/-- **The row an operation leaves**: the one its UPDATE writes, or the old one. -/
theorem step_get (s : Notification.Service) (a : Attempt) (h : w.subscribers.get x = some row) :
    (step s w a).subscribers.get x = some (a.rowAfter row) := by
  rcases a with ⟨operation, c⟩
  cases operation with
  | update input =>
      exact drive_bind_get (f := fun _ => ret ()) (fun _ => calls_ret _) (update_get input h)
  | prepare job =>
      exact drive_bind_get (f := fun _ => ret ()) (fun _ => calls_ret _) (prepareJob_get s job h)

/-! ### What a write does to the status -/

/-- Reading a status that says 'subscribed' wherever it says anything. -/
theorem lenientString_subscribed {fields : List (String × Json)} {name : String}
    (h : ∀ f ∈ fields, f.2 = .str "subscribed") :
    Notification.lenientString fields name = "" ∨
      Notification.lenientString fields name = "subscribed" := by
  have hfold : ∀ step : String → String × Json → String,
      (∀ old f, f.2 = .str "subscribed" → step old f = "subscribed") →
      ∀ (fs : List (String × Json)) (old : String), (∀ f ∈ fs, f.2 = .str "subscribed") →
      old = "" ∨ old = "subscribed" →
      fs.foldl step old = "" ∨ fs.foldl step old = "subscribed" := by
    intro step hstep fs
    induction fs with
    | nil => exact fun old _ hold => hold
    | cons f fs ih =>
        intro old hfs _
        rw [List.foldl_cons, hstep old f (hfs f (List.mem_cons_self ..))]
        exact ih _ (fun g hg => hfs g (List.mem_cons_of_mem _ hg)) (Or.inr rfl)
  exact hfold _ (fun old f hf => by rw [hf]) _ "" (fun f hf => h f (List.mem_of_mem_filter hf))
    (Or.inl rfl)

/-- **No write keeps an opt-out.** -/
theorem not_optedOut_of_write {a : Attempt} {p : SubscriberParams} {channel : String}
    (h : a.write row = some p) : ¬ OptedOut channel (writtenSubscriber p) := by
  -- the dashboard subscribes every channel, a send writes no channel at all
  have hstatus : ∃ fields, p.status = some (.obj fields) ∧
      ∀ f ∈ fields, f.2 = .str "subscribed" := by
    obtain ⟨hparams, -⟩ := Option.filter_eq_some_iff.mp h
    rcases a with ⟨input | job, c⟩
    · simp only [Operation.params] at hparams
      split at hparams
      · next params hb =>
        split at hparams
        · cases hparams
          refine ⟨_, (buildUpdateParams_ok hb).2.2, ?_⟩
          intro f hf
          obtain ⟨channel, -, rfl⟩ := List.mem_map.mp hf
          rfl
        · cases hparams
      · cases hparams
    · simp only [Operation.params, Option.bind_eq_bind, Option.bind_eq_some_iff] at hparams
      obtain ⟨target, -, projectID, -, subscriberID, -, hparams⟩ := hparams
      split at hparams
      · cases hparams
        refine ⟨_, rfl, ?_⟩
        simp
      · cases hparams
  obtain ⟨fields, hp, hfields⟩ := hstatus
  -- so whatever channel is looked up, it is subscribed or unknown
  have hstored : storedStatus channel (writtenSubscriber p) = "" ∨
      storedStatus channel (writtenSubscriber p) = "subscribed" := by
    have htrim : trimSpace "" = "" ∧ trimSpace "subscribed" = "subscribed" := by decide
    have hlenient : ∀ name, Notification.lenientString fields name = "" ∨
        Notification.lenientString fields name = "subscribed" :=
      fun _ => lenientString_subscribed hfields
    have hread : Notification.parseSubscriberChannelStatus (writtenSubscriber p).status
        = ⟨Notification.lenientString fields "email", Notification.lenientString fields "sms",
          Notification.lenientString fields "push"⟩ := by
      show Notification.parseSubscriberChannelStatus p.status = _
      rw [hp]
      rfl
    rw [storedStatus, hread, Notification.channelStatus]
    dsimp only
    split
    · rcases hlenient "email" with he | he <;> rw [he]
      · exact Or.inl htrim.1
      · exact Or.inr htrim.2
    · split
      · rcases hlenient "sms" with he | he <;> rw [he]
        · exact Or.inl htrim.1
        · exact Or.inr htrim.2
      · split
        · rcases hlenient "push" with he | he <;> rw [he]
          · exact Or.inl htrim.1
          · exact Or.inr htrim.2
        · exact Or.inl rfl
  rcases hstored with he | he <;> simp [OptedOut, he]

/-! ### Sequences of operations -/

variable (s : Notification.Service) (w : World) (as : List Attempt) (x : UUID)
  (channel : String)

/-- The row after `n` operations. -/
def rowAt (n : ℕ) : Option Subscriber :=
  (after s w (as.take n)).subscribers.get x

/-- The `n`-th operation changes the address of the channel to a different one. -/
def ReaddressedAt (n : ℕ) : Prop :=
  ∃ row row', rowAt s w as x n = some row ∧ rowAt s w as x (n + 1) = some row' ∧
    Readdressed channel row row'

/-- After `n` operations, the status of the channel is what it was, unless the
address has been changed to a different one. -/
def OptOutKept (n : ℕ) : Prop :=
  (rowAt s w as x n).map (storedStatus channel) = (rowAt s w as x 0).map (storedStatus channel) ∨
    ∃ m < n, ReaddressedAt s w as x channel m

/-- The `n`-th operation carries out an UPDATE of the row. -/
def WritesAt (n : ℕ) : Prop :=
  ∃ a row, as[n]? = some a ∧ rowAt s w as x n = some row ∧ (a.write row).isSome = true

/-- The `n`-th operation carries out an UPDATE of the row that brings a different
address of the channel. -/
def WritesAddressAt (n : ℕ) : Prop :=
  ∃ a row p, as[n]? = some a ∧ rowAt s w as x n = some row ∧ a.write row = some p ∧
    Readdressed channel row (writtenSubscriber p)

variable {s w as x channel}

theorem rowAt_succ {a : Attempt} {n : ℕ} (ha : as[n]? = some a)
    (hrow : rowAt s w as x n = some row) :
    rowAt s w as x (n + 1) = some (a.rowAfter row) := by
  have htake : as.take (n + 1) = as.take n ++ [a] := by
    rw [List.take_add_one, ha]
    rfl
  rw [rowAt, htake, after, List.foldl_append]
  exact step_get s a hrow

theorem rowAt_succ_of_none {n : ℕ} (ha : as[n]? = none) :
    rowAt s w as x (n + 1) = rowAt s w as x n := by
  rw [rowAt, rowAt, List.take_add_one, ha, Option.toList_none, List.append_nil]

/-- The row never goes away. -/
theorem rowAt_isSome (h : w.subscribers.get x = some row) (n : ℕ) :
    ∃ row', rowAt s w as x n = some row' := by
  induction n with
  | zero => exact ⟨row, h⟩
  | succ n ih =>
      obtain ⟨row', hrow'⟩ := ih
      rcases ha : as[n]? with - | a
      · exact ⟨row', (rowAt_succ_of_none ha).trans hrow'⟩
      · exact ⟨_, rowAt_succ ha hrow'⟩

/-- Addresses change by UPDATE only. -/
theorem readdressedAt_iff (n : ℕ) :
    ReaddressedAt s w as x channel n ↔ WritesAddressAt s w as x channel n := by
  constructor
  · rintro ⟨row₁, row₂, h₁, h₂, address, hnew, hold⟩
    rcases ha : as[n]? with - | a
    · rw [rowAt_succ_of_none ha, h₁] at h₂
      cases h₂
      exact absurd hnew hold
    · rw [rowAt_succ ha h₁] at h₂
      rcases hw : a.write row₁ with - | p
      · rw [Attempt.rowAfter, hw] at h₂
        cases h₂
        exact absurd hnew hold
      · rw [Attempt.rowAfter, hw] at h₂
        cases h₂
        exact ⟨a, row₁, p, ha, h₁, hw, address, hnew, hold⟩
  · rintro ⟨a, row₁, p, ha, h₁, hw, hre⟩
    refine ⟨row₁, _, h₁, rowAt_succ ha h₁, ?_⟩
    rwa [Attempt.rowAfter, hw]

/-- **Opt-outs survive exactly the sequences of operations in which every UPDATE of
the row comes with, or after, a different address of the channel.** -/
theorem optOut_kept_iff (h : w.subscribers.get x = some row) (hout : OptedOut channel row) :
    (∀ n, OptOutKept s w as x channel n) ↔
      ∀ n, WritesAt s w as x n → ∃ m ≤ n, WritesAddressAt s w as x channel m := by
  have h0 : rowAt s w as x 0 = some row := h
  constructor
  · rintro hkept n ⟨a, row₁, ha, h₁, hw⟩
    obtain ⟨p, hp⟩ := Option.isSome_iff_exists.mp hw
    rcases hkept (n + 1) with hsame | ⟨m, hm, hre⟩
    · -- the write has lost the status
      have h₂ := rowAt_succ ha h₁
      rw [Attempt.rowAfter, hp] at h₂
      rw [h₂, h0] at hsame
      have hstatus : storedStatus channel (writtenSubscriber p) = storedStatus channel row :=
        Option.some.inj hsame
      have hlost : ¬ OptedOut channel (writtenSubscriber p) := not_optedOut_of_write hp
      rw [OptedOut, hstatus] at hlost
      exact absurd hout hlost
    · exact ⟨m, Nat.le_of_lt_succ hm, (readdressedAt_iff m).mp hre⟩
  · intro hcond n
    by_cases hre : ∃ m < n, WritesAddressAt s w as x channel m
    · obtain ⟨m, hm, hwm⟩ := hre
      exact Or.inr ⟨m, hm, (readdressedAt_iff m).mpr hwm⟩
    · -- up to `n` there is no UPDATE at all
      have hrow : ∀ k ≤ n, rowAt s w as x k = some row := by
        intro k
        induction k with
        | zero => exact fun _ => h0
        | succ k ih =>
            intro hk
            have hk' := ih (Nat.le_of_succ_le hk)
            rcases ha : as[k]? with - | a
            · rw [rowAt_succ_of_none ha, hk']
            · rcases hw : a.write row with - | p
              · rw [rowAt_succ ha hk', Attempt.rowAfter, hw]
                rfl
              · obtain ⟨m, hm, hwm⟩ := hcond k ⟨a, row, ha, hk', by rw [hw]; rfl⟩
                exact absurd ⟨m, Nat.lt_of_le_of_lt hm hk, hwm⟩ hre
      refine Or.inl ?_
      rw [hrow n le_rfl, h0]

/-! ### A renamed subscriber -/

namespace Sample

def service : Notification.Service where
  render subject body _ := .ok (subject, body)
  decrypt _ _ := .error "no key"
  encryptionKey := ""
  dispatcher := false

/-- Ada does not want e-mail. -/
def ada : Subscriber where
  id := UUID.ofDigit 1
  environmentID := UUID.ofDigit 2
  name := "Ada"
  firstName := none
  lastName := none
  email := some "ada@example.org"
  phone := none
  pushToken := none
  channels := ["email"]
  status := some (.obj [("email", .str "unsubscribed")])
  tags := []
  preferences := some (.obj [])
  metadata := some (.obj [])

def world : World where
  subscribers := (Table.empty _).set ada
  workflows := Table.empty _
  templates := Table.empty _
  users := Table.empty _
  notifications := []
  deliveryAttempts := []
  integrations := []

/-- Her name is corrected, her address stays. -/
def rename : Attempt where
  operation := .update {
    id := UUID.ofDigit 1
    environmentID := UUID.ofDigit 2
    name := "Ada L."
    firstName := none
    lastName := none
    email := some "ada@example.org"
    phone := none
    pushToken := none
    tags := []
    metadata := none
    preferences := none }
  circumstances := {}

end Sample

theorem optOut_kept_iff_rename :
    (∀ n, OptOutKept Sample.service Sample.world [Sample.rename] (UUID.ofDigit 1) "email" n) ↔
      ∀ n, WritesAt Sample.service Sample.world [Sample.rename] (UUID.ofDigit 1) n →
        ∃ m ≤ n, WritesAddressAt Sample.service Sample.world [Sample.rename] (UUID.ofDigit 1)
          "email" m :=
  have hrow : Sample.world.subscribers.get (UUID.ofDigit 1) = some Sample.ada := rfl
  optOut_kept_iff hrow (Or.inl (by decide))

/-- Correcting the name subscribes her again. -/
theorem optOut_lost_by_rename : OptedOut "email" Sample.ada ∧
    ¬ OptOutKept Sample.service Sample.world [Sample.rename] (UUID.ofDigit 1) "email" 1 := by
  have h0 : rowAt Sample.service Sample.world [Sample.rename] (UUID.ofDigit 1) 0
      = some Sample.ada := rfl
  have h1 : (rowAt Sample.service Sample.world [Sample.rename] (UUID.ofDigit 1) 1).map
      (fun r => (storedStatus "email" r, contact "email" r))
      = some ("subscribed", some "ada@example.org") := by decide +kernel
  refine ⟨Or.inl (by decide), ?_⟩
  obtain ⟨row, hrow, hpair⟩ := Option.map_eq_some_iff.mp h1
  rw [Prod.mk.injEq] at hpair
  rintro (hsame | ⟨m, hm, row₀, row₁, hm0, hm1, address, hnew, hold⟩)
  · rw [hrow, h0, Option.map_some, Option.map_some, hpair.1] at hsame
    exact absurd hsame (by decide)
  · obtain rfl : m = 0 := by omega
    rw [h0] at hm0
    rw [hrow] at hm1
    cases hm0
    cases hm1
    rw [hpair.2] at hnew
    exact hold hnew

end Iwifunni.Subscriber
