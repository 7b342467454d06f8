/-
Iwifunni/Subscriber/Addressing.lean

Sending to one subscriber id again and again.

`PrepareJob` looks up the id that "to" carries and updates the row it finds.  A row
that is not found is created, but under an id of its own:

    found        every send resolves to the row, and none creates one
    not found    a send creates a row, and the next one again finds nothing

so a sequence of sends keeps to one row exactly if the row is there from the start,
or at most one of the sends gets through to the table.
-/
import Iwifunni.Subscriber.OptOut

namespace Iwifunni.Subscriber

open Go Db Effect Effect.Prog Store

variable {s : Notification.Service} {w : World} {environmentID subscriberID : UUID}

/-! ### Sends to a subscriber id -/

/-- The row that `GetSubscriberByID` finds. -/
def found (w : World) (environmentID subscriberID : UUID) : Option Db.Subscriber :=
  (w.subscribers.get subscriberID).filter fun r =>
    r.environmentID == environmentID && r.deletedAt.isNone

/-- "to" brings an address. -/
def BringsContact (target : SubscriberTo) : Prop :=
  trimSpace target.email ≠ "" ∨ trimSpace target.phone ≠ "" ∨ trimSpace target.push ≠ ""

instance (target : SubscriberTo) : Decidable (BringsContact target) :=
  inferInstanceAs (Decidable (_ ∨ _ ∨ _))

/-- A call of `PrepareJob` whose "to" carries a subscriber id. -/
structure Send (environmentID subscriberID : UUID) where
  job : NotificationJob
  target : SubscriberTo
  circumstances : Circumstances
  addressed : job.toSubscriber = some target
  project : UUID.parse job.projectID = some environmentID
  subscriber : UUID.parse target.subscriberID = some subscriberID

namespace Send

variable (a : Send environmentID subscriberID)

/-- The name of a subscriber that is updated or created. -/
def name : String :=
  Notification.sendTimeName a.target (trimSpace a.job.workflowID)

/-- The id `uuid.New` answers, should a row be created. -/
def newID : UUID := a.circumstances.uuid 1

/-- Neither the lookup nor the write fails.  The row that is not found is written
after the call for its id. -/
def through (known : Bool) : Bool :=
  (a.circumstances.fails 0).isNone && (a.circumstances.fails (if known then 1 else 2)).isNone

/-- Resolving "to": the calls, the outcome, and the state it leaves. -/
def resolution (w : World) :
    List (Answered Op.Res GoError) × Except GoError Db.Subscriber × World × ℕ :=
  (Notification.resolveSubscriberFromTo a.job.projectID a.target
    (trimSpace a.job.workflowID)).drive a.circumstances.answer (w, 0)

/-- The row a send resolves to. -/
def resolvesTo (w : World) : Option UUID := (a.resolution w).2.1.toOption.map (·.id)

/-- The whole send. -/
def run (s : Notification.Service) (w : World) :
    List (Answered Op.Res GoError) × Except GoError NotificationJob × World :=
  a.circumstances.run (Notification.prepareJob s a.job) w

end Send

/-- The rows that have been created. -/
def createdIn (log : List (Answered Op.Res GoError)) : List Db.Subscriber :=
  log.filterMap fun
    | ⟨.createSubscriber _, .ok row⟩ => some row
    | _ => none

/-- The sends one after the other, each with the world it starts in. -/
def started (s : Notification.Service) :
    World → List (Send environmentID subscriberID) → List (Send environmentID subscriberID × World)
  | _, [] => []
  | w, a :: as => (a, w) :: started s (a.run s w).2.2 as

/-- The rows that the sends create together. -/
def created (s : Notification.Service) (w : World)
    (sends : List (Send environmentID subscriberID)) : List Db.Subscriber :=
  (started s w sends).flatMap fun p => createdIn (p.1.run s p.2).1

/-- The sends keep to one row: every send that gets through resolves to it, no send
resolves to another one, and at most one row is created. -/
structure OneRow (s : Notification.Service) (w : World)
    (sends : List (Send environmentID subscriberID)) : Prop where
  resolved : ∃ x, ∀ p ∈ started s w sends, p.1.resolvesTo p.2 = some x ∨
    (p.1.resolvesTo p.2 = none ∧
      p.1.through (found p.2 environmentID subscriberID).isSome = false)
  created : (created s w sends).length ≤ 1

/-- `uuid.New` has never answered any of these ids before. -/
structure Unused (w : World) (subscriberID : UUID) (ids : List UUID) : Prop where
  distinct : ids.Nodup
  addressed : ∀ id ∈ ids, id ≠ subscriberID
  free : ∀ id ∈ ids, w.subscribers.get id = none

/-! ### A send resolves "to", and writes no subscriber afterwards -/

theorem createdIn_append (log log' : List (Answered Op.Res GoError)) :
    createdIn (log ++ log') = createdIn log ++ createdIn log' :=
  List.filterMap_append

theorem createdIn_noWrite {log : List (Answered Op.Res GoError)}
    (h : ∀ c ∈ log, NoWrite c.1) : createdIn log = [] := by
  apply List.filterMap_eq_nil_iff.mpr
  rintro ⟨op, r⟩ hc
  have hop := h _ hc
  cases op with
  | createSubscriber => exact hop.elim
  | _ => rfl

/-- Programs that write no subscriber leave the table as it is. -/
theorem drive_noWrite_subscribers {c : Circumstances} {p : Act α} (hp : Calls NoWrite p)
    (x : World × ℕ) : (p.drive c.answer x).2.2.1.subscribers = x.1.subscribers := by
  refine hp.drive (I := fun y : World × ℕ => y.1.subscribers = x.1.subscribers) ?_ rfl
  intro op y hop hy
  rcases c.answer_world op y with he | he
  · rw [he, hy]
  · rw [he, answer_noWrite_subscribers hop, hy]

theorem drive_bind_subscribers {c : Circumstances} {f : α → Act β}
    (hf : ∀ a, Calls NoWrite (f a)) (p : Act α) (x : World × ℕ) :
    ((p >>= f).drive c.answer x).2.2.1.subscribers
      = (p.drive c.answer x).2.2.1.subscribers := by
  rw [drive_bind]
  split
  · exact drive_noWrite_subscribers (hf _) _
  · rfl

/-- The recipient that `resolveToAndBuildRecipient` builds. -/
def recipientOf (r : Recipient) (sub : Db.Subscriber) : Recipient where
  email := match sub.email with
    | some email => trimSpace email
    | none => r.email
  phoneNumber := match sub.phone with
    | some phone => trimSpace phone
    | none => r.phoneNumber
  pushTokens := match sub.pushToken with
    | some push => [trimSpace push]
    | none => r.pushTokens
  reference := sub.id.toString

/-- What follows the resolution of "to". -/
def Send.rest (a : Send environmentID subscriberID) (s : Notification.Service)
    (sub : Db.Subscriber) : Act NotificationJob :=
  Notification.prepareResolved s { Notification.trimJob a.job with
    subscriberID := sub.id.toString
    recipient := recipientOf a.job.recipient sub }

theorem Send.calls_rest (a : Send environmentID subscriberID) (sub : Db.Subscriber) :
    Calls NoWrite (a.rest s sub) :=
  Notification.calls_afterTo (fun _ _ => True.intro) (fun _ => True.intro)
    (fun _ _ _ => True.intro) (fun _ _ => True.intro)

theorem Send.prepareJob_eq (a : Send environmentID subscriberID) :
    Notification.prepareJob s a.job
      = Notification.resolveSubscriberFromTo a.job.projectID a.target
          (trimSpace a.job.workflowID) >>= a.rest s := by
  have heq : Notification.prepareJob s a.job
      = Notification.resolveToAndBuildRecipient (Notification.trimJob a.job) a.target >>=
          Notification.prepareResolved s := by
    simp only [Notification.prepareJob, a.addressed]
  rw [heq, Notification.resolveToAndBuildRecipient, bind_assoc]
  rfl

/-- A send whose "to" is resolved goes on with the subscriber. -/
theorem Send.run_of_ok {a : Send environmentID subscriberID} {log} {sub : Db.Subscriber}
    {x : World × ℕ} (h : a.resolution w = (log, .ok sub, x)) :
    (a.run s w).1 = log ++ ((a.rest s sub).drive a.circumstances.answer x).1 ∧
      (a.run s w).2.1 = ((a.rest s sub).drive a.circumstances.answer x).2.1 := by
  have hres : (Notification.resolveSubscriberFromTo a.job.projectID a.target
      (trimSpace a.job.workflowID)).drive a.circumstances.answer (w, 0) = (log, .ok sub, x) := h
  unfold Send.run Circumstances.run
  rw [a.prepareJob_eq, drive_bind_ok (congrArg (·.2.1) hres), hres]
  exact ⟨rfl, rfl⟩

/-- A send whose "to" is not resolved ends there. -/
theorem Send.run_of_error {a : Send environmentID subscriberID} {log} {e : GoError}
    {x : World × ℕ} (h : a.resolution w = (log, .error e, x)) : (a.run s w).1 = log := by
  have hres : (Notification.resolveSubscriberFromTo a.job.projectID a.target
      (trimSpace a.job.workflowID)).drive a.circumstances.answer (w, 0) = (log, .error e, x) := h
  unfold Send.run Circumstances.run
  rw [a.prepareJob_eq, drive_bind_error (congrArg (·.2.1) hres), hres]

/-- The calls of the resolution are calls of the send. -/
theorem Send.mem_run {a : Send environmentID subscriberID} {c : Answered Op.Res GoError}
    (h : c ∈ (a.resolution w).1) : c ∈ (a.run s w).1 := by
  unfold Send.run Circumstances.run
  rw [a.prepareJob_eq]
  obtain ⟨log, hlog, -⟩ := drive_bind_log a.circumstances.answer (a.calls_rest (s := s))
    (Notification.resolveSubscriberFromTo a.job.projectID a.target
      (trimSpace a.job.workflowID)) (w, 0)
  show c ∈ (drive _ _ _).1
  rw [hlog]
  exact List.mem_append_left _ h

/-- The rows a send creates are created while "to" is resolved, and so is the table it
leaves. -/
theorem Send.run_eq (a : Send environmentID subscriberID) (w : World) :
    createdIn (a.run s w).1 = createdIn (a.resolution w).1 ∧
      (a.run s w).2.2.subscribers = (a.resolution w).2.2.1.subscribers := by
  unfold Send.run Circumstances.run Send.resolution
  rw [a.prepareJob_eq]
  constructor
  · obtain ⟨log, hlog, hnone⟩ := drive_bind_log a.circumstances.answer (a.calls_rest (s := s))
      (Notification.resolveSubscriberFromTo a.job.projectID a.target
        (trimSpace a.job.workflowID)) (w, 0)
    show createdIn (drive _ _ _).1 = _
    rw [hlog, createdIn_append, createdIn_noWrite hnone, List.append_nil]
  · exact drive_bind_subscribers a.calls_rest _ _

theorem found_congr {w w' : World} (h : w.subscribers = w'.subscribers) :
    found w environmentID subscriberID = found w' environmentID subscriberID := by
  rw [found, found, h]

/-! ### Addresses of a row -/

/-- The row has an address that is not empty. -/
def Reachable (row : Db.Subscriber) : Prop :=
  row.email.getD "" ≠ "" ∨ row.phone.getD "" ≠ "" ∨ row.pushToken.getD "" ≠ ""

theorem isSome_strPtr {t : String} : (Notification.strPtr t).isSome = true ↔ t ≠ "" := by
  unfold Notification.strPtr
  split <;> simp [*]

theorem getD_strPtr (t : String) : (Notification.strPtr t).getD "" = t := by
  unfold Notification.strPtr
  split
  · next h => rw [h]; rfl
  · rfl

theorem coalesce_ne_empty {t : String} {old : Option String} :
    Notification.coalesce t old ≠ "" ↔ t ≠ "" ∨ old.getD "" ≠ "" := by
  unfold Notification.coalesce
  split <;> simp [*]

theorem or_pairs {a b c a' b' c' : Prop} :
    ((a ∨ a') ∨ b ∨ b') ∨ c ∨ c' ↔ (a ∨ b ∨ c) ∨ a' ∨ b' ∨ c' := by
  tauto

/-- The check constraint of an INSERT. -/
theorem hasContact_created {id : UUID} {target : SubscriberTo} {name : String} :
    hasContact (Notification.createdSubscriber environmentID id target name) = true
      ↔ BringsContact target := by
  simp only [hasContact, Notification.createdSubscriber, Bool.or_eq_true, isSome_strPtr, or_assoc,
    BringsContact]

/-- The check constraint of an UPDATE. -/
theorem hasContact_sendTime {target : SubscriberTo} {name : String} {row : Db.Subscriber} :
    hasContact (Notification.sendTimeUpdate target name row) = true
      ↔ BringsContact target ∨ Reachable row := by
  simp only [hasContact, Notification.sendTimeUpdate, Bool.or_eq_true, isSome_strPtr,
    coalesce_ne_empty, BringsContact, Reachable]
  exact or_pairs

theorem reachable_sendTime {target : SubscriberTo} {name : String} {row : Db.Subscriber} :
    Reachable (writtenSubscriber (Notification.sendTimeUpdate target name row))
      ↔ BringsContact target ∨ Reachable row := by
  simp only [Reachable, writtenSubscriber, Notification.sendTimeUpdate, getD_strPtr,
    coalesce_ne_empty, BringsContact]
  exact or_assoc.symm.trans or_pairs

theorem hasUpdates_of_bringsContact {target : SubscriberTo} (h : BringsContact target) :
    Notification.hasUpdates target = true := by
  simp only [Notification.hasUpdates, Bool.or_eq_true, bne_iff_ne]
  rcases h with h | h | h
  · exact Or.inl (Or.inl (Or.inr h))
  · exact Or.inl (Or.inr h)
  · exact Or.inr h

/-! ### One send -/

namespace Send

variable (a : Send environmentID subscriberID)

/-- The creation that may follow. -/
def create : Act Db.Subscriber :=
  Notification.createSubscriberFromTo environmentID a.target a.name

/-- The row a send creates. -/
def createdRow : Db.Subscriber :=
  writtenSubscriber (Notification.createdSubscriber environmentID a.newID a.target a.name)

/-- The row a send writes over another one. -/
def updatedRow (row : Db.Subscriber) : Db.Subscriber :=
  writtenSubscriber (Notification.sendTimeUpdate a.target a.name row)

/-- The resolution of "to" after the lookup. -/
def afterLookup (r : Except GoError Db.Subscriber) : Act Db.Subscriber :=
  Notification.orCreate a.create (ofExcept r >>= fun sub =>
    if Notification.hasUpdates a.target then
      perform (Op.updateSubscriber (Notification.sendTimeUpdate a.target a.name sub))
    else ret sub)

/-- A resolution begins with the lookup. -/
theorem resolution_eq (w : World) :
    a.resolution w = Prog.drive a.circumstances.answer
      (.call (.getSubscriberByID subscriberID environmentID) a.afterLookup) (w, 0) := by
  have hne : a.target.subscriberID ≠ "" := by
    intro hempty
    have hsub := a.subscriber
    rw [hempty] at hsub
    cases hsub
  unfold resolution Notification.resolveSubscriberFromTo
  rw [a.project, a.subscriber]
  dsimp only
  rw [if_neg hne]
  rfl

/-- What a send does once its lookup is answered. -/
theorem resolution_of_lookup {r : Except GoError Db.Subscriber}
    (h : a.circumstances.answer (.getSubscriberByID subscriberID environmentID) (w, 0) = (r, w, 1)) :
    a.resolution w = (⟨.getSubscriberByID subscriberID environmentID, r⟩ ::
      ((a.afterLookup r).drive a.circumstances.answer (w, 1)).1,
      ((a.afterLookup r).drive a.circumstances.answer (w, 1)).2) := by
  rw [a.resolution_eq, Prog.drive, h]

/-- A lookup that fails ends the send. -/
theorem resolution_fault {text : String} (hf : a.circumstances.fails 0 = some text) :
    a.resolution w = ([⟨.getSubscriberByID subscriberID environmentID, .error (.other text)⟩],
      .error (.other text), w, 1) :=
  a.resolution_of_lookup (Circumstances.answer_fault rfl hf)

/-- The row is found. -/
theorem resolution_found {row : Db.Subscriber} (hf : a.circumstances.fails 0 = none)
    (h : found w environmentID subscriberID = some row) :
    a.resolution w = (⟨.getSubscriberByID subscriberID environmentID, .ok row⟩ ::
      ((a.afterLookup (.ok row)).drive a.circumstances.answer (w, 1)).1,
      ((a.afterLookup (.ok row)).drive a.circumstances.answer (w, 1)).2) := by
  apply a.resolution_of_lookup
  rw [Circumstances.answer_served rfl hf]
  show (orNoRows (found w environmentID subscriberID), w, 1) = _
  rw [h]
  rfl

/-- Nobody is found, and a row is created. -/
theorem resolution_missing (hf : a.circumstances.fails 0 = none)
    (h : found w environmentID subscriberID = none) :
    a.resolution w = (⟨.getSubscriberByID subscriberID environmentID, .error .noRows⟩ ::
      (a.create.drive a.circumstances.answer (w, 1)).1,
      (a.create.drive a.circumstances.answer (w, 1)).2) := by
  refine a.resolution_of_lookup (r := .error .noRows) ?_
  rw [Circumstances.answer_served rfl hf]
  show (orNoRows (found w environmentID subscriberID), w, 1) = _
  rw [h]
  rfl

variable {a}

/-- A row that is found is handed on when "to" brings nothing new. -/
theorem resolution_kept {row : Db.Subscriber} (hf : a.circumstances.fails 0 = none)
    (h : found w environmentID subscriberID = some row)
    (hu : ¬ Notification.hasUpdates a.target = true) :
    a.resolution w
      = ([⟨.getSubscriberByID subscriberID environmentID, .ok row⟩], .ok row, w, 1) := by
  have hafter : a.afterLookup (.ok row) = ret row := by
    show Notification.orCreate a.create (if _ then _ else _) = _
    rw [if_neg hu]
    rfl
  rw [a.resolution_found hf h, hafter]
  rfl

theorem afterLookup_updates {row : Db.Subscriber}
    (hu : Notification.hasUpdates a.target = true) :
    a.afterLookup (.ok row) = .call
      (.updateSubscriber (Notification.sendTimeUpdate a.target a.name row))
      fun r => Notification.orCreate a.create (ofExcept r) := by
  show Notification.orCreate a.create (if _ then _ else _) = _
  rw [if_pos hu]
  rfl

/-- An UPDATE that fails ends the send. -/
theorem resolution_update_fault {row : Db.Subscriber} {text : String}
    (hf : a.circumstances.fails 0 = none) (hf₁ : a.circumstances.fails 1 = some text)
    (h : found w environmentID subscriberID = some row)
    (hu : Notification.hasUpdates a.target = true) :
    a.resolution w = ([⟨.getSubscriberByID subscriberID environmentID, .ok row⟩,
      ⟨.updateSubscriber (Notification.sendTimeUpdate a.target a.name row),
        .error (.other text)⟩], .error (.other text), w, 2) := by
  rw [a.resolution_found hf h, afterLookup_updates hu, Prog.drive,
    Circumstances.answer_fault rfl hf₁]
  rfl

/-- The UPDATE of a row that is found. -/
theorem answer_update_found {row : Db.Subscriber}
    (h : found w environmentID subscriberID = some row)
    (hc : BringsContact a.target ∨ Reachable row) :
    World.answer (.updateSubscriber (Notification.sendTimeUpdate a.target a.name row)) w
      = (.ok (a.updatedRow row),
        { w with subscribers := w.subscribers.set (a.updatedRow row) }) := by
  obtain ⟨hget, hrow⟩ := Option.filter_eq_some_iff.mp h
  have hid : row.id = subscriberID := w.subscribers.keyed hget
  rw [Bool.and_eq_true] at hrow
  have hfound : (w.subscribers.get
      (Notification.sendTimeUpdate a.target a.name row).id).filter (fun r =>
        r.environmentID == (Notification.sendTimeUpdate a.target a.name row).environmentID
          && r.deletedAt.isNone) = some row := by
    show (w.subscribers.get row.id).filter _ = _
    rw [hid, hget, Option.filter_some]
    exact if_pos (Bool.and_eq_true _ _ ▸ ⟨beq_self_eq_true _, hrow.2⟩)
  simp only [World.answer, hfound]
  rw [if_pos (hasContact_sendTime.mpr hc)]
  rfl

/-- The row is found and updated. -/
theorem resolution_update {row : Db.Subscriber}
    (hf : a.circumstances.fails 0 = none) (hf₁ : a.circumstances.fails 1 = none)
    (h : found w environmentID subscriberID = some row)
    (hu : Notification.hasUpdates a.target = true)
    (hc : BringsContact a.target ∨ Reachable row) :
    a.resolution w = ([⟨.getSubscriberByID subscriberID environmentID, .ok row⟩,
      ⟨.updateSubscriber (Notification.sendTimeUpdate a.target a.name row),
        .ok (a.updatedRow row)⟩], .ok (a.updatedRow row),
      { w with subscribers := w.subscribers.set (a.updatedRow row) }, 2) := by
  rw [a.resolution_found hf h, afterLookup_updates hu, Prog.drive,
    Circumstances.answer_served rfl hf₁, answer_update_found h hc]
  rfl

/-- The UPDATE leaves the row where it was found. -/
theorem found_updated {row : Db.Subscriber}
    (h : found w environmentID subscriberID = some row) :
    found { w with subscribers := w.subscribers.set (a.updatedRow row) } environmentID subscriberID
      = some (a.updatedRow row) := by
  obtain ⟨hget, hrow⟩ := Option.filter_eq_some_iff.mp h
  rw [Bool.and_eq_true] at hrow
  have hid : row.id = subscriberID := w.subscribers.keyed hget
  have hset : (w.subscribers.set (a.updatedRow row)).get subscriberID = some (a.updatedRow row) :=
    Table.get_set_of_eq (show (a.updatedRow row).id = _ from hid)
  show Option.filter _ ((w.subscribers.set (a.updatedRow row)).get subscriberID) = _
  rw [hset, Option.filter_some]
  exact if_pos (Bool.and_eq_true _ _ ▸ ⟨hrow.1, rfl⟩)

theorem through_iff {known : Bool} : a.through known = true ↔
    a.circumstances.fails 0 = none ∧ a.circumstances.fails (if known then 1 else 2) = none := by
  rw [through, Bool.and_eq_true, Option.isNone_iff_eq_none, Option.isNone_iff_eq_none]

/-- A send that ends with an error resolves to no row, and creates none. -/
theorem resolvesTo_error {e : GoError} (h : (a.resolution w).2.1 = .error e) :
    a.resolvesTo w = none := by
  rw [resolvesTo, h]
  rfl

theorem resolvesTo_ok {row : Db.Subscriber} (h : (a.resolution w).2.1 = .ok row) :
    a.resolvesTo w = some row.id := by
  rw [resolvesTo, h]
  rfl

variable (a) in
/-- What a send does to a row that is found. -/
structure OnFound (w : World) (row : Db.Subscriber) : Prop where
  created : createdIn (a.resolution w).1 = []
  resolved : a.resolvesTo w = some subscriberID ∨
    (a.resolvesTo w = none ∧ a.through true = false)
  kept : ∃ row', found (a.resolution w).2.2.1 environmentID subscriberID = some row' ∧
    (Reachable row ∨ a.through true = true → Reachable row')

/-- **A row that is found is the one the send resolves to**, and it stays where it is. -/
theorem onFound {row : Db.Subscriber} (h : found w environmentID subscriberID = some row)
    (hcontact : a.through true = true → Reachable row ∨ BringsContact a.target) :
    a.OnFound w row := by
  have hid : row.id = subscriberID :=
    w.subscribers.keyed (Option.filter_eq_some_iff.mp h).1
  rcases hf : a.circumstances.fails 0 with - | text
  · -- it is updated if there is something to write
    by_cases hu : Notification.hasUpdates a.target = true
    · rcases hf₁ : a.circumstances.fails 1 with - | text
      · have hthrough : a.through true = true := through_iff.mpr ⟨hf, hf₁⟩
        have hc := (hcontact hthrough).symm
        have hres := resolution_update hf hf₁ h hu hc
        constructor
        · rw [hres]
          rfl
        · left
          rw [resolvesTo_ok (show (a.resolution w).2.1 = .ok (a.updatedRow row) by rw [hres])]
          exact congrArg some hid
        · rw [hres]
          exact ⟨_, found_updated h, fun _ => reachable_sendTime.mpr hc⟩
      · -- the row stays as it is when the UPDATE fails
        have hres := resolution_update_fault hf hf₁ h hu
        have hthrough : a.through true = false := by
          rw [← Bool.not_eq_true, through_iff]
          rintro ⟨-, hnone⟩
          rw [if_pos rfl, hf₁] at hnone
          cases hnone
        constructor
        · rw [hres]
          rfl
        · exact Or.inr ⟨resolvesTo_error (by rw [hres]), hthrough⟩
        · rw [hres, hthrough]
          exact ⟨_, h, fun hr => hr.resolve_right Bool.false_ne_true⟩
    -- nothing to write: the row is taken as it is
    · have hres := resolution_kept hf h hu
      constructor
      · rw [hres]
        rfl
      · left
        rw [resolvesTo_ok (show (a.resolution w).2.1 = .ok row by rw [hres]), hid]
      · rw [hres]
        refine ⟨_, h, ?_⟩
        rintro (hr | hthrough)
        · exact hr
        · exact (hcontact hthrough).resolve_right fun hb => hu (hasUpdates_of_bringsContact hb)
  · -- the lookup itself fails
    have hres := a.resolution_fault (w := w) hf
    have hthrough : a.through true = false := by
      rw [← Bool.not_eq_true, through_iff, hf]
      rintro ⟨hnone, -⟩
      cases hnone
    constructor
    · rw [hres]
      rfl
    · exact Or.inr ⟨resolvesTo_error (by rw [hres]), hthrough⟩
    · rw [hres, hthrough]
      exact ⟨_, h, fun hr => hr.resolve_right Bool.false_ne_true⟩

/-- The creation of a row, under an id that is free. -/
theorem answer_create (hfree : w.subscribers.get a.newID = none)
    (hc : BringsContact a.target) :
    World.answer (.createSubscriber
        (Notification.createdSubscriber environmentID a.newID a.target a.name)) w
      = (.ok a.createdRow, { w with subscribers := w.subscribers.set a.createdRow }) := by
  have hget : w.subscribers.get
      (Notification.createdSubscriber environmentID a.newID a.target a.name).id = none := hfree
  simp only [World.answer, hget]
  rw [if_pos (hasContact_created.mpr hc)]
  rfl

/-- Without an address the check constraint of the table is violated. -/
theorem answer_create_refused (hfree : w.subscribers.get a.newID = none)
    (hc : ¬ BringsContact a.target) :
    World.answer (.createSubscriber
        (Notification.createdSubscriber environmentID a.newID a.target a.name)) w
      = (.error checkViolation, w) := by
  have hget : w.subscribers.get
      (Notification.createdSubscriber environmentID a.newID a.target a.name).id = none := hfree
  simp only [World.answer, hget]
  rw [if_neg fun h => hc (hasContact_created.mp h)]

/-- The creation in a send: a call for the id, and the INSERT. -/
theorem drive_create (r : Except GoError Db.Subscriber) (w' : World)
    (h : a.circumstances.answer (.createSubscriber
        (Notification.createdSubscriber environmentID a.newID a.target a.name)) (w, 2)
      = (r, w', 3)) :
    a.create.drive a.circumstances.answer (w, 1) = ([⟨.newUUID, .ok a.newID⟩,
      ⟨.createSubscriber (Notification.createdSubscriber environmentID a.newID a.target a.name),
        r⟩], r, w', 3) := by
  have hcreate : a.create.drive a.circumstances.answer (w, 1)
      = (⟨.newUUID, .ok a.newID⟩ :: (Prog.drive a.circumstances.answer (.call (.createSubscriber
          (Notification.createdSubscriber environmentID a.newID a.target a.name)) ofExcept)
          (w, 2)).1,
        (Prog.drive a.circumstances.answer (.call (.createSubscriber
          (Notification.createdSubscriber environmentID a.newID a.target a.name)) ofExcept)
          (w, 2)).2) := rfl
  rw [hcreate, Prog.drive, h, drive_ofExcept]

/-- A send that writes no subscriber has found the row, and has nothing to write to it. -/
theorem found_of_noWrite (hf : a.circumstances.fails 0 = none)
    (h : ∀ c ∈ (a.resolution w).1, NoWrite c.1) :
    Notification.hasUpdates a.target = false ∧
      ∃ row, found w environmentID subscriberID = some row := by
  rcases hfound : found w environmentID subscriberID with - | row
  · obtain ⟨r, w', hans⟩ : ∃ r w', a.circumstances.answer (.createSubscriber
        (Notification.createdSubscriber environmentID a.newID a.target a.name)) (w, 2)
        = (r, w', 3) := by
      rcases hf₂ : a.circumstances.fails 2 with - | text
      · exact ⟨_, _, Circumstances.answer_served rfl hf₂⟩
      · exact ⟨_, _, Circumstances.answer_fault rfl hf₂⟩
    -- an INSERT is attempted
    rw [a.resolution_missing hf hfound, drive_create r w' hans] at h
    exact (h _ (List.mem_cons_of_mem _ (List.mem_cons_of_mem _ (List.mem_cons_self ..)))).elim
  · by_cases hu : Notification.hasUpdates a.target = true
    · rw [a.resolution_found hf hfound, afterLookup_updates hu] at h
      exact (h _ (List.mem_cons_of_mem _ (List.mem_cons_self ..))).elim
    · exact ⟨Bool.eq_false_iff.mpr hu, row, rfl⟩

variable (a) in
/-- What a send does to the table when the row is not found. -/
structure OnMissing (w : World) : Prop where
  created : a.through false = true → BringsContact a.target →
    createdIn (a.resolution w).1 = [a.createdRow] ∧ a.resolvesTo w = some a.newID ∧
      (a.resolution w).2.2.1.subscribers = w.subscribers.set a.createdRow
  failed : ¬ (a.through false = true ∧ BringsContact a.target) →
    createdIn (a.resolution w).1 = [] ∧ a.resolvesTo w = none ∧
      (a.resolution w).2.2.1.subscribers = w.subscribers

/-- **A row that is not found is created under another id**, if the send gets through and
brings an address. -/
theorem onMissing (h : found w environmentID subscriberID = none)
    (hfree : w.subscribers.get a.newID = none) : a.OnMissing w := by
  constructor
  · intro hthrough hc
    obtain ⟨hf, hf₂⟩ := through_iff.mp hthrough
    have hres := a.resolution_missing hf h
    rw [drive_create (.ok a.createdRow) { w with subscribers := w.subscribers.set a.createdRow }
      (by rw [Circumstances.answer_served rfl hf₂, answer_create hfree hc])] at hres
    refine ⟨?_, ?_, ?_⟩
    · rw [hres]
      rfl
    · rw [resolvesTo_ok (show (a.resolution w).2.1 = .ok a.createdRow by rw [hres])]
      rfl
    · rw [hres]
  · intro hno
    rcases hf : a.circumstances.fails 0 with - | text
    · have hres := a.resolution_missing hf h
      rcases hf₂ : a.circumstances.fails 2 with - | text
      · have hc : ¬ BringsContact a.target := fun hc => hno ⟨through_iff.mpr ⟨hf, hf₂⟩, hc⟩
        rw [drive_create (.error checkViolation) w
          (by rw [Circumstances.answer_served rfl hf₂, answer_create_refused hfree hc])] at hres
        refine ⟨?_, resolvesTo_error (by rw [hres]), ?_⟩ <;> rw [hres]
        rfl
      · rw [drive_create (.error (.other text)) w (Circumstances.answer_fault rfl hf₂)] at hres
        refine ⟨?_, resolvesTo_error (by rw [hres]), ?_⟩ <;> rw [hres]
        rfl
    · have hres := a.resolution_fault (w := w) hf
      refine ⟨?_, resolvesTo_error (by rw [hres]), ?_⟩ <;> rw [hres]
      rfl

end Send

/-! ### A sequence of sends -/

section Sequence

variable {sends : List (Send environmentID subscriberID)}

theorem map_fst_started (s : Notification.Service) (w : World)
    (sends : List (Send environmentID subscriberID)) :
    (started s w sends).map Prod.fst = sends := by
  induction sends generalizing w with
  | nil => rfl
  | cons a as ih => exact congrArg (a :: ·) (ih _)

theorem mem_of_mem_started {p : Send environmentID subscriberID × World}
    (h : p ∈ started s w sends) : p.1 ∈ sends := by
  rw [← map_fst_started s w sends]
  exact List.mem_map_of_mem h

theorem exists_started {a : Send environmentID subscriberID} (h : a ∈ sends) :
    ∃ w', (a, w') ∈ started s w sends := by
  rw [← map_fst_started s w sends] at h
  obtain ⟨⟨b, w'⟩, hmem, rfl⟩ := List.mem_map.mp h
  exact ⟨w', hmem⟩

/-- A row that is there is found by every send of a sequence. -/
theorem found_run {row : Db.Subscriber} (h : found w environmentID subscriberID = some row)
    (hfirst : ∀ a, (sends.filter (·.through true)).head? = some a →
      Reachable row ∨ BringsContact a.target) :
    ∀ p ∈ started s w sends, ∃ row', found p.2 environmentID subscriberID = some row' ∧
      p.1.OnFound p.2 row' := by
  induction sends generalizing w row with
  | nil => exact fun p hp => by cases hp
  | cons a as ih =>
      have hstep : a.OnFound w row := by
        refine Send.onFound h fun hthrough => hfirst a ?_
        rw [List.filter_cons_of_pos (by simpa using hthrough), List.head?_cons]
      obtain ⟨row', hrow', hreach⟩ := hstep.kept
      have hafter : found (a.run s w).2.2 environmentID subscriberID = some row' := by
        rw [found_congr (a.run_eq w).2, hrow']
      intro p hp
      rcases List.mem_cons.mp hp with rfl | hp
      · exact ⟨row, h, hstep⟩
      · refine ih hafter ?_ p hp
        intro b hb
        by_cases hthrough : a.through true = true
        · exact Or.inl (hreach (Or.inr hthrough))
        · rw [List.filter_cons_of_neg (by simpa using hthrough)] at hfirst
          exact (hfirst b hb).imp_left fun hr => hreach (Or.inl hr)

/-- After a send for a row that is not there, it still is not there. -/
theorem missing_after {a : Send environmentID subscriberID}
    (h : found w environmentID subscriberID = none) (hstep : a.OnMissing w)
    (hnew : a.newID ≠ subscriberID) :
    found (a.run s w).2.2 environmentID subscriberID = none ∧
      ∀ id, id ≠ a.newID → w.subscribers.get id = none →
        (a.run s w).2.2.subscribers.get id = none := by
  have htable := (a.run_eq (s := s) w).2
  by_cases hc : a.through false = true ∧ BringsContact a.target
  · obtain ⟨-, -, hset⟩ := hstep.created hc.1 hc.2
    have hother : ∀ id, id ≠ a.newID →
        (w.subscribers.set a.createdRow).get id = w.subscribers.get id :=
      fun id hid => Table.get_set_of_ne hid
    rw [hset] at htable
    constructor
    · rw [found, htable, hother _ hnew.symm]
      exact h
    · intro id hid hget
      rw [htable, hother id hid, hget]
  · obtain ⟨-, -, hkept⟩ := hstep.failed hc
    rw [hkept] at htable
    constructor
    · rw [found_congr htable, h]
    · intro id _ hget
      rw [htable, hget]

/-- A row that is not there is found by no send of a sequence. -/
theorem missing_run (h : found w environmentID subscriberID = none)
    (hunused : Unused w subscriberID (sends.map Send.newID)) :
    ∀ p ∈ started s w sends, found p.2 environmentID subscriberID = none ∧
      p.1.OnMissing p.2 := by
  induction sends generalizing w with
  | nil => exact fun p hp => by cases hp
  | cons a as ih =>
      obtain ⟨hdistinct, haddressed, hfree⟩ := hunused
      rw [List.map_cons, List.nodup_cons] at hdistinct
      rw [List.map_cons, List.forall_mem_cons] at haddressed hfree
      have hstep : a.OnMissing w := Send.onMissing h hfree.1
      obtain ⟨hafter, hkept⟩ := missing_after (s := s) h hstep haddressed.1
      intro p hp
      rcases List.mem_cons.mp hp with rfl | hp
      · exact ⟨h, hstep⟩
      · refine ih hafter ⟨hdistinct.2, haddressed.2, ?_⟩ p hp
        intro id hid
        exact hkept id (fun he => hdistinct.1 (he ▸ hid)) (hfree.2 id hid)

/-- At most one row comes from each send that gets through. -/
theorem length_flatMap_le {f : α → List β} {q : α → Bool} {l : List α}
    (h : ∀ a ∈ l, (f a).length ≤ if q a then 1 else 0) :
    (l.flatMap f).length ≤ (l.filter q).length := by
  induction l with
  | nil => exact le_rfl
  | cons a l ih =>
      rw [List.forall_mem_cons] at h
      have ha := h.1
      have hrest := ih h.2
      rw [List.flatMap_cons, List.length_append]
      by_cases hq : q a = true
      · rw [if_pos hq] at ha
        rw [List.filter_cons_of_pos hq, List.length_cons]
        omega
      · rw [if_neg hq] at ha
        rw [List.filter_cons_of_neg hq]
        omega

/-- Distinct elements with the same image are at most one. -/
theorem length_le_one_of_constant {f : α → β} {b : β} {l : List α} (hl : (l.map f).Nodup)
    (h : ∀ a ∈ l, f a = b) : l.length ≤ 1 := by
  have hmap : l.map f = List.replicate l.length b := by
    rw [List.eq_replicate_iff]
    exact ⟨List.length_map _, List.forall_mem_map.mpr h⟩
  rw [hmap, List.nodup_replicate] at hl
  exact hl

/-- The sends to a row that is there keep to it. -/
theorem oneRow_of_found {row : Db.Subscriber}
    (h : found w environmentID subscriberID = some row)
    (hfirst : ∀ a, (sends.filter (·.through true)).head? = some a → BringsContact a.target) :
    OneRow s w sends := by
  have hrun := found_run (s := s) h fun a ha => Or.inr (hfirst a ha)
  constructor
  · refine ⟨subscriberID, fun p hp => ?_⟩
    obtain ⟨row', hrow', hp'⟩ := hrun p hp
    rw [hrow']
    exact hp'.resolved
  · have hnone : created s w sends = [] := by
      apply List.flatMap_eq_nil_iff.mpr
      intro p hp
      obtain ⟨row', -, hp'⟩ := hrun p hp
      rw [(p.1.run_eq p.2).1, hp'.created]
    rw [hnone]
    exact Nat.zero_le _

/-- Of the sends to a row that is not there only one may get through. -/
theorem oneRow_missing_iff (h : found w environmentID subscriberID = none)
    (hfirst : ∀ a, (sends.filter (·.through false)).head? = some a → BringsContact a.target)
    (hunused : Unused w subscriberID (sends.map Send.newID)) :
    OneRow s w sends ↔ (sends.filter (·.through false)).length ≤ 1 := by
  have hrun := missing_run (s := s) h hunused
  constructor
  · rintro ⟨⟨x, hx⟩, -⟩
    -- all that get through resolve to the row they create
    have hnew : ∀ a ∈ sends.filter (·.through false), a.newID = x := by
      intro a ha
      obtain ⟨hmem, hthrough⟩ := List.mem_filter.mp ha
      obtain ⟨w', hp⟩ := exists_started (s := s) (w := w) hmem
      obtain ⟨hmissing, hstep⟩ := hrun _ hp
      rcases hx _ hp with hres | ⟨-, hnot⟩
      · by_cases hc : BringsContact a.target
        · rw [(hstep.created hthrough hc).2.1] at hres
          exact Option.some.inj hres
        · rw [(hstep.failed fun hall => hc hall.2).2.1] at hres
          cases hres
      · rw [hmissing] at hnot
        exact absurd (hthrough.symm.trans hnot) (by decide)
    refine length_le_one_of_constant ?_ hnew
    exact hunused.distinct.sublist (List.filter_sublist.map _)
  · intro hle
    have hcontact : ∀ a ∈ sends, a.through false = true →
        (sends.filter (·.through false)).head? = some a := by
      intro a ha hthrough
      have hmem : a ∈ sends.filter (·.through false) := List.mem_filter.mpr ⟨ha, hthrough⟩
      rcases hl : sends.filter (·.through false) with - | ⟨b, rest⟩
      · rw [hl] at hmem
        cases hmem
      · rw [hl, List.length_cons] at hle
        obtain rfl : rest = [] := List.eq_nil_of_length_eq_zero (by omega)
        rw [hl, List.mem_singleton] at hmem
        rw [hmem, hl]
        rfl
    constructor
    · refine ⟨((sends.filter (·.through false)).head?.map Send.newID).getD subscriberID, ?_⟩
      intro p hp
      obtain ⟨hmissing, hstep⟩ := hrun p hp
      rw [hmissing]
      by_cases hthrough : p.1.through false = true
      · have hhead := hcontact p.1 (mem_of_mem_started hp) hthrough
        rw [hhead]
        exact Or.inl (hstep.created hthrough (hfirst _ hhead)).2.1
      · right
        exact ⟨(hstep.failed fun hall => hthrough hall.1).2.1, Bool.eq_false_iff.mpr hthrough⟩
    · refine le_trans (length_flatMap_le (q := fun p => p.1.through false) ?_) (le_of_eq_of_le ?_ hle)
      · intro p hp
        obtain ⟨hmissing, hstep⟩ := hrun p hp
        rw [(p.1.run_eq p.2).1]
        by_cases hc : p.1.through false = true ∧ BringsContact p.1.target
        · rw [(hstep.created hc.1 hc.2).1, if_pos hc.1]
          exact le_rfl
        · rw [(hstep.failed hc).1]
          exact Nat.zero_le _
      · conv_rhs => rw [← map_fst_started s w sends, List.filter_map, List.length_map]
        rfl

/-- **When sends to one id keep to one row**: the row is there, or at most one of them gets
through. -/
theorem oneRow_iff
    (hfirst : ∀ a, (sends.filter
      (·.through (found w environmentID subscriberID).isSome)).head? = some a →
      BringsContact a.target)
    (hunused : Unused w subscriberID (sends.map Send.newID)) :
    OneRow s w sends ↔ (found w environmentID subscriberID).isSome = true ∨
      (sends.filter (·.through false)).length ≤ 1 := by
  rcases hfound : found w environmentID subscriberID with - | row
  · rw [hfound] at hfirst
    rw [oneRow_missing_iff hfound hfirst hunused]
    simp
  · rw [hfound] at hfirst
    exact iff_of_true (oneRow_of_found hfound hfirst) (Or.inl rfl)

end Sequence

/-! ### Two sends to a new subscriber -/

namespace Sample

/-- Eve has an address, and no row. -/
def eve : SubscriberTo where
  subscriberID := (UUID.ofDigit 5).toString
  firstName := ""
  lastName := ""
  email := "eve@example.org"
  phone := ""
  push := ""

/-- A send to Eve, with the id that a new row would get. -/
def sendEve (id : UUID) : Send (UUID.ofDigit 2) (UUID.ofDigit 5) where
  job := {
    jobID := "j"
    projectID := (UUID.ofDigit 2).toString
    toSubscriber := some eve }
  target := eve
  circumstances := { uuid := fun _ => id }
  addressed := rfl
  project := UUID.parse_toString _
  subscriber := UUID.parse_toString _

def twice : List (Send (UUID.ofDigit 2) (UUID.ofDigit 5)) :=
  [sendEve (UUID.ofDigit 6), sendEve (UUID.ofDigit 7)]

end Sample

/-- Two sends to the same subscriber. -/
theorem oneRow_iff_eve : OneRow Sample.service Sample.world Sample.twice ↔
    (found Sample.world (UUID.ofDigit 2) (UUID.ofDigit 5)).isSome = true ∨
      (Sample.twice.filter (·.through false)).length ≤ 1 := by
  have hcontact : BringsContact Sample.eve := by decide +kernel
  have hall : ∀ a ∈ Sample.twice, a.target = Sample.eve := by
    simp [Sample.twice, Sample.sendEve]
  refine oneRow_iff ?_ ⟨by decide +kernel, by decide +kernel, ?_⟩
  · intro a ha
    rw [hall a (List.mem_of_mem_filter (List.mem_of_head? ha))]
    exact hcontact
  · intro id hid
    have hids : id = UUID.ofDigit 6 ∨ id = UUID.ofDigit 7 := by
      simpa [Sample.twice, Sample.sendEve, Send.newID] using hid
    rcases hids with rfl | rfl <;> rfl

/-- Nothing fails and both sends bring an address, but the second one does not find the
row of the first. -/
theorem twoRows_eve : (∀ a ∈ Sample.twice, a.through
      (found Sample.world (UUID.ofDigit 2) (UUID.ofDigit 5)).isSome = true ∧
      BringsContact a.target) ∧
    (started Sample.service Sample.world Sample.twice).map (fun p => p.1.resolvesTo p.2)
      = [some (UUID.ofDigit 6), some (UUID.ofDigit 7)] ∧
    ¬ OneRow Sample.service Sample.world Sample.twice := by
  have hrows : (created Sample.service Sample.world Sample.twice).length = 2 := by
    decide +kernel
  refine ⟨by decide +kernel, by decide +kernel, ?_⟩
  intro hone
  have hle := hone.created
  rw [hrows] at hle
  exact absurd hle (by decide)

end Iwifunni.Subscriber
