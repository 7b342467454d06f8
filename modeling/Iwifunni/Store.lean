/-
Iwifunni/Store.lean

The calls of the subscriber, notification and integration services: statements
on the database, the provider of a channel, webhooks, clock and identifiers.

`World.answer` is what a statement does by its SQL text and the constraints of
the schema.  A sequential run takes everything else from its circumstances:

    fails n     the n-th call fails with this error, and without effect
    uuid n      the identifier it draws,  time n  the clock it reads
    sent n      what the provider answers
-/
import Iwifunni.Effect.Lockstep
import Iwifunni.Effect.Table
import Iwifunni.Types

namespace Iwifunni.Store

open Go Db Effect Effect.Prog

/-! ### Calls -/

/-- What a provider says about one destination. -/
structure ProviderAttempt where
  destination : String
  err : Option GoError

inductive Op
  | getSubscriberByID (id environmentID : UUID)
  | createSubscriber (arg : SubscriberParams)
  | updateSubscriber (arg : SubscriberParams)
  | getWorkflowByID (id environmentID : UUID)
  | getTemplateByID (id environmentID : UUID)
  | getUserByID (id : UUID)
  | upsertByProjectJob (arg : Notification)
  | updateStatus (id : UUID) (status : NotificationStatus) (updatedAt : Time)
  | insertDeliveryAttempt (arg : DeliveryAttempt)
  | createIntegration (arg : Integration)
  | getIntegrationByID (id environmentID : UUID)
  | listIntegrations (environmentID : UUID)
  | listByChannel (environmentID : UUID) (channel : String)
  | updateIntegration (id environmentID : UUID) (name channel : String)
      (credentials config : Option Json)
  | updateIntegrationState (id environmentID : UUID) (isActive isPrimary : Bool)
  | clearPrimaryByChannel (environmentID : UUID) (channel : String)
  | deleteIntegration (id environmentID : UUID)
  /-- `RuntimeProvider.Send` of the provider with this name -/
  | send (provider : String) (job : NotificationJob) (config : Option Json)
  /-- `Dispatcher.Dispatch` -/
  | dispatch (environmentID : UUID) (event : String) (notificationID : UUID) (timestamp : Time)
  | now
  | newUUID

/-- The answer of a call that succeeds. -/
abbrev Op.Res : Op → Type
  | getSubscriberByID _ _ => Subscriber
  | createSubscriber _ => Subscriber
  | updateSubscriber _ => Subscriber
  | getWorkflowByID _ _ => WorkflowRecord
  | getTemplateByID _ _ => Template
  | getUserByID _ => User
  | upsertByProjectJob _ => Notification
  | updateStatus _ _ _ => Unit
  | insertDeliveryAttempt _ => Unit
  | createIntegration _ => Integration
  | getIntegrationByID _ _ => Integration
  | listIntegrations _ => List Integration
  | listByChannel _ _ => List Integration
  | updateIntegration _ _ _ _ _ _ => Integration
  | updateIntegrationState _ _ _ _ => Integration
  | clearPrimaryByChannel _ _ => Unit
  | deleteIntegration _ _ => Unit
  | send _ _ _ => List ProviderAttempt × Option GoError
  | dispatch _ _ _ _ => Unit
  | now => Time
  | newUUID => UUID

/-- A program of one of the services. -/
abbrev Act (α : Type) : Type := Prog Op.Res GoError α

/-! ### The database -/

structure World where
  subscribers : Table Subscriber.id
  workflows : Table fun r : WorkflowRecord => r.id
  templates : Table Template.id
  users : Table User.id
  notifications : List Notification
  deliveryAttempts : List DeliveryAttempt
  /-- In the order of their creation. -/
  integrations : List Integration

/-- A row, or `pgx.ErrNoRows`. -/
def orNoRows (row : Option α) : Except GoError α :=
  match row with
  | some row => .ok row
  | none => .error .noRows

def uniqueViolation : GoError := .other "duplicate key value violates unique constraint"

def checkViolation : GoError := .other "new row violates check constraint"

/-- `subscribers_contact_check`. -/
def hasContact (arg : SubscriberParams) : Bool :=
  arg.email.isSome || arg.phone.isSome || arg.pushToken.isSome

/-- The row an INSERT into `subscribers` writes, and an UPDATE of a row that is not
deleted: it sets the same columns. -/
def writtenSubscriber (arg : SubscriberParams) : Subscriber where
  id := arg.id
  environmentID := arg.environmentID
  name := arg.name
  firstName := arg.firstName
  lastName := arg.lastName
  email := arg.email
  phone := arg.phone
  pushToken := arg.pushToken
  channels := arg.channels
  status := arg.status
  tags := arg.tags
  preferences := arg.preferences
  metadata := arg.metadata

/-- `UpsertNotificationByEnvironmentJob` on a row with the same job id. -/
def upsertedNotification (arg row : Notification) : Notification :=
  { row with
    title := arg.title
    message := arg.message
    channels := arg.channels
    recipient := arg.recipient
    metadata := arg.metadata
    status := arg.status
    updatedAt := arg.updatedAt }

/-- `UpsertDeliveryAttempt` on a row for the same notification and channel. -/
def upsertedAttempt (arg row : DeliveryAttempt) : DeliveryAttempt :=
  { row with
    status := arg.status
    errorMessage := arg.errorMessage
    destination := arg.destination
    attemptedAt := arg.attemptedAt }

/-- Distinct rows disagree on what `key` says. -/
def distinctBy [BEq κ] (key : α → κ) : List α → Bool
  | [] => true
  | r :: rs => rs.all (fun r' => key r' != key r) && distinctBy key rs

/-- The constraints of `integrations`. -/
def integrationsOk (rows : List Integration) : Bool :=
  distinctBy (·.id) rows && distinctBy (fun r => (r.environmentID, r.name)) rows &&
    rows.all (fun r => !r.isPrimary || r.isActive) &&
    distinctBy (fun r => (r.environmentID, r.channel)) (rows.filter (·.isPrimary))

/-- The order of a list of integrations: the primary one first. -/
def primaryFirst (rows : List Integration) : List Integration :=
  rows.filter (·.isPrimary) ++ rows.filter (!·.isPrimary)

/-- `ORDER BY channel, is_primary DESC, name`. -/
def listOrder (r r' : Integration) : Bool :=
  r.channel < r'.channel || r.channel == r'.channel && (r.isPrimary && !r'.isPrimary ||
    r.isPrimary == r'.isPrimary && r.name ≤ r'.name)

namespace World

/-- An UPDATE of the integration with an id. -/
def modifyIntegration (w : World) (id environmentID : UUID) (f : Integration → Integration) :
    Except GoError Integration × World :=
  match w.integrations.find? fun r => r.id == id && r.environmentID == environmentID with
  | none => (.error .noRows, w)
  | some row =>
      let rows := w.integrations.map fun r =>
        if r.id == id && r.environmentID == environmentID then f r else r
      if integrationsOk rows then (.ok (f row), { w with integrations := rows })
      else (.error uniqueViolation, w)

/-- What a call does when nothing goes wrong. -/
def answer : (op : Op) → World → Except GoError op.Res × World
  | .getSubscriberByID id environmentID, w =>
      (orNoRows ((w.subscribers.get id).filter fun r =>
        r.environmentID == environmentID && r.deletedAt.isNone), w)
  | .createSubscriber arg, w =>
      match w.subscribers.get arg.id with
      | some _ => (.error uniqueViolation, w)
      | none =>
          if hasContact arg then
            (.ok (writtenSubscriber arg),
              { w with subscribers := w.subscribers.set (writtenSubscriber arg) })
          else (.error checkViolation, w)
  | .updateSubscriber arg, w =>
      match (w.subscribers.get arg.id).filter fun r =>
        r.environmentID == arg.environmentID && r.deletedAt.isNone with
      | none => (.error .noRows, w)
      | some _ =>
          if hasContact arg then
            (.ok (writtenSubscriber arg),
              { w with subscribers := w.subscribers.set (writtenSubscriber arg) })
          else (.error checkViolation, w)
  | .getWorkflowByID id environmentID, w =>
      (orNoRows ((w.workflows.get id).filter (·.environmentID == environmentID)), w)
  | .getTemplateByID id environmentID, w =>
      (orNoRows ((w.templates.get id).filter (·.environmentID == environmentID)), w)
  | .getUserByID id, w => (orNoRows (w.users.get id), w)
  | .upsertByProjectJob arg, w =>
      match w.notifications.find? fun r => r.jobID == arg.jobID with
      | some row => (.ok (upsertedNotification arg row),
          { w with notifications := w.notifications.map fun r =>
              if r.jobID == arg.jobID then upsertedNotification arg r else r })
      | none =>
          if w.notifications.any fun r => r.id == arg.id then (.error uniqueViolation, w)
          else (.ok arg, { w with notifications := w.notifications ++ [arg] })
  | .updateStatus id status updatedAt, w =>
      (.ok (), { w with notifications := w.notifications.map fun r =>
          if r.id == id then { r with status := status, updatedAt := updatedAt } else r })
  | .insertDeliveryAttempt arg, w =>
      if w.deliveryAttempts.any fun r =>
          r.notificationID == arg.notificationID && r.channel == arg.channel then
        (.ok (), { w with deliveryAttempts := w.deliveryAttempts.map fun r =>
            if r.notificationID == arg.notificationID && r.channel == arg.channel then
              upsertedAttempt arg r
            else r })
      else if w.deliveryAttempts.any fun r => r.id == arg.id then (.error uniqueViolation, w)
      else (.ok (), { w with deliveryAttempts := w.deliveryAttempts ++ [arg] })
  | .createIntegration arg, w =>
      if integrationsOk (w.integrations ++ [arg]) then
        (.ok arg, { w with integrations := w.integrations ++ [arg] })
      else (.error uniqueViolation, w)
  | .getIntegrationByID id environmentID, w =>
      (orNoRows (w.integrations.find? fun r =>
        r.id == id && r.environmentID == environmentID), w)
  | .listIntegrations environmentID, w =>
      (.ok ((w.integrations.filter (·.environmentID == environmentID)).mergeSort listOrder), w)
  | .listByChannel environmentID channel, w =>
      (.ok (primaryFirst (w.integrations.filter fun r =>
        r.environmentID == environmentID && r.channel == channel)), w)
  | .updateIntegration id environmentID name channel credentials config, w =>
      w.modifyIntegration id environmentID fun r =>
        { r with name := name, channel := channel, credentials := credentials, config := config }
  | .updateIntegrationState id environmentID isActive isPrimary, w =>
      w.modifyIntegration id environmentID fun r =>
        { r with isActive := isActive, isPrimary := isPrimary }
  | .clearPrimaryByChannel environmentID channel, w =>
      (.ok (), { w with integrations := w.integrations.map fun r =>
          if r.environmentID == environmentID && r.channel == channel then
            { r with isPrimary := false }
          else r })
  | .deleteIntegration id environmentID, w =>
      (.ok (), { w with integrations := w.integrations.filter fun r =>
          !(r.id == id && r.environmentID == environmentID) })
  | .send _ _ _, w => (.ok ([], none), w)
  | .dispatch _ _ _ _, w => (.ok (), w)
  | .now, w => (.ok 0, w)
  | .newUUID, w => (.ok (UUID.ofDigit 7), w)

/-- A change of integrations changes nothing else. -/
theorem modifyIntegration_directory (w : World) (id environmentID : UUID)
    (f : Integration → Integration) :
    (w.modifyIntegration id environmentID f).2 = w ∨
      ∃ rows, (w.modifyIntegration id environmentID f).2 = { w with integrations := rows } := by
  unfold modifyIntegration
  split
  · exact Or.inl rfl
  · dsimp only
    split
    · exact Or.inr ⟨_, rfl⟩
    · exact Or.inl rfl

/-- No call writes workflows, templates or users. -/
theorem answer_directory (op : Op) (w : World) :
    (answer op w).2.workflows = w.workflows ∧ (answer op w).2.templates = w.templates ∧
      (answer op w).2.users = w.users := by
  have hmodify : ∀ id environmentID f,
      (w.modifyIntegration id environmentID f).2.workflows = w.workflows ∧
      (w.modifyIntegration id environmentID f).2.templates = w.templates ∧
      (w.modifyIntegration id environmentID f).2.users = w.users := by
    intro id environmentID f
    rcases w.modifyIntegration_directory id environmentID f with he | ⟨rows, he⟩ <;> rw [he] <;>
      exact ⟨rfl, rfl, rfl⟩
  cases op with
  | updateIntegration => exact hmodify ..
  | updateIntegrationState => exact hmodify ..
  | createSubscriber arg =>
      simp only [answer]
      split
      · exact ⟨rfl, rfl, rfl⟩
      · split <;> exact ⟨rfl, rfl, rfl⟩
  | updateSubscriber arg =>
      simp only [answer]
      split
      · exact ⟨rfl, rfl, rfl⟩
      · split <;> exact ⟨rfl, rfl, rfl⟩
  | upsertByProjectJob arg =>
      simp only [answer]
      split
      · exact ⟨rfl, rfl, rfl⟩
      · split <;> exact ⟨rfl, rfl, rfl⟩
  | insertDeliveryAttempt arg =>
      simp only [answer]
      split
      · exact ⟨rfl, rfl, rfl⟩
      · split <;> exact ⟨rfl, rfl, rfl⟩
  | createIntegration arg =>
      simp only [answer]
      split <;> exact ⟨rfl, rfl, rfl⟩
  | _ => exact ⟨rfl, rfl, rfl⟩

end World

/-- The calls that may fail: `time.Now`, `uuid.New` and `Dispatch` return no error,
and a provider reports its errors in its answer. -/
def Op.fallible : Op → Bool
  | send _ _ _ | dispatch _ _ _ _ | now | newUUID => false
  | _ => true

/-- `Call op w r w'`: the call may be answered by `r` and leave the world `w'`. -/
inductive Call : (op : Op) → World → Except GoError op.Res → World → Prop
  | answer (op w) : Call op w (World.answer op w).1 (World.answer op w).2
  | fault {op} (h : op.fallible = true) (w) (text : String) : Call op w (.error (.other text)) w
  | now (w t) : Call .now w (.ok t) w
  | newUUID (w u) : Call .newUUID w (.ok u) w
  | send (provider job config w out) : Call (.send provider job config) w (.ok out) w

/-- A call has the effect its answer comes with, or none. -/
theorem call_world {op : Op} {w w' : World} {r : Except GoError op.Res} (h : Call op w r w') :
    w' = w ∨ (r = (World.answer op w).1 ∧ w' = (World.answer op w).2) := by
  cases h with
  | answer => exact Or.inr ⟨rfl, rfl⟩
  | _ => exact Or.inl rfl

/-! ### Sequential runs -/

/-- What a run does not decide itself. -/
structure Circumstances where
  fails : ℕ → Option String := fun _ => none
  uuid : ℕ → UUID := UUID.ofDigit
  time : ℕ → Time := id
  sent : ℕ → List ProviderAttempt × Option GoError := fun _ => ([], none)

/-- The answer to the `n`-th call. -/
def Circumstances.answer (c : Circumstances) (op : Op) (s : World × ℕ) :
    Except GoError op.Res × World × ℕ :=
  match op with
  | .now => (.ok (c.time s.2), s.1, s.2 + 1)
  | .newUUID => (.ok (c.uuid s.2), s.1, s.2 + 1)
  | .send _ _ _ => (.ok (c.sent s.2), s.1, s.2 + 1)
  | op => match c.fails s.2 with
    | some text =>
        if op.fallible then (.error (.other text), s.1, s.2 + 1)
        else ((World.answer op s.1).1, (World.answer op s.1).2, s.2 + 1)
    | none => ((World.answer op s.1).1, (World.answer op s.1).2, s.2 + 1)

/-- A call does what it does when nothing goes wrong, or nothing. -/
theorem Circumstances.answer_world (c : Circumstances) (op : Op) (s : World × ℕ) :
    (c.answer op s).2.1 = s.1 ∨ (c.answer op s).2.1 = (World.answer op s.1).2 := by
  cases op with
  | now => exact Or.inl rfl
  | newUUID => exact Or.inl rfl
  | send => exact Or.inl rfl
  | _ =>
      simp only [Circumstances.answer]
      split
      · exact Or.inl rfl
      · exact Or.inr rfl

/-- A call fails where the circumstances say so. -/
theorem Circumstances.answer_of_fallible (c : Circumstances) {op : Op}
    (hop : op.fallible = true) (s : World × ℕ) :
    c.answer op s = match c.fails s.2 with
      | some text => (.error (.other text), s.1, s.2 + 1)
      | none => ((World.answer op s.1).1, (World.answer op s.1).2, s.2 + 1) := by
  cases op with
  | now => cases hop
  | newUUID => cases hop
  | send => cases hop
  | dispatch => cases hop
  | _ => rfl

/-- A statement that fails leaves the world as it is. -/
theorem Circumstances.answer_fault {c : Circumstances} {op : Op} (hop : op.fallible = true)
    {s : World × ℕ} {text : String} (h : c.fails s.2 = some text) :
    c.answer op s = (.error (.other text), s.1, s.2 + 1) := by
  rw [c.answer_of_fallible hop, h]

theorem Circumstances.answer_served {c : Circumstances} {op : Op} (hop : op.fallible = true)
    {s : World × ℕ} (h : c.fails s.2 = none) :
    c.answer op s = ((World.answer op s.1).1, (World.answer op s.1).2, s.2 + 1) := by
  rw [c.answer_of_fallible hop, h]

/-- A statement that succeeds has its answer from the database. -/
theorem Circumstances.answer_ok (c : Circumstances) {op : Op} (hop : op.fallible = true)
    {s : World × ℕ} {a : op.Res} (h : (c.answer op s).1 = .ok a) :
    (World.answer op s.1).1 = .ok a := by
  rw [c.answer_of_fallible hop] at h
  split at h
  · cases h
  · exact h

theorem orNoRows_ok {o : Option α} {a : α} (h : orNoRows o = .ok a) : o = some a := by
  cases o <;> cases h
  rfl

/-- Corresponding statements have corresponding effects under the same circumstances. -/
theorem Circumstances.agree_answer (c : Circumstances) {op op' : Op}
    {V : op.Res → op'.Res → Prop} {R : World → World → Prop} {s s' : World × ℕ}
    (hop : op.fallible = true) (hop' : op'.fallible = true) (hR : R s.1 s'.1 ∧ s.2 = s'.2)
    (h : Agree V (World.answer op s.1).1 (World.answer op' s'.1).1 ∧
      R (World.answer op s.1).2 (World.answer op' s'.1).2) :
    Agree V (c.answer op s).1 (c.answer op' s').1 ∧
      R (c.answer op s).2.1 (c.answer op' s').2.1 ∧
      (c.answer op s).2.2 = (c.answer op' s').2.2 := by
  rw [c.answer_of_fallible hop, c.answer_of_fallible hop', ← hR.2]
  split
  · exact ⟨rfl, hR.1, rfl⟩
  · exact ⟨h.1, h.2, rfl⟩

/-- Run a program under the given circumstances: its calls, its outcome, and the
world it leaves. -/
def Circumstances.run (c : Circumstances) (p : Act α) (w : World) :
    List (Answered Op.Res GoError) × Except GoError α × World :=
  let d := p.drive c.answer (w, 0)
  (d.1, d.2.1, d.2.2.1)

end Iwifunni.Store
