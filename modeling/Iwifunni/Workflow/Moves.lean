/-
Iwifunni/Workflow/Moves.lean

What one call of an activity can do: the moves of a handling and of a trigger.

A move says which phase leads to which, and what happens to the world on the
way.  There are few kinds of changes: a step row or an execution gets a status
(`StepWritten`, `StatusWritten`), a step job enters the queue (`Queued`), a
notification is accepted, an execution appears.  `move_of_call` and
`triggerMove_of_call` show that the moves are all there is; the invariants of
the engine are proved by cases on them.
-/
import Iwifunni.Workflow.Handling

namespace Iwifunni.Workflow

open Go Db Effect Effect.Prog

variable {s : Service} {ref : StepRef} {w w' : World}

/-! ### Changes -/

namespace World

/-- The status of an execution. -/
def status (w : World) (x : UUID) : Option Status := (w.executions.get x).map (·.status)

/-- The status of the step row of a node. -/
def stepStatus (w : World) (x : UUID) (n : String) : Option Status :=
  (w.steps.get (x, n)).map (·.status)

/-- How many notification jobs for a node of an execution the queue has accepted. -/
def sentCount (w : World) (x : UUID) (n : String) : ℕ :=
  w.notifications.countP fun job => notificationStep job == (some x.toString, some n)

end World

/-- The step row of a node gets a status. -/
def StepWritten (x : UUID) (n : String) (st : Status) (w w' : World) : Prop :=
  ∃ row, stepKey row = (x, n) ∧ row.status = st ∧ w' = { w with steps := w.steps.set row }

/-- An execution gets a status; whose it is and what it was triggered by stays. -/
def StatusWritten (x : UUID) (st : Status) (w w' : World) : Prop :=
  ∃ row row', w.executions.get x = some row ∧ row'.id = x ∧
    row'.workflowID = row.workflowID ∧ row'.environmentID = row.environmentID ∧
    row'.subscriberID = row.subscriberID ∧ row'.triggerPayload = row.triggerPayload ∧
    row'.status = st ∧ w' = { w with executions := w.executions.set row' }

/-- A new step job enters the queue. -/
def Queued (job : WorkflowStepJob) (delay : Option Duration) (w w' : World) : Prop :=
  (∀ t ∈ w.queue, t.job ≠ job) ∧
    w' = { w with queue := w.queue ++ [{ job := job, delay := delay }] }

/-- A new execution appears. -/
def Created (row : WorkflowExecution) (w w' : World) : Prop :=
  w.executions.get row.id = none ∧ row.status = .queued ∧
    w' = { w with executions := w.executions.set row }

section Changes

variable {x y : UUID} {n m : String} {st : Status}

theorem StepWritten.stepStatus_self (h : StepWritten x n st w w') :
    w'.stepStatus x n = some st := by
  obtain ⟨row, hkey, hst, rfl⟩ := h
  simp only [World.stepStatus, Table.get_set_of_eq hkey, Option.map_some, hst]

theorem StepWritten.stepStatus_of_ne (h : StepWritten x n st w w') (hne : (y, m) ≠ (x, n)) :
    w'.stepStatus y m = w.stepStatus y m := by
  obtain ⟨row, hkey, hst, rfl⟩ := h
  simp only [World.stepStatus, Table.get_set_of_ne (hkey ▸ hne)]

theorem StatusWritten.status_self (h : StatusWritten x st w w') : w'.status x = some st := by
  obtain ⟨row, row', -, hid, -, -, -, -, hst, rfl⟩ := h
  simp only [World.status, Table.get_set_of_eq hid, Option.map_some, hst]

theorem StatusWritten.status_of_ne (h : StatusWritten x st w w') (hne : y ≠ x) :
    w'.status y = w.status y := by
  obtain ⟨row, row', -, hid, -, -, -, -, -, rfl⟩ := h
  simp only [World.status, Table.get_set_of_ne (hid ▸ hne)]

theorem Created.status_self {row : WorkflowExecution} (h : Created row w w') :
    w'.status row.id = some .queued := by
  obtain ⟨-, hst, rfl⟩ := h
  simp only [World.status, Table.get_set_self, Option.map_some, hst]

theorem Created.status_of_ne {row : WorkflowExecution} (h : Created row w w') (hne : y ≠ row.id) :
    w'.status y = w.status y := by
  obtain ⟨-, -, rfl⟩ := h
  simp only [World.status, Table.get_set_of_ne hne]

theorem Created.id_eq {row row' : WorkflowExecution} (h : Created row w w')
    (h' : Created row' w w') : row'.id = row.id := by
  by_contra hne
  have hget : w'.executions.get row'.id = some row' := by
    rw [h'.2.2]
    exact Table.get_set_self ..
  rw [h.2.2, Table.get_set_of_ne hne, h'.1] at hget
  cases hget

theorem Created.status_none {row : WorkflowExecution} (h : Created row w w') :
    w.status row.id = none := by
  simp only [World.status, h.1, Option.map_none]

end Changes

/-! ### The moves of a handling -/

/-- The calls without which a handling cannot go on. -/
def Op.Essential : Op → Prop
  | getSubscriberByID _ _ | getTemplateByID _ _ | enqueue _ | enqueueWorkflowStepIn _ _ => False
  | _ => True

/-- A call has failed without which the handling cannot go on.  That a node has no
step row yet is not a failure. -/
def Fails : Answered Op.Res GoError → Prop
  | ⟨op, .error e⟩ => op.Essential ∧ (e = .noRows → ∀ x n, op ≠ .getStepExecution x n)
  | _ => False

/-- Has a handling put a successor into the queue? -/
def Phase.handedOver : Phase → Bool
  | working _ _ _ handed | closed _ handed | failing handed | settled handed
  | broken handed => handed
  | _ => false

/-- The call hands a step job to the queue. -/
def Op.Hands (job : WorkflowStepJob) : Op → Prop
  | enqueueWorkflowStep job' | enqueueWorkflowStepIn job' _ => job' = job
  | _ => False

/-- The call completes an execution. -/
def Op.Completes : Op → Prop
  | updateExecutionState _ _ status _ _ _ => status = .completed
  | _ => False

/-- One call of a handling for `ref`: the phase and the world before and after. -/
inductive Move (ref : StepRef) (a : Answered Op.Res GoError) :
    Phase → World → Phase → World → Prop
  /-- Something is read, or a call fails whose error is dealt with. -/
  | stay (p w) : Move ref a p w p w
  | fetch {row w} : w.executions.get ref.executionID = some row →
      row.environmentID = ref.environmentID → Move ref a .start w (.fetched row.workflowID) w
  | locate {workflow definition node v w} :
      w.workflows.find? (fun r => r.id == ref.workflowID &&
        r.environmentID == ref.environmentID) = some workflow →
      locate workflow ref.stepID = .ok (definition, node) →
      Move ref a (.fetched v) w (.located v node.type) w
  | miss {workflow e v w} :
      w.workflows.find? (fun r => r.id == ref.workflowID &&
        r.environmentID == ref.environmentID) = some workflow →
      Workflow.locate workflow ref.stepID = .error e →
      (∃ id environmentID, a.1 = .getByID id environmentID) →
      Move ref a (.fetched v) w .unlocated w
  /-- An essential call fails. -/
  | break {p w} : Fails a → Move ref a p w (.broken p.handedOver) w
  | open {v ty w w'} : StepWritten ref.executionID ref.stepID .running w w' →
      Move ref a (.located v ty) w (.opened v ty) w'
  | run {v ty w w'} : StatusWritten ref.executionID .running w w' →
      Move ref a (.opened v ty) w (.working v ty false false) w'
  | send {v handed w job} :
      notificationStep job = (some ref.executionID.toString, some ref.stepID) →
      Move ref a (.working v .notification false handed) w
        (.working v .notification true handed) { w with notifications := w.notifications ++ [job] }
  | schedule {v ty sent handed job delay w w'} : ref.Owns v job → Queued job (some delay) w w' →
      a.1.Hands job → Move ref a (.working v ty sent handed) w (.working v ty sent true) w'
  | complete {v ty sent handed w w'} :
      StepWritten ref.executionID ref.stepID .completed w w' →
      Move ref a (.working v ty sent handed) w (.closed v handed) w'
  | dispatch {v handed job w w'} : ref.Owns v job → Queued job none w w' → a.1.Hands job →
      Move ref a (.closed v handed) w (.closed v true) w'
  | settle {v handed w w'} :
      StatusWritten ref.executionID (if handed then .queued else .completed) w w' →
      (handed = false → a.1.Completes) → Move ref a (.closed v handed) w (.settled handed) w'
  | fail {v ty handed w w'} : StepWritten ref.executionID ref.stepID .failed w w' →
      Move ref a (.working v ty false handed) w (.failing handed) w'
  | giveUp {handed w w'} : StatusWritten ref.executionID .failed w w' →
      Move ref a (.failing handed) w .failed w'

theorem stepWritten_of_create {arg : CreateWorkflowStepExecutionParams}
    {row : WorkflowStepExecution} (h : Call (.createStepExecution arg) w (.ok row) w') :
    StepWritten arg.executionID arg.stepID arg.status w w' := by
  obtain ⟨-, rfl, rfl⟩ := call_createStepExecution h
  exact ⟨_, rfl, rfl, rfl⟩

theorem stepWritten_of_update {arg : UpdateWorkflowStepExecutionStateParams}
    {row : WorkflowStepExecution} (h : Call (.updateStepExecutionState arg) w (.ok row) w') :
    StepWritten arg.executionID arg.stepID arg.status w w' := by
  obtain ⟨old, -, rfl, rfl⟩ := call_updateStepExecutionState h
  exact ⟨_, rfl, rfl, rfl⟩

theorem statusWritten_of_update {x environmentID : UUID} {st : Status} {n : Option String}
    {c f : Option Time} {row : WorkflowExecution}
    (h : Call (.updateExecutionState x environmentID st n c f) w (.ok row) w') :
    StatusWritten x st w w' := by
  obtain ⟨old, hget, -, hrow, rfl⟩ := call_updateExecutionState h
  refine ⟨old, row, hget, ?_, ?_, ?_, ?_, ?_, ?_, rfl⟩ <;> rw [hrow]

/-- An answer that leads to `ok` or breaks the handling. -/
theorem move_of_onAnswer {p ok p' : Phase} {op : Op} {r : Except GoError op.Res}
    (hnext : onAnswer ok (.broken p.handedOver) r = some p') (hop : ∀ e, Fails ⟨op, .error e⟩)
    (hcall : Call op w r w')
    (hok : ∀ a, r = .ok a → Move ref ⟨op, r⟩ p w ok w') : Move ref ⟨op, r⟩ p w p' w' := by
  cases r with
  | ok a =>
      cases hnext
      exact hok a rfl
  | error e =>
      cases hnext
      rw [(call_error hcall).1]
      exact .break (hop e)

/-- A call that keeps the phase and the world. -/
theorem move_stay {a : Answered Op.Res GoError} {p p' : Phase} (hp : some p = some p')
    (hw : w' = w) : Move ref a p w p' w' := by
  obtain rfl := Option.some.inj hp
  obtain rfl := hw
  exact .stay _ _

/-- A call that fails and breaks the handling. -/
theorem move_broken {p p' : Phase} {op : Op} {e : GoError}
    (hp : some (Phase.broken p.handedOver) = some p') (hcall : Call op w (.error e) w')
    (hop : Fails ⟨op, .error e⟩) : Move ref ⟨op, .error e⟩ p w p' w' := by
  obtain rfl := Option.some.inj hp
  rw [(call_error hcall).1]
  exact .break hop

/-- The execution is read. -/
theorem move_of_getExecutionByID {p p' : Phase} {x environmentID : UUID}
    {r : Except GoError (Op.getExecutionByID x environmentID).Res}
    (hnext : stepNext ref p ⟨.getExecutionByID x environmentID, r⟩ = some p')
    (hcall : Call (.getExecutionByID x environmentID) w r w') :
    Move ref ⟨.getExecutionByID x environmentID, r⟩ p w p' w' := by
  cases p <;> simp only [stepNext, reduceCtorEq] at hnext
  split_ifs at hnext with hx
  obtain ⟨rfl, rfl⟩ := hx
  cases r with
  | ok row =>
      obtain ⟨hget, henv⟩ := call_getExecutionByID hcall
      cases hnext
      rw [call_reads hcall True.intro]
      exact .fetch hget henv
  | error e => exact move_broken hnext hcall ⟨True.intro, by simp⟩

/-- The workflow is read, which has the node or has not. -/
theorem move_of_getByID {p p' : Phase} {id environmentID : UUID}
    {r : Except GoError (Op.getByID id environmentID).Res}
    (hnext : stepNext ref p ⟨.getByID id environmentID, r⟩ = some p')
    (hcall : Call (.getByID id environmentID) w r w') :
    Move ref ⟨.getByID id environmentID, r⟩ p w p' w' := by
  cases p <;> simp only [stepNext, reduceCtorEq] at hnext
  split_ifs at hnext with hx
  obtain ⟨rfl, rfl⟩ := hx
  cases r with
  | ok workflow =>
      have hfind := call_getByID hcall
      rw [call_reads hcall True.intro]
      rcases hl : Workflow.locate workflow ref.stepID with e | ⟨definition, node⟩ <;>
        simp only [hl] at hnext <;> cases hnext
      · exact .miss hfind hl ⟨_, _, rfl⟩
      · exact .locate hfind hl
  | error e => exact move_broken hnext hcall ⟨True.intro, by simp⟩

/-- The step row is updated: it is opened again, completed or failed. -/
theorem move_of_updateStepExecutionState {p p' : Phase}
    {arg : UpdateWorkflowStepExecutionStateParams}
    {r : Except GoError (Op.updateStepExecutionState arg).Res}
    (hnext : stepNext ref p ⟨.updateStepExecutionState arg, r⟩ = some p')
    (hcall : Call (.updateStepExecutionState arg) w r w') :
    Move ref ⟨.updateStepExecutionState arg, r⟩ p w p' w' := by
  cases p <;> simp only [stepNext, reduceCtorEq] at hnext
  · split_ifs at hnext with hx
    refine move_of_onAnswer hnext (fun _ => ⟨True.intro, by simp⟩) hcall ?_
    rintro row rfl
    have hw := stepWritten_of_update hcall
    rw [hx.1, hx.2.1, hx.2.2] at hw
    exact .open hw
  · split_ifs at hnext with hx hc hf
    · refine move_of_onAnswer hnext (fun _ => ⟨True.intro, by simp⟩) hcall ?_
      rintro row rfl
      have hw := stepWritten_of_update hcall
      rw [hx.1, hx.2, hc] at hw
      exact .complete hw
    · obtain ⟨hf, rfl⟩ := hf
      refine move_of_onAnswer hnext (fun _ => ⟨True.intro, by simp⟩) hcall ?_
      rintro row rfl
      have hw := stepWritten_of_update hcall
      rw [hx.1, hx.2, hf] at hw
      exact .fail hw

/-- The row of the execution is updated: it runs, is settled or given up. -/
theorem move_of_updateExecutionState {p p' : Phase} {x environmentID : UUID} {st : Status}
    {n : Option String} {c f : Option Time}
    {r : Except GoError (Op.updateExecutionState x environmentID st n c f).Res}
    (hnext : stepNext ref p ⟨.updateExecutionState x environmentID st n c f, r⟩ = some p')
    (hcall : Call (.updateExecutionState x environmentID st n c f) w r w') :
    Move ref ⟨.updateExecutionState x environmentID st n c f, r⟩ p w p' w' := by
  cases p <;> simp only [stepNext, reduceCtorEq] at hnext
  all_goals
    obtain ⟨hx, hnext⟩ := Option.ite_none_right_eq_some.mp hnext
    refine move_of_onAnswer hnext (fun _ => ⟨True.intro, by simp⟩) hcall ?_
    rintro row rfl
    have hw := statusWritten_of_update hcall
    rw [hx.1, hx.2.2] at hw
  · exact .run hw
  · refine .settle hw ?_
    rintro rfl
    exact hx.2.2
  · exact .giveUp hw

/-- **What a call of a handling can do.** -/
theorem move_of_call {p p' : Phase} {op : Op} {r : Except GoError op.Res}
    (hnext : stepNext ref p ⟨op, r⟩ = some p') (hcall : Call op w r w') :
    Move ref ⟨op, r⟩ p w p' w' := by
  cases op with
  | getExecutionByID => exact move_of_getExecutionByID hnext hcall
  | getByID => exact move_of_getByID hnext hcall
  | updateStepExecutionState => exact move_of_updateStepExecutionState hnext hcall
  | updateExecutionState => exact move_of_updateExecutionState hnext hcall
  | now | newUUID | getSubscriberByID | getTemplateByID =>
      cases p <;> simp only [stepNext, reduceCtorEq] at hnext
      all_goals exact move_stay hnext (call_reads hcall True.intro)
  | getStepExecution x n =>
      cases p <;> simp only [stepNext, reduceCtorEq] at hnext
      split_ifs at hnext with hx
      -- a row that is there, and one that is not, are both as good
      split at hnext
      · exact move_stay hnext (call_reads hcall True.intro)
      · exact move_stay hnext (call_reads hcall True.intro)
      · next hne => exact move_broken hnext hcall ⟨True.intro, fun heq => absurd heq hne⟩
  | createStepExecution arg =>
      cases p <;> simp only [stepNext, reduceCtorEq] at hnext
      split_ifs at hnext with hx
      refine move_of_onAnswer hnext (fun _ => ⟨True.intro, by simp⟩) hcall ?_
      rintro row rfl
      have hw := stepWritten_of_create hcall
      rw [hx.1, hx.2.1, hx.2.2] at hw
      exact .open hw
  | enqueue job =>
      cases p <;> simp only [stepNext, reduceCtorEq] at hnext
      split_ifs at hnext with hx
      obtain ⟨rfl, rfl, hjob⟩ := hx
      cases r with
      | ok a =>
          cases hnext
          rw [call_enqueue hcall]
          exact .send hjob
      | error e => exact move_stay hnext (call_error hcall).1
  | enqueueWorkflowStep job =>
      cases p <;> simp only [stepNext, reduceCtorEq] at hnext
      split_ifs at hnext with hx
      refine move_of_onAnswer hnext (fun _ => ⟨True.intro, by simp⟩) hcall ?_
      rintro a rfl
      exact .dispatch hx (call_enqueueWorkflowStep hcall) rfl
  | enqueueWorkflowStepIn job delay =>
      cases p <;> simp only [stepNext, reduceCtorEq] at hnext
      split_ifs at hnext with hx
      cases r with
      | ok a =>
          cases hnext
          exact .schedule hx (call_enqueueWorkflowStepIn hcall) rfl
      | error e => exact move_stay hnext (call_error hcall).1
  | getActiveByTriggerEvent | createExecution =>
      cases p <;> simp only [stepNext, reduceCtorEq] at hnext

/-! ### What a move leaves alone -/

/-- A move touches no other row than the one of its node. -/
theorem Move.stepStatus_of_ne {ref : StepRef} {a p p' x n} (h : Move ref a p w p' w')
    (hne : (x, n) ≠ (ref.executionID, ref.stepID)) : w'.stepStatus x n = w.stepStatus x n := by
  cases h with
  | «open» h | complete h | fail h => exact h.stepStatus_of_ne hne
  | run h | settle h | giveUp h =>
      obtain ⟨_, _, -, -, -, -, -, -, -, rfl⟩ := h
      rfl
  | schedule _ h | dispatch _ h =>
      obtain ⟨-, rfl⟩ := h
      rfl
  | _ => rfl

/-- A handling writes no workflows. -/
theorem Move.workflows {ref : StepRef} {a p p'} (h : Move ref a p w p' w') :
    w'.workflows = w.workflows := by
  cases h with
  | «open» h | complete h | fail h =>
      obtain ⟨-, -, -, rfl⟩ := h
      rfl
  | run h | settle h | giveUp h =>
      obtain ⟨_, _, -, -, -, -, -, -, -, rfl⟩ := h
      rfl
  | schedule _ h | dispatch _ h =>
      obtain ⟨-, rfl⟩ := h
      rfl
  | _ => rfl

theorem StatusWritten.get_of_ne {x y : UUID} {st : Status} (h : StatusWritten x st w w')
    (hne : y ≠ x) : w'.executions.get y = w.executions.get y := by
  obtain ⟨row, row', -, hid, -, -, -, -, -, rfl⟩ := h
  exact Table.get_set_of_ne (hid ▸ hne)

/-- The payload of an execution is written once. -/
theorem StatusWritten.payload {x : UUID} {st : Status} (h : StatusWritten x st w w') (y : UUID) :
    (w'.executions.get y).map (·.triggerPayload) = (w.executions.get y).map (·.triggerPayload) := by
  by_cases hy : y = x
  · subst hy
    obtain ⟨row, row', hget, hid, -, -, -, hpayload, -, rfl⟩ := h
    rw [Table.get_set_of_eq hid, hget, Option.map_some, Option.map_some, hpayload]
  · rw [h.get_of_ne hy]

/-- A move leaves the other executions alone. -/
theorem Move.get_of_ne {a p p'} {y : UUID} (h : Move ref a p w p' w')
    (hne : y ≠ ref.executionID) : w'.executions.get y = w.executions.get y := by
  cases h with
  | «open» h | complete h | fail h =>
      obtain ⟨-, -, -, rfl⟩ := h
      rfl
  | run h | settle h | giveUp h => exact h.get_of_ne hne
  | schedule _ h | dispatch _ h =>
      obtain ⟨-, rfl⟩ := h
      rfl
  | _ => rfl

/-- A handling keeps the payloads. -/
theorem Move.payload {a p p'} (h : Move ref a p w p' w') (y : UUID) :
    (w'.executions.get y).map (·.triggerPayload) = (w.executions.get y).map (·.triggerPayload) := by
  cases h with
  | «open» h | complete h | fail h =>
      obtain ⟨-, -, -, rfl⟩ := h
      rfl
  | run h | settle h | giveUp h => exact h.payload y
  | schedule _ h | dispatch _ h =>
      obtain ⟨-, rfl⟩ := h
      rfl
  | _ => rfl

/-- Only the last write of a handling that has handed over nothing completes the
execution. -/
theorem Move.completes {a p p'} (h : Move ref a p w p' w') :
    w'.status ref.executionID = some .completed →
    w.status ref.executionID = some .completed ∨
      a.1.Completes ∧ (∃ u, p = .closed u false) ∧ p' = .settled false ∧
        w'.queue = w.queue ∧ w'.steps = w.steps := by
  cases h with
  | «open» h | complete h | fail h =>
      obtain ⟨-, -, -, rfl⟩ := h
      exact Or.inl
  | schedule _ h | dispatch _ h =>
      obtain ⟨-, rfl⟩ := h
      exact Or.inl
  | run h | giveUp h =>
      intro hst
      rw [h.status_self] at hst
      cases hst
  | @settle u handed w w' h ha =>
      intro hst
      rw [h.status_self] at hst
      cases handed with
      | true => cases hst
      | false =>
          obtain ⟨_, _, -, -, -, -, -, -, -, rfl⟩ := h
          exact Or.inr ⟨ha rfl, ⟨u, rfl⟩, rfl, rfl, rfl⟩
  | _ => exact Or.inl

/-- A handling closes its row by completing it. -/
theorem Move.closed {a p p' u handed} (h : Move ref a p w p' w') (hp : p' = .closed u handed) :
    ((∃ u' handed', p = .closed u' handed') ∧ w'.steps = w.steps) ∨
      StepWritten ref.executionID ref.stepID .completed w w' := by
  cases h with
  | stay => exact Or.inl ⟨⟨u, handed, hp⟩, rfl⟩
  | complete h => exact Or.inr h
  | dispatch _ h =>
      obtain ⟨-, rfl⟩ := h
      exact Or.inl ⟨⟨_, _, rfl⟩, rfl⟩
  | _ => cases hp

/-! ### The moves of a trigger -/

/-- The job for the first step of a new execution. -/
def firstJob (row : WorkflowExecution) (stepID : String) : WorkflowStepJob where
  environmentID := row.environmentID.toString
  executionID := row.id.toString
  workflowID := row.workflowID.toString
  stepID := stepID

/-- The call creates an execution without a first step. -/
def Op.Bare : Op → Prop
  | createExecution arg => arg.currentStepID = none
  | _ => False

/-- The first step of an execution could not be enqueued. -/
def Unlaunched : Answered Op.Res GoError → Prop
  | ⟨.enqueueWorkflowStep _, .error _⟩ => True
  | _ => False

/-- One call of a `TriggerEvent`. -/
inductive TriggerMove (s : Service) (environmentID : UUID) (a : Answered Op.Res GoError) :
    Phase → World → Phase → World → Prop
  | stay (p w) : TriggerMove s environmentID a p w p w
  | stop (p w) : (∀ x v n, p = .owing x v n → Unlaunched a) →
      TriggerMove s environmentID a p w .stopped w
  /-- An execution whose first step is to be enqueued next. -/
  | create {row stepID w w'} : Created row w w' → row.environmentID = environmentID →
      row.currentStepID = some stepID → s.producer = true →
      TriggerMove s environmentID a .ready w (.owing row.id row.workflowID stepID) w'
  /-- An execution without a first step, or without a producer to hand it to. -/
  | createOnly {row w w'} : Created row w w' → row.environmentID = environmentID →
      a.1.Bare ∨ s.producer = false → TriggerMove s environmentID a .ready w .ready w'
  | launch {x v stepID w w'} :
      Queued ⟨environmentID.toString, x.toString, v.toString, stepID⟩ none w w' →
      TriggerMove s environmentID a (.owing x v stepID) w .ready w'

/-- **What a call of a trigger can do.** -/
theorem triggerMove_of_call {environmentID : UUID} {p p' : Phase} {op : Op}
    {r : Except GoError op.Res} (hnext : triggerNext s environmentID p ⟨op, r⟩ = some p')
    (hcall : Call op w r w') : TriggerMove s environmentID ⟨op, r⟩ p w p' w' := by
  cases op <;> cases p <;> simp only [triggerNext, reduceCtorEq] at hnext
  · split_ifs at hnext
    rw [call_reads hcall True.intro]
    cases r <;> cases hnext
    · exact .stop _ _ (by rintro _ _ _ ⟨⟩)
    · exact .stay _ _
  · next arg =>
    -- the row of an execution is inserted
    obtain ⟨hx, hnext⟩ := Option.ite_none_right_eq_some.mp hnext
    cases r with
    | error e =>
        cases hnext
        rw [(call_error hcall).1]
        exact .stop _ _ (by rintro _ _ _ ⟨⟩)
    | ok row =>
        obtain ⟨hget, hrow, hw⟩ := call_createExecution hcall
        have hid : row.id = arg.id := by rw [hrow]; rfl
        have hcur : row.currentStepID = arg.currentStepID := by rw [hrow]; rfl
        have henv : row.environmentID = environmentID := by rw [hrow]; exact hx.1
        have hv : arg.workflowID = row.workflowID := by rw [hrow]; rfl
        have hc : Created row w w' := ⟨hid ▸ hget, by rw [hrow]; exact hx.2, hw⟩
        -- a job is owed if there is a first step and a producer
        rcases hn : arg.currentStepID with - | stepID <;> simp only [hn] at hnext <;> cases hnext
        · exact .createOnly hc henv (Or.inl hn)
        · split_ifs with hp
          · rw [hv]
            exact .create hc henv (hcur.trans hn) hp
          · exact .createOnly hc henv (Or.inr (by simpa using hp))
  · split_ifs at hnext with hx
    cases r with
    | error e =>
        cases hnext
        rw [(call_error hcall).1]
        exact .stop _ _ fun _ _ _ _ => True.intro
    | ok a =>
        cases hnext
        -- the job that is owed is enqueued
        subst hx
        exact .launch (call_enqueueWorkflowStep hcall)
  · cases hnext
    rw [call_reads hcall True.intro]
    exact .stay _ _

/-- A trigger writes executions and jobs only. -/
theorem TriggerMove.frame {environmentID : UUID} {a p p'}
    (h : TriggerMove s environmentID a p w p' w') :
    w'.workflows = w.workflows ∧ w'.steps = w.steps ∧ w'.notifications = w.notifications := by
  cases h with
  | create h | createOnly h =>
      obtain ⟨-, -, rfl⟩ := h
      exact ⟨rfl, rfl, rfl⟩
  | launch h =>
      obtain ⟨-, rfl⟩ := h
      exact ⟨rfl, rfl, rfl⟩
  | _ => exact ⟨rfl, rfl, rfl⟩

/-- A trigger leaves the executions alone or adds one. -/
theorem TriggerMove.executions {environmentID : UUID} {a p p'}
    (h : TriggerMove s environmentID a p w p' w') :
    w'.executions = w.executions ∨ ∃ row, Created row w w' := by
  cases h with
  | create h | createOnly h => exact Or.inr ⟨_, h⟩
  | launch h =>
      obtain ⟨-, rfl⟩ := h
      exact Or.inl rfl
  | _ => exact Or.inl rfl

/-- Who owes a first step writes no more executions. -/
theorem TriggerMove.executions_of_owing {environmentID : UUID} {a p p' x u n}
    (h : TriggerMove s environmentID a p w p' w') (hp : p = .owing x u n) :
    w'.executions = w.executions := by
  cases h with
  | create => cases hp
  | createOnly => cases hp
  | launch h =>
      obtain ⟨-, rfl⟩ := h
      rfl
  | _ => rfl

/-! ### Answers -/

/-- The engine's calls answer as the protocol expects. -/
theorem expects_of_call {op : Op} {r : Except GoError op.Res} (h : Call op w r w') :
    Expects ⟨op, r⟩ := by
  cases r with
  | error e => exact (call_error h).2
  | ok a =>
      cases op with
      | getExecutionByID x environmentID =>
          obtain ⟨hget, henv⟩ := call_getExecutionByID h
          exact ⟨w.executions.keyed hget, henv⟩
      | createStepExecution arg =>
          obtain ⟨-, rfl, -⟩ := call_createStepExecution h
          exact rfl
      | updateStepExecutionState arg =>
          obtain ⟨old, -, rfl, -⟩ := call_updateStepExecutionState h
          exact rfl
      | _ => exact True.intro

end Iwifunni.Workflow
