/-
Iwifunni/Workflow/Parts.lean

A part of what the engine works on, and whether a call is inside or outside of it.

A `Part` picks environments, executions, jobs and notifications; a step row goes with its
execution.  A call that is inside does to the part what it does to the whole
(`call_inside`), and a call that is outside does nothing to it (`call_outside`):

    w      --- op --->  w'              w      --- op --->  w'
    |                   |               |                   |
    part   --- op --->  part'           part       =        part

So what is seen of a run is a run of the part (`engine_shows`), for any part such that
every activity either works inside or outside of it.
-/
import Iwifunni.Effect.Projection
import Iwifunni.Workflow.Ownership
import Iwifunni.Workflow.Versioning

namespace Iwifunni.Workflow

open Go Db Effect Effect.Prog

/-! ### Parts -/

/-- What belongs to a part. -/
structure Part where
  /-- A workflow, by its id and its environment. -/
  workflow : UUID → UUID → Bool
  /-- The environments whose subscribers and templates belong to it. -/
  directory : UUID → Bool
  /-- An execution, by its id and its environment. -/
  execution : UUID → UUID → Bool
  job : WorkflowStepJob → Bool
  notification : NotificationJob → Bool
  /-- The environments whose triggers belong to it. -/
  trigger : UUID → Bool

variable {s : Service} {w w' : World} {P : Part} {x : UUID}

/-- Does the execution belong to the part? -/
def Part.has (P : Part) (r : WorkflowExecution) : Bool := P.execution r.id r.environmentID

/-- Is there an execution of this id in the part? -/
def World.holds (w : World) (P : Part) (x : UUID) : Bool := (w.executions.get x).any P.has

/-- The part of a world. -/
def World.part (P : Part) (w : World) : World where
  workflows := w.workflows.filter fun r => P.workflow r.id r.environmentID
  executions := w.executions.filter P.has
  steps := w.steps.filter fun r => w.holds P r.executionID
  subscribers := w.subscribers.filter fun r => P.directory r.environmentID
  templates := w.templates.filter fun r => P.directory r.environmentID
  queue := w.queue.filter fun t => P.job t.job
  notifications := w.notifications.filter P.notification

/-- Of an edited directory, a part has its own rows. -/
def Change.part (P : Part) : Change → Change
  | directory subscribers templates =>
      directory (subscribers.filter fun r => P.directory r.environmentID)
        (templates.filter fun r => P.directory r.environmentID)
  | c => c

/-- Does the activity work for the part? -/
def Part.works (P : Part) : Activity → Bool
  | .step t => P.job t.job
  | .trigger environmentID _ => P.trigger environmentID

/-- What can be seen of the engine in a part. -/
def partSight (P : Part) : Sight World Activity Change where
  world := World.part P
  visible := P.works
  env := Change.part P

/-- The foreign key of `workflow_step_executions`. -/
def World.StepsOwned (w : World) : Prop :=
  ∀ k row, w.steps.get k = some row → (w.executions.get row.executionID).isSome

/-! ### Calls inside and outside -/

/-- The call reads and writes rows of the part. -/
def Op.Inside (P : Part) (w : World) : Op → Prop
  | now | newUUID => True
  | getExecutionByID id environmentID => ∀ row, w.executions.get id = some row →
      row.environmentID = environmentID → P.has row = true
  | updateExecutionState id environmentID _ _ _ _ => ∀ row, w.executions.get id = some row →
      row.environmentID = environmentID → P.has row = true
  | getByID id environmentID => P.workflow id environmentID = true
  | getActiveByTriggerEvent environmentID _ => ∀ id, P.workflow id environmentID = true
  | getSubscriberByID _ environmentID => P.directory environmentID = true
  | getTemplateByID _ environmentID => P.directory environmentID = true
  | getStepExecution executionID _ => w.holds P executionID = true
  | createStepExecution arg => w.holds P arg.executionID = true
  | updateStepExecutionState arg => w.holds P arg.executionID = true
  | createExecution arg => P.execution arg.id arg.environmentID = true
  | enqueue job => P.notification job = true
  | enqueueWorkflowStep job => P.job job = true
  | enqueueWorkflowStepIn job _ => P.job job = true

/-- The call writes no row of the part. -/
def Op.Outside (P : Part) (w : World) : Op → Prop
  | updateExecutionState id environmentID _ _ _ _ => ∀ row, w.executions.get id = some row →
      row.environmentID = environmentID → P.has row = false
  | createStepExecution arg => w.holds P arg.executionID = false
  | updateStepExecutionState arg => w.holds P arg.executionID = false
  | createExecution arg => w.executions.get arg.id = none →
      P.execution arg.id arg.environmentID = false
  | enqueue job => P.notification job = false
  | enqueueWorkflowStep job => P.job job = false
  | enqueueWorkflowStepIn job _ => P.job job = false
  | _ => True

/-- A step row is written for an execution that exists. -/
def Op.Owned (w : World) : Op → Prop
  | createStepExecution arg => (w.executions.get arg.executionID).isSome
  | updateStepExecutionState arg => (w.executions.get arg.executionID).isSome
  | _ => True

section Rows

/-- Writing an execution that keeps its environment. -/
theorem holds_set {row old : WorkflowExecution} (hold : w.executions.get row.id = some old)
    (henv : row.environmentID = old.environmentID) (y : UUID) :
    { w with executions := w.executions.set row }.holds P y = w.holds P y := by
  show ((w.executions.set row).get y).any _ = (w.executions.get y).any _
  by_cases hy : y = row.id
  · have hhas : P.has row = P.has old := by
      rw [Part.has, Part.has, henv, w.executions.keyed hold]
    rw [hy, Table.get_set_self, hold, Option.any_some, Option.any_some, hhas]
  · rw [Table.get_set_of_ne hy]

/-- A new execution has no step rows yet. -/
theorem holds_insert {row : WorkflowExecution} (hnew : w.executions.get row.id = none)
    (hw : w.StepsOwned) : ∀ k r, w.steps.get k = some r →
      { w with executions := w.executions.set row }.holds P r.executionID =
        w.holds P r.executionID := by
  intro k r hk
  show ((w.executions.set row).get r.executionID).any _ = _
  rw [Table.get_set_of_ne]
  · rfl
  · intro hr
    have howned := hw k r hk
    rw [hr, hnew] at howned
    cases howned

end Rows

/-! ### Changes, as a part sees them -/

section Changes

theorem filter_append_of_true {α : Type} {p : α → Bool} {a : α} (h : p a = true) (l : List α) :
    (l ++ [a]).filter p = l.filter p ++ [a] := by
  rw [List.filter_append, List.filter_cons_of_pos h, List.filter_nil]

theorem filter_append_of_false {α : Type} {p : α → Bool} {a : α} (h : p a = false)
    (l : List α) : (l ++ [a]).filter p = l.filter p := by
  rw [List.filter_append, List.filter_cons_of_neg (by rw [h]; exact Bool.noConfusion),
    List.filter_nil, List.append_nil]

theorem part_setStep (row : WorkflowStepExecution) (h : w.holds P row.executionID = true) :
    { w with steps := w.steps.set row }.part P =
      { w.part P with steps := (w.part P).steps.set row } :=
  congrArg (fun steps => { w.part P with steps := steps }) (Table.filter_set_of_true
    (t := w.steps) (p := fun r => w.holds P r.executionID) h)

theorem part_setStep_outside (row : WorkflowStepExecution)
    (h : w.holds P row.executionID = false) :
    { w with steps := w.steps.set row }.part P = w.part P := by
  have hsteps := Table.filter_set_of_false (t := w.steps) (p := fun r => w.holds P r.executionID)
    (r := row) h fun r hr => by
      rw [show r.executionID = row.executionID from congrArg Prod.fst (w.steps.keyed hr), h]
  exact congrArg (fun steps => { w.part P with steps := steps }) hsteps

variable (row : WorkflowExecution)

/-- An execution is written, and no step row changes hands. -/
theorem part_setExecution (hhas : P.has row = true)
    (hx : ∀ k r, w.steps.get k = some r →
      { w with executions := w.executions.set row }.holds P r.executionID =
        w.holds P r.executionID) :
    { w with executions := w.executions.set row }.part P =
      { w.part P with executions := (w.part P).executions.set row } := by
  have hexecutions := Table.filter_set_of_true (t := w.executions) (p := P.has) hhas
  -- the step rows of a part depend on which executions it holds only
  exact congrArg₂ (fun executions steps =>
    { w.part P with executions := executions, steps := steps }) hexecutions (Table.filter_congr hx)

theorem part_setExecution_outside (hhas : P.has row = false)
    (hold : ∀ old, w.executions.get row.id = some old → P.has old = false)
    (hx : ∀ k r, w.steps.get k = some r →
      { w with executions := w.executions.set row }.holds P r.executionID =
        w.holds P r.executionID) :
    { w with executions := w.executions.set row }.part P = w.part P := by
  have hexecutions := Table.filter_set_of_false (t := w.executions) (p := P.has) hhas hold
  exact congrArg₂ (fun executions steps =>
    { w.part P with executions := executions, steps := steps }) hexecutions (Table.filter_congr hx)

/-- An execution is written that keeps its environment. -/
theorem part_updateExecution {old : WorkflowExecution} (hget : w.executions.get row.id = some old)
    (hkept : row.environmentID = old.environmentID) :
    (P.has old = true → { w with executions := w.executions.set row }.part P =
      { w.part P with executions := (w.part P).executions.set row }) ∧
    (P.has old = false → { w with executions := w.executions.set row }.part P = w.part P) := by
  have hhas : P.has row = P.has old := by
    rw [Part.has, Part.has, hkept, w.executions.keyed hget]
  have hsteps := fun (k : UUID × String) (r : WorkflowStepExecution)
    (_ : w.steps.get k = some r) => holds_set (P := P) hget hkept r.executionID
  refine ⟨fun hold => part_setExecution row (hhas.trans hold) hsteps, fun hold => ?_⟩
  refine part_setExecution_outside row (hhas.trans hold) (fun old' hget' => ?_) hsteps
  rw [hget] at hget'
  cases hget'
  exact hold

variable {row}

/-- A job that enters the queue. -/
theorem part_append {t : Task} (h : P.job t.job = true) :
    { w with queue := w.queue ++ [t] }.part P =
      { w.part P with queue := (w.part P).queue ++ [t] } :=
  congrArg (fun queue => { w.part P with queue := queue })
    (filter_append_of_true (p := fun t : Task => P.job t.job) h w.queue)

theorem part_append_outside {t : Task} (h : P.job t.job = false) :
    { w with queue := w.queue ++ [t] }.part P = w.part P :=
  congrArg (fun queue => { w.part P with queue := queue })
    (filter_append_of_false (p := fun t : Task => P.job t.job) h w.queue)

/-- A job of the part is enqueued in the part. -/
theorem part_push {job : WorkflowStepJob} (h : P.job job = true) (d : Option Duration) :
    (w.part P).push job d = ((w.push job d).1, (w.push job d).2.part P) := by
  have hany : ((w.part P).queue.any fun t => t.job == job) =
      w.queue.any fun t => t.job == job := by
    show (w.queue.filter _).any _ = _
    rw [List.any_filter]
    apply congrArg (List.any w.queue)
    funext t
    by_cases ht : t.job = job
    · rw [ht, h, Bool.true_and]
    · rw [beq_eq_false_iff_ne.mpr ht, Bool.and_false]
  rw [World.push, World.push, hany]
  split
  · rfl
  · have happend := part_append (w := w) (t := { job := job, delay := d }) h
    exact congrArg (Prod.mk _) happend.symm

theorem part_push_outside {job : WorkflowStepJob} (h : P.job job = false) (d : Option Duration) :
    (w.push job d).2.part P = w.part P := by
  rw [World.push]
  split
  · rfl
  · exact part_append_outside h

/-- A job that leaves the queue. -/
theorem part_erase (t : Task) : { w with queue := w.queue.erase t }.part P =
    { w.part P with queue := (w.part P).queue.erase t } := by
  have hqueue := List.erase_filter (a := t) (f := fun t : Task => P.job t.job) (l := w.queue)
  exact congrArg (fun queue => { w.part P with queue := queue }) hqueue.symm

theorem part_erase_outside {t : Task} (h : P.job t.job = false) :
    { w with queue := w.queue.erase t }.part P = w.part P := by
  have hnot : t ∉ (w.part P).queue := by
    intro ht
    rw [(List.mem_filter.mp ht).2] at h
    cases h
  rw [part_erase, List.erase_of_not_mem hnot]

end Changes

/-! ### Calls, as a part sees them -/

section Calls

/-- A second condition that is stronger. -/
theorem filter_filter_of_imp {α : Type} {p q : α → Bool} (h : ∀ a, q a = true → p a = true)
    (o : Option α) : (o.filter p).filter q = o.filter q := by
  rcases o with - | a
  · rfl
  · rw [Option.filter_some]
    rcases hp : p a with - | -
    · have hq : q a = false := by
        rcases hq : q a with - | -
        · rfl
        · rw [h a hq] at hp
          cases hp
      rw [Option.filter_some, hq]
      rfl
    · rfl

theorem steps_get_part (h : w.holds P x = true) (n : String) :
    (w.part P).steps.get (x, n) = w.steps.get (x, n) := by
  show (w.steps.get (x, n)).filter _ = _
  rcases hk : w.steps.get (x, n) with - | row
  · rfl
  · have hx : row.executionID = x := congrArg Prod.fst (w.steps.keyed hk)
    rw [Option.filter_some, hx, h, if_pos rfl]

/-- An execution of the part, looked up in an environment. -/
theorem executions_get_part {id environmentID : UUID}
    (h : ∀ row, w.executions.get id = some row → row.environmentID = environmentID →
      P.has row = true) :
    ((w.part P).executions.get id).filter (fun r => r.environmentID == environmentID) =
      (w.executions.get id).filter fun r => r.environmentID == environmentID := by
  show ((w.executions.get id).filter P.has).filter _ = _
  rcases hget : w.executions.get id with - | row
  · rfl
  · by_cases henv : row.environmentID = environmentID
    · rw [Option.filter_some, if_pos (h row hget henv)]
    · have hother : ∀ q : Bool, (if q = true then some row else none).filter
          (fun r => r.environmentID == environmentID) = none := by
        rintro (- | -)
        · rfl
        · exact if_neg fun hr => henv (beq_iff_eq.mp hr)
      rw [Option.filter_some, hother]
      exact (hother true).symm

/-- A workflow of the part, looked up in an environment. -/
theorem workflows_find_part {id environmentID : UUID} (h : P.workflow id environmentID = true) :
    (w.part P).workflows.find? (fun r => r.id == id && r.environmentID == environmentID) =
      w.workflows.find? fun r => r.id == id && r.environmentID == environmentID := by
  show (w.workflows.filter _).find? _ = _
  rw [List.find?_filter]
  apply congrArg (List.find? · w.workflows)
  funext r
  by_cases hr : r.environmentID = environmentID
  · by_cases hid : r.id = id
    · simp [hr, hid, h]
    · simp [hid]
  · simp [hr]

/-- **A call inside does to the part what it does to the world.**  An id that is taken
outside looks like a failure. -/
theorem answer_inside {op : Op} (hop : op.Inside P w) (hw : w.StepsOwned) :
    World.answer op (w.part P) = ((World.answer op w).1, (World.answer op w).2.part P) ∨
      ∃ text, (World.answer op w).1 = .error (.other text) ∧ (World.answer op w).2 = w ∧
        ∃ arg, op = .createExecution arg := by
  -- a lookup in the directory asks for an environment that the part has
  have hdirectory : ∀ {environmentID : UUID} {β : Type} {f : β → UUID} {q : β → Bool}
      {o : Option β}, P.directory environmentID = true →
      (o.filter fun r => P.directory (f r)).filter (fun r => f r == environmentID && q r) =
        o.filter fun r => f r == environmentID && q r := by
    intro environmentID β f q o henv
    refine filter_filter_of_imp (fun r hr => ?_) o
    rw [Bool.and_eq_true, beq_iff_eq] at hr
    rw [hr.1]
    exact henv
  cases op with
  | now => exact Or.inl rfl
  | newUUID => exact Or.inl rfl
  | getExecutionByID id environmentID =>
      exact Or.inl (congrArg (fun o => (World.orNoRows o, w.part P)) (executions_get_part hop))
  | getByID id environmentID =>
      exact Or.inl (congrArg (fun o => (World.orNoRows o, w.part P)) (workflows_find_part hop))
  | getSubscriberByID id environmentID =>
      exact Or.inl (congrArg (fun o => (World.orNoRows o, w.part P)) (hdirectory hop))
  | getTemplateByID id environmentID =>
      refine Or.inl (congrArg (fun o => (World.orNoRows o, w.part P)) ?_)
      refine filter_filter_of_imp (fun r hr => ?_) (w.templates.get id)
      rw [beq_iff_eq.mp hr]
      exact hop
  | getStepExecution executionID stepID =>
      exact Or.inl (congrArg (fun o => (World.orNoRows o, w.part P)) (steps_get_part hop stepID))
  | createStepExecution arg =>
      refine Or.inl ?_
      simp only [World.answer]
      rw [steps_get_part hop]
      rcases w.steps.get (arg.executionID, arg.stepID) with - | row
      · exact congrArg (Prod.mk _) (part_setStep (World.insertedStep arg) hop).symm
      · rfl
  | updateStepExecutionState arg =>
      refine Or.inl ?_
      simp only [World.answer]
      rw [steps_get_part hop]
      rcases w.steps.get (arg.executionID, arg.stepID) with - | row
      · rfl
      · exact congrArg (Prod.mk _) (part_setStep (World.updatedStep arg row) hop).symm
  -- the row that is found is in the part, and its new version is as well
  | updateExecutionState id environmentID status currentStepID completedAt failedAt =>
      refine Or.inl ?_
      simp only [World.answer]
      rw [executions_get_part hop]
      generalize hg : (w.executions.get id).filter (fun r => r.environmentID == environmentID) = o
      rcases o with - | old
      · rfl
      · obtain ⟨hget, henv⟩ := Option.filter_eq_some_iff.mp hg
        have hset := (part_updateExecution (P := P) { old with
          id := id
          status := status
          currentStepID := currentStepID
          completedAt := completedAt
          failedAt := failedAt } hget rfl).1 (hop old hget (beq_iff_eq.mp henv))
        exact congrArg (Prod.mk _) hset.symm
  | getActiveByTriggerEvent environmentID triggerEvent =>
      refine Or.inl (congrArg (fun rows => (Except.ok rows, w.part P)) ?_)
      show (w.workflows.filter _).filter _ = _
      rw [List.filter_filter]
      apply congrArg (List.filter · w.workflows)
      funext r
      -- workflows of other environments are not asked for
      by_cases hr : r.environmentID = environmentID
      · rw [hr, hop r.id, Bool.and_true]
      · rw [beq_eq_false_iff_ne.mpr hr, Bool.false_and, Bool.false_and, Bool.false_and]
  | createExecution arg =>
      -- an id that the part does not show may be taken all the same
      rcases hg : w.executions.get arg.id with - | old
      · refine Or.inl ?_
        have hpart : (w.part P).executions.get arg.id = none := by
          show (w.executions.get arg.id).filter _ = none
          rw [hg]
          rfl
        simp only [World.answer, hg, hpart]
        exact congrArg (Prod.mk _) (part_setExecution (World.insertedExecution arg) hop
          (holds_insert hg hw)).symm
      · have htaken : World.answer (.createExecution arg) w =
            (.error World.uniqueViolation, w) := by
          simp only [World.answer, hg]
        rw [htaken]
        exact Or.inr ⟨_, rfl, rfl, arg, rfl⟩
  | enqueue job =>
      exact Or.inl (congrArg (fun l => (Except.ok (), { w.part P with notifications := l }))
        (filter_append_of_true hop w.notifications).symm)
  | enqueueWorkflowStep job => exact Or.inl (part_push hop none)
  | enqueueWorkflowStepIn job delay => exact Or.inl (part_push hop (some delay))

/-- **A call outside does nothing to the part.** -/
theorem answer_outside {op : Op} (hop : op.Outside P w) (hw : w.StepsOwned) :
    (World.answer op w).2.part P = w.part P := by
  cases op with
  | createStepExecution arg =>
      simp only [World.answer]
      rcases w.steps.get (arg.executionID, arg.stepID) with - | row
      · exact part_setStep_outside (World.insertedStep arg) hop
      · rfl
  | updateStepExecutionState arg =>
      simp only [World.answer]
      rcases w.steps.get (arg.executionID, arg.stepID) with - | row
      · rfl
      · exact part_setStep_outside (World.updatedStep arg row) hop
  | updateExecutionState id environmentID status currentStepID completedAt failedAt =>
      simp only [World.answer]
      generalize hg : (w.executions.get id).filter (fun r => r.environmentID == environmentID) = o
      rcases o with - | old
      · rfl
      · obtain ⟨hget, henv⟩ := Option.filter_eq_some_iff.mp hg
        exact (part_updateExecution (P := P) { old with
          id := id
          status := status
          currentStepID := currentStepID
          completedAt := completedAt
          failedAt := failedAt } hget rfl).2 (hop old hget (beq_iff_eq.mp henv))
  | createExecution arg =>
      rcases hg : w.executions.get arg.id with - | old
      · simp only [World.answer, hg]
        refine part_setExecution_outside (World.insertedExecution arg) (hop hg) ?_
          (holds_insert hg hw)
        intro old hget
        rw [show (World.insertedExecution arg).id = arg.id from rfl, hg] at hget
        cases hget
      · simp only [World.answer, hg]
  | enqueue job =>
      exact congrArg (fun l => { w.part P with notifications := l })
        (filter_append_of_false hop w.notifications)
  | enqueueWorkflowStep job => exact part_push_outside hop none
  | enqueueWorkflowStepIn job delay => exact part_push_outside hop (some delay)
  | _ => rfl

/-- A call inside the part. -/
theorem call_inside {op : Op} {r : Except GoError op.Res} (h : Call op w r w')
    (hop : op.Inside P w) (hw : w.StepsOwned) : Call op (w.part P) r (w'.part P) := by
  cases h with
  | answer =>
      rcases answer_inside hop hw with heq | ⟨text, hr, hsame, arg, rfl⟩
      · have hcall := Call.answer op (w.part P)
        rwa [heq] at hcall
      · rw [hr, hsame]
        exact .fault (show (Op.createExecution arg).Fallible from True.intro) _ text
  | fault hf text => exact .fault hf _ _
  | now => exact .now _ _
  | newUUID => exact .newUUID _ _

theorem call_outside {op : Op} {r : Except GoError op.Res} (h : Call op w r w')
    (hop : op.Outside P w) (hw : w.StepsOwned) : w'.part P = w.part P := by
  cases h with
  | answer => exact answer_outside hop hw
  | _ => rfl

/-- Executions stay, with their workflow and environment. -/
theorem kept_of_call {op : Op} {r : Except GoError op.Res} (h : Call op w r w') : Kept w w' := by
  rcases r with err | a
  · rw [(call_error h).1]
    exact kept_of_executions_eq rfl
  · cases op with
    | createExecution arg =>
        -- a new row takes no id that is there
        obtain ⟨hnew, hrow, rfl⟩ := call_createExecution h
        intro x row hx
        refine ⟨row, ?_, rfl, rfl⟩
        rw [Table.get_set_of_ne, hx]
        rintro rfl
        rw [hrow, show (World.insertedExecution arg).id = arg.id from rfl, hnew] at hx
        cases hx
    | updateExecutionState id environmentID status currentStepID completedAt failedAt =>
        exact (statusWritten_of_update h).kept
    | createStepExecution arg =>
        obtain ⟨-, -, rfl⟩ := call_createStepExecution h
        exact kept_of_executions_eq rfl
    | updateStepExecutionState arg =>
        obtain ⟨old, -, -, rfl⟩ := call_updateStepExecutionState h
        exact kept_of_executions_eq rfl
    | enqueue job =>
        cases call_enqueue h
        exact kept_of_executions_eq rfl
    | enqueueWorkflowStep job =>
        obtain ⟨-, rfl⟩ := call_enqueueWorkflowStep h
        exact kept_of_executions_eq rfl
    | enqueueWorkflowStepIn job delay =>
        obtain ⟨-, rfl⟩ := call_enqueueWorkflowStepIn h
        exact kept_of_executions_eq rfl
    | _ =>
        rw [call_reads h True.intro]
        exact kept_of_executions_eq rfl

/-- The foreign key is kept. -/
theorem stepsOwned_of_call {op : Op} {r : Except GoError op.Res} (h : Call op w r w')
    (hop : op.Owned w) (hw : w.StepsOwned) : w'.StepsOwned := by
  -- executions are not deleted
  have hkept : ∀ y, (w.executions.get y).isSome → (w'.executions.get y).isSome := by
    intro y hy
    obtain ⟨row, hrow⟩ := Option.isSome_iff_exists.mp hy
    obtain ⟨row', hrow', -⟩ := kept_of_call h y row hrow
    rw [hrow']
    rfl
  have hsame : w'.steps = w.steps → w'.StepsOwned := by
    intro hsteps k row hk
    rw [hsteps] at hk
    exact hkept _ (hw k row hk)
  -- and a step row is written for an execution that is there
  have hset : ∀ row : WorkflowStepExecution, (w.executions.get row.executionID).isSome →
      w'.steps = w.steps.set row → w'.StepsOwned := by
    intro row hrow hsteps k row' hk
    rw [hsteps] at hk
    rcases Table.get_set_eq_some hk with ⟨-, rfl⟩ | ⟨-, hold⟩
    · exact hkept _ hrow
    · exact hkept _ (hw k row' hold)
  rcases r with err | a
  · apply hsame
    rw [(call_error h).1]
  · cases op with
    | createStepExecution arg =>
        obtain ⟨-, rfl, rfl⟩ := call_createStepExecution h
        exact hset (World.insertedStep arg) hop rfl
    | updateStepExecutionState arg =>
        obtain ⟨old, -, rfl, rfl⟩ := call_updateStepExecutionState h
        exact hset (World.updatedStep arg old) hop rfl
    | updateExecutionState id environmentID status currentStepID completedAt failedAt =>
        obtain ⟨old, -, -, -, rfl⟩ := call_updateExecutionState h
        exact hsame rfl
    | createExecution arg =>
        obtain ⟨-, -, rfl⟩ := call_createExecution h
        exact hsame rfl
    | enqueue job =>
        cases call_enqueue h
        exact hsame rfl
    | enqueueWorkflowStep job =>
        obtain ⟨-, rfl⟩ := call_enqueueWorkflowStep h
        exact hsame rfl
    | enqueueWorkflowStepIn job delay =>
        obtain ⟨-, rfl⟩ := call_enqueueWorkflowStepIn h
        exact hsame rfl
    | _ =>
        apply hsame
        rw [call_reads h True.intro]

end Calls

/-! ### Other steps, as a part sees them -/

section Besides

/-- The beginning of an activity, as a part sees it. -/
theorem shown_spawn {l : Activity} (h : (engine s).spawn l w w') :
    (partSight P).Shown l ((engine s).spawn l) w w' := by
  cases l with
  | trigger environmentID input =>
      cases h
      exact ⟨fun _ => rfl, fun _ => rfl⟩
  | step t =>
      obtain ⟨hmem, rfl⟩ := h
      exact ⟨fun hseen => ⟨List.mem_filter.mpr ⟨hmem, hseen⟩, part_erase t⟩,
        fun hhidden => part_erase_outside hhidden⟩

theorem shown_lose {l : Activity} (h : (engine s).lose l w w') :
    (partSight P).Shown l ((engine s).lose l) w w' := by
  cases l with
  | trigger environmentID input =>
      cases h
      exact ⟨fun _ => rfl, fun _ => rfl⟩
  | step t =>
      cases h
      exact ⟨fun hseen => part_append hseen, fun hhidden => part_append_outside hhidden⟩

/-- The end of an activity, as a part sees it. -/
theorem shown_close {l : Activity} {out : Except GoError Unit} (h : (engine s).close l out w w') :
    (partSight P).Shown l ((engine s).close l out) w w' := by
  cases l with
  | trigger environmentID input =>
      cases h
      exact ⟨fun _ => rfl, fun _ => rfl⟩
  | step t =>
      obtain rfl : w' = w.closeTask s.maxRetry t out := h
      -- whether the job is given up does not depend on the world
      have hcases : (∀ v : World, v.closeTask s.maxRetry t out = v) ∨
          ∀ v : World, v.closeTask s.maxRetry t out = { v with queue := v.queue ++ [t.retry] } := by
        cases out with
        | ok a => exact Or.inl fun v => rfl
        | error err =>
            by_cases hskip : skipRetry err = true
            · exact Or.inl fun v => by rw [World.closeTask, if_pos hskip]
            · by_cases hlt : t.retried < s.maxRetry
              · exact Or.inr fun v => by rw [World.closeTask, if_neg hskip, if_pos hlt]
              · exact Or.inl fun v => by rw [World.closeTask, if_neg hskip, if_neg hlt]
      rcases hcases with hkept | hback
      · rw [hkept w]
        exact ⟨fun _ => (hkept _).symm, fun _ => rfl⟩
      · rw [hback w]
        refine ⟨fun hseen => ?_, fun hhidden => part_append_outside (t := t.retry) hhidden⟩
        exact (part_append (t := t.retry) hseen).trans (hback _).symm

/-- A workflow is changed that stays in its environment. -/
theorem part_modifyWorkflow (w : World) (id environmentID : UUID)
    {f : Db.Workflow → Except GoError Db.Workflow}
    (hf : ∀ r r', f r = .ok r' → r'.id = r.id ∧ r'.environmentID = r.environmentID) :
    (w.modifyWorkflow id environmentID f).part P =
        (w.part P).modifyWorkflow id environmentID f ∨
      (w.modifyWorkflow id environmentID f).part P = w.part P := by
  rcases hin : P.workflow id environmentID with - | -
  · -- outside, an old row makes way for a new one of the same key
    refine Or.inr ?_
    rw [World.modifyWorkflow]
    generalize hrow : w.workflows.find?
      (fun r => r.id == id && r.environmentID == environmentID) = o
    rcases o with - | row
    · rfl
    dsimp only
    rcases hnew : f row with err | new
    · rfl
    have hkey := List.find?_some hrow
    rw [Bool.and_eq_true, beq_iff_eq, beq_iff_eq] at hkey
    have hhas : P.workflow new.id new.environmentID = false := by
      rw [(hf row new hnew).1, (hf row new hnew).2, hkey.1, hkey.2, hin]
    have hrows : (new :: w.workflows.filter fun r =>
        !(r.id == id && r.environmentID == environmentID)).filter
        (fun r => P.workflow r.id r.environmentID) = (w.part P).workflows := by
      rw [List.filter_cons_of_neg (p := fun r : Db.Workflow => P.workflow r.id r.environmentID)
        (by rw [hhas]; exact Bool.noConfusion), List.filter_filter]
      apply congrArg (List.filter · w.workflows)
      funext r
      by_cases hr : r.id = id ∧ r.environmentID = environmentID
      · rw [hr.1, hr.2, hin, Bool.false_and]
      · have hother : (r.id == id && r.environmentID == environmentID) = false := by
          simpa using hr
        rw [hother, Bool.not_false, Bool.and_true]
    exact congrArg (fun rows => { w.part P with workflows := rows }) hrows
  -- inside, the same row is found and replaced
  · refine Or.inl ?_
    rw [World.modifyWorkflow, World.modifyWorkflow, workflows_find_part hin]
    generalize hrow : w.workflows.find?
      (fun r => r.id == id && r.environmentID == environmentID) = o
    rcases o with - | row
    · rfl
    dsimp only
    rcases hnew : f row with err | new
    · rfl
    have hkey := List.find?_some hrow
    rw [Bool.and_eq_true, beq_iff_eq, beq_iff_eq] at hkey
    have hhas : P.workflow new.id new.environmentID = true := by
      rw [(hf row new hnew).1, (hf row new hnew).2, hkey.1, hkey.2, hin]
    have hrows : (new :: w.workflows.filter fun r =>
        !(r.id == id && r.environmentID == environmentID)).filter
        (fun r => P.workflow r.id r.environmentID) =
        new :: (w.part P).workflows.filter fun r =>
          !(r.id == id && r.environmentID == environmentID) := by
      rw [List.filter_cons_of_pos (p := fun r : Db.Workflow => P.workflow r.id r.environmentID)
        hhas]
      exact congrArg (List.cons new) (List.filter_comm _ _ _)
    exact congrArg (fun rows => { w.part P with workflows := rows }) hrows

/-- A workflow is created. -/
theorem part_createDefinition (w : World) (workflow : Db.Workflow) (definition : Definition) :
    ((Change.createDefinition workflow definition).apply w).part P =
        (Change.createDefinition workflow definition).apply (w.part P) ∨
      ((Change.createDefinition workflow definition).apply w).part P = w.part P := by
  simp only [Change.apply]
  rcases hrow : withDefinition workflow definition with err | row
  · exact Or.inr rfl
  dsimp only
  split
  · exact Or.inr rfl
  next hnew =>
  rcases hhas : P.workflow row.id row.environmentID with - | -
  · refine Or.inr ?_
    have hrows : (row :: w.workflows).filter (fun r => P.workflow r.id r.environmentID) =
        (w.part P).workflows :=
      List.filter_cons_of_neg (by rw [hhas]; exact Bool.noConfusion)
    exact congrArg (fun rows => { w.part P with workflows := rows }) hrows
  · refine Or.inl ?_
    have hany : ((w.part P).workflows.any fun r => r.id == row.id) = false := by
      rw [Bool.not_eq_true, List.any_eq_false] at hnew
      rw [List.any_eq_false]
      exact fun r hr => hnew r (List.mem_filter.mp hr).1
    have hrows : (row :: w.workflows).filter (fun r => P.workflow r.id r.environmentID) =
        row :: (w.part P).workflows := List.filter_cons_of_pos hhas
    rw [hany]
    exact congrArg (fun rows => { w.part P with workflows := rows }) hrows

/-- A change from outside, as a part sees it. -/
theorem part_apply (c : Change) (w : World) :
    (c.apply w).part P = (c.part P).apply (w.part P) ∨ (c.apply w).part P = w.part P := by
  cases c with
  | createDefinition workflow definition => exact part_createDefinition w workflow definition
  | updateDefinition id environmentID definition =>
      refine part_modifyWorkflow w id environmentID fun r r' h => ?_
      obtain ⟨-, hid, henv, -⟩ := withDefinition_eq h
      exact ⟨hid, henv⟩
  | setStatus id environmentID status =>
      refine part_modifyWorkflow w id environmentID fun r r' h => ?_
      cases h
      exact ⟨rfl, rfl⟩
  | directory subscribers templates => exact Or.inl rfl

/-- What happens besides calls leaves executions and step rows alone. -/
theorem frame_of_step {p p' : EnginePool} {ev : EngineEvent} (h : Step (engine s) p ev p')
    (hcall : ∀ i a, ev ≠ .call i a) :
    p'.world.executions = p.world.executions ∧ p'.world.steps = p.world.steps := by
  cases h with
  | call => exact (hcall _ _ rfl).elim
  | @start w w' ts i l hts hspawn =>
      cases l with
      | step t =>
          obtain ⟨-, rfl⟩ := hspawn
          exact ⟨rfl, rfl⟩
      | trigger environmentID input =>
          cases hspawn
          exact ⟨rfl, rfl⟩
  | @finish w w' ts i l tr out hts hclose =>
      cases l with
      | step t =>
          obtain rfl : w' = w.closeTask s.maxRetry t out := hclose
          -- ending a handling touches the queue only
          rcases closeTask_queue s.maxRetry w t out with heq | ⟨heq, -, -⟩
          · rw [heq]
            exact ⟨rfl, rfl⟩
          · rw [heq]
            exact ⟨rfl, rfl⟩
      | trigger environmentID input =>
          cases hclose
          exact ⟨rfl, rfl⟩
  | @lose w w' ts i t hts hlose =>
      obtain ⟨l, tr, prog⟩ := t
      cases l with
      | step t =>
          cases hlose
          exact ⟨rfl, rfl⟩
      | trigger environmentID input =>
          cases hlose
          exact ⟨rfl, rfl⟩
  | @env w w' ts c henv =>
      obtain rfl : w' = c.apply w := henv
      obtain ⟨hexecutions, hsteps, -⟩ := c.apply_frame w
      exact ⟨hexecutions, hsteps⟩

/-- Executions stay in every step. -/
theorem kept_of_step {p p' : EnginePool} {ev : EngineEvent} (h : Step (engine s) p ev p') :
    Kept p.world p'.world := by
  have hframe := frame_of_step h
  cases h with
  | call hts hcall => exact kept_of_call hcall
  | _ => exact kept_of_executions_eq (hframe fun _ _ heq => by cases heq).1

end Besides

/-! ### What is seen of a run -/

/-- **A part can be seen**, if its activities make calls inside of it, and the others make
calls outside. -/
theorem engine_shows (s : Service) (P : Part) {I : EnginePool → Prop}
    (hkept : ∀ {p ev p'}, I p → Step (engine s) p ev p' → I p')
    (hsteps : ∀ p, I p → p.world.StepsOwned)
    (hcall : ∀ p i l tr op k, I p → p.threads i = some ⟨l, tr, .call op k⟩ →
      (P.works l = true → op.Inside P p.world) ∧ (P.works l = false → op.Outside P p.world)) :
    (engine s).Shows (partSight P) I where
  kept := hkept
  spawn h := shown_spawn h
  call {p i l tr op k r w'} h ht hs := by
    obtain ⟨hinside, houtside⟩ := hcall p i l tr op k h ht
    exact ⟨fun hseen => call_inside hs (hinside hseen) (hsteps p h),
      fun hhidden => call_outside hs (houtside hhidden) (hsteps p h)⟩
  close h := shown_close h
  lose h := shown_lose h
  env {c w w'} h := by
    obtain rfl : w' = c.apply w := h
    rcases part_apply (P := P) c w with hseen | hkept
    · exact Or.inl hseen
    · exact Or.inr hkept

end Iwifunni.Workflow
