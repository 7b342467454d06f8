/-
Iwifunni/Workflow/Engine.lean

The engine as a whole: the database, the queue, and the workers.

A `World` holds the tables the engine uses, the step jobs that are pending,
scheduled or waiting for a retry, and the notification jobs the queue has
accepted.  `World.answer` is what a call does when nothing goes wrong; besides,
every call to the repository or the queue may fail without effect (`Call`).

Activities are the handling of a step job by a worker and a `TriggerEvent` in
progress.  A job that is taken up leaves the queue; when its handling ends,

    ok                                              the job is gone
    ErrInvalidWorkflow / ErrInvalidWorkflowEvent    SkipRetry: the job is gone
    another error                                   back to the queue, up to MaxRetry

and a lost handling (a crash, an expired lease) puts the job back as it was.
-/
import Iwifunni.Effect.Pool
import Iwifunni.Effect.Table
import Iwifunni.Workflow.Service

namespace Iwifunni.Workflow

open Go Db Effect Effect.Prog

/-! ### The world -/

/-- A step job in the queue. -/
structure Task where
  job : WorkflowStepJob
  retried : ℕ := 0
  /-- The delay it was scheduled with. -/
  delay : Option Duration := none
  deriving DecidableEq

/-- The unique key of a step row. -/
def stepKey (row : WorkflowStepExecution) : UUID × String := (row.executionID, row.stepID)

structure World where
  /-- Most recently updated first. -/
  workflows : List Db.Workflow
  executions : Table WorkflowExecution.id
  steps : Table stepKey
  subscribers : Table Subscriber.id
  templates : Table Template.id
  queue : List Task
  /-- The notification jobs accepted by the queue, in order. -/
  notifications : List NotificationJob

namespace World

/-! ### The calls -/

/-- The row an INSERT into `workflow_step_executions` writes. -/
def insertedStep (arg : CreateWorkflowStepExecutionParams) : WorkflowStepExecution where
  id := arg.id
  executionID := arg.executionID
  stepID := arg.stepID
  stepType := arg.stepType
  status := arg.status
  attempts := arg.attempts
  inputJson := arg.inputJson
  outputJson := arg.outputJson
  errorJson := arg.errorJson
  startedAt := arg.startedAt
  completedAt := arg.completedAt
  failedAt := arg.failedAt

/-- `UpdateWorkflowStepExecutionState` on a row. -/
def updatedStep (arg : UpdateWorkflowStepExecutionStateParams) (row : WorkflowStepExecution) :
    WorkflowStepExecution :=
  { row with
    executionID := arg.executionID
    stepID := arg.stepID
    status := arg.status
    attempts := arg.attempts
    inputJson := arg.inputJson
    outputJson := arg.outputJson
    errorJson := arg.errorJson
    startedAt := arg.startedAt
    completedAt := arg.completedAt
    failedAt := arg.failedAt }

/-- The row an INSERT into `workflow_executions` writes. -/
def insertedExecution (arg : CreateWorkflowExecutionParams) : WorkflowExecution where
  id := arg.id
  workflowID := arg.workflowID
  environmentID := arg.environmentID
  subscriberID := arg.subscriberID
  status := arg.status
  currentStepID := arg.currentStepID
  triggerPayload := arg.triggerPayload

/-- A row, or `pgx.ErrNoRows`. -/
def orNoRows (row : Option α) : Except GoError α :=
  match row with
  | some row => .ok row
  | none => .error .noRows

/-- The active workflows of an event, as the query lists them. -/
def matching (w : World) (environmentID : UUID) (eventName : String) : List Db.Workflow :=
  w.workflows.filter fun r => r.environmentID == environmentID &&
    r.triggerEvent == some eventName && r.status == .active

def uniqueViolation : GoError := .other "duplicate key value violates unique constraint"

/-- `asynq.ErrDuplicateTask`. -/
def taskConflict : GoError := .other "task already exists"

/-- Add a step job to the queue, unless one with the same payload is pending. -/
def push (w : World) (job : WorkflowStepJob) (delay : Option Duration) :
    Except GoError Unit × World :=
  if w.queue.any fun t => t.job == job then (.error taskConflict, w)
  else (.ok (), { w with queue := w.queue ++ [{ job := job, delay := delay }] })

/-- What a call does when nothing goes wrong. -/
def answer : (op : Op) → World → Except GoError op.Res × World
  | .getExecutionByID id environmentID, w =>
      (orNoRows ((w.executions.get id).filter (·.environmentID == environmentID)), w)
  | .getByID id environmentID, w =>
      (orNoRows (w.workflows.find? fun r => r.id == id && r.environmentID == environmentID), w)
  | .getSubscriberByID id environmentID, w =>
      (orNoRows ((w.subscribers.get id).filter fun r =>
        r.environmentID == environmentID && r.deletedAt.isNone), w)
  | .getTemplateByID id environmentID, w =>
      (orNoRows ((w.templates.get id).filter (·.environmentID == environmentID)), w)
  | .getStepExecution executionID stepID, w =>
      (orNoRows (w.steps.get (executionID, stepID)), w)
  | .createStepExecution arg, w =>
      match w.steps.get (arg.executionID, arg.stepID) with
      | some _ => (.error uniqueViolation, w)
      | none => (.ok (insertedStep arg), { w with steps := w.steps.set (insertedStep arg) })
  | .updateStepExecutionState arg, w =>
      match w.steps.get (arg.executionID, arg.stepID) with
      | some row => (.ok (updatedStep arg row), { w with steps := w.steps.set (updatedStep arg row) })
      | none => (.error .noRows, w)
  | .updateExecutionState id environmentID status currentStepID completedAt failedAt, w =>
      match (w.executions.get id).filter (·.environmentID == environmentID) with
      | some row =>
          let row' := { row with
            id := id
            status := status
            currentStepID := currentStepID
            completedAt := completedAt
            failedAt := failedAt }
          (.ok row', { w with executions := w.executions.set row' })
      | none => (.error .noRows, w)
  | .getActiveByTriggerEvent environmentID triggerEvent, w =>
      (.ok (w.matching environmentID triggerEvent), w)
  | .createExecution arg, w =>
      match w.executions.get arg.id with
      | some _ => (.error uniqueViolation, w)
      | none => (.ok (insertedExecution arg),
          { w with executions := w.executions.set (insertedExecution arg) })
  | .enqueue job, w => (.ok (), { w with notifications := w.notifications ++ [job] })
  | .enqueueWorkflowStep job, w => w.push job none
  | .enqueueWorkflowStepIn job delay, w => w.push job (some delay)
  | .now, w => (.ok 0, w)
  | .newUUID, w => (.ok (UUID.ofDigit 7), w)

end World

/-- `time.Now` and `uuid.New` cannot fail. -/
def Op.Fallible : Op → Prop
  | now => False
  | newUUID => False
  | _ => True

/-- `Call op w r w'`: the call may be answered by `r` and leave the world `w'`. -/
inductive Call : (op : Op) → World → Except GoError op.Res → World → Prop
  | answer (op w) : Call op w (World.answer op w).1 (World.answer op w).2
  | fault {op} (h : op.Fallible) (w) (text : String) : Call op w (.error (.other text)) w
  | now (w t) : Call .now w (.ok t) w
  | newUUID (w u) : Call .newUUID w (.ok u) w

/-! ### Changes from outside -/

/-- What other parts of the service do to the tables of the engine. -/
inductive Change
  /-- `Service.Create` with a definition. -/
  | createDefinition (workflow : Db.Workflow) (definition : Definition)
  /-- `Service.Update` with a definition. -/
  | updateDefinition (id environmentID : UUID) (definition : Definition)
  /-- `Service.Pause`, `Service.Resume` and `Service.Delete`. -/
  | setStatus (id environmentID : UUID) (status : WorkflowStatus)
  /-- Subscribers and templates are edited. -/
  | directory (subscribers : Table Subscriber.id) (templates : Table Template.id)

/-- Replace the row of a workflow by its changed version, which is then the most
recently updated one. -/
def World.modifyWorkflow (w : World) (id environmentID : UUID)
    (f : Db.Workflow → Except GoError Db.Workflow) : World :=
  match w.workflows.find? fun r => r.id == id && r.environmentID == environmentID with
  | none => w
  | some row =>
      match f row with
      | .error _ => w
      | .ok row' => { w with workflows :=
          row' :: w.workflows.filter fun r => !(r.id == id && r.environmentID == environmentID) }

def Change.apply : Change → World → World
  | createDefinition workflow definition, w =>
      match withDefinition workflow definition with
      | .error _ => w
      | .ok row =>
          if w.workflows.any fun r => r.id == row.id then w
          else { w with workflows := row :: w.workflows }
  | updateDefinition id environmentID definition, w =>
      w.modifyWorkflow id environmentID fun row => withDefinition row definition
  | setStatus id environmentID status, w =>
      w.modifyWorkflow id environmentID fun row => .ok { row with status := status }
  | directory subscribers templates, w =>
      { w with subscribers := subscribers, templates := templates }

/-! ### Activities -/

inductive Activity
  /-- A worker handles a step job. -/
  | step (task : Task)
  /-- `TriggerEvent` is being served. -/
  | trigger (environmentID : UUID) (input : TriggerEventInput)

/-- `Worker.handle` returns `SkipRetry` for these errors. -/
def skipRetry (e : GoError) : Bool :=
  e == .invalidWorkflow || e == .invalidWorkflowEvent

/-- A job on its way back to the queue. -/
def Task.retry (t : Task) : Task := { job := t.job, retried := t.retried + 1 }

/-- The queue after a handling has ended, of a job with `asynq.MaxRetry(maxRetry)`. -/
def World.closeTask (maxRetry : ℕ) (w : World) (t : Task) : Except GoError Unit → World
  | .ok _ => w
  | .error e =>
      if skipRetry e then w
      else if t.retried < maxRetry then { w with queue := w.queue ++ [t.retry] }
      else w

abbrev EngineEvent : Type := Event Activity Change Op.Res GoError Unit

/-- The program of an activity. -/
def Activity.body (s : Service) : Activity → Act Unit
  | step t => processStep s t.job
  | trigger environmentID input => do
      let _ ← triggerEvent s environmentID input
      ret ()

/-- The workflow engine of a service. -/
def engine (s : Service) : Machine World Activity Change Op.Res GoError Unit where
  body := Activity.body s
  spawn
    | .step t, w, w' => t ∈ w.queue ∧ w' = { w with queue := w.queue.erase t }
    | .trigger _ _, w, w' => w' = w
  sem := Call
  close
    | .step t, out, w, w' => w' = w.closeTask s.maxRetry t out
    | .trigger _ _, _, w, w' => w' = w
  lose
    | .step t, w, w' => w' = { w with queue := w.queue ++ [t] }
    | .trigger _ _, w, w' => w' = w
  env c w w' := w' = c.apply w

/-- Worlds in which no event has been triggered yet. -/
structure World.Fresh (w : World) : Prop where
  executions : ∀ x, w.executions.get x = none
  steps : ∀ k, w.steps.get k = none
  queue : w.queue = []
  notifications : w.notifications = []

abbrev EnginePool : Type := Pool World Activity Op.Res GoError Unit

/-- A pool without activities. -/
def idle (w : World) : EnginePool := ⟨w, fun _ => none⟩

/-! ### Conditions on events -/

/-- Definitions are not changed; subscribers and templates may be. -/
def definitionsFixed : EngineEvent → Prop
  | .env (.directory _ _) => True
  | .env _ => False
  | _ => True

/-- No handling is lost. -/
def notLost : EngineEvent → Prop
  | .lose _ => False
  | _ => True

/-! ### What a call answers and changes -/

section Calls

variable {w w' : World}

/-- A call that fails changes nothing. -/
theorem call_error {op : Op} {e : GoError} (h : Call op w (.error e) w') :
    w' = w ∧ op.Fallible ∧ skipRetry e = false := by
  generalize hr : (Except.error e : Except GoError op.Res) = r at h
  cases h with
  | fault hf =>
      cases hr
      exact ⟨rfl, hf, rfl⟩
  | now => cases hr
  | newUUID => cases hr
  | answer =>
      have horNoRows : ∀ {α : Type} {o : Option α}, World.orNoRows o = .error e →
          skipRetry e = false := by
        intro α o ho
        cases o <;> cases ho
        rfl
      have hpush : ∀ {job : WorkflowStepJob} {d : Option Duration}, (w.push job d).1 = .error e →
          (w.push job d).2 = w ∧ skipRetry e = false := by
        intro job d hp
        unfold World.push at hp ⊢
        split at hp
        · cases hp
          exact ⟨by simp only [*, if_true], rfl⟩
        · cases hp
      cases op <;> simp only [World.answer] at hr ⊢ <;>
        first
        | exact ⟨True.intro, True.intro, horNoRows hr.symm⟩
        | exact ⟨(hpush hr.symm).1, True.intro, (hpush hr.symm).2⟩
        | (split at hr <;> cases hr <;> exact ⟨by simp only [*], True.intro, rfl⟩)
        | cases hr

/-- The calls that only read. -/
def Op.Reads : Op → Prop
  | createStepExecution _ | updateStepExecutionState _ | updateExecutionState _ _ _ _ _ _
  | createExecution _ | enqueue _ | enqueueWorkflowStep _ | enqueueWorkflowStepIn _ _ => False
  | _ => True

theorem call_reads {op : Op} {r : Except GoError op.Res} (h : Call op w r w')
    (hop : op.Reads) : w' = w := by
  cases h with
  | answer => cases op <;> first | rfl | exact hop.elim
  | _ => rfl

theorem orNoRows_ok {α : Type} {o : Option α} {a : α} (h : World.orNoRows o = .ok a) :
    o = some a := by
  cases o <;> cases h
  rfl

theorem call_getExecutionByID {id environmentID : UUID} {row : WorkflowExecution}
    (h : Call (.getExecutionByID id environmentID) w (.ok row) w') :
    w.executions.get id = some row ∧ row.environmentID = environmentID := by
  generalize hr : (Except.ok row : Except GoError _) = r at h
  cases h with
  | fault => cases hr
  | answer =>
      have := orNoRows_ok hr.symm
      simpa only [Option.filter_eq_some_iff, beq_iff_eq] using this

theorem call_getByID {id environmentID : UUID} {row : Db.Workflow}
    (h : Call (.getByID id environmentID) w (.ok row) w') :
    w.workflows.find? (fun r => r.id == id && r.environmentID == environmentID) = some row := by
  generalize hr : (Except.ok row : Except GoError _) = r at h
  cases h with
  | fault => cases hr
  | answer => exact orNoRows_ok hr.symm

theorem call_getActiveByTriggerEvent {environmentID : UUID} {event : String}
    {rows : List Db.Workflow}
    (h : Call (.getActiveByTriggerEvent environmentID event) w (.ok rows) w') :
    rows = w.matching environmentID event := by
  generalize hr : (Except.ok rows : Except GoError _) = r at h
  cases h with
  | fault => cases hr
  | answer =>
      cases hr
      rfl

/-- A step row is created once. -/
theorem call_createStepExecution {arg : CreateWorkflowStepExecutionParams}
    {row : WorkflowStepExecution} (h : Call (.createStepExecution arg) w (.ok row) w') :
    w.steps.get (arg.executionID, arg.stepID) = none ∧ row = World.insertedStep arg ∧
      w' = { w with steps := w.steps.set row } := by
  generalize hr : (Except.ok row : Except GoError _) = r at h
  cases h with
  | fault => cases hr
  | answer =>
      rcases hg : w.steps.get (arg.executionID, arg.stepID) with - | old <;>
        simp only [World.answer, hg] at hr ⊢ <;> cases hr
      exact ⟨True.intro, rfl, rfl⟩

/-- An UPDATE of a step finds its row. -/
theorem call_updateStepExecutionState {arg : UpdateWorkflowStepExecutionStateParams}
    {row : WorkflowStepExecution} (h : Call (.updateStepExecutionState arg) w (.ok row) w') :
    ∃ old, w.steps.get (arg.executionID, arg.stepID) = some old ∧
      row = World.updatedStep arg old ∧ w' = { w with steps := w.steps.set row } := by
  generalize hr : (Except.ok row : Except GoError _) = r at h
  cases h with
  | fault => cases hr
  | answer =>
      rcases hg : w.steps.get (arg.executionID, arg.stepID) with - | old <;>
        simp only [World.answer, hg] at hr ⊢ <;> cases hr
      exact ⟨old, rfl, rfl, rfl⟩

/-- An UPDATE of an execution finds its row. -/
theorem call_updateExecutionState {id environmentID : UUID} {status : Status}
    {currentStepID : Option String} {completedAt failedAt : Option Time}
    {row : WorkflowExecution}
    (h : Call (.updateExecutionState id environmentID status currentStepID completedAt failedAt)
      w (.ok row) w') :
    ∃ old, w.executions.get id = some old ∧ old.environmentID = environmentID ∧
      row = { old with
        id := id
        status := status
        currentStepID := currentStepID
        completedAt := completedAt
        failedAt := failedAt } ∧
      w' = { w with executions := w.executions.set row } := by
  generalize hr : (Except.ok row : Except GoError _) = r at h
  cases h with
  | fault => cases hr
  | answer =>
      rcases hg : (w.executions.get id).filter (·.environmentID == environmentID) with - | old <;>
        simp only [World.answer, hg] at hr ⊢ <;> cases hr
      rw [Option.filter_eq_some_iff] at hg
      exact ⟨old, hg.1, by simpa using hg.2, rfl, rfl⟩

/-- An execution is created under a new id. -/
theorem call_createExecution {arg : CreateWorkflowExecutionParams} {row : WorkflowExecution}
    (h : Call (.createExecution arg) w (.ok row) w') :
    w.executions.get arg.id = none ∧ row = World.insertedExecution arg ∧
      w' = { w with executions := w.executions.set row } := by
  generalize hr : (Except.ok row : Except GoError _) = r at h
  cases h with
  | fault => cases hr
  | answer =>
      rcases hg : w.executions.get arg.id with - | old <;>
        simp only [World.answer, hg] at hr ⊢ <;> cases hr
      exact ⟨True.intro, rfl, rfl⟩

theorem call_enqueue {job : NotificationJob} {a : Unit} (h : Call (.enqueue job) w (.ok a) w') :
    w' = { w with notifications := w.notifications ++ [job] } := by
  generalize hr : (Except.ok a : Except GoError _) = r at h
  cases h with
  | fault => cases hr
  | answer => rfl

/-- What the queue does with a new step job it accepts. -/
theorem push_ok {job : WorkflowStepJob} {delay : Option Duration}
    (h : (w.push job delay).1 = .ok ()) :
    (∀ t ∈ w.queue, t.job ≠ job) ∧
      (w.push job delay).2 = { w with queue := w.queue ++ [{ job := job, delay := delay }] } := by
  unfold World.push at h ⊢
  split at h
  · cases h
  · next hq =>
    rw [if_neg hq]
    simpa using hq

theorem call_enqueueWorkflowStep {job : WorkflowStepJob} {a : Unit}
    (h : Call (.enqueueWorkflowStep job) w (.ok a) w') :
    (∀ t ∈ w.queue, t.job ≠ job) ∧ w' = { w with queue := w.queue ++ [{ job := job }] } := by
  generalize hr : (Except.ok a : Except GoError _) = r at h
  cases h with
  | fault => cases hr
  | answer => exact push_ok hr.symm

theorem call_enqueueWorkflowStepIn {job : WorkflowStepJob} {delay : Duration} {a : Unit}
    (h : Call (.enqueueWorkflowStepIn job delay) w (.ok a) w') :
    (∀ t ∈ w.queue, t.job ≠ job) ∧
      w' = { w with queue := w.queue ++ [{ job := job, delay := some delay }] } := by
  generalize hr : (Except.ok a : Except GoError _) = r at h
  cases h with
  | fault => cases hr
  | answer => exact push_ok hr.symm

end Calls

end Iwifunni.Workflow
