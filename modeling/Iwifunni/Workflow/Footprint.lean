/-
Iwifunni/Workflow/Footprint.lean

The rows and jobs the handling of a step is about.

Once a handling has its execution, every call it makes is for this execution and
its environment (`Op.OfStep`).  The workflow is read once, before that.
-/
import Iwifunni.Workflow.Engine

namespace Iwifunni.Workflow

open Go Db Effect Effect.Prog

/-- The calls a handler makes for an execution. -/
def Op.OfStep (execution : WorkflowExecution) : Op → Prop
  | now | newUUID => True
  | getSubscriberByID _ environmentID => environmentID = execution.environmentID
  | getTemplateByID _ environmentID => environmentID = execution.environmentID
  | updateStepExecutionState arg => arg.executionID = execution.id
  | updateExecutionState id environmentID _ _ _ _ =>
      id = execution.id ∧ environmentID = execution.environmentID
  | enqueue job => job.projectID = execution.environmentID.toString
  | enqueueWorkflowStep job => ∃ stepID, job = stepJob execution stepID
  | enqueueWorkflowStepIn job _ => ∃ stepID, job = stepJob execution stepID
  | _ => False

section

variable {s : Service} {execution : WorkflowExecution} {row : WorkflowStepExecution}
  {definition : Definition} {node : Node}

theorem ofStep_updateStep {arg : UpdateWorkflowStepExecutionStateParams}
    (h : arg.executionID = execution.id) :
    Op.OfStep execution (.updateStepExecutionState arg) := h

theorem ofStep_enqueue {job : NotificationJob}
    (h : job.projectID = execution.environmentID.toString) :
    Op.OfStep execution (.enqueue job) := h

theorem ofStep_updateExecution (status : Status) (stepID : Option String)
    (completedAt failedAt : Option Time) :
    Op.OfStep execution (.updateExecutionState execution.id execution.environmentID status
      stepID completedAt failedAt) := ⟨rfl, rfl⟩

theorem calls_failCurrentStep (cause : GoError) :
    Calls (Op.OfStep execution) (failCurrentStep execution row cause) := by
  refine (calls_perform True.intro).bind fun nowTs => ?_
  refine (calls_perform (ofStep_updateStep rfl)).bind fun _ => ?_
  exact (calls_perform (ofStep_updateExecution ..)).bind fun _ => calls_fail cause

theorem calls_dispatchNext (next : List String) :
    Calls (Op.OfStep execution) (dispatchNext execution next) := by
  induction next with
  | nil => exact True.intro
  | cons stepID rest ih =>
      have hcall : Op.OfStep execution (.enqueueWorkflowStep (stepJob execution stepID)) :=
        ⟨stepID, rfl⟩
      exact (calls_perform hcall).bind fun _ => ih

/-- The jobs that are scheduled are of the execution. -/
theorem calls_scheduleNext (duration : Duration) (next : List String) :
    Calls (Op.OfStep execution) (scheduleNext execution duration next) := by
  induction next with
  | nil => exact True.intro
  | cons stepID rest ih =>
      have hcall : Op.OfStep execution
          (.enqueueWorkflowStepIn (stepJob execution stepID) duration) := ⟨stepID, rfl⟩
      refine (calls_ask hcall).bind fun r => ?_
      cases r with
      | error e => exact True.intro
      | ok a => exact ih

/-- The calls at the end of a step are about its own execution. -/
theorem calls_completeCurrentAndDispatchNext (next : List String) (output : Option Json) :
    Calls (Op.OfStep execution)
      (completeCurrentAndDispatchNext s execution row node next output) := by
  refine (calls_perform True.intro).bind fun nowTs => ?_
  refine (calls_perform (ofStep_updateStep rfl)).bind fun _ => ?_
  cases next with
  | nil => exact (calls_perform (ofStep_updateExecution ..)).bind fun _ => calls_ret ()
  | cons stepID rest =>
      dsimp only
      split
      · refine (calls_dispatchNext (stepID :: rest)).bind fun _ => ?_
        exact (calls_perform (ofStep_updateExecution ..)).bind fun _ => calls_ret ()
      · exact True.intro

/-- The calls of a notification are about its own execution. -/
theorem calls_handleNotificationStep :
    Calls (Op.OfStep execution) (handleNotificationStep s execution row definition node) := by
  unfold handleNotificationStep
  dsimp only
  split
  · exact calls_failCurrentStep _
  split
  · exact calls_failCurrentStep _
  split
  · exact calls_failCurrentStep _
  next channel templateID _ =>
  refine (calls_ask (show Op.OfStep execution (.getSubscriberByID ..) from rfl)).bind
    fun r => ?_
  cases r with
  | error e => exact calls_failCurrentStep _
  | ok subscriber =>
  refine (calls_ask (show Op.OfStep execution (.getTemplateByID ..) from rfl)).bind
    fun r => ?_
  cases r with
  | error e => exact calls_failCurrentStep _
  | ok template =>
  dsimp only
  split
  · exact calls_failCurrentStep _
  refine (calls_perform True.intro).bind fun jobID => ?_
  refine (calls_ask (ofStep_enqueue rfl)).bind fun r => ?_
  cases r with
  | error e => exact calls_failCurrentStep _
  | ok a => exact calls_completeCurrentAndDispatchNext ..

/-- The calls of a delay are about its own execution. -/
theorem calls_handleDelayStep :
    Calls (Op.OfStep execution) (handleDelayStep s execution row definition node) := by
  unfold handleDelayStep
  dsimp only
  split
  · exact calls_failCurrentStep _
  split
  · exact calls_completeCurrentAndDispatchNext ..
  split
  · exact calls_failCurrentStep _
  refine (calls_scheduleNext ..).bind fun r => ?_
  cases r with
  | error e => exact calls_failCurrentStep _
  | ok a =>
      refine (calls_perform True.intro).bind fun nowTs => ?_
      refine (calls_perform (ofStep_updateStep rfl)).bind fun _ => ?_
      exact (calls_perform (ofStep_updateExecution ..)).bind fun _ => calls_ret ()

/-- **The handlers are about their execution.** -/
theorem calls_handleStep :
    Calls (Op.OfStep execution) (handleStep s execution row definition node) := by
  unfold handleStep
  split
  · exact calls_completeCurrentAndDispatchNext ..
  · exact calls_handleDelayStep
  · unfold handleConditionStep
    split
    · exact calls_failCurrentStep _
    · exact calls_completeCurrentAndDispatchNext ..
  · exact calls_handleNotificationStep
  · exact calls_failCurrentStep _

end

/-! ### A handling, once it has read its rows -/

/-- `ProcessStep` from the node on. -/
def handleLocated (s : Service) (ref : StepRef) (execution : WorkflowExecution) :
    Except GoError (Definition × Node) → Act Unit
  | .error e => fail e
  | .ok (definition, node) => do
      let stepExecution ← openStep execution node
      let _ ← perform (Op.updateExecutionState execution.id ref.environmentID .running
        (some node.id) none none)
      handleStep s execution stepExecution definition node

/-- A handling reads the execution and the workflow; of the workflow it uses the
definition and the node. -/
theorem processStep_of_readJob (s : Service) {job : WorkflowStepJob} {ref : StepRef}
    (hread : readJob job = some ref) :
    processStep s job = (do
      let execution ← perform (Op.getExecutionByID ref.executionID ref.environmentID)
      let workflow ← perform (Op.getByID ref.workflowID ref.environmentID)
      handleLocated s ref execution (locate workflow ref.stepID)) := by
  rw [processStep, hread]
  refine congrArg (perform _ >>= ·) (funext fun execution => ?_)
  refine congrArg (perform _ >>= ·) (funext fun workflow => ?_)
  cases locate workflow ref.stepID <;> rfl

/-- Any call but that for the workflow. -/
def Op.Unread : Op → Prop
  | getByID _ _ => False
  | _ => True

theorem calls_openStep_unread (execution : WorkflowExecution) (node : Node) :
    Calls Op.Unread (openStep execution node) := by
  refine (calls_perform True.intro).bind fun nowTs => ?_
  refine (calls_ask True.intro).bind fun r => ?_
  split
  · exact (calls_perform True.intro).bind fun id => calls_perform True.intro
  · exact True.intro
  · exact calls_perform True.intro

theorem calls_handleStep_unread (s : Service) (execution : WorkflowExecution)
    (row : WorkflowStepExecution) (definition : Definition) (node : Node) :
    Calls Op.Unread (handleStep s execution row definition node) := by
  refine calls_handleStep.mono fun op h => ?_
  cases op <;> first | exact True.intro | exact h.elim

theorem calls_handleLocated_unread (s : Service) (ref : StepRef)
    (execution : WorkflowExecution) (found : Except GoError (Definition × Node)) :
    Calls Op.Unread (handleLocated s ref execution found) := by
  rcases found with e | ⟨definition, node⟩
  · exact True.intro
  · refine (calls_openStep_unread execution node).bind fun row => ?_
    exact (calls_perform True.intro).bind fun _ => calls_handleStep_unread ..

end Iwifunni.Workflow
