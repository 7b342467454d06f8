/-
Iwifunni/Workflow/Handling.lean

A handling of a step job, seen from outside: the phases it goes through and the
calls it makes in each of them.

    start -- fetched -- located -- opened -- working -- closed -- settled
                |                              |
             unlocated                       failing -- failed

In 'opened' the step row is 'running', in 'working' the execution is, in
'closed' the step row is 'completed'.  'handed' records that a successor has
been put into the queue, 'sent' that the notification has.  An essential call
that fails leads to 'broken', from where the handling ends with that error.

`TriggerEvent` is 'ready' between two workflows and 'owing' between the creation
of an execution and the enqueueing of its first step.

The texts of the handlers are needed once, to show that they keep this protocol
(`keeps_processStep`, `keeps_triggerEvent`).  Everything about runs of the engine
is then derived from the moves in `Workflow.Moves`.
-/
import Iwifunni.Workflow.Engine

namespace Iwifunni.Workflow

open Go Db Effect Effect.Prog

/-! ### Phases -/

inductive Phase
  /-- The job cannot be read. -/
  | rejected
  | start
  /-- The execution is read; it belongs to this workflow. -/
  | fetched (workflowID : UUID)
  /-- The node is found; it has this type. -/
  | located (workflowID : UUID) (type : StepType)
  /-- The definition has no such node, or there is no definition. -/
  | unlocated
  | opened (workflowID : UUID) (type : StepType)
  | working (workflowID : UUID) (type : StepType) (sent handed : Bool)
  | closed (workflowID : UUID) (handed : Bool)
  | failing (handed : Bool)
  | failed
  | settled (handed : Bool)
  | broken (handed : Bool)
  /-- `TriggerEvent` between two workflows. -/
  | ready
  /-- `TriggerEvent` has created an execution of a workflow and has not yet
  enqueued its first step. -/
  | owing (executionID workflowID : UUID) (stepID : String)
  | stopped
  deriving DecidableEq

/-- The step a notification job was made for, as its metadata say. -/
def notificationStep (job : NotificationJob) : Option String × Option String :=
  (Json.lookup job.metadata "workflow_execution_id", Json.lookup job.metadata "workflow_step_id")

/-- The job belongs to the execution of `ref`, which belongs to a workflow. -/
def StepRef.Owns (ref : StepRef) (workflowID : UUID) (job : WorkflowStepJob) : Prop :=
  job.environmentID = ref.environmentID.toString ∧
  job.executionID = ref.executionID.toString ∧ job.workflowID = workflowID.toString

instance (ref : StepRef) (workflowID : UUID) (job : WorkflowStepJob) :
    Decidable (ref.Owns workflowID job) := by
  unfold StepRef.Owns
  infer_instance

/-- The phase after an answer: one for success, one for an error. -/
def onAnswer {α : Type} (ok err : Phase) : Except GoError α → Option Phase
  | .ok _ => some ok
  | .error _ => some err

/-- The phase of a handling after one more call. -/
def stepNext (ref : StepRef) : Phase → Answered Op.Res GoError → Option Phase
  | .located w ty, ⟨.now, _⟩ => some (.located w ty)
  | .located w ty, ⟨.newUUID, _⟩ => some (.located w ty)
  | .working w ty sent handed, ⟨.now, _⟩ => some (.working w ty sent handed)
  | .working w ty sent handed, ⟨.newUUID, _⟩ => some (.working w ty sent handed)
  | .start, ⟨.getExecutionByID x environmentID, r⟩ =>
      if x = ref.executionID ∧ environmentID = ref.environmentID then
        match r with
        | .ok execution => some (.fetched execution.workflowID)
        | .error _ => some (.broken false)
      else none
  | .fetched w, ⟨.getByID id environmentID, r⟩ =>
      if id = ref.workflowID ∧ environmentID = ref.environmentID then
        match r with
        | .ok workflow =>
            match locate workflow ref.stepID with
            | .ok (_, node) => some (.located w node.type)
            | .error _ => some .unlocated
        | .error _ => some (.broken false)
      else none
  | .located w ty, ⟨.getStepExecution x n, r⟩ =>
      if x = ref.executionID ∧ n = ref.stepID then
        match r with
        | .ok _ => some (.located w ty)
        | .error .noRows => some (.located w ty)
        | .error _ => some (.broken false)
      else none
  | .located w ty, ⟨.createStepExecution arg, r⟩ =>
      if arg.executionID = ref.executionID ∧ arg.stepID = ref.stepID ∧ arg.status = .running then
        onAnswer (.opened w ty) (.broken false) r
      else none
  | .located w ty, ⟨.updateStepExecutionState arg, r⟩ =>
      if arg.executionID = ref.executionID ∧ arg.stepID = ref.stepID ∧ arg.status = .running then
        onAnswer (.opened w ty) (.broken false) r
      else none
  | .opened w ty, ⟨.updateExecutionState x environmentID status _ _ _, r⟩ =>
      if x = ref.executionID ∧ environmentID = ref.environmentID ∧ status = .running then
        onAnswer (.working w ty false false) (.broken false) r
      else none
  | .working w ty sent handed, ⟨.getSubscriberByID _ _, _⟩ => some (.working w ty sent handed)
  | .working w ty sent handed, ⟨.getTemplateByID _ _, _⟩ => some (.working w ty sent handed)
  | .working w ty sent handed, ⟨.enqueue job, r⟩ =>
      if ty = .notification ∧ sent = false ∧
          notificationStep job = (some ref.executionID.toString, some ref.stepID) then
        onAnswer (.working w ty true handed) (.working w ty sent handed) r
      else none
  | .working w ty sent handed, ⟨.enqueueWorkflowStepIn job _, r⟩ =>
      if ref.Owns w job then
        onAnswer (.working w ty sent true) (.working w ty sent handed) r
      else none
  | .working w _ sent handed, ⟨.updateStepExecutionState arg, r⟩ =>
      if arg.executionID = ref.executionID ∧ arg.stepID = ref.stepID then
        if arg.status = .completed then onAnswer (.closed w handed) (.broken handed) r
        else if arg.status = .failed ∧ sent = false then
          onAnswer (.failing handed) (.broken handed) r
        else none
      else none
  | .closed w handed, ⟨.enqueueWorkflowStep job, r⟩ =>
      if ref.Owns w job then onAnswer (.closed w true) (.broken handed) r else none
  | .closed _ handed, ⟨.updateExecutionState x environmentID status _ _ _, r⟩ =>
      if x = ref.executionID ∧ environmentID = ref.environmentID ∧
          status = (if handed then .queued else .completed) then
        onAnswer (.settled handed) (.broken handed) r
      else none
  | .failing handed, ⟨.updateExecutionState x environmentID status _ _ _, r⟩ =>
      if x = ref.executionID ∧ environmentID = ref.environmentID ∧ status = .failed then
        onAnswer .failed (.broken handed) r
      else none
  | _, _ => none

section Transitions

variable {ref : StepRef} {w x y : UUID} {ty : StepType} {sent handed : Bool} {n : String}
  {status : Status} {stepID : Option String} {completedAt failedAt : Option Time}

theorem stepNext_getExecutionByID_ok (execution : WorkflowExecution) :
    stepNext ref .start ⟨.getExecutionByID ref.executionID ref.environmentID, .ok execution⟩ =
      some (.fetched execution.workflowID) :=
  if_pos ⟨rfl, rfl⟩

theorem stepNext_getExecutionByID_error (e : GoError) :
    stepNext ref .start ⟨.getExecutionByID ref.executionID ref.environmentID, .error e⟩ =
      some (.broken false) :=
  if_pos ⟨rfl, rfl⟩

theorem stepNext_getByID_error (e : GoError) :
    stepNext ref (.fetched w) ⟨.getByID ref.workflowID ref.environmentID, .error e⟩ =
      some (.broken false) :=
  if_pos ⟨rfl, rfl⟩

theorem stepNext_getStepExecution_ok (hx : x = ref.executionID) (hn : n = ref.stepID)
    (row : WorkflowStepExecution) :
    stepNext ref (.located w ty) ⟨.getStepExecution x n, .ok row⟩ = some (.located w ty) :=
  if_pos ⟨hx, hn⟩

theorem stepNext_getStepExecution_noRows (hx : x = ref.executionID) (hn : n = ref.stepID) :
    stepNext ref (.located w ty) ⟨.getStepExecution x n, .error .noRows⟩ =
      some (.located w ty) :=
  if_pos ⟨hx, hn⟩

theorem stepNext_getStepExecution_error (hx : x = ref.executionID) (hn : n = ref.stepID)
    {e : GoError} (he : e ≠ .noRows) :
    stepNext ref (.located w ty) ⟨.getStepExecution x n, .error e⟩ = some (.broken false) := by
  cases e with
  | noRows => exact absurd rfl he
  | _ => exact if_pos ⟨hx, hn⟩

@[simp]
theorem stepNext_createStepExecution {arg : CreateWorkflowStepExecutionParams}
    {r : Except GoError WorkflowStepExecution} :
    stepNext ref (.located w ty) ⟨.createStepExecution arg, r⟩ =
      if arg.executionID = ref.executionID ∧ arg.stepID = ref.stepID ∧ arg.status = .running then
        onAnswer (.opened w ty) (.broken false) r
      else none := rfl

@[simp]
theorem stepNext_located_updateStepExecutionState {arg : UpdateWorkflowStepExecutionStateParams}
    {r : Except GoError WorkflowStepExecution} :
    stepNext ref (.located w ty) ⟨.updateStepExecutionState arg, r⟩ =
      if arg.executionID = ref.executionID ∧ arg.stepID = ref.stepID ∧ arg.status = .running then
        onAnswer (.opened w ty) (.broken false) r
      else none := rfl

@[simp]
theorem stepNext_opened_updateExecutionState {r : Except GoError WorkflowExecution} :
    stepNext ref (.opened w ty)
        ⟨.updateExecutionState x y status stepID completedAt failedAt, r⟩ =
      if x = ref.executionID ∧ y = ref.environmentID ∧ status = .running then
        onAnswer (.working w ty false false) (.broken false) r
      else none := rfl

@[simp]
theorem stepNext_enqueue {job : NotificationJob} {r : Except GoError Unit} :
    stepNext ref (.working w ty sent handed) ⟨.enqueue job, r⟩ =
      if ty = .notification ∧ sent = false ∧
          notificationStep job = (some ref.executionID.toString, some ref.stepID) then
        onAnswer (.working w ty true handed) (.working w ty sent handed) r
      else none := rfl

@[simp]
theorem stepNext_enqueueWorkflowStepIn {job : WorkflowStepJob} {delay : Duration}
    {r : Except GoError Unit} :
    stepNext ref (.working w ty sent handed) ⟨.enqueueWorkflowStepIn job delay, r⟩ =
      if ref.Owns w job then
        onAnswer (.working w ty sent true) (.working w ty sent handed) r
      else none := rfl

@[simp]
theorem stepNext_working_updateStepExecutionState {arg : UpdateWorkflowStepExecutionStateParams}
    {r : Except GoError WorkflowStepExecution} :
    stepNext ref (.working w ty sent handed) ⟨.updateStepExecutionState arg, r⟩ =
      if arg.executionID = ref.executionID ∧ arg.stepID = ref.stepID then
        if arg.status = .completed then onAnswer (.closed w handed) (.broken handed) r
        else if arg.status = .failed ∧ sent = false then
          onAnswer (.failing handed) (.broken handed) r
        else none
      else none := rfl

@[simp]
theorem stepNext_enqueueWorkflowStep {job : WorkflowStepJob} {r : Except GoError Unit} :
    stepNext ref (.closed w handed) ⟨.enqueueWorkflowStep job, r⟩ =
      if ref.Owns w job then onAnswer (.closed w true) (.broken handed) r else none := rfl

@[simp]
theorem stepNext_closed_updateExecutionState {r : Except GoError WorkflowExecution} :
    stepNext ref (.closed w handed)
        ⟨.updateExecutionState x y status stepID completedAt failedAt, r⟩ =
      if x = ref.executionID ∧ y = ref.environmentID ∧
          status = (if handed then .queued else .completed) then
        onAnswer (.settled handed) (.broken handed) r
      else none := rfl

@[simp]
theorem stepNext_failing_updateExecutionState {r : Except GoError WorkflowExecution} :
    stepNext ref (.failing handed)
        ⟨.updateExecutionState x y status stepID completedAt failedAt, r⟩ =
      if x = ref.executionID ∧ y = ref.environmentID ∧ status = .failed then
        onAnswer .failed (.broken handed) r
      else none := rfl

end Transitions

/-- The phase of a `TriggerEvent` after one more call. -/
def triggerNext (s : Service) (environmentID : UUID) :
    Phase → Answered Op.Res GoError → Option Phase
  | .ready, ⟨.newUUID, _⟩ => some .ready
  | .ready, ⟨.getActiveByTriggerEvent e _, r⟩ =>
      if e = environmentID then onAnswer .ready .stopped r else none
  | .ready, ⟨.createExecution arg, r⟩ =>
      if arg.environmentID = environmentID ∧ arg.status = .queued then
        match r, arg.currentStepID with
        | .error _, _ => some .stopped
        | .ok execution, some stepID =>
            some (if s.producer then .owing execution.id arg.workflowID stepID else .ready)
        | .ok _, none => some .ready
      else none
  | .owing x w stepID, ⟨.enqueueWorkflowStep job, r⟩ =>
      if job = ⟨environmentID.toString, x.toString, w.toString, stepID⟩ then
        onAnswer .ready .stopped r
      else none
  | _, _ => none

/-- How a handling may end in a phase. -/
def Phase.Ends (s : Service) : Phase → Except GoError Unit → Prop
  | rejected, out => out = .error .invalidWorkflowEvent
  | unlocated, out => out = .error .invalidWorkflow
  | closed _ handed, out =>
      handed = false ∧ s.producer = false ∧ out = .error producerNotConfigured
  | failed, out => ∃ cause, out = .error cause
  | settled _, out => out = .ok ()
  | broken _, out => ∃ e, out = .error e ∧ skipRetry e = false
  | _, _ => False

/-- How a trigger may end in a phase. -/
def Phase.TriggerEnds : Phase → Except GoError Unit → Prop
  | ready, _ => True
  | stopped, out => ∃ e, out = .error e
  | _, _ => False

/-- What the calls of the engine are known to answer. -/
def Expects : Answered Op.Res GoError → Prop
  | ⟨op, .error e⟩ => op.Fallible ∧ skipRetry e = false
  | ⟨.getExecutionByID id environmentID, .ok execution⟩ =>
      execution.id = id ∧ execution.environmentID = environmentID
  | ⟨.createStepExecution arg, .ok row⟩ => row.stepID = arg.stepID
  | ⟨.updateStepExecutionState arg, .ok row⟩ => row.stepID = arg.stepID
  | _ => True

/-- The protocol of the engine. -/
def handling (s : Service) : Protocol Activity Op.Res GoError Unit Phase where
  init
    | .step t => if (readJob t.job).isSome then .start else .rejected
    | .trigger _ _ => .ready
  expects _ _ := Expects
  next
    | .step t, p, a => (readJob t.job).bind fun ref => stepNext ref p a
    | .trigger environmentID _, p, a => triggerNext s environmentID p a
  ends
    | .step _ => Phase.Ends s
    | .trigger _ _ => Phase.TriggerEnds

/-! ### The handlers keep the protocol -/

section Keeps

variable {s : Service} {t : Task} {ref : StepRef}

/-- A program of the handling of `t` that keeps the protocol from a phase on. -/
abbrev Follows (s : Service) (t : Task) (p : Act Unit) (σ : Phase) : Prop :=
  Prog.Keeps (handling s) (.step t) (Phase.Ends s) p σ

theorem handling_next (hread : readJob t.job = some ref) (σ : Phase)
    (a : Answered Op.Res GoError) :
    (handling s).next (.step t) σ a = stepNext ref σ a := by
  simp only [handling, hread, Option.bind_some]

theorem follows_now (hread : readJob t.job = some ref) {f : Time → Act Unit} {w : UUID}
    {ty : StepType} {sent handed : Bool}
    (h : ∀ ts, Follows s t (f ts) (.working w ty sent handed)) :
    Follows s t (perform Op.now >>= f) (.working w ty sent handed) := by
  refine Prog.keeps_perform_bind (fun ts _ => ⟨_, ?_, h ts⟩) (fun e he => he.1.elim)
  rw [handling_next hread]
  rfl

theorem follows_newUUID (hread : readJob t.job = some ref) {f : UUID → Act Unit} {w : UUID}
    {ty : StepType} {sent handed : Bool}
    (h : ∀ u, Follows s t (f u) (.working w ty sent handed)) :
    Follows s t (perform Op.newUUID >>= f) (.working w ty sent handed) := by
  refine Prog.keeps_perform_bind (fun u _ => ⟨_, ?_, h u⟩) (fun e he => he.1.elim)
  rw [handling_next hread]
  rfl

/-- An essential call: if it fails, the handling is broken. -/
theorem follows_perform (hread : readJob t.job = some ref) {op : Op} {f : op.Res → Act Unit}
    {σ : Phase} (handed : Bool) (σ' : op.Res → Phase)
    (hok : ∀ a, Expects ⟨op, .ok a⟩ →
      stepNext ref σ ⟨op, .ok a⟩ = some (σ' a) ∧ Follows s t (f a) (σ' a))
    (herr : ∀ e, stepNext ref σ ⟨op, .error e⟩ = some (.broken handed)) :
    Follows s t (perform op >>= f) σ := by
  refine Prog.keeps_perform_bind (fun a ha => ⟨σ' a, ?_, (hok a ha).2⟩)
    (fun e he => ⟨.broken handed, ?_, e, rfl, he.2⟩)
  · rw [handling_next hread]
    exact (hok a ha).1
  · rw [handling_next hread]
    exact herr e

/-- A call whose error is dealt with. -/
theorem follows_ask (hread : readJob t.job = some ref) {op : Op}
    {f : Except GoError op.Res → Act Unit} {σ : Phase} (σ' : Except GoError op.Res → Phase)
    (h : ∀ r, Expects ⟨op, r⟩ → stepNext ref σ ⟨op, r⟩ = some (σ' r) ∧ Follows s t (f r) (σ' r)) :
    Follows s t (ask op >>= f) σ := by
  refine Prog.keeps_ask_bind fun r hr => ⟨σ' r, ?_, (h r hr).2⟩
  rw [handling_next hread]
  exact (h r hr).1

variable {execution : WorkflowExecution} {row : WorkflowStepExecution} {node : Node}
  {definition : Definition}

/-- The execution a handling has fetched for `ref`. -/
structure Fetched (ref : StepRef) (execution : WorkflowExecution) : Prop where
  id_eq : execution.id = ref.executionID
  environmentID_eq : execution.environmentID = ref.environmentID

theorem Fetched.owns (he : Fetched ref execution) (n : String) :
    ref.Owns execution.workflowID (stepJob execution n) := by
  refine ⟨?_, ?_, rfl⟩
  · rw [stepJob, he.environmentID_eq]
  · rw [stepJob, he.id_eq]

/-- A failure closes the step row, and the execution. -/
theorem follows_failCurrentStep (hread : readJob t.job = some ref) (he : Fetched ref execution)
    (hrow : row.stepID = ref.stepID) (cause : GoError) (w : UUID) (ty : StepType)
    (handed : Bool) :
    Follows s t (failCurrentStep execution row cause) (.working w ty false handed) := by
  unfold failCurrentStep
  refine follows_now hread fun ts => ?_
  refine follows_perform hread handed (fun _ => .failing handed) (fun a _ => ⟨?_, ?_⟩) fun e => ?_
  · simp [onAnswer, he.id_eq, hrow]
  · refine follows_perform hread handed (fun _ => .failed) (fun a _ => ⟨?_, Prog.keeps_fail.mpr ⟨cause, rfl⟩⟩) fun e => ?_
    · simp [onAnswer, he.id_eq, he.environmentID_eq]
    · simp [onAnswer, he.id_eq, he.environmentID_eq]
  · simp [onAnswer, he.id_eq, hrow]

/-- The outcome of handing over successors, with the phase it leaves. -/
def HandedOver (w : UUID) (σ : Phase) : Except GoError Unit → Prop
  | .ok _ => σ = .closed w true
  | .error e => (∃ handed, σ = .broken handed) ∧ skipRetry e = false

/-- The loop over the successors: from the first one on, something is handed over. -/
theorem keeps_dispatchNext (hread : readJob t.job = some ref) (he : Fetched ref execution)
    (next : List String) (handed : Bool) (hne : next = [] → handed = true) :
    Prog.Keeps (handling s) (.step t) (HandedOver execution.workflowID)
      (dispatchNext execution next) (.closed execution.workflowID handed) := by
  induction next generalizing handed with
  | nil =>
      rw [hne rfl]
      exact Prog.keeps_ret.mpr rfl
  | cons n rest ih =>
      refine Prog.keeps_perform_bind (fun a _ => ⟨.closed execution.workflowID true, ?_, ?_⟩)
        (fun e hex => ⟨.broken handed, ?_, ⟨handed, rfl⟩, hex.2⟩)
      · rw [handling_next hread]
        simp [onAnswer, he.owns]
      · exact ih true fun _ => rfl
      · rw [handling_next hread]
        simp [onAnswer, he.owns]

/-- The end of a step keeps the protocol, whatever comes after the step. -/
theorem follows_completeCurrentAndDispatchNext (hread : readJob t.job = some ref)
    (he : Fetched ref execution) (hnode : node.id = ref.stepID) (next : List String)
    (output : Option Json) (ty : StepType) (sent : Bool) :
    Follows s t (completeCurrentAndDispatchNext s execution row node next output)
      (.working execution.workflowID ty sent false) := by
  unfold completeCurrentAndDispatchNext
  refine follows_now hread fun ts => ?_
  refine follows_perform hread false (fun _ => .closed execution.workflowID false)
    (fun a _ => ⟨?_, ?_⟩) fun e => ?_
  · simp [onAnswer, completedStep, he.id_eq, hnode]
  · cases next with
    | nil =>
        refine follows_perform hread false (fun _ => .settled false) (fun a _ => ⟨?_, Prog.keeps_ret.mpr rfl⟩) fun e => ?_
        · simp [onAnswer, he.id_eq, he.environmentID_eq]
        · simp [onAnswer, he.id_eq, he.environmentID_eq]
    | cons n rest =>
        dsimp only
        split
        · refine Prog.keeps_bind (keeps_dispatchNext hread he (n :: rest) false (by simp))
            ?_ ?_
          · rintro σ' - rfl
            refine follows_perform hread true (fun _ => .settled true) (fun a _ => ⟨?_, Prog.keeps_ret.mpr rfl⟩)
              fun e => ?_
            · simp [onAnswer, he.id_eq, he.environmentID_eq]
            · simp [onAnswer, he.id_eq, he.environmentID_eq]
          · rintro σ' e ⟨⟨handed, rfl⟩, hskip⟩
            exact ⟨e, rfl, hskip⟩
        · next hp => exact Prog.keeps_fail.mpr ⟨rfl, by simpa using hp, rfl⟩
  · simp [onAnswer, completedStep, he.id_eq, hnode]

/-- A notification is sent once, and then the step is ended. -/
theorem follows_handleNotificationStep (hread : readJob t.job = some ref)
    (he : Fetched ref execution) (hnode : node.id = ref.stepID) (hrow : row.stepID = ref.stepID)
    (hty : node.type = .notification) :
    Follows s t (handleNotificationStep s execution row definition node)
      (.working execution.workflowID node.type false false) := by
  have hfail := fun cause => follows_failCurrentStep (s := s) hread he hrow cause
    execution.workflowID node.type false
  unfold handleNotificationStep
  dsimp only
  -- the config is read and checked
  split
  · exact hfail _
  split
  · exact hfail _
  split
  · exact hfail _
  next channel templateID _ =>
  refine follows_ask hread (fun _ => .working execution.workflowID node.type false false)
    fun r _ => ⟨rfl, ?_⟩
  rcases r with e | subscriber
  · exact hfail e
  refine follows_ask hread (fun _ => .working execution.workflowID node.type false false)
    fun r _ => ⟨rfl, ?_⟩
  rcases r with e | template
  · exact hfail e
  dsimp only
  split
  · exact hfail _
  next content recipient _ =>
  -- from here on the notification is queued, once
  refine follows_newUUID hread fun jobID => ?_
  refine follows_ask hread
    (fun r => .working execution.workflowID node.type (r.toOption.isSome) false)
    fun r _ => ⟨?_, ?_⟩
  -- it carries the step that it is for
  · have hstep : notificationStep (notificationJob execution node channel subscriber content
        recipient jobID) = (some ref.executionID.toString, some ref.stepID) := by
      rw [← he.id_eq, ← hnode]
      rfl
    cases r <;> simp [onAnswer, hty, hstep, Except.toOption]
  · cases r with
    | error e => exact hfail e
    | ok a => exact follows_completeCurrentAndDispatchNext hread he hnode _ _ _ true

/-- The outcome of scheduling successors, with the phase it leaves. -/
def Scheduled (w : UUID) (ty : StepType) (σ : Phase) :
    Except GoError (Except GoError Unit) → Prop
  | .ok (.ok _) => σ = .working w ty false true
  | .ok (.error _) => ∃ handed, σ = .working w ty false handed
  | .error _ => False

/-- Delayed jobs are handed over one after the other. -/
theorem keeps_scheduleNext (hread : readJob t.job = some ref) (he : Fetched ref execution)
    (duration : Duration) (next : List String) (ty : StepType) (handed : Bool)
    (hne : next = [] → handed = true) :
    Prog.Keeps (handling s) (.step t) (Scheduled execution.workflowID ty)
      (scheduleNext execution duration next) (.working execution.workflowID ty false handed) := by
  induction next generalizing handed with
  | nil =>
      rw [hne rfl]
      exact Prog.keeps_ret.mpr rfl
  | cons n rest ih =>
      refine Prog.keeps_ask_bind fun r _ => ?_
      rw [handling_next hread]
      cases r with
      | error e => exact ⟨_, by simp [onAnswer, he.owns],
          Prog.keeps_ret.mpr ⟨handed, rfl⟩⟩
      | ok a =>
          exact ⟨_, by simp [onAnswer, he.owns], ih true fun _ => rfl⟩

/-- A delay enqueues its successors for later. -/
theorem follows_handleDelayStep (hread : readJob t.job = some ref)
    (he : Fetched ref execution) (hnode : node.id = ref.stepID) (hrow : row.stepID = ref.stepID) :
    Follows s t (handleDelayStep s execution row definition node)
      (.working execution.workflowID node.type false false) := by
  have hfail := fun cause handed => follows_failCurrentStep (s := s) hread he hrow cause
    execution.workflowID node.type handed
  unfold handleDelayStep
  dsimp only
  split
  · exact hfail _ _
  split
  · exact follows_completeCurrentAndDispatchNext hread he hnode _ _ _ false
  split
  · exact hfail _ _
  next duration _ _ n rest _ _ =>
  refine Prog.keeps_bind
    (keeps_scheduleNext hread he duration (n :: rest) node.type false (by simp)) ?_ ?_
  · rintro σ' (e | a) hσ
    · obtain ⟨handed, rfl⟩ := hσ
      exact hfail e handed
    · cases hσ
      refine follows_now hread fun ts => ?_
      refine follows_perform hread true (fun _ => .closed execution.workflowID true)
        (fun a _ => ⟨?_, ?_⟩) fun e => ?_
      · simp [onAnswer, completedStep, he.id_eq, hnode]
      · refine follows_perform hread true (fun _ => .settled true) (fun a _ => ⟨?_, Prog.keeps_ret.mpr rfl⟩) fun e => ?_
        · simp [onAnswer, he.id_eq, he.environmentID_eq]
        · simp [onAnswer, he.id_eq, he.environmentID_eq]
      · simp [onAnswer, completedStep, he.id_eq, hnode]
  · rintro σ' e ⟨⟩

/-- **The handler of a node** keeps the protocol. -/
theorem follows_handleStep (hread : readJob t.job = some ref) (he : Fetched ref execution)
    (hnode : node.id = ref.stepID) (hrow : row.stepID = ref.stepID) :
    Follows s t (handleStep s execution row definition node)
      (.working execution.workflowID node.type false false) := by
  unfold handleStep
  split
  · exact follows_completeCurrentAndDispatchNext hread he hnode _ _ _ false
  · exact follows_handleDelayStep hread he hnode hrow
  · unfold handleConditionStep
    split
    · exact follows_failCurrentStep hread he hrow _ _ _ _
    · exact follows_completeCurrentAndDispatchNext hread he hnode _ _ _ false
  · next hty => exact follows_handleNotificationStep hread he hnode hrow hty
  · exact follows_failCurrentStep hread he hrow _ _ _ _

/-- The outcome of opening a step row, with the phase it leaves. -/
def Opened (ref : StepRef) (w : UUID) (ty : StepType) (σ : Phase) :
    Except GoError WorkflowStepExecution → Prop
  | .ok row => σ = .opened w ty ∧ row.stepID = ref.stepID
  | .error e => σ = .broken false ∧ skipRetry e = false

/-- `openStep` keeps the protocol, and leaves the step open unless it fails. -/
theorem keeps_openStep (hread : readJob t.job = some ref) (he : Fetched ref execution)
    (hnode : node.id = ref.stepID) (w : UUID) :
    Prog.Keeps (handling s) (.step t) (Opened ref w node.type) (openStep execution node)
      (.located w node.type) := by
  unfold openStep
  refine Prog.keeps_perform_bind (fun ts _ => ⟨.located w node.type, ?_, ?_⟩)
    (fun e hex => hex.1.elim)
  · rw [handling_next hread]
    rfl
  refine Prog.keeps_ask_bind fun r hr => ?_
  rw [handling_next hread]
  rcases r with e | found
  · -- without a row the step is created under a drawn id
    by_cases hnr : e = .noRows
    · subst hnr
      refine ⟨.located w node.type, stepNext_getStepExecution_noRows he.id_eq hnode, ?_⟩
      refine Prog.keeps_perform_bind (fun id _ => ⟨.located w node.type, ?_, ?_⟩)
        (fun e hex => hex.1.elim)
      · rw [handling_next hread]
        rfl
      · refine Prog.keeps_call.mpr fun r hr => ?_
        rw [handling_next hread]
        cases r with
        | ok row =>
            refine ⟨.opened w node.type, ?_, Prog.keeps_ret.mpr ⟨rfl, hr.trans hnode⟩⟩
            simp [onAnswer, createdStep, he.id_eq, hnode]
        | error e =>
            refine ⟨.broken false, ?_, Prog.keeps_fail.mpr ⟨rfl, hr.2⟩⟩
            simp [onAnswer, createdStep, he.id_eq, hnode]
    · refine ⟨.broken false, stepNext_getStepExecution_error he.id_eq hnode hnr, ?_⟩
      cases e with
      | noRows => exact absurd rfl hnr
      | _ => exact Prog.keeps_fail.mpr ⟨rfl, hr.2⟩
  · -- the row is there: the step is tried again
    refine ⟨.located w node.type, stepNext_getStepExecution_ok he.id_eq hnode found, ?_⟩
    refine Prog.keeps_call.mpr fun r hr => ?_
    rw [handling_next hread]
    cases r with
    | ok row =>
        refine ⟨.opened w node.type, ?_, Prog.keeps_ret.mpr ⟨rfl, hr.trans hnode⟩⟩
        simp [onAnswer, retriedStep, he.id_eq, hnode]
    | error e =>
        refine ⟨.broken false, ?_, Prog.keeps_fail.mpr ⟨rfl, hr.2⟩⟩
        simp [onAnswer, retriedStep, he.id_eq, hnode]

theorem findNode_id {definition : Definition} {n : String} {node : Node}
    (h : findNode definition n = .ok node) : node.id = n := by
  unfold findNode at h
  split at h
  · next node' hfind =>
    cases h
    simpa using List.find?_some hfind
  · cases h

/-- The node that is located has the id of the step. -/
theorem locate_id {workflow : Db.Workflow} {n : String} {d : Definition × Node}
    (h : locate workflow n = .ok d) : d.2.id = n := by
  unfold locate at h
  split at h
  · next definition _ =>
    rcases hf : findNode definition n with e | node
    · rw [hf] at h
      cases h
    · rw [hf] at h
      cases h
      exact findNode_id hf
  · cases h

/-- A step that cannot be located makes the workflow invalid. -/
theorem locate_error {workflow : Db.Workflow} {n : String} {e : GoError}
    (h : locate workflow n = .error e) : e = .invalidWorkflow := by
  unfold locate at h
  split at h
  · next definition _ =>
    unfold findNode at h
    split at h
    · cases h
    · cases h
      rfl
  · cases h
    rfl

/-- **`ProcessStep` keeps the protocol.** -/
theorem keeps_processStep (s : Service) (t : Task) :
    Prog.Keeps (handling s) (.step t) (Phase.Ends s) (processStep s t.job)
      ((handling s).init (.step t)) := by
  unfold processStep
  rcases hread : readJob t.job with - | ref
  · simp [handling, hread, Phase.Ends]
  have hinit : (handling s).init (.step t) = .start := by
    simp [handling, hread]
  rw [hinit]
  dsimp only
  -- the execution is fetched
  refine follows_perform hread false (fun execution => .fetched execution.workflowID)
    (fun execution hex => ⟨stepNext_getExecutionByID_ok execution, ?_⟩)
    stepNext_getExecutionByID_error
  have he : Fetched ref execution := ⟨hex.1, hex.2⟩
  refine follows_perform hread false
    (fun workflow => match locate workflow ref.stepID with
      | .ok (_, node) => .located execution.workflowID node.type
      | .error _ => .unlocated)
    (fun workflow _ => ⟨?_, ?_⟩) stepNext_getByID_error
  · show stepNext ref _ ⟨.getByID ref.workflowID ref.environmentID, .ok workflow⟩ = _
    rcases hl : locate workflow ref.stepID with e | ⟨definition, node⟩ <;> simp [stepNext, hl]
  rcases hl : locate workflow ref.stepID with e | ⟨definition, node⟩
  · rw [locate_error hl]
    exact Prog.keeps_fail.mpr rfl
  -- the step is opened, and its handler takes over
  have hnode : node.id = ref.stepID := locate_id hl
  refine Prog.keeps_bind (keeps_openStep hread he hnode execution.workflowID) ?_ ?_
  · rintro σ row ⟨rfl, hrow⟩
    refine follows_perform hread false
      (fun _ => .working execution.workflowID node.type false false)
      (fun a _ => ⟨?_, follows_handleStep hread he hnode hrow⟩) fun e => ?_
    · simp [onAnswer, he.id_eq]
    · simp [onAnswer, he.id_eq]
  · rintro σ e ⟨rfl, hskip⟩
    exact ⟨e, rfl, hskip⟩

/-! ### Triggers keep the protocol -/

variable {environmentID : UUID} {input : TriggerEventInput}

/-- The outcome of the loop over the workflows, with the phase it leaves. -/
def Triggered (σ : Phase) : Except GoError (List WorkflowExecution) → Prop
  | .ok _ => σ = .ready
  | .error _ => σ = .ready ∨ σ = .stopped

/-- The loop of a trigger creates an execution and then enqueues its first step. -/
theorem keeps_startExecutions (subscriber : Option UUID) (payload : Json)
    (workflows : List Db.Workflow) :
    Prog.Keeps (handling s) (.trigger environmentID input) Triggered
      (startExecutions s environmentID subscriber payload workflows) .ready := by
  induction workflows with
  | nil => exact Prog.keeps_ret.mpr rfl
  | cons workflow rest ih =>
      unfold startExecutions
      split
      · exact Prog.keeps_fail.mpr (Or.inl rfl)
      next nextStepID _ =>
      refine Prog.keeps_perform_bind (fun id _ => ⟨.ready, rfl, ?_⟩) (fun e he => he.1.elim)
      -- the rest of the loop
      have hrest : ∀ execution, Prog.Keeps (handling s) (.trigger environmentID input) Triggered
          (startExecutions s environmentID subscriber payload rest >>= fun executions =>
            ret (execution :: executions)) .ready := by
        intro execution
        refine Prog.keeps_bind ih ?_ fun _ _ h => h
        rintro σ executions rfl
        exact Prog.keeps_ret.mpr rfl
      refine Prog.keeps_perform_bind (fun execution hex => ?_)
        (fun e _ => ⟨.stopped, by simp [handling, triggerNext], Or.inr rfl⟩)
      cases nextStepID with
      | none => exact ⟨.ready, by simp [handling, triggerNext], hrest execution⟩
      | some stepID =>
          -- with a producer the first step is owed, and enqueued next
          by_cases hp : s.producer
          · refine ⟨.owing execution.id workflow.id stepID,
              by simp [handling, triggerNext, hp], ?_⟩
            simp only [hp, if_true]
            refine Prog.keeps_perform_bind
              (fun a _ => ⟨.ready, by simp [handling, triggerNext, onAnswer], hrest execution⟩)
              (fun e _ => ⟨.stopped, by simp [handling, triggerNext, onAnswer], Or.inr rfl⟩)
          · refine ⟨.ready, by simp [handling, triggerNext, hp], ?_⟩
            simp only [hp]
            exact hrest execution

/-- **`TriggerEvent` keeps the protocol.** -/
theorem keeps_triggerEvent (s : Service) (environmentID : UUID) (input : TriggerEventInput) :
    Prog.Keeps (handling s) (.trigger environmentID input) Triggered
      (triggerEvent s environmentID input) .ready := by
  unfold triggerEvent
  dsimp only
  split
  · exact Prog.keeps_fail.mpr (Or.inl rfl)
  split
  · exact Prog.keeps_fail.mpr (Or.inl rfl)
  · refine Prog.keeps_perform_bind
      (fun workflows _ => ⟨.ready, by simp [handling, triggerNext, onAnswer], ?_⟩)
      (fun e _ => ⟨.stopped, by simp [handling, triggerNext, onAnswer], Or.inr rfl⟩)
    exact keeps_startExecutions _ _ _

/-- **The engine keeps the protocol**, whatever activity it runs. -/
theorem keeps_engine (s : Service) (l : Activity) :
    Prog.Keeps (handling s) l ((handling s).ends l) ((engine s).body l) ((handling s).init l) := by
  change Prog.Keeps (handling s) l ((handling s).ends l) (l.body s) ((handling s).init l)
  cases l with
  | step t =>
      have hends : (handling s).ends (.step t) = Phase.Ends s := rfl
      rw [Activity.body, hends]
      exact keeps_processStep s t
  | trigger environmentID input =>
      have hinit : (handling s).init (.trigger environmentID input) = .ready := rfl
      have hends : (handling s).ends (.trigger environmentID input) = Phase.TriggerEnds := rfl
      rw [Activity.body, hinit, hends]
      refine Prog.keeps_bind (keeps_triggerEvent s environmentID input) ?_ ?_
      · rintro σ executions rfl
        exact Prog.keeps_ret.mpr True.intro
      · rintro σ e (rfl | rfl)
        · exact True.intro
        · exact ⟨e, rfl⟩

end Keeps

end Iwifunni.Workflow
