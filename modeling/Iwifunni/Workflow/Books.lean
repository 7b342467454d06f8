/-
Iwifunni/Workflow/Books.lean

What the tables and queues say about one execution, and what a call adds to it.

The books of an execution are its status, the statuses of its step rows, its jobs and the
steps for which a notification has been handed on.  A world shows them (`World.Shows`) if
that is what is in it, next to the supplies the handlers read: workflows, subscribers and
templates.  When nothing goes wrong (`Served`), each call succeeds and makes one entry:

    createStepExecution, updateStepExecutionState   the status of a step
    updateExecutionState                            the status of the execution
    enqueueWorkflowStep, enqueueWorkflowStepIn      a job
    enqueue                                         a notification
-/
import Iwifunni.Effect.Ensures
import Iwifunni.Workflow.Routing

namespace Iwifunni.Workflow

open Go Db Effect Effect.Prog

/-! ### Calls without faults -/

/-- What a call does when nothing goes wrong: clocks and identifiers are free. -/
inductive Served : (op : Op) → World → Except GoError op.Res → World → Prop
  | answer (op w) : Served op w (World.answer op w).1 (World.answer op w).2
  | now (w t) : Served .now w (.ok t) w
  | newUUID (w u) : Served .newUUID w (.ok u) w

/-- A call that is not faulty. -/
theorem served_of_call {op : Op} {w w' : World} {r : Except GoError op.Res}
    (h : Call op w r w') (hr : op.Fallible → r = (World.answer op w).1) : Served op w r w' := by
  cases h with
  | answer => exact .answer op w
  | now w t => exact .now w t
  | newUUID w u => exact .newUUID w u
  | fault hf _ text =>
      have hanswer : Call op w (.error (.other text)) (World.answer op w).2 := by
        rw [hr hf]
        exact .answer op w
      have hsame : (World.answer op w).2 = w := (call_error hanswer).1
      have hserved := Served.answer op w
      rwa [hsame, ← hr hf] at hserved

/-! ### Books -/

/-- What is written about an execution. -/
structure Books where
  status : Status
  steps : String → Option Status
  queue : List Task
  /-- The execution and the step of every notification, as its metadata say. -/
  sent : List (Option String × Option String)

namespace Books

def setStatus (b : Books) (status : Status) : Books := { b with status := status }

def setStep (b : Books) (stepID : String) (status : Status) : Books :=
  { b with steps := Function.update b.steps stepID (some status) }

def push (b : Books) (t : Task) : Books := { b with queue := b.queue ++ [t] }

/-- The jobs have been taken up. -/
def takeUp (b : Books) : Books := { b with queue := [] }

def send (b : Books) (step : Option String × Option String) : Books :=
  { b with sent := b.sent ++ [step] }

end Books

/-- The world shows the books of an execution, and the supplies. -/
structure World.Shows (w supplies : World) (execution : WorkflowExecution) (b : Books) :
    Prop where
  row : ∃ currentStepID completedAt failedAt, w.executions.get execution.id = some { execution with
    status := b.status
    currentStepID := currentStepID
    completedAt := completedAt
    failedAt := failedAt }
  steps : ∀ n, w.stepStatus execution.id n = b.steps n
  queue : w.queue = b.queue
  sent : w.notifications.map notificationStep = b.sent
  workflows : w.workflows = supplies.workflows
  subscribers : w.subscribers = supplies.subscribers
  templates : w.templates = supplies.templates

/-! ### The entry of each call -/

section Entries

variable {w supplies : World} {execution : WorkflowExecution} {b : Books}

theorem gives_now : Gives Served .now w fun _ w' => w' = w := by
  intro r w' h
  cases h with
  | answer => exact ⟨0, rfl, rfl⟩
  | now _ t => exact ⟨t, rfl, rfl⟩

theorem gives_newUUID : Gives Served .newUUID w fun _ w' => w' = w := by
  intro r w' h
  cases h with
  | answer => exact ⟨_, rfl, rfl⟩
  | newUUID _ u => exact ⟨u, rfl, rfl⟩

/-- The calls that read the supplies. -/
def Op.Supplied : Op → Prop
  | getByID _ _ | getSubscriberByID _ _ | getTemplateByID _ _ => True
  | _ => False

/-- The supplies answer as they did. -/
theorem World.Shows.supply (h : w.Shows supplies execution b) (op : Op) (hop : op.Supplied)
    {a : op.Res} (ha : (World.answer op supplies).1 = .ok a) :
    Gives Served op w fun a' w' => a' = a ∧ w' = w := by
  intro r w' hs
  have hsame : (World.answer op w).1 = (World.answer op supplies).1 := by
    cases op with
    | getByID id environmentID =>
        simp only [World.answer, h.workflows]
    | getSubscriberByID id environmentID =>
        simp only [World.answer, h.subscribers]
    | getTemplateByID id environmentID =>
        simp only [World.answer, h.templates]
    | _ => exact hop.elim
  cases hs with
  | answer =>
      refine ⟨a, hsame.trans ha, rfl, ?_⟩
      cases op with
      | getByID | getSubscriberByID | getTemplateByID => rfl
      | _ => exact hop.elim
  | now | newUUID => exact hop.elim

/-- The execution is found, as the books say. -/
theorem World.Shows.getExecutionByID (h : w.Shows supplies execution b) :
    Gives Served (.getExecutionByID execution.id execution.environmentID) w fun a w' =>
      w' = w ∧ ∃ status currentStepID completedAt failedAt, a = { execution with
        status := status
        currentStepID := currentStepID
        completedAt := completedAt
        failedAt := failedAt } := by
  intro r w' hs
  obtain ⟨currentStepID, completedAt, failedAt, hrow⟩ := h.row
  cases hs with
  | answer =>
      refine ⟨_, ?_, rfl, b.status, currentStepID, completedAt, failedAt, rfl⟩
      simp only [World.answer, hrow, Option.filter_some, BEq.rfl, if_true]
      rfl

/-- There is no step row yet. -/
theorem World.Shows.getStepExecution (h : w.Shows supplies execution b) {n : String}
    (hn : b.steps n = none) {r : Except GoError WorkflowStepExecution} {w' : World}
    (hs : Served (.getStepExecution execution.id n) w r w') : r = .error .noRows ∧ w' = w := by
  have hnone : w.steps.get (execution.id, n) = none := by
    have hstep := h.steps n
    rw [hn, World.stepStatus, Option.map_eq_none_iff] at hstep
    exact hstep
  cases hs with
  | answer =>
      simp only [World.answer, hnone]
      exact ⟨rfl, True.intro⟩

/-- A step row is written. -/
theorem World.Shows.setStep (h : w.Shows supplies execution b) (row : WorkflowStepExecution)
    (hrow : row.executionID = execution.id) :
    { w with steps := w.steps.set row }.Shows supplies execution
      (b.setStep row.stepID row.status) where
  row := h.row
  steps n := by
    show ((w.steps.set row).get (execution.id, n)).map (·.status) =
      Function.update b.steps row.stepID (some row.status) n
    by_cases hn : n = row.stepID
    · rw [hn, ← hrow, show (row.executionID, row.stepID) = stepKey row from rfl,
        Table.get_set_self, Function.update_self, Option.map_some]
    · rw [Table.get_set_of_ne fun heq => hn (congrArg Prod.snd heq), Function.update_of_ne hn]
      exact h.steps n
  queue := h.queue
  sent := h.sent
  workflows := h.workflows
  subscribers := h.subscribers
  templates := h.templates

/-- A new step row is entered in the books. -/
theorem World.Shows.createStepExecution (h : w.Shows supplies execution b)
    (arg : CreateWorkflowStepExecutionParams) (harg : arg.executionID = execution.id)
    (hn : b.steps arg.stepID = none) :
    Gives Served (.createStepExecution arg) w fun _ w' =>
      w'.Shows supplies execution (b.setStep arg.stepID arg.status) := by
  intro r w' hs
  have hnone : w.steps.get (arg.executionID, arg.stepID) = none := by
    have hstep := h.steps arg.stepID
    rw [hn, World.stepStatus, Option.map_eq_none_iff, ← harg] at hstep
    exact hstep
  cases hs with
  | answer =>
      simp only [World.answer, hnone]
      exact ⟨_, rfl, h.setStep (World.insertedStep arg) harg⟩

/-- The new status of a step is entered in the books. -/
theorem World.Shows.updateStepExecutionState (h : w.Shows supplies execution b)
    (arg : UpdateWorkflowStepExecutionStateParams) (harg : arg.executionID = execution.id)
    (hn : (b.steps arg.stepID).isSome) :
    Gives Served (.updateStepExecutionState arg) w fun _ w' =>
      w'.Shows supplies execution (b.setStep arg.stepID arg.status) := by
  intro r w' hs
  obtain ⟨old, hold⟩ : ∃ old, w.steps.get (arg.executionID, arg.stepID) = some old := by
    rw [← h.steps arg.stepID, World.stepStatus, Option.isSome_map, ← harg] at hn
    exact Option.isSome_iff_exists.mp hn
  cases hs with
  | answer =>
      simp only [World.answer, hold]
      exact ⟨_, rfl, h.setStep (World.updatedStep arg old) harg⟩

/-- A new status is entered in the books. -/
theorem World.Shows.updateExecutionState (h : w.Shows supplies execution b) (status : Status)
    (currentStepID : Option String) (completedAt failedAt : Option Time) :
    Gives Served (.updateExecutionState execution.id execution.environmentID status
      currentStepID completedAt failedAt) w fun _ w' =>
        w'.Shows supplies execution (b.setStatus status) := by
  intro r w' hs
  obtain ⟨_, _, _, hrow⟩ := h.row
  cases hs with
  | answer =>
      simp only [World.answer, hrow, Option.filter_some, BEq.rfl, if_true]
      refine ⟨_, rfl, ⟨currentStepID, completedAt, failedAt, ?_⟩, h.steps, h.queue, h.sent,
        h.workflows, h.subscribers, h.templates⟩
      exact Table.get_set_of_eq rfl

/-- A job is entered in the books, unless there is one like it. -/
theorem World.Shows.push (h : w.Shows supplies execution b) {job : WorkflowStepJob}
    (hjob : ∀ t ∈ b.queue, t.job ≠ job) (delay : Option Duration) :
    (w.push job delay).1 = .ok () ∧
      (w.push job delay).2.Shows supplies execution (b.push { job := job, delay := delay }) := by
  have hany : ¬ (w.queue.any fun t => t.job == job) = true := by
    rw [h.queue, List.any_eq_true]
    rintro ⟨t, ht, hte⟩
    exact hjob t ht (beq_iff_eq.mp hte)
  rw [World.push, if_neg hany]
  exact ⟨rfl, h.row, h.steps, congrArg (· ++ _) h.queue, h.sent, h.workflows, h.subscribers,
    h.templates⟩

theorem World.Shows.enqueueWorkflowStep (h : w.Shows supplies execution b)
    {job : WorkflowStepJob} (hjob : ∀ t ∈ b.queue, t.job ≠ job) :
    Gives Served (.enqueueWorkflowStep job) w fun _ w' =>
      w'.Shows supplies execution (b.push { job := job }) := by
  intro r w' hs
  cases hs with
  | answer => exact ⟨(), h.push hjob none⟩

theorem World.Shows.enqueueWorkflowStepIn (h : w.Shows supplies execution b)
    {job : WorkflowStepJob} (hjob : ∀ t ∈ b.queue, t.job ≠ job) (delay : Duration) :
    Gives Served (.enqueueWorkflowStepIn job delay) w fun _ w' =>
      w'.Shows supplies execution (b.push { job := job, delay := some delay }) := by
  intro r w' hs
  cases hs with
  | answer => exact ⟨(), h.push hjob (some delay)⟩

theorem World.Shows.enqueue (h : w.Shows supplies execution b) (job : NotificationJob) :
    Gives Served (.enqueue job) w fun _ w' =>
      w'.Shows supplies execution (b.send (notificationStep job)) := by
  intro r w' hs
  cases hs with
  | answer =>
      refine ⟨(), rfl, h.row, h.steps, h.queue, ?_, h.workflows, h.subscribers, h.templates⟩
      show (w.notifications ++ [job]).map notificationStep = b.sent ++ [notificationStep job]
      rw [List.map_append, h.sent, List.map_singleton]

end Entries

/-! ### What a handling writes -/

/-- The delay with which a node hands on. -/
def delayOf (node : Node) : Option Duration :=
  match node.type with
  | .delay => (delayDuration node).toOption
  | _ => none

/-- The task for the successor of a node. -/
def nextTask (execution : WorkflowExecution) (node : Node) (stepID : String) : Task where
  job := stepJob execution stepID
  delay := delayOf node

namespace Books

/-- A step is completed, and its successor, if there is one, is waited for. -/
def close (b : Books) (stepID : String) (next : Option Task) : Books :=
  match next with
  | none => (b.setStep stepID .completed).setStatus .completed
  | some t => ((b.setStep stepID .completed).push t).setStatus .queued

/-- A node is done: it has been notified of, if that is what it is for, and is closed. -/
def finish (b : Books) (execution : WorkflowExecution) (node : Node) (next : Option String) :
    Books :=
  let b := match node.type with
    | .notification => b.send (some execution.id.toString, some node.id)
    | _ => b
  b.close node.id (next.map (nextTask execution node))

/-- What is in the books when a node is finished. -/
theorem finish_eq (b : Books) (execution : WorkflowExecution) (node : Node)
    (next : Option String) :
    b.finish execution node next =
      { status := if next.isNone then .completed else .queued
        steps := Function.update b.steps node.id (some .completed)
        queue := b.queue ++ (next.map (nextTask execution node)).toList
        sent := b.sent ++ if node.type = .notification then
          [(some execution.id.toString, some node.id)] else [] } := by
  have hclose : ∀ b : Books, b.close node.id (next.map (nextTask execution node)) =
      { status := if next.isNone then .completed else .queued
        steps := Function.update b.steps node.id (some .completed)
        queue := b.queue ++ (next.map (nextTask execution node)).toList
        sent := b.sent } := by
    intro b
    cases next with
    | none => simp [close, setStep, setStatus]
    | some stepID => rfl
  rw [finish, hclose]
  by_cases hty : node.type = .notification
  · simp [hty, send]
  · simp [hty]

end Books

/-- The handler of a node has what it needs: a configuration that says something, and a
notification its subscriber and its template. -/
def Node.Ready (s : Service) (supplies : World) (execution : WorkflowExecution) (node : Node) :
    Prop :=
  match node.type with
  | .trigger => True
  | .delay => ∃ duration, delayDuration node = .ok duration
  | .condition => ∃ matched, conditionOutcome node execution.triggerPayload = .ok matched
  | .notification => ∃ subscriberID channel templateID subscriber template content recipient,
      execution.subscriberID = some subscriberID ∧
      notificationTarget node = .ok (channel, templateID) ∧
      (World.answer (.getSubscriberByID subscriberID execution.environmentID) supplies).1 =
        .ok subscriber ∧
      (World.answer (.getTemplateByID templateID execution.environmentID) supplies).1 =
        .ok template ∧
      notificationContent s execution node channel subscriber template = .ok (content, recipient)
  | .other _ _ => False

section Handlers

variable {s : Service} {w supplies : World} {execution : WorkflowExecution} {b : Books}
  {row : WorkflowStepExecution} {definition : Definition} {node : Node} {next : Option String}

/-- A handling that ends well, and what is written then. -/
def Ends (supplies : World) (execution : WorkflowExecution) (b : Books) :
    Except GoError Unit → World → Prop :=
  fun out w => out = .ok () ∧ w.Shows supplies execution b

/-- The end of a step closes the books. -/
theorem ensures_completeCurrentAndDispatchNext (hs : s.producer = true)
    (h : w.Shows supplies execution b) (hrow : (b.steps node.id).isSome) (hqueue : b.queue = [])
    (hdelay : next = none ∨ delayOf node = none) (output : Option Json) :
    Ensures Served (Ends supplies execution (b.close node.id (next.map (nextTask execution node))))
      (completeCurrentAndDispatchNext s execution row node next.toList output) w := by
  unfold completeCurrentAndDispatchNext
  refine gives_now.perform_bind fun nowTs w' hw => ?_
  subst hw
  have hstep := h.updateStepExecutionState
    (completedStep execution row node output nowTs) rfl hrow
  refine hstep.perform_bind fun _ w₁ h₁ => ?_
  -- without a successor the execution is completed
  cases next with
  | none =>
      refine (h₁.updateExecutionState .completed none (some nowTs) none).perform_bind
        fun _ w₂ h₂ => ?_
      exact ensures_ret.mpr ⟨rfl, h₂⟩
  | some stepID =>
      -- the queue is empty, so the job is new
      have hfree : ∀ t ∈ (b.setStep node.id .completed).queue,
          t.job ≠ stepJob execution stepID := by
        intro t ht
        rw [show (b.setStep node.id .completed).queue = b.queue from rfl, hqueue] at ht
        cases ht
      dsimp only [Option.toList]
      rw [if_pos hs]
      refine Ensures.bind ((h₁.enqueueWorkflowStep hfree).perform_bind fun _ w₂ h₂ =>
        (ensures_ret (Q := Ends supplies execution _)).mpr ⟨rfl, h₂⟩) ?_ ?_
      · rintro a w₂ ⟨-, h₂⟩
        refine (h₂.updateExecutionState .queued (some stepID) none none).perform_bind
          fun _ w₃ h₃ => ?_
        refine ensures_ret.mpr ⟨rfl, ?_⟩
        rw [Option.map_some, nextTask, hdelay.resolve_left nofun]
        exact h₃
      · rintro err w₂ ⟨⟨⟩, -⟩

/-- A notification with a subscriber and a template is sent, and its step is closed. -/
theorem ensures_handleNotificationStep (hs : s.producer = true)
    (h : w.Shows supplies execution b) (hrow : (b.steps node.id).isSome) (hqueue : b.queue = [])
    (hty : node.type = .notification) (hready : node.Ready s supplies execution)
    (hnext : nextNodeIDs definition node.id "" = next.toList) :
    Ensures Served (Ends supplies execution
        ((b.send (some execution.id.toString, some node.id)).close node.id
          (next.map (nextTask execution node))))
      (handleNotificationStep s execution row definition node) w := by
  rw [Node.Ready, hty] at hready
  obtain ⟨subscriberID, channel, templateID, subscriber, template, content, recipient,
    hsubscriberID, htarget, hsubscriber, htemplate, hcontent⟩ := hready
  unfold handleNotificationStep
  simp only [hsubscriberID, hs, htarget, Bool.not_true, if_false, Bool.false_eq_true]
  refine (h.supply (.getSubscriberByID ..) True.intro hsubscriber).ask_bind
    fun subscriber' w' hw => ?_
  obtain ⟨rfl, rfl⟩ := hw
  refine (h.supply (.getTemplateByID ..) True.intro htemplate).ask_bind
    fun template' w' hw => ?_
  obtain ⟨rfl, rfl⟩ := hw
  simp only [hcontent]
  refine gives_newUUID.perform_bind fun jobID w' hw => ?_
  subst hw
  refine (h.enqueue (notificationJob execution node channel subscriber' content recipient
    jobID)).ask_bind fun _ w₁ h₁ => ?_
  rw [hnext]
  exact ensures_completeCurrentAndDispatchNext hs h₁ hrow hqueue (Or.inr (by rw [delayOf, hty])) _

/-- A delay that can be read closes its step. -/
theorem ensures_handleDelayStep (hs : s.producer = true)
    (h : w.Shows supplies execution b) (hrow : (b.steps node.id).isSome) (hqueue : b.queue = [])
    (hty : node.type = .delay) (hready : node.Ready s supplies execution)
    (hnext : nextNodeIDs definition node.id "" = next.toList) :
    Ensures Served (Ends supplies execution (b.close node.id (next.map (nextTask execution node))))
      (handleDelayStep s execution row definition node) w := by
  rw [Node.Ready, hty] at hready
  obtain ⟨duration, hduration⟩ := hready
  unfold handleDelayStep
  simp only [hduration, hnext]
  cases next with
  | none =>
      -- a delay without a successor does not wait
      exact ensures_completeCurrentAndDispatchNext hs h hrow hqueue (Or.inl rfl) none
  | some stepID =>
      have hfree : ∀ t ∈ b.queue, t.job ≠ stepJob execution stepID := by
        intro t ht
        rw [hqueue] at ht
        cases ht
      have hdelay : delayOf node = some duration := by
        rw [delayOf, hty]
        simp only [hduration, Except.toOption]
      simp only [Option.toList, hs, Bool.not_true, Bool.false_eq_true, if_false]
      refine Ensures.bind ((h.enqueueWorkflowStepIn hfree duration).ask_bind fun _ w₁ h₁ =>
        (ensures_ret (Q := fun (out : Except GoError (Except GoError Unit)) (w : World) =>
          out = .ok (.ok ()) ∧ w.Shows supplies execution _)).mpr ⟨rfl, h₁⟩) ?_ ?_
      · rintro a w₁ ⟨ha, h₁⟩
        cases ha
        refine gives_now.perform_bind fun nowTs w' hw => ?_
        subst hw
        have hstep := h₁.updateStepExecutionState (completedStep execution row node
          (some (Json.obj [("duration", .str duration.toString),
            ("next_steps", .arr ([stepID].map .str))])) nowTs) rfl hrow
        refine hstep.perform_bind fun _ w₂ h₂ => ?_
        refine (h₂.updateExecutionState .queued (some stepID) none none).perform_bind
          fun _ w₃ h₃ => ?_
        refine ensures_ret.mpr ⟨rfl, ?_⟩
        rw [Option.map_some, nextTask, hdelay]
        exact h₃
      · rintro err w₁ ⟨⟨⟩, -⟩

/-- **The handler of a node** that is ready makes sure that the books are finished. -/
theorem ensures_handleStep (hs : s.producer = true)
    (h : w.Shows supplies execution b) (hrow : (b.steps node.id).isSome) (hqueue : b.queue = [])
    (hready : node.Ready s supplies execution)
    (hnext : successors definition node execution.triggerPayload = next.toList) :
    Ensures Served (Ends supplies execution (b.finish execution node next))
      (handleStep s execution row definition node) w := by
  -- only a notification leaves more than a closed step
  have hplain : node.type ≠ .notification →
      b.finish execution node next = b.close node.id (next.map (nextTask execution node)) := by
    intro hty
    rw [Books.finish]
    split
    · next hnotification => exact (hty hnotification).elim
    · rfl
  unfold handleStep
  rcases hty : node.type with - | - | - | - | ⟨raw, hraw⟩
  · -- a trigger hands on
    rw [hplain (by rw [hty]; exact StepType.noConfusion)]
    rw [successors, hty] at hnext
    dsimp only at hnext ⊢
    rw [hnext]
    exact ensures_completeCurrentAndDispatchNext hs h hrow hqueue
      (Or.inr (by rw [delayOf, hty])) none
  · rw [successors, hty] at hnext
    rw [Books.finish, hty]
    exact ensures_handleNotificationStep hs h hrow hqueue hty hready hnext
  · rw [hplain (by rw [hty]; exact StepType.noConfusion)]
    rw [successors, hty] at hnext
    exact ensures_handleDelayStep hs h hrow hqueue hty hready hnext
  · -- a condition hands on along the branch of its outcome
    rw [hplain (by rw [hty]; exact StepType.noConfusion)]
    rw [Node.Ready, hty] at hready
    obtain ⟨matched, hmatched⟩ := hready
    rw [successors, hty] at hnext
    simp only [hmatched] at hnext
    dsimp only [handleConditionStep]
    simp only [hmatched, hnext]
    exact ensures_completeCurrentAndDispatchNext hs h hrow hqueue
      (Or.inr (by rw [delayOf, hty])) _
  · rw [Node.Ready, hty] at hready
    exact hready.elim

/-- A new step row is opened. -/
theorem ensures_openStep (h : w.Shows supplies execution b) (hnew : b.steps node.id = none) :
    Ensures Served (fun out w' => ∃ row, out = .ok row ∧
      w'.Shows supplies execution (b.setStep node.id .running)) (openStep execution node) w := by
  unfold openStep
  refine gives_now.perform_bind fun nowTs w' hw => ?_
  subst hw
  refine ensures_ask_bind fun r w' hserved => ?_
  obtain ⟨rfl, rfl⟩ := h.getStepExecution hnew hserved
  refine gives_newUUID.perform_bind fun id w' hw => ?_
  subst hw
  exact (h.createStepExecution (createdStep execution node nowTs id) rfl hnew).perform

/-- **`ProcessStep`, when nothing goes wrong**: the node is done, and the books say so. -/
theorem ensures_processStep (hs : s.producer = true) {stepID : String} {workflow : Db.Workflow}
    (h : w.Shows supplies execution b) (hqueue : b.queue = [])
    (hread : readJob (stepJob execution stepID) =
      some ⟨execution.environmentID, execution.id, execution.workflowID, trimSpace stepID⟩)
    (hworkflow : (World.answer (.getByID execution.workflowID execution.environmentID)
      supplies).1 = .ok workflow)
    (hlocate : locate workflow (trimSpace stepID) = .ok (definition, node))
    (hnew : b.steps node.id = none) (hready : node.Ready s supplies execution)
    (hnext : successors definition node execution.triggerPayload = next.toList) :
    Ensures Served (Ends supplies execution
        (((b.setStep node.id .running).setStatus .running).finish execution node next))
      (processStep s (stepJob execution stepID)) w := by
  unfold processStep
  rw [hread]
  dsimp only
  refine h.getExecutionByID.perform_bind fun current w' hw => ?_
  obtain ⟨rfl, status, currentStepID, completedAt, failedAt, rfl⟩ := hw
  refine (h.supply (.getByID ..) True.intro hworkflow).perform_bind
    fun workflow' w' hw => ?_
  obtain ⟨rfl, rfl⟩ := hw
  rw [hlocate]
  dsimp only
  -- only fields that the books do not mention have changed since the execution was created
  generalize hcurrent : ({ execution with
    status := status
    currentStepID := currentStepID
    completedAt := completedAt
    failedAt := failedAt } : WorkflowExecution) = current
  have hshows : ∀ {w : World} {b : Books}, w.Shows supplies current b ↔
      w.Shows supplies execution b := by
    intro w b
    rw [← hcurrent]
    constructor
    · rintro ⟨h₁, h₂, h₃, h₄, h₅, h₆, h₇⟩
      exact ⟨h₁, h₂, h₃, h₄, h₅, h₆, h₇⟩
    · rintro ⟨h₁, h₂, h₃, h₄, h₅, h₆, h₇⟩
      exact ⟨h₁, h₂, h₃, h₄, h₅, h₆, h₇⟩
  refine Ensures.bind (ensures_openStep (hshows.mpr h) hnew) ?_ ?_
  · rintro row w₁ ⟨_, -, h₁⟩
    have hid : execution.id = current.id := by rw [← hcurrent]
    have henv : execution.environmentID = current.environmentID := by rw [← hcurrent]
    rw [hid, henv]
    refine (h₁.updateExecutionState .running (some node.id) none none).perform_bind
      fun _ w₂ h₂ => ?_
    have hready' : node.Ready s supplies current := by
      rw [← hcurrent]
      exact hready
    have hnext' : successors definition node current.triggerPayload = next.toList := by
      rw [← hcurrent]
      exact hnext
    have hrow : (((b.setStep node.id .running).setStatus .running).steps node.id).isSome := by
      show (Function.update b.steps node.id (some Status.running) node.id).isSome
      rw [Function.update_self]
      rfl
    refine (ensures_handleStep hs h₂ hrow hqueue hready' hnext').mono ?_
    rintro out w ⟨hout, hw⟩
    refine ⟨hout, ?_⟩
    have hbooks : ((b.setStep node.id .running).setStatus .running).finish current node next =
        ((b.setStep node.id .running).setStatus .running).finish execution node next := by
      rw [← hcurrent]
      rfl
    rw [← hbooks]
    exact hshows.mp hw
  · rintro err w₁ ⟨row, ⟨⟩, -⟩

end Handlers

end Iwifunni.Workflow
