/-
Iwifunni/Workflow/Routing.lean

Where a handling goes next.

The stored definition and the payload of the execution determine the successors
of a node (`successors`): the targets of its edges, for a condition node those of
the branch its outcome selects.  A handling enqueues jobs for these successors
only, and it completes the execution only if there are none.

This is a second protocol of the same programs, kept beside the one of
`Workflow.Handling`: it follows no writes, only what the handling has read.
-/
import Iwifunni.Workflow.Ownership

namespace Iwifunni.Workflow

open Go Db Effect Effect.Prog

/-! ### Successors -/

/-- The nodes that follow a node in an execution with this payload. -/
def successors (definition : Definition) (node : Node) (triggerPayload : Option Json) :
    List String :=
  match node.type with
  | .condition =>
      match conditionOutcome node triggerPayload with
      | .ok matched => nextNodeIDs definition node.id (branchName matched)
      | .error _ => []
  | _ => nextNodeIDs definition node.id ""

/-- The successors of the node a job names, as the stored rows have them; `none`
if there is no such execution, workflow or node. -/
def World.nextSteps (w : World) (ref : StepRef) : Option (List String) :=
  (w.executions.get ref.executionID).bind fun execution =>
    (w.workflows.find? fun r => r.id == ref.workflowID &&
      r.environmentID == ref.environmentID).bind fun workflow =>
        (locate workflow ref.stepID).toOption.map fun d =>
          successors d.1 d.2 execution.triggerPayload

/-! ### The protocol -/

/-- What a handling has read so far. -/
inductive Route
  | start
  | fetched (triggerPayload : Option Json)
  | routed (next : List String)

/-- May a handling enqueue a job for this node? -/
def Route.leadsTo : Route → String → Bool
  | routed next, stepID => next.contains stepID
  | _, _ => false

/-- May a handling complete the execution? -/
def Route.isLast : Route → Bool
  | routed next => next.isEmpty
  | _ => false

/-- The route of a handling after one more call. -/
def routeNext (ref : StepRef) (r : Route) : Answered Op.Res GoError → Option Route
  | ⟨.getExecutionByID _ _, .ok execution⟩ => some (.fetched execution.triggerPayload)
  | ⟨.getByID _ _, .ok workflow⟩ =>
      match r, locate workflow ref.stepID with
      | .fetched payload, .ok (definition, node) =>
          some (.routed (successors definition node payload))
      | _, _ => some r
  | ⟨.enqueueWorkflowStep job, _⟩ => if r.leadsTo job.stepID then some r else none
  | ⟨.enqueueWorkflowStepIn job _, _⟩ => if r.leadsTo job.stepID then some r else none
  | ⟨.updateExecutionState _ _ status _ _ _, _⟩ =>
      if status ≠ .completed ∨ r.isLast = true then some r else none
  | _ => some r

/-- The protocol of routes; a `TriggerEvent` may do anything. -/
def routing : Protocol Activity Op.Res GoError Unit Route where
  init _ := .start
  expects _ _ _ := True
  next
    | .step t, r, a => (readJob t.job).bind fun ref => routeNext ref r a
    | .trigger _ _, r, _ => some r
  ends _ _ _ := True

/-! ### The handlers keep the protocol -/

section Keeps

variable {β γ : Type} {s : Service} {t : Task} {ref : StepRef} {execution : WorkflowExecution}
  {row : WorkflowStepExecution} {node : Node} {definition : Definition} {r : Route}

/-- A program of the handling of `t` that keeps the protocol and stays on a route. -/
abbrev Goes (t : Task) (p : Act β) (r : Route) : Prop :=
  Prog.Keeps routing (.step t) (fun r' _ => r' = r) p r

theorem routing_next (hread : readJob t.job = some ref) (r : Route)
    (a : Answered Op.Res GoError) : routing.next (.step t) r a = routeNext ref r a := by
  simp only [routing, hread, Option.bind_some]

theorem goes_ret (a : β) (r : Route) : Goes t (ret a) r := Prog.keeps_ret.mpr rfl

theorem goes_fail (e : GoError) (r : Route) : Goes t (fail e : Act β) r := Prog.keeps_fail.mpr rfl

theorem goes_bind {p : Act β} {f : β → Act γ} (hp : Goes t p r) (hf : ∀ a, Goes t (f a) r) :
    Goes t (p >>= f) r := by
  refine Prog.keeps_bind hp ?_ fun r' e h => h
  rintro r' a rfl
  exact hf a

/-- A call that is allowed on a route, whatever it answers. -/
theorem goes_perform (hread : readJob t.job = some ref) {op : Op}
    (hop : ∀ x, routeNext ref r ⟨op, x⟩ = some r) : Goes t (perform op) r := by
  refine Prog.keeps_call.mpr fun x _ => ⟨r, ?_, ?_⟩
  · rw [routing_next hread, hop]
  · cases x with
    | ok a => exact goes_ret a r
    | error e => exact goes_fail e r

theorem goes_ask (hread : readJob t.job = some ref) {op : Op}
    (hop : ∀ x, routeNext ref r ⟨op, x⟩ = some r) : Goes t (ask op) r := by
  refine Prog.keeps_call.mpr fun x _ => ⟨r, ?_, goes_ret x r⟩
  rw [routing_next hread, hop]

/-- The calls that are allowed on every route and do not change it. -/
def Op.Unrouted : Op → Prop
  | getExecutionByID _ _ | getByID _ _ | enqueueWorkflowStep _ | enqueueWorkflowStepIn _ _ => False
  | updateExecutionState _ _ status _ _ _ => status ≠ .completed
  | _ => True

theorem routeNext_of_unrouted {op : Op} (h : op.Unrouted) (x : Except GoError op.Res) :
    routeNext ref r ⟨op, x⟩ = some r := by
  cases op with
  | updateExecutionState => exact if_pos (Or.inl h)
  | getExecutionByID | getByID | enqueueWorkflowStep | enqueueWorkflowStepIn => exact h.elim
  | _ => rfl

theorem goes_unrouted (hread : readJob t.job = some ref) {op : Op} {f : op.Res → Act β}
    (hop : op.Unrouted) (hf : ∀ a, Goes t (f a) r) : Goes t (perform op >>= f) r :=
  goes_bind (goes_perform hread (routeNext_of_unrouted hop)) hf

theorem goes_unrouted_ask (hread : readJob t.job = some ref) {op : Op}
    {f : Except GoError op.Res → Act β} (hop : op.Unrouted) (hf : ∀ a, Goes t (f a) r) :
    Goes t (ask op >>= f) r :=
  goes_bind (goes_ask hread (routeNext_of_unrouted hop)) hf

theorem goes_failCurrentStep (hread : readJob t.job = some ref) (cause : GoError) (r : Route) :
    Goes t (failCurrentStep execution row cause) r := by
  unfold failCurrentStep
  refine goes_unrouted hread True.intro fun ts => ?_
  refine goes_unrouted hread True.intro fun _ => ?_
  refine goes_unrouted hread (by simp [Op.Unrouted]) fun _ => ?_
  exact goes_fail cause r

/-- The jobs of the loop are for nodes of the route. -/
theorem goes_dispatchNext (hread : readJob t.job = some ref) {next rest : List String}
    (hsub : ∀ n ∈ rest, n ∈ next) :
    Goes t (dispatchNext execution rest) (.routed next) := by
  induction rest with
  | nil => exact goes_ret () _
  | cons n rest ih =>
      have hleads : (Route.routed next).leadsTo (stepJob execution n).stepID = true :=
        List.contains_iff_mem.mpr (hsub n (List.mem_cons_self ..))
      apply goes_bind
      · exact goes_perform hread fun _ => if_pos hleads
      · intro a
        exact ih fun m hm => hsub m (List.mem_cons_of_mem _ hm)

/-- Scheduling hands over to some of the successors. -/
theorem goes_scheduleNext (hread : readJob t.job = some ref) {next rest : List String}
    (duration : Duration) (hsub : ∀ n ∈ rest, n ∈ next) :
    Goes t (scheduleNext execution duration rest) (.routed next) := by
  induction rest with
  | nil => exact goes_ret _ _
  | cons n rest ih =>
      have hleads : (Route.routed next).leadsTo (stepJob execution n).stepID = true :=
        List.contains_iff_mem.mpr (hsub n (List.mem_cons_self ..))
      apply goes_bind
      · exact goes_ask hread fun _ => if_pos hleads
      · rintro (e | a)
        · exact goes_ret _ _
        · exact ih fun m hm => hsub m (List.mem_cons_of_mem _ hm)

/-- The successors it was given are those it hands over to. -/
theorem goes_completeCurrentAndDispatchNext (hread : readJob t.job = some ref)
    (next : List String) (output : Option Json) :
    Goes t (completeCurrentAndDispatchNext s execution row node next output) (.routed next) := by
  unfold completeCurrentAndDispatchNext
  refine goes_unrouted hread True.intro fun ts => ?_
  refine goes_unrouted hread True.intro fun _ => ?_
  cases next with
  | nil =>
      -- only on a route without successors is the execution completed
      apply goes_bind
      · exact goes_perform hread fun _ => by simp [routeNext, Route.isLast]
      · exact fun _ => goes_ret () _
  | cons n rest =>
      dsimp only
      split
      · apply goes_bind
        · exact goes_dispatchNext hread fun _ hm => hm
        · intro a
          refine goes_unrouted hread (by simp [Op.Unrouted]) fun _ => ?_
          exact goes_ret () _
      · exact goes_fail _ _

/-- From a notification the job goes on along all its edges. -/
theorem goes_handleNotificationStep (hread : readJob t.job = some ref) :
    Goes t (handleNotificationStep s execution row definition node)
      (.routed (nextNodeIDs definition node.id "")) := by
  have hfail : ∀ cause, Goes t (failCurrentStep execution row cause)
      (.routed (nextNodeIDs definition node.id "")) := fun cause =>
    goes_failCurrentStep hread cause _
  unfold handleNotificationStep
  dsimp only
  split
  · exact hfail _
  split
  · exact hfail _
  split
  · exact hfail _
  refine goes_unrouted_ask hread True.intro fun r => ?_
  rcases r with e | subscriber
  · exact hfail e
  refine goes_unrouted_ask hread True.intro fun r => ?_
  rcases r with e | template
  · exact hfail e
  dsimp only
  split
  · exact hfail _
  refine goes_unrouted hread True.intro fun jobID => ?_
  refine goes_unrouted_ask hread True.intro fun r => ?_
  rcases r with e | a
  · exact hfail e
  · exact goes_completeCurrentAndDispatchNext hread _ _

/-- So it does from a delay. -/
theorem goes_handleDelayStep (hread : readJob t.job = some ref) :
    Goes t (handleDelayStep s execution row definition node)
      (.routed (nextNodeIDs definition node.id "")) := by
  have hfail : ∀ cause, Goes t (failCurrentStep execution row cause)
      (.routed (nextNodeIDs definition node.id "")) := fun cause =>
    goes_failCurrentStep hread cause _
  unfold handleDelayStep
  dsimp only
  split
  · exact hfail _
  rcases hnext : nextNodeIDs definition node.id "" with - | ⟨n, rest⟩
  · exact goes_completeCurrentAndDispatchNext hread [] none
  rw [hnext] at hfail
  dsimp only
  split
  · exact hfail _
  apply goes_bind
  · exact goes_scheduleNext hread _ fun _ hm => hm
  · rintro (e | a)
    · exact hfail e
    · refine goes_unrouted hread True.intro fun ts => ?_
      refine goes_unrouted hread True.intro fun _ => ?_
      refine goes_unrouted hread (by simp [Op.Unrouted]) fun _ => ?_
      exact goes_ret () _

theorem goes_handleConditionStep (hread : readJob t.job = some ref)
    (hty : node.type = .condition) :
    Goes t (handleConditionStep s execution row definition node)
      (.routed (successors definition node execution.triggerPayload)) := by
  unfold handleConditionStep successors
  rw [hty]
  rcases conditionOutcome node execution.triggerPayload with e | matched
  · exact goes_failCurrentStep hread e _
  · exact goes_completeCurrentAndDispatchNext hread _ _

/-- **Where a handled step goes on.** -/
theorem goes_handleStep (hread : readJob t.job = some ref) :
    Goes t (handleStep s execution row definition node)
      (.routed (successors definition node execution.triggerPayload)) := by
  have hnext : node.type ≠ .condition →
      successors definition node execution.triggerPayload = nextNodeIDs definition node.id "" := by
    intro hty
    unfold successors
    split
    · next hc => exact absurd hc hty
    · rfl
  unfold handleStep
  split
  · next hty =>
    rw [hnext (by simp [hty])]
    exact goes_completeCurrentAndDispatchNext hread _ _
  · next hty =>
    rw [hnext (by simp [hty])]
    exact goes_handleDelayStep hread
  · next hty => exact goes_handleConditionStep hread hty
  · next hty =>
    rw [hnext (by simp [hty])]
    exact goes_handleNotificationStep hread
  · exact goes_failCurrentStep hread _ _

theorem goes_openStep (hread : readJob t.job = some ref) :
    Goes t (openStep execution node) r := by
  unfold openStep
  refine goes_unrouted hread True.intro fun ts => ?_
  refine goes_unrouted_ask hread True.intro fun x => ?_
  split
  · refine goes_unrouted hread True.intro fun id => ?_
    exact goes_perform hread (routeNext_of_unrouted True.intro)
  · exact goes_fail _ _
  · exact goes_perform hread (routeNext_of_unrouted True.intro)

/-- **`ProcessStep` goes where the definition leads.** -/
theorem keeps_processStep_routing (s : Service) (t : Task) :
    Prog.Keeps routing (.step t) (fun _ _ => True) (processStep s t.job) .start := by
  unfold processStep
  rcases hread : readJob t.job with - | ref
  · exact Prog.keeps_fail.mpr True.intro
  dsimp only
  refine Prog.keeps_perform_bind (fun execution _ => ⟨.fetched execution.triggerPayload, ?_, ?_⟩)
    (fun e _ => ⟨.start, ?_, True.intro⟩)
  · rw [routing_next hread]
    rfl
  · refine Prog.keeps_perform_bind (fun workflow _ => ?_)
      (fun e _ => ⟨.fetched execution.triggerPayload, ?_, True.intro⟩)
    · rw [routing_next hread]
      rcases hl : locate workflow ref.stepID with e | ⟨definition, node⟩
      · exact ⟨.fetched execution.triggerPayload, by simp [routeNext, hl],
          Prog.keeps_fail.mpr True.intro⟩
      · have hgoes : Goes t (openStep execution node >>= fun stepExecution => do
            let _ ← perform (Op.updateExecutionState execution.id ref.environmentID .running
              (some node.id) none none)
            handleStep s execution stepExecution definition node)
            (.routed (successors definition node execution.triggerPayload)) := by
          apply goes_bind
          · exact goes_openStep hread
          · intro row
            refine goes_unrouted hread (by simp [Op.Unrouted]) fun _ => ?_
            exact goes_handleStep hread
        exact ⟨_, by simp [routeNext, hl], Prog.keeps_mono (fun _ _ _ => True.intro) hgoes⟩
    · rw [routing_next hread]
      rfl
  · rw [routing_next hread]
    rfl

/-- A trigger has no route to keep. -/
theorem keeps_trigger_routing {environmentID : UUID} {input : TriggerEventInput} (p : Act β) :
    Prog.Keeps routing (.trigger environmentID input) (fun _ _ => True) p r := by
  induction p with
  | ret a => exact Prog.keeps_ret.mpr True.intro
  | fail e => exact Prog.keeps_fail.mpr True.intro
  | call op k ih => exact Prog.keeps_call.mpr fun x _ => ⟨r, rfl, ih x⟩

/-- **The engine keeps both protocols.** -/
theorem keeps_engine_routing (s : Service) (l : Activity) :
    Prog.Keeps ((handling s).prod routing) l (((handling s).prod routing).ends l)
      ((engine s).body l) (((handling s).prod routing).init l) := by
  refine Prog.keeps_prod (keeps_engine s l) ?_
  change Prog.Keeps routing l (fun _ _ => True) (l.body s) .start
  cases l with
  | step t =>
      rw [Activity.body]
      exact keeps_processStep_routing s t
  | trigger environmentID input => exact keeps_trigger_routing _

end Keeps

end Iwifunni.Workflow
