/-
Iwifunni/Workflow/Tenants.lean

What one environment sees of the engine, while others use it as well.

Every row, job and notification belongs to one environment, and so does every activity.
`World.tenant e` is what belongs to `e`:

    all      trigger e   trigger f   step (e)   step (f)   step (e)   ...
    of e     trigger e               step (e)              step (e)   ...

An activity makes calls within its own environment only (`within_of_thread`): the ids it
uses come from a job or a request, but every statement names the environment, or an
execution that was found in it.  So a call answers from what belongs to the environment and
changes nothing else, and what `e` sees of a run is a run in which it is alone
(`runs_alone`).
-/
import Iwifunni.Effect.History
import Iwifunni.Workflow.Footprint
import Iwifunni.Workflow.Parts

namespace Iwifunni.Workflow

open Go Db Effect Effect.Prog

variable {s : Service} {w w' : World} {e f x : UUID}

/-! ### What belongs to an environment -/

/-- The environment a job is for. -/
def jobEnvironment (job : WorkflowStepJob) : Option UUID :=
  UUID.parse (trimSpace job.environmentID)

@[simp] theorem jobEnvironment_stepJob (row : WorkflowExecution) (n : String) :
    jobEnvironment (stepJob row n) = some row.environmentID :=
  UUID.parse_trimSpace_toString row.environmentID

/-- The rows, jobs and notifications of an environment, and the activities for it. -/
def tenantPart (e : UUID) : Part where
  workflow _ environmentID := environmentID == e
  directory environmentID := environmentID == e
  execution _ environmentID := environmentID == e
  job job := jobEnvironment job == some e
  notification job := job.projectID == e.toString
  trigger environmentID := environmentID == e

/-- What belongs to an environment. -/
def World.tenant (e : UUID) (w : World) : World := w.part (tenantPart e)

/-- What an environment sees of the engine. -/
def tenantSight (e : UUID) : Sight World Activity Change := partSight (tenantPart e)

/-- The environment an activity works for. -/
def Activity.environment : Activity → Option UUID
  | step t => jobEnvironment t.job
  | trigger environmentID _ => some environmentID

theorem works_tenantPart (l : Activity) :
    (tenantPart e).works l = (l.environment == some e) := by
  cases l with
  | step t => rfl
  | trigger environmentID input => exact (Option.some_beq_some ..).symm

/-! ### Calls within an environment -/

/-- The execution is there, in the environment. -/
def World.Placed (w : World) (x e : UUID) : Prop :=
  ∃ row, w.executions.get x = some row ∧ row.environmentID = e

/-- The call names the environment, or an execution of it. -/
def Op.Within (e : UUID) (w : World) : Op → Prop
  | now | newUUID => True
  | getExecutionByID _ environmentID => environmentID = e
  | getByID _ environmentID => environmentID = e
  | getSubscriberByID _ environmentID => environmentID = e
  | getTemplateByID _ environmentID => environmentID = e
  | getActiveByTriggerEvent environmentID _ => environmentID = e
  | updateExecutionState _ environmentID _ _ _ _ => environmentID = e
  | getStepExecution executionID _ => w.Placed executionID e
  | createStepExecution arg => w.Placed arg.executionID e
  | updateStepExecutionState arg => w.Placed arg.executionID e
  | createExecution arg => arg.environmentID = e
  | enqueue job => job.projectID = e.toString
  | enqueueWorkflowStep job => jobEnvironment job = some e
  | enqueueWorkflowStepIn job _ => jobEnvironment job = some e

section Within

theorem holds_tenantPart (h : w.Placed x f) : w.holds (tenantPart e) x = (f == e) := by
  obtain ⟨row, hget, rfl⟩ := h
  show (w.executions.get x).any _ = _
  rw [hget]
  rfl

theorem beq_of_eq {α : Type} [BEq α] [LawfulBEq α] {a b : α} (h : a = b) : (a == b) = true := by
  rw [h, BEq.rfl]

theorem beq_of_ne {α : Type} [BEq α] [LawfulBEq α] {a b : α} (h : a ≠ b) : (a == b) = false :=
  beq_eq_false_iff_ne.mpr h

theorem Op.Within.owned {op : Op} (h : op.Within e w) : op.Owned w := by
  have hplaced : ∀ {y}, w.Placed y e → (w.executions.get y).isSome := by
    rintro y ⟨row, hget, -⟩
    rw [hget]
    rfl
  cases op with
  | createStepExecution arg => exact hplaced h
  | updateStepExecutionState arg => exact hplaced h
  | _ => exact True.intro

/-- A call within the environment is inside of it. -/
theorem Op.Within.inside {op : Op} (h : op.Within e w) : op.Inside (tenantPart e) w := by
  have hplaced : ∀ {y}, w.Placed y e → w.holds (tenantPart e) y = true := by
    intro y hy
    rw [holds_tenantPart hy, BEq.rfl]
  have hrows : ∀ {id environmentID : UUID}, environmentID = e → ∀ row,
      w.executions.get id = some row → row.environmentID = environmentID →
      (tenantPart e).has row = true := by
    intro id environmentID henv row _ hrow
    exact beq_of_eq (hrow.trans henv)
  cases op with
  | now | newUUID => exact True.intro
  | getExecutionByID id environmentID => exact hrows h
  | updateExecutionState id environmentID => exact hrows h
  | getActiveByTriggerEvent environmentID triggerEvent => exact fun _ => beq_of_eq h
  | getStepExecution executionID stepID => exact hplaced h
  | createStepExecution arg => exact hplaced h
  | updateStepExecutionState arg => exact hplaced h
  | _ => exact beq_of_eq h

/-- A call within another environment is outside of it. -/
theorem Op.Within.outside {op : Op} (h : op.Within f w) (hne : f ≠ e) :
    op.Outside (tenantPart e) w := by
  have hplaced : ∀ {y}, w.Placed y f → w.holds (tenantPart e) y = false := by
    intro y hy
    rw [holds_tenantPart hy, beq_of_ne hne]
  have hjob : ∀ {job}, jobEnvironment job = some f → (tenantPart e).job job = false := by
    intro job hj
    refine beq_of_ne ?_
    rw [hj]
    exact fun heq => hne (Option.some.inj heq)
  cases op with
  | updateExecutionState id environmentID =>
      intro row _ hrow
      refine beq_of_ne ?_
      rw [hrow, show environmentID = f from h]
      exact hne
  | createStepExecution arg => exact hplaced h
  | updateStepExecutionState arg => exact hplaced h
  | createExecution arg =>
      refine fun _ => beq_of_ne ?_
      rw [show arg.environmentID = f from h]
      exact hne
  | enqueue job =>
      refine beq_of_ne ?_
      rw [show job.projectID = f.toString from h]
      exact fun heq => hne (UUID.toString_injective heq)
  | enqueueWorkflowStep job => exact hjob h
  | enqueueWorkflowStepIn job delay => exact hjob h
  | _ => exact True.intro

end Within

/-! ### Activities stay within their environment -/

/-- The calls for an execution that was found in an environment. -/
def Op.About (x e : UUID) : Op → Prop
  | now | newUUID => True
  | getSubscriberByID _ environmentID => environmentID = e
  | getTemplateByID _ environmentID => environmentID = e
  | updateExecutionState id environmentID _ _ _ _ => id = x ∧ environmentID = e
  | getStepExecution executionID _ => executionID = x
  | createStepExecution arg => arg.executionID = x
  | updateStepExecutionState arg => arg.executionID = x
  | enqueue job => job.projectID = e.toString
  | enqueueWorkflowStep job => jobEnvironment job = some e
  | enqueueWorkflowStepIn job _ => jobEnvironment job = some e
  | _ => False

/-- A call about an execution of the environment stays in it. -/
theorem Op.About.within {op : Op} (h : op.About x e) (hx : w.Placed x e) :
    op.Within e w := by
  cases op with
  | getStepExecution executionID stepID =>
      obtain rfl : executionID = x := h
      exact hx
  | createStepExecution arg =>
      obtain rfl : arg.executionID = x := h
      exact hx
  | updateStepExecutionState arg =>
      obtain rfl : arg.executionID = x := h
      exact hx
  | updateExecutionState => exact h.2
  | now | newUUID => exact True.intro
  | getExecutionByID | getByID | getActiveByTriggerEvent | createExecution => exact h.elim
  | _ => exact h

/-- A call of a step is about its execution. -/
theorem about_of_ofStep {execution : WorkflowExecution} {op : Op} (h : op.OfStep execution) :
    op.About execution.id execution.environmentID := by
  cases op with
  | enqueueWorkflowStep job =>
      obtain ⟨stepID, rfl⟩ := h
      exact jobEnvironment_stepJob execution stepID
  | enqueueWorkflowStepIn job delay =>
      obtain ⟨stepID, rfl⟩ := h
      exact jobEnvironment_stepJob execution stepID
  | now | newUUID => exact True.intro
  | getExecutionByID | getByID | getActiveByTriggerEvent | createExecution
  | createStepExecution | getStepExecution => exact h.elim
  | _ => exact h

section Programs

variable {ref : StepRef} {execution : WorkflowExecution}

theorem about_openStep (node : Node) :
    Calls (Op.About execution.id e) (openStep execution node) := by
  refine (calls_perform True.intro).bind fun nowTs => ?_
  refine (calls_ask (show Op.About execution.id e (.getStepExecution ..) from rfl)).bind
    fun r => ?_
  split
  · refine (calls_perform True.intro).bind fun id => ?_
    exact calls_perform (show Op.About execution.id e (.createStepExecution _) from rfl)
  · exact True.intro
  · exact calls_perform (show Op.About execution.id e (.updateStepExecutionState _) from rfl)

/-- The calls of a located step are about its execution. -/
theorem about_handleLocated (henv : execution.environmentID = ref.environmentID)
    (found : Except GoError (Definition × Node)) :
    Calls (Op.About execution.id ref.environmentID) (handleLocated s ref execution found) := by
  rcases found with err | ⟨definition, node⟩
  · exact True.intro
  · refine (about_openStep node).bind fun row => ?_
    refine (calls_perform (show Op.About execution.id ref.environmentID
      (.updateExecutionState ..) from ⟨rfl, rfl⟩)).bind fun _ => ?_
    rw [← henv]
    exact calls_handleStep.mono fun op => about_of_ofStep

/-- The calls of a handling: it reads the execution and the workflow in the environment of
its job, and goes on with the execution if it was found there. -/
def HandlingCall (ref : StepRef) (tr : List (Answered Op.Res GoError)) (op : Op) : Prop :=
  op = .getExecutionByID ref.executionID ref.environmentID ∨
  op = .getByID ref.workflowID ref.environmentID ∨
  ∃ execution : WorkflowExecution,
    ⟨.getExecutionByID ref.executionID ref.environmentID, .ok execution⟩ ∈ tr ∧
    (execution.environmentID = ref.environmentID → op.About execution.id ref.environmentID)

/-- A handling looks its execution up before it writes anything. -/
theorem guarded_processStep {job : WorkflowStepJob} (hread : readJob job = some ref) :
    (processStep s job).Guarded (HandlingCall ref) [] := by
  rw [processStep_of_readJob s hread]
  refine Guarded.perform_bind (Or.inl rfl) fun execution => ?_
  refine Guarded.perform_bind (Or.inr (Or.inl rfl)) fun workflow => ?_
  have hcalls : Calls (fun op => execution.environmentID = ref.environmentID →
      op.About execution.id ref.environmentID)
      (handleLocated s ref execution (locate workflow ref.stepID)) := by
    by_cases henv : execution.environmentID = ref.environmentID
    · exact (about_handleLocated henv _).mono fun _ h _ => h
    · exact (calls_true _).mono fun _ _ h => (henv h).elim
  refine .of_calls_from hcalls fun tr' op hop => Or.inr (Or.inr ⟨execution, ?_, hop⟩)
  simp

/-- The calls of a trigger. -/
def Op.OfTrigger (e : UUID) (op : Op) : Prop := ∀ w, op.Within e w

/-- The calls of a trigger are about its own environment. -/
theorem within_startExecutions (subscriber : Option UUID) (payload : Json)
    (workflows : List Db.Workflow) :
    Calls (Op.OfTrigger e) (startExecutions s e subscriber payload workflows) := by
  induction workflows with
  | nil => exact True.intro
  | cons workflow rest ih =>
      rw [startExecutions]
      split
      · exact True.intro
      refine (calls_perform fun _ => True.intro).bind fun id => ?_
      refine (calls_perform (fun _ => rfl)).bind fun execution => ?_
      have hrest : Calls (Op.OfTrigger e) (startExecutions s e subscriber payload rest >>=
          fun executions => ret (execution :: executions)) := ih.bind fun executions => True.intro
      split
      · split
        · refine (calls_perform fun _ => ?_).bind fun _ => hrest
          exact UUID.parse_trimSpace_toString e
        · exact hrest
      · exact hrest

theorem within_triggerEvent (input : TriggerEventInput) :
    Calls (Op.OfTrigger e) (Activity.body s (.trigger e input)) := by
  refine Calls.bind ?_ fun executions => True.intro
  rw [triggerEvent]
  split
  · exact True.intro
  split
  · exact True.intro
  · refine (calls_perform (fun _ => rfl)).bind fun workflows => ?_
    exact within_startExecutions _ _ workflows

end Programs

/-! ### The engine keeps environments apart -/

/-- What is known of a pool: the foreign key holds, executions that were found stay in
their environment, and every activity has got as far as its log says. -/
structure Scoped (s : Service) (p : EnginePool) : Prop where
  steps : p.world.StepsOwned
  found : ∀ i t id environmentID (execution : WorkflowExecution), p.threads i = some t →
    ⟨.getExecutionByID id environmentID, .ok execution⟩ ∈ t.log →
    execution.environmentID = environmentID ∧
      p.world.Placed execution.id environmentID
  after : ∀ i t, p.threads i = some t → Prog.After ((engine s).body t.label) t.log t.prog

theorem scoped_idle (h : w.Fresh) : Scoped s (idle w) where
  steps k row hk := by
    rw [show (idle w).world = w from rfl, h.steps] at hk
    cases hk
  found i t id environmentID execution ht := by cases ht
  after i t ht := by cases ht

section Pools

variable {p p' : EnginePool} {i : ℕ}

/-- A job that cannot be read is given up without a call. -/
theorem not_after_unread {t : Task} (hread : readJob t.job = none)
    {tr : List (Answered Op.Res GoError)} {op : Op} {k : Except GoError op.Res → Act Unit} :
    ¬ Prog.After ((engine s).body (.step t)) tr (.call op k) := by
  have hbody : processStep s t.job = fail .invalidWorkflowEvent := by
    rw [processStep, hread]
  intro h
  rw [engine_body, Activity.body, hbody] at h
  have hfail := h.fail_inv
  cases hfail

theorem handlingCall_of_after {t : Task} {ref : StepRef} (hread : readJob t.job = some ref)
    {tr : List (Answered Op.Res GoError)} {op : Op} {k : Except GoError op.Res → Act Unit}
    (h : Prog.After ((engine s).body (.step t)) tr (.call op k)) : HandlingCall ref tr op := by
  have hguarded := guarded_processStep (s := s) hread
  rw [engine_body, Activity.body] at h
  generalize processStep s t.job = body at h hguarded
  exact hguarded.next h

theorem triggerCall_of_after {environmentID : UUID} {input : TriggerEventInput}
    {tr : List (Answered Op.Res GoError)} {op : Op} {k : Except GoError op.Res → Act Unit}
    (h : Prog.After ((engine s).body (.trigger environmentID input)) tr (.call op k)) :
    Op.OfTrigger environmentID op := by
  have hcalls := within_triggerEvent (s := s) (e := environmentID) input
  rw [engine_body] at h
  generalize Activity.body s (.trigger environmentID input) = body at h hcalls
  exact (hcalls.after h).1

/-- **Every call of an activity is within its environment.** -/
theorem within_of_thread (h : Scoped s p) {l : Activity} {tr : List (Answered Op.Res GoError)}
    {op : Op} {k : Except GoError op.Res → Act Unit}
    (ht : p.threads i = some ⟨l, tr, .call op k⟩) :
    ∃ f, l.environment = some f ∧ op.Within f p.world := by
  have hafter := h.after i _ ht
  cases l with
  | step t =>
      rcases hread : readJob t.job with - | ref
      · exact (not_after_unread hread hafter).elim
      · refine ⟨ref.environmentID, (readJob_eq_some.mp hread).1, ?_⟩
        rcases handlingCall_of_after hread hafter with rfl | rfl | ⟨execution, hmem, habout⟩
        · exact rfl
        · exact rfl
        · obtain ⟨henv, hx⟩ := h.found i _ _ _ _ ht hmem
          exact (habout henv).within hx
  | trigger environmentID input =>
      exact ⟨environmentID, rfl, triggerCall_of_after hafter p.world⟩
/-- Executions stay in their environment. -/
theorem placed_of_call {op : Op} {r : Except GoError op.Res} (h : Call op w r w')
    (hx : w.Placed x e) : w'.Placed x e := by
  obtain ⟨row, hget, rfl⟩ := hx
  obtain ⟨row', hget', -, henv⟩ := kept_of_call h x row hget
  exact ⟨row', hget', henv⟩

/-- Nothing is written, and no log gets longer. -/
theorem Scoped.frame (h : Scoped s p)
    (hframe : p'.world.executions = p.world.executions ∧ p'.world.steps = p.world.steps)
    (hlogs : ∀ j t, p'.threads j = some t → t.log = [] ∨ p.threads j = some t)
    (hafter : ∀ i t, p'.threads i = some t →
      Prog.After ((engine s).body t.label) t.log t.prog) : Scoped s p' := by
  obtain ⟨hexecutions, hsteps⟩ := hframe
  refine ⟨fun k row hk => ?_, fun j t id environmentID execution hj hmem => ?_, hafter⟩
  · rw [hsteps] at hk
    rw [hexecutions]
    exact h.steps k row hk
  · rcases hlogs j t hj with hnil | hold
    · rw [hnil] at hmem
      cases hmem
    · rw [World.Placed, hexecutions]
      exact h.found j t id environmentID execution hold hmem

/-- What is known of a pool is kept. -/
theorem Scoped.step (h : Scoped s p) {ev : EngineEvent} (hs : Step (engine s) p ev p') :
    Scoped s p' := by
  have hafter : ∀ i t, p'.threads i = some t →
      Prog.After ((engine s).body t.label) t.log t.prog :=
    (Run.single (C := fun _ _ => True) True.intro hs).after h.after
  have hframe := frame_of_step hs
  cases hs with
  | @call w w' ts i l tr op k r hts hcall =>
      obtain ⟨g, -, hop⟩ := within_of_thread h hts
      refine ⟨stepsOwned_of_call hcall hop.owned h.steps, ?_, hafter⟩
      intro j t id environmentID execution hj hmem
      rcases update_some_eq_some hj with ⟨rfl, rfl⟩ | ⟨-, hold⟩
      · rcases List.mem_append.mp hmem with hmem | hmem
        · obtain ⟨henv, hx⟩ := h.found _ _ id environmentID execution hts hmem
          exact ⟨henv, placed_of_call hcall hx⟩
        · -- the execution has just been found
          cases List.mem_singleton.mp hmem
          obtain ⟨hget, henv⟩ := call_getExecutionByID hcall
          rw [call_reads hcall True.intro]
          refine ⟨henv, execution, ?_, henv⟩
          rw [w.executions.keyed hget]
          exact hget
      · obtain ⟨henv, hx⟩ := h.found j t id environmentID execution hold hmem
        exact ⟨henv, placed_of_call hcall hx⟩
  | start =>
      refine h.frame (hframe fun _ _ heq => by cases heq) (fun j t hj => ?_) hafter
      rcases update_some_eq_some hj with ⟨-, rfl⟩ | ⟨-, hold⟩
      · exact Or.inl rfl
      · exact Or.inr hold
  | finish =>
      exact h.frame (hframe fun _ _ heq => by cases heq)
        (fun j t hj => Or.inr (update_none_eq_some hj).2) hafter
  | lose =>
      exact h.frame (hframe fun _ _ heq => by cases heq)
        (fun j t hj => Or.inr (update_none_eq_some hj).2) hafter
  | env =>
      exact h.frame (hframe fun _ _ heq => by cases heq) (fun j t hj => Or.inr hj) hafter

end Pools

/-! ### Runs -/

/-- **The engine keeps environments apart.** -/
theorem engine_shows_tenant (s : Service) (e : UUID) :
    (engine s).Shows (tenantSight e) (Scoped s) := by
  refine engine_shows s (tenantPart e) (fun h hs => h.step hs) (fun p h => h.steps) ?_
  intro p i l tr op k h ht
  obtain ⟨g, hg, hop⟩ := within_of_thread h ht
  rw [works_tenantPart, hg]
  refine ⟨fun hseen => ?_, fun hhidden => ?_⟩
  · obtain rfl : g = e := Option.some.inj (beq_iff_eq.mp hseen)
    exact hop.inside
  · exact hop.outside fun heq => beq_eq_false_iff_ne.mp hhidden (congrArg some heq)

/-- **What an environment sees of a run is a run in which it is alone.**  The events are its
own ones, in their order, on its own rows, jobs and notifications: what is there of other
environments, and what they do, does not matter. -/
theorem runs_alone {C : EnginePool → EngineEvent → Prop} {evs : List EngineEvent}
    {w₀ : World} {p : EnginePool} (e : UUID) (hfresh : w₀.Fresh)
    (h : Run (engine s) C (idle w₀) evs p) :
    ∃ evs', evs'.Sublist (evs.map (tenantSight e).event) ∧
      Run (engine s) (fun _ _ => True) (idle (w₀.tenant e)) evs' ((tenantSight e).pool p) :=
  (h.seen (engine_shows_tenant s e) (fun _ _ _ _ => True.intro) (scoped_idle hfresh)).2

/-! ### Two environments -/

namespace Sample

/-- Another environment. -/
def neighbourID : UUID := .ofDigit 9

/-- Its subscriber. -/
def neighbour : Subscriber :=
  { subscriber with id := .ofDigit 10, environmentID := neighbourID }

/-- Its template. -/
def neighbourTemplate : Template :=
  { template with id := .ofDigit 11, environmentID := neighbourID }

/-- Its workflow: one notification as well. -/
def neighbourWorkflow : Db.Workflow :=
  { workflow { single with nodes := [{ notify "letter" with
      config := some (.obj [("template_id", .str neighbourTemplate.id.toString),
        ("channels", .arr [.str "email"])]) }] } with
    id := .ofDigit 12
    environmentID := neighbourID }

/-- Two environments with a workflow for the same event. -/
def shared : World :=
  { world single with
    workflows := [workflow single, neighbourWorkflow]
    subscribers := (world single).subscribers.set neighbour
    templates := (world single).templates.set neighbourTemplate }

theorem fresh_shared : shared.Fresh := ⟨fun _ => rfl, fun _ => rfl, rfl, rfl⟩

/-- The event is triggered in both environments, and then both jobs are handled, the job of the
neighbour first. -/
def together : List Action := [
  .trigger environmentID event,
  .triggerAs (.ofDigit 8) neighbourID { event with subscriberID := neighbour.id.toString },
  .handle 1,
  .handle 0]

end Sample

/-- Both environments send their notification, and the first sees nothing of the second. -/
theorem runs_alone_together : ∃ evs,
    Run (engine Sample.service) (fun _ _ => True) (idle Sample.shared) evs
      (idle (Sample.shared.acts Sample.service Sample.together)) ∧
    (Sample.shared.acts Sample.service Sample.together).notifications.map (·.projectID) =
      [Sample.neighbourID.toString, Sample.environmentID.toString] ∧
    ∃ evs', evs'.Sublist (evs.map (tenantSight Sample.environmentID).event) ∧
      Run (engine Sample.service) (fun _ _ => True)
        (idle (Sample.shared.tenant Sample.environmentID)) evs'
        ((tenantSight Sample.environmentID).pool
          (idle (Sample.shared.acts Sample.service Sample.together))) := by
  obtain ⟨evs, h⟩ := run_acts (s := Sample.service) (C := fun _ _ => True)
    (fun _ _ _ => True.intro) (fun _ _ => True.intro) Sample.shared Sample.together
    fun _ _ _ => True.intro
  exact ⟨evs, h, by decide +kernel, runs_alone Sample.environmentID Sample.fresh_shared h⟩

end Iwifunni.Workflow
