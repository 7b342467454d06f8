/-
Iwifunni/Workflow/Apart.lean

What one execution sees of the engine, while others are served as well.

To an execution belong its row, its step rows, its jobs and its notifications; besides it
reads its workflow and the subscribers and templates of its environment:

    all      step (x)   trigger   step (y)   step (x)   step (y)   ...
    of x     step (x)                        step (x)              ...

The protocol of the handlings says for which execution a call is made (`Op.Names`), and the
jobs say of which workflow and environment it is (`Ownership`).  A trigger is not seen: it
may do anything but put the first step of `x` into the queue, which it has done before.
-/
import Iwifunni.Workflow.Locality
import Iwifunni.Workflow.Lookup
import Iwifunni.Workflow.Tenants

namespace Iwifunni.Workflow

open Go Db Effect Effect.Prog

variable {s : Service} {w w' : World} {e u x y : UUID} {ref : StepRef}

/-! ### What belongs to an execution -/

/-- The rows, jobs and notifications of an execution, and what it reads: the workflow `u`
and the directory of the environment `e`. -/
def executionPart (x u e : UUID) : Part where
  workflow id environmentID := id == u && environmentID == e
  directory environmentID := environmentID == e
  execution id _ := id == x
  job job := jobExecution job == some x
  notification job := (notificationStep job).1 == some x.toString
  trigger _ := false

theorem has_executionPart {row : WorkflowExecution} (h : w.executions.get y = some row) :
    (executionPart x u e).has row = (y == x) := by
  show (row.id == x) = _
  rw [w.executions.keyed h]

theorem holds_executionPart {row : WorkflowExecution} (h : w.executions.get y = some row) :
    w.holds (executionPart x u e) y = (y == x) := by
  show (w.executions.get y).any _ = _
  rw [h, Option.any_some, has_executionPart h]

theorem holds_executionPart_of_ne (hy : y ≠ x) :
    w.holds (executionPart x u e) y = false := by
  rcases hrow : w.executions.get y with - | row
  · show (w.executions.get y).any _ = _
    rw [hrow]
    rfl
  · rw [holds_executionPart hrow, beq_of_ne hy]

/-! ### For which execution a call is made -/

/-- The call is one that the handling of `ref` makes. -/
def Op.Names (ref : StepRef) : Op → Prop
  | getExecutionByID id environmentID => id = ref.executionID ∧ environmentID = ref.environmentID
  | getByID id environmentID => id = ref.workflowID ∧ environmentID = ref.environmentID
  | getStepExecution executionID _ => executionID = ref.executionID
  | createStepExecution arg => arg.executionID = ref.executionID
  | updateStepExecutionState arg => arg.executionID = ref.executionID
  | updateExecutionState id _ _ _ _ _ => id = ref.executionID
  | enqueue job => notificationStep job = (some ref.executionID.toString, some ref.stepID)
  | enqueueWorkflowStep job => jobExecution job = some ref.executionID
  | enqueueWorkflowStepIn job _ => jobExecution job = some ref.executionID
  | getActiveByTriggerEvent _ _ => False
  | createExecution _ => False
  | _ => True

/-- What the protocol allows to a handling. -/
theorem names_of_stepNext {p p' : Phase} {op : Op} {r : Except GoError op.Res}
    (h : stepNext ref p ⟨op, r⟩ = some p') : op.Names ref := by
  cases op with
  | now | newUUID | getSubscriberByID | getTemplateByID => exact True.intro
  | getActiveByTriggerEvent | createExecution =>
      cases p <;> simp only [stepNext, reduceCtorEq] at h
  | getExecutionByID | getByID =>
      cases p <;> simp only [stepNext, reduceCtorEq] at h
      split_ifs at h with hx
      exact hx
  | getStepExecution | createStepExecution =>
      cases p <;> simp only [stepNext, reduceCtorEq] at h
      split_ifs at h with hx
      exact hx.1
  | enqueue =>
      cases p <;> simp only [stepNext, reduceCtorEq] at h
      split_ifs at h with hx
      exact hx.2.2
  | enqueueWorkflowStep | enqueueWorkflowStepIn =>
      cases p <;> simp only [stepNext, reduceCtorEq] at h
      split_ifs at h with hx
      exact StepRef.Owns.jobExecution_eq hx
  | updateStepExecutionState | updateExecutionState =>
      cases p <;> simp only [stepNext, reduceCtorEq] at h
      all_goals exact (Option.ite_none_right_eq_some.mp h).1.1

/-- The calls of a trigger; what it enqueues is the first step of the execution it owes. -/
def Op.Begins (p : Phase) : Op → Prop
  | newUUID | getActiveByTriggerEvent _ _ | createExecution _ => True
  | enqueueWorkflowStep job => ∃ y v n, p = .owing y v n ∧ jobExecution job = some y
  | _ => False

/-- What a trigger does begins executions, or goes on with one it began. -/
theorem begins_of_triggerNext {environmentID : UUID} {p p' : Phase} {op : Op}
    {r : Except GoError op.Res} (h : triggerNext s environmentID p ⟨op, r⟩ = some p') :
    op.Begins p := by
  cases op with
  | newUUID | getActiveByTriggerEvent | createExecution => exact True.intro
  | enqueueWorkflowStep job =>
      cases p <;> simp only [triggerNext, reduceCtorEq] at h
      split_ifs at h with hx
      refine ⟨_, _, _, rfl, ?_⟩
      rw [hx]
      exact UUID.parse_trimSpace_toString _
  | _ => cases p <;> simp only [triggerNext, reduceCtorEq] at h

/-- Every call has an answer the protocol reckons with. -/
theorem exists_expects (op : Op) : ∃ r : Except GoError op.Res, Expects ⟨op, r⟩ := by
  cases op with
  | now => exact ⟨.ok 0, True.intro⟩
  | newUUID => exact ⟨.ok (.ofDigit 0), True.intro⟩
  | _ => exact ⟨.error (.other ""), True.intro, rfl⟩

section Names

/-- A call for the execution is inside. -/
theorem inside_of_names {op : Op} (h : op.Names ref) (hwithin : op.Within e w)
    (hx : ref.executionID = x) (hworkflow : ref.workflowID = u ∧ ref.environmentID = e)
    {row : WorkflowExecution} (hrow : w.executions.get x = some row) :
    op.Inside (executionPart x u e) w := by
  have hholds : ∀ {y}, y = ref.executionID → w.holds (executionPart x u e) y = true := by
    rintro y rfl
    rw [hx, holds_executionPart hrow, BEq.rfl]
  have hhas : ∀ {y}, y = ref.executionID → ∀ row, w.executions.get y = some row →
      (executionPart x u e).has row = true := by
    rintro y rfl row hget
    rw [has_executionPart hget]
    exact beq_of_eq hx
  have hjob : ∀ {job}, jobExecution job = some ref.executionID →
      (executionPart x u e).job job = true := by
    intro job hjob
    exact beq_of_eq (hjob.trans (congrArg some hx))
  cases op with
  | now | newUUID => exact True.intro
  | getExecutionByID id environmentID => exact fun row hget _ => hhas h.1 row hget
  | updateExecutionState id environmentID => exact fun row hget _ => hhas h row hget
  | getByID id environmentID =>
      exact Bool.and_eq_true_iff.mpr ⟨beq_of_eq (h.1.trans hworkflow.1),
        beq_of_eq (h.2.trans hworkflow.2)⟩
  | getSubscriberByID | getTemplateByID => exact beq_of_eq hwithin
  | getStepExecution executionID stepID => exact hholds h
  | createStepExecution arg => exact hholds h
  | updateStepExecutionState arg => exact hholds h
  | enqueue job =>
      refine beq_of_eq ?_
      rw [show notificationStep job = _ from h, hx]
  | enqueueWorkflowStep job => exact hjob h
  | enqueueWorkflowStepIn job delay => exact hjob h
  | getActiveByTriggerEvent | createExecution => exact h.elim

/-- A call for another execution is outside. -/
theorem outside_of_names {op : Op} (h : op.Names ref) (hx : ref.executionID ≠ x) :
    op.Outside (executionPart x u e) w := by
  have hholds : ∀ {y}, y = ref.executionID → w.holds (executionPart x u e) y = false := by
    rintro y rfl
    exact holds_executionPart_of_ne hx
  have hjob : ∀ {job}, jobExecution job = some ref.executionID →
      (executionPart x u e).job job = false := by
    intro job hjob
    refine beq_of_ne ?_
    rw [hjob]
    exact fun heq => hx (Option.some.inj heq)
  cases op with
  | updateExecutionState id environmentID =>
      intro row hget _
      rw [has_executionPart hget, show id = ref.executionID from h]
      exact beq_of_ne hx
  | createStepExecution arg => exact hholds h
  | updateStepExecutionState arg => exact hholds h
  | enqueue job =>
      refine beq_of_ne ?_
      rw [show notificationStep job = _ from h]
      exact fun heq => hx (UUID.toString_injective (Option.some.inj heq))
  | enqueueWorkflowStep job => exact hjob h
  | enqueueWorkflowStepIn job delay => exact hjob h
  | createExecution => exact h.elim
  | _ => exact True.intro

end Names

/-! ### Executions apart from each other -/

/-- A trigger has created the execution and not yet enqueued its first step. -/
def OwesAt (v : View World Activity Phase) (x : UUID) (i : ℕ) : Prop :=
  ∃ environmentID input u n, v.phases i = some (.trigger environmentID input, .owing x u n)

/-- What is known of a pool: the execution is there, of a workflow and an environment, jobs
are those of their executions, and every activity has got as far as its log says. -/
structure Known (s : Service) (x u e : UUID) (p : EnginePool) : Prop where
  reads : Scoped s p
  kept : (handling s).Kept p
  owned : Ownership ((handling s).view p)
  there : ∃ row, p.world.executions.get x = some row ∧ row.workflowID = u ∧ row.environmentID = e

/-- Besides, no trigger is about to enqueue the first step of the execution. -/
structure Apart (s : Service) (x u e : UUID) (p : EnginePool) : Prop extends Known s x u e p where
  owed : ∀ i, ¬ OwesAt ((handling s).view p) x i

section Known

variable {p p' : EnginePool} {i : ℕ} {l : Activity} {tr : List (Answered Op.Res GoError)}
  {op : Op} {k : Except GoError op.Res → Act Unit}

/-- The protocol allows the call an activity is about to make. -/
theorem next_of_kept (h : (handling s).Kept p) (ht : p.threads i = some ⟨l, tr, .call op k⟩) :
    ∃ (σ σ' : Phase) (r : Except GoError op.Res),
      ((handling s).view p).phases i = some (l, σ) ∧
      (handling s).next l σ ⟨op, r⟩ = some σ' := by
  obtain ⟨σ, htrack, hkeeps⟩ := h i _ ht
  obtain ⟨r, hr⟩ := exists_expects op
  obtain ⟨σ', hnext, -⟩ := Prog.keeps_call.mp hkeeps r hr
  exact ⟨σ, σ', r, Protocol.view_phases_of_thread ht htrack, hnext⟩

/-- The handling of a job of the execution makes calls inside. -/
theorem Known.inside (h : Known s x u e p) (ht : p.threads i = some ⟨l, tr, .call op k⟩)
    (hl : (executionPart x u e).works l = true) : op.Inside (executionPart x u e) p.world := by
  obtain ⟨σ, σ', r, hphase, hnext⟩ := next_of_kept h.kept ht
  obtain ⟨row, hrow, hworkflow, henvironment⟩ := h.there
  cases l with
  | step t =>
      obtain ⟨ref, hread, hstep⟩ := stepNext_of_next hnext
      have hx : ref.executionID = x := by
        have hjob := (jobExecution_of_readJob hread).symm.trans (beq_iff_eq.mp hl)
        exact Option.some.inj hjob
      obtain ⟨row', hrow', hworkflow', henvironment'⟩ :=
        (h.owned.threads i t σ hphase).of_readJob hread
      rw [hx, show ((handling s).view p).world = p.world from rfl, hrow] at hrow'
      cases hrow'
      obtain ⟨f, hf, hwithin⟩ := within_of_thread h.reads ht
      have hfe : f = e := by
        have href : some f = some ref.environmentID := hf.symm.trans (readJob_eq_some.mp hread).1
        rw [Option.some.inj href, henvironment', henvironment]
      rw [hfe] at hwithin
      exact inside_of_names (names_of_stepNext hstep) hwithin hx
        ⟨hworkflow'.trans hworkflow, henvironment'.trans henvironment⟩ hrow
  | trigger environmentID input => cases hl

/-- What belongs to the execution answers like the world does. -/
theorem Known.answer (h : Known s x u e p) (ht : p.threads i = some ⟨l, tr, .call op k⟩)
    (hl : (executionPart x u e).works l = true) :
    (World.answer op (p.world.part (executionPart x u e))).1 = (World.answer op p.world).1 := by
  rcases answer_inside (h.inside ht hl) h.reads.steps with heq | ⟨text, -, -, arg, rfl⟩
  · rw [heq]
  · -- a handling creates no execution
    obtain ⟨σ, σ', r, -, hnext⟩ := next_of_kept h.kept ht
    cases l with
    | step t =>
        obtain ⟨ref, -, hstep⟩ := stepNext_of_next hnext
        exact (names_of_stepNext hstep).elim
    | trigger environmentID input => cases hl

/-- Any other activity makes calls outside, unless it owes the execution its first step. -/
theorem Known.outside (h : Known s x u e p) (ht : p.threads i = some ⟨l, tr, .call op k⟩)
    (hl : (executionPart x u e).works l = false) (howed : ¬ OwesAt ((handling s).view p) x i) :
    op.Outside (executionPart x u e) p.world := by
  obtain ⟨σ, σ', r, hphase, hnext⟩ := next_of_kept h.kept ht
  obtain ⟨row, hrow, -, -⟩ := h.there
  cases l with
  | step t =>
      obtain ⟨ref, hread, hstep⟩ := stepNext_of_next hnext
      refine outside_of_names (names_of_stepNext hstep) ?_
      rintro rfl
      exact beq_eq_false_iff_ne.mp hl (jobExecution_of_readJob hread)
  | trigger environmentID input =>
      have hbegins := begins_of_triggerNext hnext
      cases op with
      | newUUID | getActiveByTriggerEvent => exact True.intro
      | createExecution arg =>
          -- the id of the execution is taken
          intro hnew
          refine beq_of_ne ?_
          rintro rfl
          rw [hrow] at hnew
          cases hnew
      | enqueueWorkflowStep job =>
          obtain ⟨y, v, n, rfl, hjob⟩ := hbegins
          refine beq_of_ne ?_
          rw [hjob]
          rintro ⟨⟩
          exact howed ⟨environmentID, input, v, n, hphase⟩
      | _ => exact hbegins.elim

/-- An execution that is there is not owed later than before. -/
theorem owing_of_step {v v' : View World Activity Phase} {ev : EngineEvent}
    (h : (handling s).ViewStep (engine s) v ev v') {row : WorkflowExecution}
    (hrow : v.world.executions.get x = some row) {j : ℕ} {environmentID y : UUID}
    {input : TriggerEventInput} {n : String}
    (hj : v'.phases j = some (.trigger environmentID input, .owing x y n)) :
    v.phases j = some (.trigger environmentID input, .owing x y n) := by
  cases h with
  | start hnone hspawn =>
      rcases update_some_eq_some hj with ⟨-, heq⟩ | ⟨-, hold⟩
      · cases heq
      · exact hold
  | @call w w' ph i l σ σ' op r hi hnext hcall =>
      rcases update_some_eq_some hj with ⟨rfl, heq⟩ | ⟨-, hold⟩
      · cases heq
        rcases (triggerMove_of_call hnext hcall).owing rfl with ⟨rfl, -⟩ | ⟨row', hc, hid, -⟩
        · exact hi
        · obtain ⟨hnew, -, -⟩ := hc
          rw [hid, hrow] at hnew
          cases hnew
      · exact hold
  | finish | lose => exact (update_none_eq_some hj).2
  | env => exact hj

theorem Known.step (h : Known s x u e p) {ev : EngineEvent} (hs : Step (engine s) p ev p') :
    Known s x u e p' := by
  obtain ⟨hview, hkept⟩ := Protocol.view_step (keeps_engine s) h.kept hs (expected_handling hs)
  obtain ⟨row, hrow, hworkflow, henvironment⟩ := h.there
  obtain ⟨row', hrow', hworkflow', henvironment'⟩ := kept_of_step hs x row hrow
  exact ⟨h.reads.step hs, hkept, h.owned.step hview, row', hrow', hworkflow'.trans hworkflow,
    henvironment'.trans henvironment⟩

theorem Apart.step (h : Apart s x u e p) {ev : EngineEvent} (hs : Step (engine s) p ev p') :
    Apart s x u e p' := by
  obtain ⟨hview, -⟩ := Protocol.view_step (keeps_engine s) h.kept hs (expected_handling hs)
  obtain ⟨row, hrow, -, -⟩ := h.there
  refine ⟨h.toKnown.step hs, ?_⟩
  rintro i ⟨environmentID, input, y, n, hi⟩
  exact h.owed i ⟨environmentID, input, y, n, owing_of_step hview hrow hi⟩

end Known

/-! ### Runs -/

section Runs

variable {C C' : EnginePool → EngineEvent → Prop} {w₀ : World} {p p' : EnginePool}
  {evs₀ evs : List EngineEvent} {row : WorkflowExecution}

/-- What an execution sees of the engine. -/
def executionSight (row : WorkflowExecution) : Sight World Activity Change :=
  partSight (executionPart row.id row.workflowID row.environmentID)

theorem known_of_run (hfresh : w₀.Fresh) (h : Run (engine s) C (idle w₀) evs₀ p)
    (hrow : p.world.executions.get row.id = some row) :
    Known s row.id row.workflowID row.environmentID p := by
  obtain ⟨hkept, howned⟩ := ownership_of_run hfresh h
  refine ⟨?_, hkept, howned, row, hrow, rfl, rfl⟩
  exact h.invariant (I := fun _ p => Scoped s p) (fun _ _ _ _ hI _ hs => hI.step hs)
    (scoped_idle hfresh)

theorem engine_shows_execution (s : Service) (x u e : UUID) :
    (engine s).Shows (partSight (executionPart x u e)) (Apart s x u e) :=
  engine_shows s (executionPart x u e) (fun h hs => h.step hs) (fun _ h => h.reads.steps)
    fun _ _ _ _ _ _ h ht => ⟨fun hl => h.inside ht hl, fun hl => h.outside ht hl (h.owed _)⟩

/-- **What an execution sees of a run is a run in which it is alone.**  From any moment on
at which its first step has been enqueued, the handlings of its jobs do on its own rows,
jobs and notifications what they do while all other executions and triggers are served. -/
theorem runs_apart (hfresh : w₀.Fresh) (h₀ : Run (engine s) C (idle w₀) evs₀ p)
    (hrow : p.world.executions.get row.id = some row)
    (howed : ∀ i, ¬ OwesAt ((handling s).view p) row.id i) (h : Run (engine s) C' p evs p') :
    ∃ evs', evs'.Sublist (evs.map (executionSight row).event) ∧
      Run (engine s) (fun _ _ => True) ((executionSight row).pool p) evs'
        ((executionSight row).pool p') :=
  (h.seen (engine_shows_execution s row.id row.workflowID row.environmentID)
    (fun _ _ _ _ => True.intro) ⟨known_of_run hfresh h₀ hrow, howed⟩).2

/-- No trigger is in progress. -/
theorem not_owesAt_idle (w : World) (i : ℕ) : ¬ OwesAt ((handling s).view (idle w)) x i := by
  rintro ⟨environmentID, input, u, n, ⟨⟩⟩

/-- The event has been triggered twice. -/
def Sample.twice : World := (Sample.world Sample.single).acts Sample.service
  [.trigger Sample.environmentID Sample.event,
    .triggerAs (.ofDigit 8) Sample.environmentID Sample.event]

/-- The job of the second execution is handled, the event triggered once more, and then the
job of the first execution handled. -/
def Sample.interleaved : List Action :=
  [.handle 1, .triggerAs (.ofDigit 9) Sample.environmentID Sample.event, .handle 0]

/-- One of three executions is apart from the others. -/
theorem runs_apart_interleaved : ∃ (row : WorkflowExecution) (evs : List EngineEvent),
    Sample.twice.executions.get row.id = some row ∧ row.id = Sample.executionID ∧
    (Sample.twice.acts Sample.service Sample.interleaved).notifications.map notificationStep =
      [(some (UUID.ofDigit 8).toString, some "mail"),
        (some Sample.executionID.toString, some "mail")] ∧
    Run (engine Sample.service) (fun _ _ => True)
      ((executionSight row).pool (idle Sample.twice)) evs
      ((executionSight row).pool
        (idle (Sample.twice.acts Sample.service Sample.interleaved))) := by
  obtain ⟨evs₀, h₀⟩ := run_acts (s := Sample.service) (C := fun _ _ => True)
    (fun _ _ _ => True.intro) (fun _ _ => True.intro) (Sample.world Sample.single)
    [.trigger Sample.environmentID Sample.event,
      .triggerAs (.ofDigit 8) Sample.environmentID Sample.event] fun _ _ _ => True.intro
  obtain ⟨evs, h⟩ := run_acts (s := Sample.service) (C := fun _ _ => True)
    (fun _ _ _ => True.intro) (fun _ _ => True.intro) Sample.twice Sample.interleaved
    fun _ _ _ => True.intro
  have hsome : (Sample.twice.executions.get Sample.executionID).isSome = true := by
    decide +kernel
  obtain ⟨row, hget⟩ := Option.isSome_iff_exists.mp hsome
  have hid : row.id = Sample.executionID := Sample.twice.executions.keyed hget
  have hrow : Sample.twice.executions.get row.id = some row := by
    rw [hid]
    exact hget
  obtain ⟨evs', -, halone⟩ := runs_apart (Sample.fresh_world _) h₀ hrow (not_owesAt_idle _) h
  exact ⟨row, evs', hrow, hid, by decide +kernel, halone⟩

end Runs

end Iwifunni.Workflow
