/-
Iwifunni/Workflow/Course.lean

The course of an execution whose first step waits, whatever else the engine does.

    waiting n₁ --take up--> n₁ handled --end--> waiting n₂ --take up--> ...

What belongs to the execution waits at some point of the walk through its definition, or one
handling is on the way from there to the next point (`Stage`).  Other executions and
triggers, with all their faults, cannot be seen from there (`Apart`); its own handlings are
to be undisturbed (`Undisturbed`).  Under way a handling is known by what it still makes
sure of (`Ensures`), so its calls need not be followed one by one.
-/
import Iwifunni.Workflow.Apart
import Iwifunni.Workflow.Stranding
import Iwifunni.Workflow.Walk

namespace Iwifunni.Workflow

open Go Db Effect Effect.Prog

variable {s : Service} {supplies w w' : World} {base : WorkflowExecution} {d : Definition}
  {first : String} {before : List Node}

/-! ### Stages -/

/-- What can be seen of an execution that waits, or is being handled, when the nodes `before`
are done. -/
inductive Stage (s : Service) (supplies : World) (base : WorkflowExecution) (d : Definition)
    (first : String) (before : List Node) : EnginePool → Prop
  | resting {w : World} {σ : Walk} : σ.OnPath d base.triggerPayload first →
      before <+: σ.done → w.Shows supplies base (σ.books base) →
      Stage s supplies base d first before (idle w)
  | working {w : World} {σ σ' : Walk} {i : ℕ} {t : Task} {tr : List (Answered Op.Res GoError)}
      {prog : Act Unit} {stepID : String} {delay : Option Duration} :
      σ.OnPath d base.triggerPayload first → before <+: σ.done →
      σ.waiting = some (stepID, delay) → t.job = stepJob base stepID →
      σ'.OnPath d base.triggerPayload first → σ.Passes d σ' stepID →
      Ensures Served (Ends supplies base (σ'.books base)) prog w →
      Stage s supplies base d first before
        ⟨w, Function.update (fun _ => none) i (some ⟨.step t, tr, prog⟩)⟩

/-- The nodes that are done stay so. -/
theorem Walk.Passes.still_done {σ σ' : Walk} {stepID : String} (h : σ.Passes d σ' stepID)
    (hbefore : before <+: σ.done) : before <+: σ'.done := by
  obtain ⟨node, -, -, next, rfl⟩ := h
  exact hbefore.trans (List.prefix_append _ _)

/-- A job is taken up after the one before it has been handled, calls answer what is in the
tables and queues, and no handling is lost. -/
def Attended (q : EnginePool) : EngineEvent → Prop
  | .start _ l => (∃ t, l = .step t) ∧ q.threads = fun _ => none
  | .call _ a => a.1.Fallible → a.2 = (World.answer a.1 q.world).1
  | .finish _ _ => True
  | .lose _ => False
  | .env _ => False

theorem body_step (s : Service) (t : Task) :
    (engine s).body (.step t) = processStep s t.job := by
  rw [engine_body, Activity.body]

/-- The jobs of an execution that waits. -/
theorem mem_books_queue {σ : Walk} {t : Task} (ht : t ∈ (σ.books base).queue) :
    ∃ stepID delay, σ.waiting = some (stepID, delay) ∧
      t = { job := stepJob base stepID, delay := delay } := by
  obtain ⟨⟨stepID, delay⟩, hwaiting, rfl⟩ := Option.map_eq_some_iff.mp (Option.mem_toList.mp ht)
  exact ⟨stepID, delay, hwaiting, rfl⟩

/-- **One step**: an execution that waits is taken up, and a handling goes on or ends where
the next step waits. -/
theorem Stage.step (hwalk : Walkable s supplies base d first) {q q' : EnginePool}
    {ev : EngineEvent} (h : Stage s supplies base d first before q) (hC : Attended q ev)
    (hs : Step (engine s) q ev q') : Stage s supplies base d first before q' := by
  cases h with
  | @resting w σ hσ hbefore hshows =>
      cases hs with
      | @start _ w' _ i l hts hspawn =>
          obtain ⟨⟨t, rfl⟩, -⟩ := hC
          obtain ⟨hmem, rfl⟩ := hspawn
          rw [hshows.queue] at hmem
          obtain ⟨stepID, delay, hwaiting, ht⟩ := mem_books_queue hmem
          -- it is the only job there is
          have hqueue : w.queue = [t] := by
            rw [hshows.queue, Walk.books, hwaiting, ht]
            rfl
          have htaken : World.Shows { w with queue := w.queue.erase t } supplies base
              (σ.books base).takeUp := by
            refine ⟨hshows.row, hshows.steps, ?_, hshows.sent, hshows.workflows,
              hshows.subscribers, hshows.templates⟩
            show w.queue.erase t = []
            rw [hqueue, List.erase_cons_head]
          have hjob : t.job = stepJob base stepID := congrArg Task.job ht
          obtain ⟨σ', hσ', hpasses, hensures⟩ := hwalk.pass hσ hwaiting htaken
          rw [← hjob, ← body_step] at hensures
          exact .working hσ hbefore hwaiting hjob hσ' hpasses hensures
      | call hts | finish hts | lose hts => cases hts
      | env => exact hC.elim
  | @working w σ σ' i t tr prog stepID delay hσ hbefore hwaiting hjob hσ' hpasses hensures =>
      cases hs with
      | start hts hspawn =>
          -- the next job is not taken up before this one is done
          have hfree : Function.update (fun _ => none) i
              (some (⟨.step t, tr, prog⟩ : Thread Activity Op.Res GoError Unit)) i = none :=
            congrFun hC.2 i
          rw [Function.update_self] at hfree
          cases hfree
      | @call _ w' _ j l tr op k r hts hcall =>
          rcases update_some_eq_some hts with ⟨rfl, heq⟩ | ⟨-, hnone⟩
          · cases heq
            rw [Function.update_idem]
            -- what the handling makes sure of, it still does after the call
            exact .working hσ hbefore hwaiting hjob hσ' hpasses
              (ensures_call.mp hensures _ _ (served_of_call hcall hC))
          · cases hnone
      | @finish _ w' _ j l tr out hts hclose =>
          rcases update_some_eq_some hts with ⟨rfl, heq⟩ | ⟨-, hnone⟩
          · cases heq
            -- at its end the books are those of the next point
            obtain ⟨rfl, hshows⟩ := ensures_ofExcept.mp hensures
            obtain rfl : w' = w := hclose
            rw [Function.update_idem, Function.update_eq_self]
            exact .resting hσ' (hpasses.still_done hbefore) hshows
          · cases hnone
      | lose => exact hC.elim
      | env => exact hC.elim

/-! ### Runs in which an execution is not disturbed -/

/-- The conditions on a run, as far as it concerns one execution: its jobs are not handled
at the same time, a handling of one is answered by what is in the tables and queues, and is
not lost, and its workflow and the directory of its environment are not edited.  Whatever
else happens is free. -/
def Undisturbed (base : WorkflowExecution) (p : EnginePool) : EngineEvent → Prop
  | .start _ l => (executionSight base).visible l = true →
      (executionSight base).threads p.threads = fun _ => none
  | .call i a => ∀ t, p.threads i = some t → (executionSight base).visible t.label = true →
      a.1.Fallible → a.2 = (World.answer a.1 p.world).1
  | .finish _ _ => True
  | .lose i => ∀ t, p.threads i = some t → (executionSight base).visible t.label = false
  | .env c => (executionSight base).world (c.apply p.world) = (executionSight base).world p.world

/-- Whose first step is not about to be enqueued. -/
abbrev ApartFrom (s : Service) (base : WorkflowExecution) (p : EnginePool) : Prop :=
  Apart s base.id base.workflowID base.environmentID p

/-- What is seen of an undisturbed step is attended to, or nothing is. -/
theorem attended_of_undisturbed {p p' : EnginePool} {ev : EngineEvent}
    (h : ApartFrom s base p) (hC : Undisturbed base p ev) (hs : Step (engine s) p ev p') :
    Attended ((executionSight base).pool p) ev ∧ Step (engine s) ((executionSight base).pool p)
        ev ((executionSight base).pool p') ∨
      (executionSight base).pool p' = (executionSight base).pool p := by
  rcases hs.seen (engine_shows_execution s base.id base.workflowID base.environmentID) h with
    ⟨hsees, hseen⟩ | hkept
  · cases ev with
    | start i l =>
        refine Or.inl ⟨⟨?_, hC hsees⟩, hseen⟩
        cases l with
        | step t => exact ⟨t, rfl⟩
        | trigger environmentID input => cases hsees
    | call i a =>
        refine Or.inl ⟨fun hf => ?_, hseen⟩
        obtain ⟨t, ht, hl⟩ := hsees
        have hr := hC t ht hl hf
        cases hs with
        | call hts hcall =>
            cases hts.symm.trans ht
            exact hr.trans (h.toKnown.answer hts hl).symm
    | finish i out => exact Or.inl ⟨True.intro, hseen⟩
    | lose i =>
        obtain ⟨t, ht, hl⟩ := hsees
        have hhidden := hC t ht
        rw [show (executionSight base).visible t.label = true from hl] at hhidden
        cases hhidden
    | env c =>
        -- nothing that can be seen is edited
        cases hs with
        | env henv =>
            refine Or.inr ?_
            rw [henv]
            exact congrArg (fun w => (⟨w, _⟩ : EnginePool)) hC
  · exact Or.inr hkept

/-- **One step of the engine** leaves the execution in its stage or takes it to another. -/
theorem Stage.step_of_undisturbed (hwalk : Walkable s supplies base d first)
    {p p' : EnginePool} {ev : EngineEvent} (hp : ApartFrom s base p)
    (h : Stage s supplies base d first before ((executionSight base).pool p))
    (hC : Undisturbed base p ev) (hs : Step (engine s) p ev p') :
    Stage s supplies base d first before ((executionSight base).pool p') := by
  rcases attended_of_undisturbed hp hC hs with ⟨hattended, hseen⟩ | hkept
  · exact h.step hwalk hattended hseen
  · rw [hkept]
    exact h

/-! ### Runs -/

section Course

variable {C : EnginePool → EngineEvent → Prop} {w₀ : World} {p p' : EnginePool}
  {evs₀ evs : List EngineEvent}

/-- What is known of an undisturbed execution after a run. -/
theorem stage_of_run (hwalk : Walkable s supplies base d first) (hp : ApartFrom s base p)
    (hstage : Stage s supplies base d first before ((executionSight base).pool p))
    (h : Run (engine s) (Undisturbed base) p evs p') :
    ApartFrom s base p' ∧
      Stage s supplies base d first before ((executionSight base).pool p') := by
  induction h with
  | nil => exact ⟨hp, hstage⟩
  | snoc _ hC hs ih =>
      obtain ⟨hapart, hstage⟩ := ih
      exact ⟨hapart.step hs, hstage.step_of_undisturbed hwalk hapart hC hs⟩

/-- No handling of the execution is in progress, and its books are those of the walk. -/
def Rests (supplies : World) (base : WorkflowExecution) (σ : Walk) (p : EnginePool) : Prop :=
  (∀ i t, p.threads i = some t → (executionSight base).visible t.label = false) ∧
    ((executionSight base).world p.world).Shows supplies base (σ.books base)

/-- One handling of the execution is in progress, that of the step the walk waits for. -/
def Works (base : WorkflowExecution) (σ : Walk) (p : EnginePool) : Prop :=
  ∃ i t stepID delay, σ.waiting = some (stepID, delay) ∧ t.job = stepJob base stepID ∧
    (∃ u, p.threads i = some u ∧ u.label = .step t) ∧
    ∀ j u, p.threads j = some u → (executionSight base).visible u.label = true →
      j = i ∧ u.label = .step t

/-- **Without a job it is completed**: at the end of its path, and its row says so. -/
theorem Rests.completed {σ : Walk} (h : Rests supplies base σ p)
    (hqueue : ∀ t ∈ p.world.queue, jobExecution t.job ≠ some base.id) :
    σ.waiting = none ∧
      ∃ row, p.world.executions.get base.id = some row ∧ row.status = .completed := by
  obtain ⟨-, hshows⟩ := h
  have hnil : ((executionSight base).world p.world).queue = [] := by
    refine List.filter_eq_nil_iff.mpr fun t ht hjob => ?_
    exact hqueue t ht (beq_iff_eq.mp hjob)
  have hwaiting : σ.waiting = none := by
    rw [hshows.queue] at hnil
    rcases hσ : σ.waiting with - | step
    · rfl
    · rw [Walk.books, hσ] at hnil
      cases hnil
  obtain ⟨currentStepID, completedAt, failedAt, hrow⟩ := hshows.row
  refine ⟨hwaiting, _, (Option.filter_eq_some_iff.mp hrow).1, ?_⟩
  show (if σ.waiting.isNone then Status.completed else .queued) = .completed
  rw [hwaiting]
  rfl

/-- What a stage says about the engine. -/
theorem Stage.rests_or_works
    (h : Stage s supplies base d first before ((executionSight base).pool p)) :
    ∃ σ : Walk, σ.OnPath d base.triggerPayload first ∧ before <+: σ.done ∧
      (Rests supplies base σ p ∨ Works base σ p) := by
  generalize hq : (executionSight base).pool p = q at h
  cases h with
  | @resting w σ hσ hbefore hshows =>
      -- what the execution sees is what there is of it in the pool
      have hworld : (executionSight base).world p.world = w := congrArg Pool.world hq
      have hthreads : (executionSight base).threads p.threads = fun _ => none :=
        congrArg Pool.threads hq
      refine ⟨σ, hσ, hbefore, Or.inl ⟨fun i t ht => ?_, ?_⟩⟩
      · rcases hl : (executionSight base).visible t.label with - | -
        · rfl
        · have hnone := congrFun hthreads i
          rw [Sight.threads_visible ht hl] at hnone
          cases hnone
      · rw [hworld]
        exact hshows
  | @working w σ σ' i t tr prog stepID delay hσ hbefore hwaiting hjob hσ' hpasses hensures =>
      have hthreads : (executionSight base).threads p.threads =
          Function.update (fun _ => none) i (some ⟨.step t, tr, prog⟩) :=
        congrArg Pool.threads hq
      refine ⟨σ, hσ, hbefore, Or.inr ⟨i, t, stepID, delay, hwaiting, hjob, ?_, ?_⟩⟩
      · have hseen := congrFun hthreads i
        rw [Function.update_self] at hseen
        exact ⟨_, (Option.filter_eq_some_iff.mp hseen).1, rfl⟩
      · -- another activity on it would be seen
        intro j u hu hl
        have hseen := congrFun hthreads j
        rw [Sight.threads_visible hu hl] at hseen
        rcases update_some_eq_some hseen.symm with ⟨rfl, rfl⟩ | ⟨-, hnone⟩
        · exact ⟨rfl, rfl⟩
        · cases hnone

/-- **An undisturbed execution follows its definition.**  From a moment on at which it waits
at some point of its walk, it is always at such a point, with all that is written about it
as the walk says, or the one step that waits there is being handled.  The walk only goes
on, and does no node twice. -/
theorem follows_path {σ₀ : Walk} (hfresh : w₀.Fresh) (h₀ : Run (engine s) C (idle w₀) evs₀ p)
    (hrow : p.world.executions.get base.id = some base)
    (howed : ∀ i, ¬ OwesAt ((handling s).view p) base.id i)
    (hwalk : Walkable s ((executionSight base).world p.world) base d first)
    (hσ₀ : σ₀.OnPath d base.triggerPayload first)
    (hrests : Rests ((executionSight base).world p.world) base σ₀ p)
    (h : Run (engine s) (Undisturbed base) p evs p') :
    ∃ σ : Walk, σ.OnPath d base.triggerPayload first ∧ σ₀.done <+: σ.done ∧
      (σ.done.map (·.id)).Nodup ∧
      (Rests ((executionSight base).world p.world) base σ p' ∨ Works base σ p') := by
  have hquiet : (executionSight base).threads p.threads = fun _ => none := by
    funext i
    rcases ht : p.threads i with - | t
    · exact Sight.threads_none ht
    · exact Sight.threads_hidden ht (hrests.1 i t ht)
  have hstage : Stage s ((executionSight base).world p.world) base d first σ₀.done
      ((executionSight base).pool p) := by
    show Stage _ _ _ _ _ _ ⟨(executionSight base).world p.world, _⟩
    rw [hquiet]
    exact .resting hσ₀ (List.prefix_refl _) hrests.2
  have hapart : ApartFrom s base p := ⟨known_of_run hfresh h₀ hrow, howed⟩
  obtain ⟨σ, hσ, hbefore, hend⟩ := (stage_of_run hwalk hapart hstage h).2.rests_or_works
  exact ⟨σ, hσ, hbefore, hσ.nodup hwalk.accepted, hend⟩

/-- The execution of the sample, as its trigger has created it. -/
def Sample.triggeredRow : WorkflowExecution where
  id := Sample.executionID
  workflowID := Sample.workflowID
  environmentID := Sample.environmentID
  subscriberID := some Sample.subscriberID
  status := .queued
  currentStepID := some "root"
  triggerPayload := some (triggerPayload "user.signup" Sample.subscriberID.toString none)

/-- The sample execution can walk through its definition. -/
theorem walkable_twoSteps : Walkable Sample.service
    ((executionSight Sample.triggeredRow).world triggered) Sample.triggeredRow twoSteps "root" where
  producer := rfl
  stored := ⟨Sample.workflow twoSteps, rfl, parseDefinition_marshalDefinition twoSteps⟩
  accepted := accepted_of_validateDefinition (by rfl)
  path := {
    node := by decide +kernel
    edge := by decide +kernel
    unlabelled := by
      rintro node - - edge hedge -
      rw [List.mem_singleton.mp hedge]
      decide +kernel
    single := fun node _ => List.length_filter_le _ _ }
  first := ⟨Sample.start "root", List.mem_cons_self, rfl⟩
  payload := ⟨_, rfl⟩
  notifications := by
    intro node hnode hty
    rcases List.mem_cons.mp hnode with rfl | hnode
    · cases hty
    · rw [List.mem_singleton.mp hnode]
      exact ⟨Sample.subscriberID, "email", Sample.templateID, Sample.subscriber, Sample.template,
        _, _, rfl, rfl, rfl, rfl, rfl⟩

/-- The first of two steps is taken up and handled, and then the second one waits. -/
theorem follows_path_twoSteps : ∃ (evs : List EngineEvent) (σ : Walk),
    Run (engine Sample.service) (Undisturbed Sample.triggeredRow) (idle triggered) evs
        (idle (triggered.handle Sample.service { job := Sample.job "root" })) ∧
      σ.OnPath twoSteps Sample.triggeredRow.triggerPayload "root" ∧
      σ.waiting = some ("mail", none) ∧
      Rests ((executionSight Sample.triggeredRow).world triggered) Sample.triggeredRow σ
        (idle (triggered.handle Sample.service { job := Sample.job "root" })) := by
  obtain ⟨evs₀, h₀⟩ := run_triggered
  have hqueue : triggered.queue = [{ job := Sample.job "root" }] := by decide +kernel
  have hmem : ({ job := Sample.job "root" } : Task) ∈ triggered.queue := by
    rw [hqueue]
    exact List.mem_singleton_self _
  have hrests : Rests ((executionSight Sample.triggeredRow).world triggered)
      Sample.triggeredRow (Walk.start "root") (idle triggered) := by
    refine ⟨?_, ⟨_, _, _, rfl⟩, fun n => rfl, ?_, rfl, rfl, rfl, rfl⟩
    · rintro i t ⟨⟩
    · show (triggered.queue.filter fun t =>
        jobExecution t.job == some Sample.executionID) = [{ job := Sample.job "root" }]
      rw [hqueue]
      decide +kernel
  -- every call of the handling is answered by what is there
  obtain ⟨evs, h⟩ : ∃ evs, Run (engine Sample.service) (Undisturbed Sample.triggeredRow)
      (idle triggered) evs
      (idle (triggered.handle Sample.service { job := Sample.job "root" })) :=
    run_activity (l := .step { job := Sample.job "root" }) (fun _ _ => true)
      (fun _ _ _ _ _ _ _ _ _ => rfl) (fun _ _ => True.intro) (fun _ => rfl) ⟨hmem, rfl⟩
      (driveAll_true ..) rfl
  obtain ⟨σ, hσ, -, -, hend⟩ := follows_path (Sample.fresh_world twoSteps) h₀ rfl
    (not_owesAt_idle _) walkable_twoSteps Walk.onPath_start hrests h
  rcases hend with hrests | ⟨i, _, _, _, -, -, ⟨u, hu, -⟩, -⟩
  · have hjobs : (σ.books Sample.triggeredRow).queue = [{ job := Sample.job "mail" }] := by
      rw [← hrests.2.queue]
      decide +kernel
    rcases hwaiting : σ.waiting with - | ⟨stepID, delay⟩
    · rw [Walk.books, hwaiting] at hjobs
      cases hjobs
    · rw [Walk.books, hwaiting] at hjobs
      have htask := List.head_eq_of_cons_eq hjobs
      obtain rfl : stepID = "mail" := congrArg (fun t : Task => t.job.stepID) htask
      obtain rfl : delay = none := congrArg Task.delay htask
      exact ⟨evs, σ, h, hσ, hwaiting, hrests⟩
  · -- nothing is in progress any more
    cases hu

end Course

end Iwifunni.Workflow
