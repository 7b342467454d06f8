/-
Iwifunni/Workflow/Soundness.lean

When the status 'completed' of an execution can be trusted.

A handler that finds no successor writes 'completed', whatever the other branches
of the execution are doing: with two branches the first one to end completes the
execution while the job of the other is still queued
(`completed_while_queued`), and the other one then sets it back to 'running'.

What does hold: if a job whose node has no successors is only taken up when
nothing else of its execution is queued or handled and the other step rows are
completed, then a completed execution has no job left, no worker has anything
left to do for it, no step row of it is 'running' or 'failed', and it stays
completed (`completed_sound`).  Calls may fail and jobs may be retried; the
invariant (`SoundAt`) is about one execution at a time.
-/
import Iwifunni.Workflow.Locality
import Iwifunni.Workflow.Sequential

namespace Iwifunni.Workflow

open Go Db Effect Effect.Prog

variable {s : Service} {w w' : World} {x : UUID} {ref : StepRef}

/-! ### The condition -/

/-- The step row is completed, if there is one. -/
def RowClosed (w : World) (x : UUID) (n : String) : Prop :=
  w.stepStatus x n = none ∨ w.stepStatus x n = some .completed

/-- A job of a node without successors is taken up only when it is the last thing
left of its execution. -/
def takenLast (p : EnginePool) : EngineEvent → Prop
  | .start _ (.step t) => ∀ ref, readJob t.job = some ref → p.world.nextSteps ref = some [] →
      NoJob { p.world with queue := p.world.queue.erase t } ref.executionID ∧
        ¬ Busy p ref.executionID ∧
        ∀ n, n ≠ ref.stepID → RowClosed p.world ref.executionID n
  | _ => True

/-! ### The invariant -/

/-- What a handling has read is what the rows say. -/
def Route.Agrees (w : World) (ref : StepRef) : Route → Prop
  | start => True
  | fetched payload => ∃ row, w.executions.get ref.executionID = some row ∧
      row.triggerPayload = payload
  | routed next => w.nextSteps ref = some next

/-- What is known of one execution. -/
structure SoundAt (x : UUID) (v : EngineView) : Prop where
  agrees : ∀ i t p r ref, v.phases i = some (.step t, (p, r)) → readJob t.job = some ref →
    ref.executionID = x → r.Agrees v.world ref
  owing : ∀ i, OwedBy v x i → v.world.status x = some .queued ∧ NoJob v.world x ∧
    (∀ j p, ¬ HandledAt v x j p) ∧ ∀ j, OwedBy v x j → j = i
  last : ∀ i t p r ref, v.phases i = some (.step t, (p, r)) → readJob t.job = some ref →
    ref.executionID = x → v.world.nextSteps ref = some [] → p.isDone = false →
    NoJob v.world x ∧ (∀ j q, HandledAt v x j q → q.isDone = false → j = i) ∧
    (∀ n, n ≠ ref.stepID → RowClosed v.world x n) ∧
    ∀ u handed, p = .closed u handed → v.world.stepStatus x ref.stepID = some .completed
  completed : v.world.status x = some .completed → NoJob v.world x ∧
    (∀ j p, HandledAt v x j p → p.isDone = true) ∧ ∀ n, RowClosed v.world x n

/-- Where a step leads depends on the payload and the definition only. -/
theorem nextSteps_eq (hx : (w'.executions.get ref.executionID).map (·.triggerPayload)
      = (w.executions.get ref.executionID).map (·.triggerPayload))
    (hwf : w'.workflows = w.workflows) : w'.nextSteps ref = w.nextSteps ref := by
  unfold World.nextSteps
  rw [hwf]
  rcases h : w.executions.get ref.executionID with - | row <;>
    rcases h' : w'.executions.get ref.executionID with - | row' <;>
    simp only [h, h', Option.map_some, Option.map_none, reduceCtorEq] at hx
  · rfl
  · have hpayload : row'.triggerPayload = row.triggerPayload := Option.some.inj hx
    simp only [Option.bind_some, hpayload]

/-- The route stays right as long as payloads and definitions do. -/
theorem Route.Agrees.next {r : Route} (h : r.Agrees w ref)
    (hx : (w'.executions.get ref.executionID).map (·.triggerPayload)
      = (w.executions.get ref.executionID).map (·.triggerPayload))
    (hwf : w'.workflows = w.workflows) : r.Agrees w' ref := by
  cases r with
  | start => exact True.intro
  | fetched payload =>
      obtain ⟨row, hget, rfl⟩ := h
      rw [hget, Option.map_some, Option.map_eq_some_iff] at hx
      exact hx
  | routed next =>
      show w'.nextSteps ref = some next
      rw [nextSteps_eq hx hwf]
      exact h

variable {v v' : EngineView}

theorem LessAt.rowClosed (h : LessAt x v v') {n : String} (hn : RowClosed v.world x n) :
    RowClosed v'.world x n := by
  unfold RowClosed
  rw [h.rows]
  exact hn

/-- What is known of an execution stays true as long as nothing new concerns it. -/
theorem SoundAt.frame (h : SoundAt x v) (hs : LessAt x v v')
    (hwf : v'.world.workflows = v.world.workflows) : SoundAt x v' where
  agrees i t p r ref hi hread hx := by
    have hjob : jobExecution t.job = some x := hx ▸ jobExecution_of_readJob hread
    have hold := h.agrees i t p r ref (hs.steps i t _ hi hjob) hread hx
    exact hold.next (by rw [hx, hs.execution]) hwf
  owing i hi := by
    obtain ⟨hst, hjobs, hfree, huniq⟩ := h.owing i (hs.owed i hi)
    exact ⟨by rw [hs.status, hst], hs.jobs hjobs, fun j p hj => hfree j p (hs.handledAt hj),
      fun j hj => huniq j (hs.owed j hj)⟩
  last i t p r ref hi hread hx hnext hp := by
    have hjob : jobExecution t.job = some x := hx ▸ jobExecution_of_readJob hread
    rw [nextSteps_eq (by rw [hx, hs.execution]) hwf] at hnext
    obtain ⟨hjobs, halone, hrows, hown⟩ :=
      h.last i t p r ref (hs.steps i t _ hi hjob) hread hx hnext hp
    refine ⟨hs.jobs hjobs, fun j q hj => halone j q (hs.handledAt hj),
      fun n hn => hs.rowClosed (hrows n hn), fun u handed hc => ?_⟩
    rw [hs.rows]
    exact hown u handed hc
  completed hst := by
    rw [hs.status] at hst
    obtain ⟨hjobs, hdone, hrows⟩ := h.completed hst
    exact ⟨hs.jobs hjobs, fun j p hj => hdone j p (hs.handledAt hj),
      fun n => hs.rowClosed (hrows n)⟩

/-! ### Calls of a handling -/

section Handling

variable {i : ℕ} {t : Task} {p p' : Phase} {r r' : Route} {op : Op} {y : Except GoError op.Res}

theorem routeNext_hands (hroute : routeNext ref r ⟨op, y⟩ = some r') {job : WorkflowStepJob}
    (hop : op.Hands job) : r.leadsTo job.stepID = true := by
  cases op with
  | enqueueWorkflowStep job' | enqueueWorkflowStepIn job' =>
      cases hop
      exact (Option.ite_none_right_eq_some.mp hroute).1
  | _ => exact hop.elim

theorem routeNext_completes (hroute : routeNext ref r ⟨op, y⟩ = some r') (hop : op.Completes) :
    r.isLast = true := by
  cases op with
  | updateExecutionState =>
      cases hop
      simpa using (Option.ite_none_right_eq_some.mp hroute).1
  | _ => exact hop.elim

/-- What a handling reads agrees with the rows. -/
theorem Route.Agrees.call (h : r.Agrees w ref) (hnext : stepNext ref p ⟨op, y⟩ = some p')
    (hroute : routeNext ref r ⟨op, y⟩ = some r') (hcall : Call op w y w')
    (hsame : r.Agrees w' ref) : r'.Agrees w' ref := by
  cases op with
  | getExecutionByID id environmentID =>
      cases y with
      | error e =>
          cases hroute
          exact hsame
      -- the execution is what it read
      | ok row =>
          cases p <;> simp only [stepNext, reduceCtorEq] at hnext
          obtain ⟨⟨rfl, -⟩, -⟩ := Option.ite_none_right_eq_some.mp hnext
          cases hroute
          rw [call_reads hcall True.intro]
          exact ⟨row, (call_getExecutionByID hcall).1, rfl⟩
  | getByID id environmentID =>
      cases y with
      | error e =>
          cases hroute
          exact hsame
      | ok workflow =>
          cases p <;> simp only [stepNext, reduceCtorEq] at hnext
          obtain ⟨⟨rfl, rfl⟩, -⟩ := Option.ite_none_right_eq_some.mp hnext
          simp only [routeNext] at hroute
          split at hroute
          · next payload definition node hl =>
            cases hroute
            obtain ⟨row, hget, rfl⟩ := h
            have hfind := call_getByID hcall
            rw [call_reads hcall True.intro]
            -- with the execution it read before, the definition decides the successors
            show w.nextSteps ref = _
            simp only [World.nextSteps, hget, hfind, hl, Option.bind_some, Except.toOption,
              Option.map_some]
          · cases hroute
            exact hsame
  | enqueueWorkflowStep | enqueueWorkflowStepIn | updateExecutionState =>
      cases (Option.ite_none_right_eq_some.mp hroute).2
      exact hsame
  | _ =>
      cases hroute
      exact hsame

/-- Another handling is as it was before the call. -/
theorem handledAt_of_ne {j : ℕ} {q : Phase} (hne : j ≠ i)
    (h : HandledAt ⟨w', Function.update v.phases i (some (.step t, (p', r')))⟩ x j q) :
    HandledAt v x j q := by
  obtain ⟨t', r'', hj, hjob⟩ := h
  rcases update_some_eq_some hj with ⟨heq, -⟩ | ⟨-, hj⟩
  · exact absurd heq hne
  · exact ⟨t', r'', hj, hjob⟩

/-- A handling that makes a call is not done. -/
theorem isDone_of_stepNext (h : stepNext ref p ⟨op, y⟩ = some p') : p.isDone = false := by
  by_contra hdone
  rw [stepNext_of_isDone (by simpa using hdone)] at h
  cases h

/-- **A handling that is the last thing left of its execution** stays so. -/
theorem SoundAt.last_of_call (h : SoundAt ref.executionID v)
    (hi : v.phases i = some (.step t, (p, r))) (hread : readJob t.job = some ref)
    (hnext : stepNext ref p ⟨op, y⟩ = some p') (hroute : routeNext ref r ⟨op, y⟩ = some r')
    (hcall : Call op v.world y w') (hlast : v.world.nextSteps ref = some []) :
    NoJob w' ref.executionID ∧
      (∀ j q, HandledAt ⟨w', Function.update v.phases i (some (.step t, (p', r')))⟩
        ref.executionID j q → q.isDone = false → j = i) ∧
      (∀ n, n ≠ ref.stepID → RowClosed w' ref.executionID n) ∧
      ∀ u handed, p' = .closed u handed →
        w'.stepStatus ref.executionID ref.stepID = some .completed := by
  have hmove := move_of_call hnext hcall
  have hp := isDone_of_stepNext hnext
  have hself : HandledAt v ref.executionID i p := ⟨t, r, hi, jobExecution_of_readJob hread⟩
  -- before the call there was nothing else left
  obtain ⟨hjobs, halone, hrows, hown⟩ := h.last i t p r ref hi hread rfl hlast hp
  refine ⟨?_, ?_, ?_, ?_⟩
  · rcases hmove.queue with heq | ⟨u, job, d, -, -, -, hhands, -⟩
    · intro t' ht'
      exact hjobs t' (heq ▸ ht')
    · -- without successors there is nothing to hand over
      have hleads := routeNext_hands hroute hhands
      cases r with
      | routed next =>
          have heq : v.world.nextSteps ref = some next := h.agrees i t p _ ref hi hread rfl
          rw [hlast] at heq
          cases heq
          cases hleads
      | _ => cases hleads
  · intro k q' hk hq'
    -- another handling would have been open before, too
    by_contra hne
    exact hne (halone k q' (handledAt_of_ne hne hk) hq')
  · intro n hn
    -- the call writes no row but its own
    have hrow := hmove.stepStatus_of_ne (x := ref.executionID) (n := n)
      fun h => hn (Prod.mk.inj h).2
    show w'.stepStatus _ _ = _ ∨ w'.stepStatus _ _ = _
    rw [hrow]
    exact hrows n hn
  · intro u handed hc
    -- its own row was closed before, or is closed now
    rcases hmove.closed hc with ⟨⟨u', handed', hc'⟩, hsteps⟩ | hwritten
    · have hrow := hown u' handed' hc'
      rw [World.stepStatus] at hrow ⊢
      rw [show w'.steps = v.world.steps from hsteps]
      exact hrow
    · exact hwritten.stepStatus_self

/-- **The handling that completes the execution is the last one**, and leaves nothing open. -/
theorem SoundAt.completed_of_call (h : SoundAt ref.executionID v)
    (hi : v.phases i = some (.step t, (p, r))) (hread : readJob t.job = some ref)
    (hnext : stepNext ref p ⟨op, y⟩ = some p') (hroute : routeNext ref r ⟨op, y⟩ = some r')
    (hcall : Call op v.world y w') (hst : w'.status ref.executionID = some .completed) :
    NoJob w' ref.executionID ∧
      (∀ j q, HandledAt ⟨w', Function.update v.phases i (some (.step t, (p', r')))⟩
        ref.executionID j q → q.isDone = true) ∧
      ∀ n, RowClosed w' ref.executionID n := by
  have hp := isDone_of_stepNext hnext
  have hself : HandledAt v ref.executionID i p := ⟨t, r, hi, jobExecution_of_readJob hread⟩
  rcases (move_of_call hnext hcall).completes hst with
    hcompleted | ⟨hcompletes, ⟨u, rfl⟩, rfl, hqueue, hsteps⟩
  · -- the handling at work excludes that it was completed before
    have hdone := (h.completed hcompleted).2.1 i p hself
    rw [hp] at hdone
    cases hdone
  -- it completes only behind a node without successors
  have hlast : v.world.nextSteps ref = some [] := by
    have hisLast := routeNext_completes hroute hcompletes
    cases r with
    | routed next =>
        have hempty : next = [] := List.isEmpty_iff.mp hisLast
        rw [← hempty]
        exact h.agrees i t _ _ ref hi hread rfl
    | _ => cases hisLast
  obtain ⟨hjobs, halone, hrows, hown⟩ := h.last i t _ r ref hi hread rfl hlast hp
  refine ⟨?_, ?_, ?_⟩
  · intro t' ht'
    exact hjobs t' (hqueue ▸ ht')
  · intro j q hj
    by_cases hne : j = i
    · subst hne
      obtain ⟨t', r'', hj, -⟩ := hj
      rcases update_some_eq_some hj with ⟨-, heq⟩ | ⟨hne, -⟩
      · cases heq
        rfl
      · exact absurd rfl hne
    · by_contra hq
      exact hne (halone j q (handledAt_of_ne hne hj) (by simpa using hq))
  · intro n
    -- completing writes no step
    show RowClosed w' ref.executionID n
    rw [RowClosed, World.stepStatus, show w'.steps = v.world.steps from hsteps]
    by_cases hn : n = ref.stepID
    · subst hn
      exact Or.inr (hown u false rfl)
    · exact hrows n hn

/-- **A call of a handling keeps what is known of its own execution.** -/
theorem SoundAt.handle (h : SoundAt ref.executionID v)
    (hi : v.phases i = some (.step t, (p, r))) (hread : readJob t.job = some ref)
    (hnext : stepNext ref p ⟨op, y⟩ = some p') (hroute : routeNext ref r ⟨op, y⟩ = some r')
    (hcall : Call op v.world y w') :
    SoundAt ref.executionID
      ⟨w', Function.update v.phases i (some (.step t, (p', r')))⟩ := by
  have hmove := move_of_call hnext hcall
  have hwf := hmove.workflows
  have hself : HandledAt v ref.executionID i p := ⟨t, r, hi, jobExecution_of_readJob hread⟩
  refine ⟨?_, ?_, ?_, h.completed_of_call hi hread hnext hroute hcall⟩
  · intro j t' q r'' ref' hj hread' hx
    rcases update_some_eq_some hj with ⟨-, heq⟩ | ⟨-, hj⟩
    · cases heq
      rw [hread] at hread'
      cases hread'
      have hagrees := h.agrees i t p r ref hi hread rfl
      exact hagrees.call hnext hroute hcall (hagrees.next (hmove.payload _) hwf)
    · have hother := h.agrees j t' q r'' ref' hj hread' hx
      exact hother.next (hmove.payload _) hwf
  · -- a trigger that owes the execution its first step excludes a handling
    rintro j ⟨environmentID, input, u, n, q, hj⟩
    rcases update_some_eq_some hj with ⟨-, heq⟩ | ⟨-, hj⟩
    · cases heq
    · exact absurd hself ((h.owing j ⟨environmentID, input, u, n, q, hj⟩).2.2.1 i p)
  · intro j t' q r'' ref' hj hread' hx hlast hq
    rw [nextSteps_eq (hmove.payload _) hwf] at hlast
    rcases update_some_eq_some hj with ⟨rfl, heq⟩ | ⟨hne, hj⟩
    · cases heq
      rw [hread] at hread'
      cases hread'
      exact h.last_of_call hi hread hnext hroute hcall hlast
    · obtain ⟨-, halone, -⟩ := h.last j t' q r'' ref' hj hread' hx hlast hq
      exact absurd (halone i p hself (isDone_of_stepNext hnext)).symm hne

end Handling

/-! ### The other steps -/

structure Sound (v : EngineView) : Prop where
  owned : Ownership v.fst
  each : ∀ x, SoundAt x v

/-- An execution nobody handles is sound unless it is completed. -/
theorem SoundAt.of_free (hfree : ∀ j q, ¬ HandledAt v x j q)
    (hst : v.world.status x ≠ some .completed)
    (howing : ∀ i, OwedBy v x i → v.world.status x = some .queued ∧ NoJob v.world x ∧
      ∀ j, OwedBy v x j → j = i) : SoundAt x v where
  agrees i t p r ref hi hread hx :=
    (hfree i p ⟨t, r, hi, hx ▸ jobExecution_of_readJob hread⟩).elim
  owing i hi := by
    obtain ⟨hqueued, hjobs, huniq⟩ := howing i hi
    exact ⟨hqueued, hjobs, hfree, huniq⟩
  last i t p r ref hi hread hx :=
    (hfree i p ⟨t, r, hi, hx ▸ jobExecution_of_readJob hread⟩).elim
  completed h := (hst h).elim

theorem Sound.exists_of_handledAt (h : Sound v) {i : ℕ} {p : Phase} (hi : HandledAt v x i p) :
    ∃ row, v.world.executions.get x = some row := by
  obtain ⟨t, r, hph, hjob⟩ := hi
  exact (h.owned.threads i t p (View.fst_eq_some hph)).of_jobExecution hjob

theorem Sound.noJob_of_new (h : Sound v) (hx : v.world.executions.get x = none) :
    NoJob v.world x := by
  intro t ht hjob
  obtain ⟨row, hget⟩ := (h.owned.queue t ht).of_jobExecution hjob
  have hnone : v.fst.world.executions.get x = none := hx
  rw [hnone] at hget
  cases hget

theorem Sound.exists_of_owedBy (h : Sound v) {i : ℕ} (hi : OwedBy v x i) :
    ∃ row, v.world.executions.get x = some row := by
  obtain ⟨environmentID, input, u, n, r, hph⟩ := hi
  obtain ⟨row, hget, -⟩ := h.owned.triggers i environmentID input x u n (View.fst_eq_some hph)
  exact ⟨row, hget⟩

section Triggers

variable {i : ℕ} {environmentID : UUID} {input : TriggerEventInput} {p p' : Phase} {r : Route}

/-- Handlings are not changed by a change of a trigger. -/
theorem handledAt_of_trigger {st : Phase × Route} {j : ℕ} {q : Phase}
    (hj : HandledAt ⟨w', Function.update v.phases i
      (some (.trigger environmentID input, st))⟩ x j q) : HandledAt v x j q := by
  obtain ⟨t, r, hph, hjob⟩ := hj
  rcases update_some_eq_some hph with ⟨-, heq⟩ | ⟨-, hph⟩
  · cases heq
  · exact ⟨t, r, hph, hjob⟩

/-- An execution that a trigger creates is known to nobody else. -/
theorem SoundAt.of_created (h : Sound v) {row : WorkflowExecution} (hc : Created row v.world w')
    (st : Phase × Route) :
    SoundAt row.id ⟨w', Function.update v.phases i (some (.trigger environmentID input, st))⟩ := by
  have hst : w'.status row.id = some .queued := hc.status_self
  have hnobody : ∀ j, OwedBy ⟨w', Function.update v.phases i
      (some (.trigger environmentID input, st))⟩ row.id j → j = i := by
    rintro j ⟨environmentID', input', u, n, r', hj⟩
    rcases update_some_eq_some hj with ⟨heq, -⟩ | ⟨-, hj⟩
    · exact heq
    · obtain ⟨row', hget⟩ := h.exists_of_owedBy ⟨environmentID', input', u, n, r', hj⟩
      rw [hc.1] at hget
      cases hget
  refine .of_free ?_ ?_ fun j hj => ⟨hst, ?_, fun k hk => ?_⟩
  · intro j q hj
    obtain ⟨row', hget⟩ := h.exists_of_handledAt (handledAt_of_trigger hj)
    rw [hc.1] at hget
    cases hget
  · show w'.status row.id ≠ _
    simp [hst]
  · have hqueue : w'.queue = v.world.queue := by rw [hc.2.2]
    exact (noJob_congr hqueue).mpr (h.noJob_of_new hc.1)
  · rw [hnobody j hj, hnobody k hk]

/-- **A call of a trigger keeps what is known of every execution.** -/
theorem Sound.trigger (h : Sound v) {a : Answered Op.Res GoError}
    (hi : v.phases i = some (.trigger environmentID input, (p, r)))
    (hmove : TriggerMove s environmentID a p v.world p' w') :
    SoundAt x ⟨w', Function.update v.phases i (some (.trigger environmentID input, (p', r)))⟩ := by
  by_cases hp : ∃ u n, p = .owing x u n
  · -- the trigger owes this execution, so nobody else is concerned with it
    obtain ⟨u, n, rfl⟩ := hp
    have howed : OwedBy v x i := ⟨environmentID, input, u, n, r, hi⟩
    obtain ⟨hst, hjobs, hfree, huniq⟩ := (h.each x).owing i howed
    -- it still owes it, or is done with it
    have hgone : p' = .owing x u n ∧ w' = v.world ∨ p' = .ready ∨ p' = .stopped := by
      cases hmove with
      | stay => exact Or.inl ⟨rfl, rfl⟩
      | stop => exact Or.inr (Or.inr rfl)
      | launch => exact Or.inr (Or.inl rfl)
    rcases hgone with ⟨rfl, rfl⟩ | hgone
    · rw [← hi, Function.update_eq_self]
      exact h.each x
    · have hst' : w'.status x = some .queued := by
        rw [World.status, hmove.executions_of_owing rfl]
        exact hst
      refine .of_free (fun j q hj => hfree j q (handledAt_of_trigger hj)) ?_ ?_
      · show w'.status x ≠ _
        simp [hst']
      · rintro j ⟨environmentID', input', u', n', r', hj⟩
        rcases update_some_eq_some hj with ⟨-, heq⟩ | ⟨hne, hj⟩
        · cases heq
          rcases hgone with hgone | hgone <;> cases hgone
        · exact absurd (huniq j ⟨environmentID', input', u', n', r', hj⟩) hne
  -- otherwise it creates this execution, or is not concerned with it
  · by_cases hc : ∃ row, Created row v.world w' ∧ row.id = x
    · obtain ⟨row, hc, rfl⟩ := hc
      exact .of_created h hc _
    · refine (h.each x).frame
        (sameAt_of_triggerMove hi hmove hp fun row hrow hx => hc ⟨row, hrow, hx⟩).1 hmove.frame.1

end Triggers

section Handlings

variable {i : ℕ} {t : Task}

/-- A job is taken up. -/
theorem SoundAt.take (h : SoundAt x v) (ht : t ∈ v.world.queue) (hi : v.phases i = none)
    {q : Phase}
    (hsafe : ∀ ref, readJob t.job = some ref → v.world.nextSteps ref = some [] →
      NoJob { v.world with queue := v.world.queue.erase t } ref.executionID ∧
      (∀ j p, HandledAt v ref.executionID j p → p.isDone = true) ∧
      ∀ n, n ≠ ref.stepID → RowClosed v.world ref.executionID n)
    (hq : ∀ u handed, q ≠ .closed u handed) :
    SoundAt x ⟨{ v.world with queue := v.world.queue.erase t },
      Function.update v.phases i (some (.step t, (q, .start)))⟩ := by
  have howed : ∀ {j}, OwedBy ⟨{ v.world with queue := v.world.queue.erase t },
      Function.update v.phases i (some (.step t, (q, .start)))⟩ x j → OwedBy v x j := by
    rintro j ⟨environmentID, input, u, n, r, hj⟩
    rcases update_some_eq_some hj with ⟨-, heq⟩ | ⟨-, hj⟩
    -- the handling that begins has read nothing yet
    · cases heq
    · exact ⟨environmentID, input, u, n, r, hj⟩
  by_cases hjob : jobExecution t.job = some x
  · -- there was a job, so the execution was neither completed nor owed nor down to its last step
    have hthere : ¬ NoJob v.world x := fun hnone => hnone t ht hjob
    refine ⟨?_, ?_, ?_, ?_⟩
    · intro j t' p r ref hj hread hx
      rcases update_some_eq_some hj with ⟨-, heq⟩ | ⟨-, hj⟩
      · cases heq
        exact True.intro
      · exact h.agrees j t' p r ref hj hread hx
    · intro j hj
      exact absurd (h.owing j (howed hj)).2.1 hthere
    · intro j t' p r ref hj hread hx hlast hp
      rcases update_some_eq_some hj with ⟨rfl, heq⟩ | ⟨-, hj⟩
      · cases heq
        obtain ⟨hjobs, hdone, hrows⟩ := hsafe ref hread hlast
        subst hx
        refine ⟨hjobs, ?_, hrows, fun u handed hc => absurd hc (hq u handed)⟩
        -- no other handling of the execution is open
        rintro k q' ⟨t', r', hk, hjob'⟩ hq'
        rcases update_some_eq_some hk with ⟨rfl, -⟩ | ⟨-, hk⟩
        · rfl
        · rw [hdone k q' ⟨t', r', hk, hjob'⟩] at hq'
          cases hq'
      · exact absurd (h.last j t' p r ref hj hread hx hlast hp).1 hthere
    · intro hst
      exact absurd (h.completed hst).1 hthere
  · exact h.frame (sameAt_of_take hi hjob _).1 rfl

/-- An activity ends, and a handling that failed may put its job back. -/
theorem SoundAt.leave (h : SoundAt x v) {l : Activity} {p : Phase} {r : Route}
    (hi : v.phases i = some (l, (p, r))) {queue : List Task}
    (hqueue : queue = v.world.queue ∨ ∃ t, l = .step t ∧ p.isDone = false ∧
      queue = v.world.queue ++ [t.retry]) :
    SoundAt x ⟨{ v.world with queue := queue }, Function.update v.phases i none⟩ := by
  rcases hqueue with rfl | ⟨t, rfl, hp, rfl⟩
  · exact h.frame (lessAt_of_leave v i) rfl
  · by_cases hjob : jobExecution t.job = some x
    · -- the handling was at work on the execution, so nothing was concluded about it
      have hself : HandledAt v x i p := ⟨t, r, hi, hjob⟩
      refine ⟨?_, ?_, ?_, ?_⟩
      · intro j t' p' r' ref hj hread hx
        exact h.agrees j t' p' r' ref (update_none_eq_some hj).2 hread hx
      · rintro j ⟨environmentID, input, u, n, r', hj⟩
        exact absurd hself ((h.owing j
          ⟨environmentID, input, u, n, r', (update_none_eq_some hj).2⟩).2.2.1 i p)
      · intro j t' p' r' ref hj hread hx hlast hp'
        obtain ⟨hne, hj⟩ := update_none_eq_some hj
        have halone := (h.last j t' p' r' ref hj hread hx hlast hp').2.1 i p hself hp
        exact absurd halone.symm hne
      · intro hst
        have hdone := (h.completed hst).2.1 i p hself
        rw [hp] at hdone
        cases hdone
    · refine h.frame (sameAt_of_leave hi ?_ (Or.inr ⟨t, t.retry, rfl, rfl, rfl⟩)).1 rfl
      rwa [concerns_step]

end Handlings

/-! ### Runs -/

/-- **Every step under the condition keeps the invariant.** -/
theorem Sound.step {p : EnginePool} {e : EngineEvent}
    (hkept : ((handling s).prod routing).Kept p)
    (h : Sound (((handling s).prod routing).view p)) (hfixed : definitionsFixed e)
    (hlost : notLost e) (htaken : takenLast p e)
    (hs : ((handling s).prod routing).ViewStep (engine s)
      (((handling s).prod routing).view p) e v') : Sound v' := by
  refine ⟨h.owned.step hs.fst, fun x => ?_⟩
  generalize hv : ((handling s).prod routing).view p = v at h hs
  cases hs with
  | @start w w' ph i l hnone hsp =>
      cases l with
      | step t =>
          obtain ⟨ht, rfl⟩ := hsp
          refine (h.each x).take ht hnone ?_ ?_
          · intro ref hread hlast
            -- the condition speaks of the pool, the invariant of its view
            have hworld : p.world = w := by
              rw [← Protocol.view_world (P := (handling s).prod routing) p, hv]
            rw [← hworld] at hlast ⊢
            obtain ⟨hjobs, hidle, hrows⟩ := htaken ref hread hlast
            refine ⟨hjobs, ?_, hrows⟩
            -- whoever handles the execution besides has come to its end
            rintro j q ⟨t', r, hj, hjob⟩
            have hview : (((handling s).prod routing).view p).phases j = some (.step t', (q, r)) := by
              rw [hv]
              exact hj
            obtain ⟨⟨l, log, prog⟩, hthread, rfl, -, hkeep⟩ := hkept.thread_of_view hview
            by_contra hq
            refine hidle ⟨j, t', log, prog, hthread, hjob, ?_⟩
            rintro rfl
            exact hq (ends_ok (Prog.keeps_ret.mp hkeep).1)
          · intro u handed hc
            show False
            have hinit : (handling s).init (.step t) = .closed u handed := hc
            simp only [handling] at hinit
            split at hinit <;> cases hinit
      | trigger environmentID input =>
          cases hsp
          exact (h.each x).frame (sameAt_of_trigger (v := ⟨_, ph⟩) hnone).1 rfl
  | @call w w' ph i l q q' op y hi hnext hcall =>
      obtain ⟨p₁, r₁⟩ := q
      obtain ⟨p₂, r₂⟩ := q'
      obtain ⟨hphase, hroute⟩ := Protocol.prod_next_eq_some.mp hnext
      cases l with
      | step t =>
          simp only [handling, Option.bind_eq_some_iff] at hphase
          obtain ⟨ref, hread, hstep⟩ := hphase
          rw [routing_next hread] at hroute
          -- what a handling does, it does to its own execution
          by_cases hx : x = ref.executionID
          · subst hx
            exact (h.each _).handle hi hread hstep hroute hcall
          · have hmove := move_of_call hstep hcall
            exact (h.each x).frame (sameAt_of_move (v := ⟨w, ph⟩) hi hread hmove hx).1
              hmove.workflows
      | trigger environmentID input =>
          cases hroute
          exact h.trigger hi (triggerMove_of_call hphase hcall)
  | @finish w w' ph i l q out hi hends hclose =>
      cases l with
      | step t =>
          cases hclose
          rcases closeTask_queue s.maxRetry w t out with heq | ⟨heq, -, e, rfl, -⟩ <;> rw [heq]
          · exact (h.each x).leave hi (Or.inl rfl)
          · exact (h.each x).leave hi (Or.inr ⟨t, rfl, ends_error hends.1, rfl⟩)
      | trigger environmentID input =>
          cases hclose
          exact (h.each x).leave hi (Or.inl rfl)
  | lose => exact hlost.elim
  | @env w w' ph c he =>
      cases he
      cases c with
      -- only definitions are read by the invariant
      | directory subscribers templates =>
          exact (h.each x).frame ⟨rfl, fun _ => rfl, id, fun _ _ _ hj _ => hj,
            fun _ hj => hj⟩ rfl
      | _ => exact hfixed.elim

/-- A completed execution stays completed. -/
theorem Sound.status_step {e : EngineEvent} (h : Sound v)
    (hs : ((handling s).prod routing).ViewStep (engine s) v e v')
    (hst : v.world.status x = some .completed) : v'.world.status x = some .completed := by
  have hkeep : v'.world.executions = v.world.executions →
      v'.world.status x = some .completed := by
    intro hex
    rw [World.status, hex]
    exact hst
  cases hs with
  | @start w w' ph i l hnone hsp =>
      apply hkeep
      cases l with
      | step t => rw [hsp.2]
      | trigger environmentID input =>
          cases hsp
          rfl
  | @call w w' ph i l q q' op y hi hnext hcall =>
      obtain ⟨p₁, r₁⟩ := q
      obtain ⟨p₂, r₂⟩ := q'
      obtain ⟨hnext, -⟩ := Protocol.prod_next_eq_some.mp hnext
      cases l with
      | step t =>
          simp only [handling, Option.bind_eq_some_iff] at hnext
          obtain ⟨ref, hread, hnext⟩ := hnext
          -- whoever still makes a call works on another execution
          have hx : x ≠ ref.executionID := by
            rintro rfl
            have hdone := ((h.each _).completed hst).2.1 i p₁
              ⟨t, r₁, hi, jobExecution_of_readJob hread⟩
            rw [stepNext_of_isDone hdone] at hnext
            cases hnext
          show w'.status x = _
          rw [World.status, (move_of_call hnext hcall).get_of_ne hx]
          exact hst
      | trigger environmentID input =>
          have hmove := triggerMove_of_call hnext hcall
          rcases hmove.executions with hex | ⟨row, hc⟩
          · exact hkeep hex
          · have hx : x ≠ row.id := by
              rintro rfl
              have hnone : w.status row.id = none := hc.status_none
              rw [show w.status row.id = some .completed from hst] at hnone
              cases hnone
            exact (hc.status_of_ne hx).trans hst
  | @finish w w' ph i l q out hi hends hclose =>
      apply hkeep
      cases l with
      | step t =>
          cases hclose
          rcases closeTask_queue s.maxRetry w t out with heq | ⟨heq, -, -⟩ <;> rw [heq]
      | trigger environmentID input =>
          cases hclose
          rfl
  | @lose w w' ph i l q hi hl =>
      apply hkeep
      cases l <;> cases hl <;> rfl
  | @env w w' ph c he =>
      cases he
      exact hkeep (c.apply_frame w).1

/-- At the beginning nothing is open. -/
theorem sound_of_fresh (h : w.Fresh) : Sound (((handling s).prod routing).view (idle w)) where
  owned := ownership_of_fresh (s := s) h
  each x := by
    have hst : w.status x = none := by
      rw [World.status, h.executions, Option.map_none]
    refine .of_free ?_ ?_ ?_
    · rintro j q ⟨t, r, hj, -⟩
      cases hj
    · show w.status x ≠ _
      rw [hst]
      simp
    · rintro i ⟨environmentID, input, u, n, r, hi⟩
      cases hi

/-- The condition on every step of a run. -/
def soundly (p : EnginePool) (e : EngineEvent) : Prop :=
  definitionsFixed e ∧ notLost e ∧ takenLast p e

/-- The invariant holds along every run under the condition, and whatever is
completed stays so. -/
theorem sound_of_run {p p' : EnginePool} {evs : List EngineEvent}
    (h : Run (engine s) soundly p evs p') (hkept : ((handling s).prod routing).Kept p)
    (hsound : Sound (((handling s).prod routing).view p)) :
    ((handling s).prod routing).Kept p' ∧ Sound (((handling s).prod routing).view p') ∧
      ∀ x, p.world.status x = some .completed → p'.world.status x = some .completed := by
  refine h.view_invariant (P := (handling s).prod routing)
    (I := fun _ v => Sound v ∧ ∀ x, p.world.status x = some .completed →
      v.world.status x = some .completed) (keeps_engine_routing s) ?_ ?_ hkept ⟨hsound, fun x => id⟩
  · intro evs q e q' hk hI hc hs i a l st he hph
    subst he
    cases hs with
    | call _ hcall => exact ⟨expects_of_call hcall, True.intro⟩
  · rintro evs q e v' hk ⟨hI, hold⟩ hc hs
    exact ⟨hI.step hk hc.1 hc.2.1 hc.2.2 hs, fun x hx => hI.status_step hs (hold x hx)⟩

/-- **The status 'completed' is sound**, in every run in which calls may fail and
jobs may be retried, as long as definitions stay as they are and a job of a node
without successors is only taken up as the last one of its execution. -/
theorem completed_sound {p : EnginePool} {evs : List EngineEvent} (hfresh : w.Fresh)
    (h : Run (engine s) soundly (idle w) evs p) (hx : p.world.status x = some .completed) :
    NoJob p.world x ∧ ¬ Busy p x ∧
    (∀ n, p.world.stepStatus x n ≠ some .running ∧ p.world.stepStatus x n ≠ some .failed) ∧
    ∀ evs' p', Run (engine s) soundly p evs' p' → p'.world.status x = some .completed := by
  obtain ⟨hkept, hsound, -⟩ :=
    sound_of_run h (Protocol.kept_of_idle fun _ => rfl) (sound_of_fresh hfresh)
  obtain ⟨hjobs, hdone, hrows⟩ := (hsound.each x).completed hx
  refine ⟨hjobs, ?_, ?_, ?_⟩
  · rintro ⟨i, t, log, prog, hi, hjob, hprog⟩
    obtain ⟨⟨q, r⟩, htrack, hkeep⟩ := hkept i _ hi
    have hview := Protocol.view_phases_of_thread hi htrack
    exact hprog (ret_of_isDone hkeep (hdone i q ⟨t, r, hview, hjob⟩))
  · intro n
    have hrow : RowClosed p.world x n := hrows n
    rcases hrow with hrow | hrow <;> rw [hrow] <;> simp
  · intro evs' p' h'
    exact (sound_of_run h' hkept hsound).2.2 x hx

/-- A workflow of one notification meets the condition and is completed. -/
theorem completed_sound_single : ∃ evs p,
    Run (engine Sample.service) soundly (idle (Sample.world Sample.single)) evs p ∧
    p.world.status Sample.executionID = some .completed ∧
    NoJob p.world Sample.executionID ∧ ¬ Busy p Sample.executionID := by
  have hC : ∀ (p : EnginePool) e, isProgress e → soundly p e := by
    rintro p (_ | _ | _ | _ | _) he <;>
      first | exact ⟨True.intro, True.intro, True.intro⟩ | exact he.elim
  obtain ⟨evs₁, h₁⟩ := run_trigger (s := Sample.service) hC (Sample.world Sample.single)
    Sample.environmentID Sample.event ⟨True.intro, True.intro, True.intro⟩
  have hstart : takenLast
      (idle ((Sample.world Sample.single).trigger Sample.service Sample.environmentID Sample.event))
      (.start 0 (.step { job := Sample.job "mail" })) := by
    intro ref hread _
    cases Sample.readJob_mail.symm.trans hread
    refine ⟨by unfold NoJob; decide +kernel, ?_, fun n _ => Or.inl ?_⟩
    · rintro ⟨j, t, log, prog, hj, -⟩
      cases hj
    · rfl
  obtain ⟨evs₂, h₂⟩ := run_handle (s := Sample.service) hC _ (t := { job := Sample.job "mail" })
    (by decide +kernel) ⟨True.intro, True.intro, hstart⟩
  have hrun := h₁.trans h₂
  have hdone := completed_sound (Sample.fresh_world Sample.single) hrun
    (x := Sample.executionID) (by decide +kernel)
  exact ⟨_, _, hrun, by decide +kernel, hdone.1, hdone.2.1⟩

/-! ### Two branches -/

/-- Two branches of one node each. -/
def fork : Definition where
  trigger := ⟨"user.signup"⟩
  nodes := [Sample.start "root", Sample.start "left", Sample.start "right"]
  edgeSlice := some [⟨"root", "left", ""⟩, ⟨"root", "right", ""⟩]

/-- The left branch completes the execution; the right one is still in the queue. -/
theorem completed_while_queued :
    validateDefinition fork = .ok () ∧
    ∃ evs p, Run (engine Sample.service) (fun _ e => definitionsFixed e ∧ notLost e)
        (idle (Sample.world fork)) evs p ∧
      p.world.status Sample.executionID = some .completed ∧
      ∃ t ∈ p.world.queue, jobExecution t.job = some Sample.executionID := by
  refine ⟨by rfl, ?_⟩
  obtain ⟨evs, hrun⟩ := run_acts (s := Sample.service)
    (C := fun _ e => definitionsFixed e ∧ notLost e)
    (fun _ e he => by cases e <;> first | exact ⟨True.intro, True.intro⟩ | exact he.elim)
    (fun _ _ => ⟨True.intro, True.intro⟩) (Sample.world fork)
    [.trigger Sample.environmentID Sample.event, .handle 0, .handle 0]
    (fun _ c hc => by simp at hc)
  exact ⟨evs, _, hrun, by decide +kernel⟩

end Iwifunni.Workflow
