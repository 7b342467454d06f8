/-
Iwifunni/Workflow/Locality.lean

What concerns one execution: the jobs that name it, the handlings of such jobs,
and the trigger that has created it and not yet enqueued its first step.

Two steps of the engine meet at an execution only if both concern it.  What is
known of an execution is therefore kept by every other step (`SameAt`), and the
invariants are proved for one execution at a time.
-/
import Iwifunni.Workflow.Routing

namespace Iwifunni.Workflow

open Go Db Effect Effect.Prog

variable {s : Service} {w w' : World} {x : UUID} {ref : StepRef}

/-! ### Jobs and workers -/

/-- No job of the execution is pending, scheduled or waiting for a retry. -/
def NoJob (w : World) (x : UUID) : Prop := ∀ t ∈ w.queue, jobExecution t.job ≠ some x

/-- Some worker has something left to do for the execution. -/
def Busy (p : EnginePool) (x : UUID) : Prop :=
  ∃ i t log prog, p.threads i = some ⟨.step t, log, prog⟩ ∧ jobExecution t.job = some x ∧
    prog ≠ .ret ()

theorem noJob_append {queue : List Task} {t : Task} :
    NoJob { w with queue := queue ++ [t] } x ↔
      NoJob { w with queue := queue } x ∧ jobExecution t.job ≠ some x := by
  simp only [NoJob, List.mem_append, List.mem_singleton]
  constructor
  · intro h
    exact ⟨fun t' ht' => h t' (Or.inl ht'), h t (Or.inr rfl)⟩
  · rintro ⟨h, ht⟩ t' (ht' | rfl)
    · exact h t' ht'
    · exact ht

theorem noJob_erase {queue : List Task} {t : Task} (ht : jobExecution t.job ≠ some x) :
    NoJob { w with queue := queue.erase t } x ↔ NoJob { w with queue := queue } x := by
  constructor
  · intro h t' ht'
    by_cases heq : t' = t
    · rw [heq]
      exact ht
    · exact h t' ((List.mem_erase_of_ne heq).mpr ht')
  · exact fun h t' ht' => h t' (List.mem_of_mem_erase ht')

theorem noJob_congr (h : w'.queue = w.queue) : NoJob w' x ↔ NoJob w x := by
  rw [NoJob, NoJob, h]

theorem StepRef.Owns.jobExecution_eq {u : UUID} {job : WorkflowStepJob} (h : ref.Owns u job) :
    jobExecution job = some ref.executionID := by
  rw [jobExecution, h.2.1, UUID.parse_trimSpace_toString]

/-! ### Phases of a handling -/

/-- The handling has nothing left to do. -/
def Phase.isDone : Phase → Bool
  | settled _ => true
  | _ => false

theorem stepNext_of_isDone {p : Phase} (hp : p.isDone = true) (a : Answered Op.Res GoError) :
    stepNext ref p a = none := by
  obtain ⟨op, r⟩ := a
  cases p <;> cases hp
  cases op <;> rfl

theorem ends_ok {p : Phase} (h : p.Ends s (.ok ())) : p.isDone = true := by
  cases p with
  | settled => rfl
  | rejected | unlocated => cases h
  | closed => cases h.2.2
  | failed => obtain ⟨_, h⟩ := h; cases h
  | broken => obtain ⟨_, h, -⟩ := h; cases h
  | _ => exact h.elim

theorem ends_error {p : Phase} {e : GoError} (h : p.Ends s (.error e)) : p.isDone = false := by
  cases p with
  | settled => cases h
  | _ => rfl

/-- A program that keeps the protocol from a done phase just returns. -/
theorem ret_of_isDone {t : Task} {p : Phase} {r : Route} {prog : Act Unit}
    (h : Prog.Keeps ((handling s).prod routing) (.step t)
      (((handling s).prod routing).ends (.step t)) prog (p, r)) (hp : p.isDone = true) :
    prog = .ret () := by
  cases prog with
  | ret a => rfl
  | fail e =>
      have hends := (Prog.keeps_fail.mp h).1
      rw [ends_error hends] at hp
      cases hp
  | call op k =>
      -- some answer has to be reckoned with, but no call is allowed any more
      have hstuck : ∀ a, (handling s).next (.step t) p a = none := by
        intro a
        simp only [handling, stepNext_of_isDone hp]
        cases readJob t.job <;> rfl
      obtain ⟨r, hr⟩ : ∃ r, Expects ⟨op, r⟩ := by
        cases op with
        | now => exact ⟨.ok 0, True.intro⟩
        | newUUID => exact ⟨.ok (.ofDigit 0), True.intro⟩
        | _ => exact ⟨.error (.other ""), True.intro, rfl⟩
      obtain ⟨⟨p', r'⟩, hnext, -⟩ := Prog.keeps_call.mp h r ⟨hr, True.intro⟩
      rw [Protocol.prod_next_eq_some, hstuck] at hnext
      cases hnext.1

/-! ### Concern -/

abbrev EngineView : Type := View World Activity (Phase × Route)

/-- A worker handles a job of the execution and is in this phase. -/
def HandledAt (v : EngineView) (x : UUID) (i : ℕ) (p : Phase) : Prop :=
  ∃ t r, v.phases i = some (.step t, (p, r)) ∧ jobExecution t.job = some x

/-- A trigger has created the execution and not yet enqueued its first step. -/
def OwedBy (v : EngineView) (x : UUID) (i : ℕ) : Prop :=
  ∃ environmentID input u n r, v.phases i = some (.trigger environmentID input, (.owing x u n, r))

/-- An activity that concerns the execution. -/
def Concerns (x : UUID) (q : Activity × Phase × Route) : Prop :=
  (∃ t, q.1 = .step t ∧ jobExecution t.job = some x) ∨
    ∃ environmentID input u n, q.1 = .trigger environmentID input ∧ q.2.1 = .owing x u n

variable {v v' : EngineView}

theorem HandledAt.unique {i : ℕ} {p q : Phase} (hp : HandledAt v x i p) (hq : HandledAt v x i q) :
    p = q := by
  obtain ⟨t, r, hp, -⟩ := hp
  obtain ⟨t', r', hq, -⟩ := hq
  rw [hp] at hq
  cases hq
  rfl

/-- The second view has no activity and no job that concerns the execution beyond
those of the first. -/
structure LessAt (x : UUID) (v v' : EngineView) : Prop where
  execution : v'.world.executions.get x = v.world.executions.get x
  rows : ∀ n, v'.world.stepStatus x n = v.world.stepStatus x n
  jobs : NoJob v.world x → NoJob v'.world x
  steps : ∀ i t st, v'.phases i = some (.step t, st) → jobExecution t.job = some x →
    v.phases i = some (.step t, st)
  owed : ∀ i, OwedBy v' x i → OwedBy v x i

/-- Two views that agree about the execution. -/
def SameAt (x : UUID) (v v' : EngineView) : Prop := LessAt x v v' ∧ LessAt x v' v

theorem LessAt.handledAt (h : LessAt x v v') {i : ℕ} {p : Phase} (hi : HandledAt v' x i p) :
    HandledAt v x i p := by
  obtain ⟨t, r, hph, hjob⟩ := hi
  exact ⟨t, r, h.steps i t _ hph hjob, hjob⟩

theorem LessAt.status (h : LessAt x v v') : v'.world.status x = v.world.status x := by
  rw [World.status, World.status, h.execution]

/-- An activity that does not concern the execution adds nothing about it. -/
theorem lessAt_update {i : ℕ} {q : Option (Activity × Phase × Route)}
    (hex : w'.executions.get x = v.world.executions.get x)
    (hrows : ∀ n, w'.stepStatus x n = v.world.stepStatus x n)
    (hjobs : NoJob v.world x → NoJob w' x) (hnew : ∀ q', q = some q' → ¬ Concerns x q') :
    LessAt x v ⟨w', Function.update v.phases i q⟩ := by
  refine ⟨hex, hrows, hjobs, ?_, ?_⟩
  · intro j t st hj hjob
    by_cases hji : j = i
    · subst hji
      simp only [Function.update_self] at hj
      exact absurd (Or.inl ⟨t, rfl, hjob⟩) (hnew _ hj)
    · simpa only [Function.update_of_ne hji] using hj
  · rintro j ⟨environmentID, input, u, n, r, hj⟩
    by_cases hji : j = i
    · subst hji
      simp only [Function.update_self] at hj
      exact absurd (Or.inr ⟨environmentID, input, u, n, rfl, rfl⟩) (hnew _ hj)
    · simp only [Function.update_of_ne hji] at hj
      exact ⟨environmentID, input, u, n, r, hj⟩

/-- A change of an activity that concerns the execution neither before nor after. -/
theorem sameAt_update {i : ℕ} {q : Option (Activity × Phase × Route)}
    (hex : w'.executions.get x = v.world.executions.get x)
    (hrows : ∀ n, w'.stepStatus x n = v.world.stepStatus x n)
    (hjobs : NoJob w' x ↔ NoJob v.world x) (hold : ∀ q, v.phases i = some q → ¬ Concerns x q)
    (hnew : ∀ q', q = some q' → ¬ Concerns x q') :
    SameAt x v ⟨w', Function.update v.phases i q⟩ := by
  refine ⟨lessAt_update hex hrows hjobs.mpr hnew, ?_⟩
  have hback : LessAt x ⟨w', Function.update v.phases i q⟩
      ⟨v.world, Function.update (Function.update v.phases i q) i (v.phases i)⟩ :=
    lessAt_update hex.symm (fun n => (hrows n).symm) hjobs.mp hold
  rw [Function.update_idem, Function.update_eq_self] at hback
  exact hback

theorem concerns_step {t : Task} {st : Phase × Route} :
    Concerns x (.step t, st) ↔ jobExecution t.job = some x := by
  simp [Concerns]

theorem concerns_trigger {environmentID : UUID} {input : TriggerEventInput} {p : Phase} {r : Route} :
    Concerns x (.trigger environmentID input, (p, r)) ↔ ∃ u n, p = .owing x u n := by
  simp [Concerns]

/-! ### Steps that do not concern an execution -/

section Steps

variable {i : ℕ} {t : Task} {p p' : Phase} {r r' : Route}

/-- A call of a handling leaves the other executions alone. -/
theorem sameAt_of_move (hi : v.phases i = some (.step t, (p, r)))
    (hread : readJob t.job = some ref) {a : Answered Op.Res GoError}
    (hmove : Move ref a p v.world p' w') (hx : x ≠ ref.executionID) :
    SameAt x v ⟨w', Function.update v.phases i (some (.step t, (p', r')))⟩ := by
  have hjob : jobExecution t.job ≠ some x := by
    rw [jobExecution_of_readJob hread]
    exact fun h => hx (Option.some.inj h).symm
  refine sameAt_update (hmove.get_of_ne hx)
    (fun n => hmove.stepStatus_of_ne fun h => hx (Prod.mk.inj h).1) ?_ ?_ ?_
  · rcases hmove.queue with heq | ⟨u, job, d, -, howns, -, -, heq⟩
    · exact noJob_congr heq
    · have hother : jobExecution job ≠ some x := by
        rw [howns.jobExecution_eq]
        exact fun h => hx (Option.some.inj h).symm
      rw [show NoJob w' x ↔ _ from noJob_congr (w := { v.world with queue := _ }) heq,
        noJob_append]
      exact and_iff_left hother
  · intro q hq
    rw [hi] at hq
    cases hq
    exact fun h => hjob (concerns_step.mp h)
  · rintro q ⟨⟩
    exact fun h => hjob (concerns_step.mp h)

/-- Taking up a job leaves the other executions alone. -/
theorem sameAt_of_take (hi : v.phases i = none) (hjob : jobExecution t.job ≠ some x)
    (st : Phase × Route) :
    SameAt x v ⟨{ v.world with queue := v.world.queue.erase t },
      Function.update v.phases i (some (.step t, st))⟩ := by
  refine sameAt_update rfl (fun _ => rfl) (noJob_erase hjob) ?_ ?_
  · intro q hq
    rw [hi] at hq
    cases hq
  · rintro q ⟨⟩
    exact fun h => hjob (concerns_step.mp h)

/-- The end of a handling leaves the other executions alone. -/
theorem sameAt_of_leave {l : Activity} (hi : v.phases i = some (l, (p, r)))
    (hl : ¬ Concerns x (l, (p, r))) {queue : List Task}
    (hqueue : queue = v.world.queue ∨ ∃ t t', l = .step t ∧ t'.job = t.job ∧
      queue = v.world.queue ++ [t']) :
    SameAt x v ⟨{ v.world with queue := queue }, Function.update v.phases i none⟩ := by
  refine sameAt_update rfl (fun _ => rfl) ?_ ?_ (by rintro q ⟨⟩)
  · rcases hqueue with rfl | ⟨t, t', rfl, hjob, rfl⟩
    · exact Iff.rfl
    · rw [noJob_append, hjob]
      exact and_iff_left fun h => hl (concerns_step.mpr h)
  · intro q hq
    rw [hi] at hq
    cases hq
    exact hl

/-- Whatever ends without putting a job back leaves no more than there was. -/
theorem lessAt_of_leave (v : EngineView) (i : ℕ) :
    LessAt x v ⟨v.world, Function.update v.phases i none⟩ :=
  lessAt_update rfl (fun _ => rfl) id (by rintro q ⟨⟩)

/-- A trigger that starts leaves every execution alone. -/
theorem sameAt_of_trigger {environmentID : UUID} {input : TriggerEventInput}
    (hi : v.phases i = none) :
    SameAt x v ⟨v.world, Function.update v.phases i
      (some (.trigger environmentID input, (.ready, r)))⟩ := by
  refine sameAt_update rfl (fun _ => rfl) Iff.rfl ?_ ?_
  · intro q hq
    rw [hi] at hq
    cases hq
  · rintro q ⟨⟩
    rw [concerns_trigger]
    rintro ⟨u, n, ⟨⟩⟩

/-- Changes from outside leave every execution alone. -/
theorem sameAt_of_change (c : Change) : SameAt x v ⟨c.apply v.world, v.phases⟩ := by
  obtain ⟨hex, hsteps, hqueue, -⟩ := c.apply_frame v.world
  have hrows : ∀ n, (c.apply v.world).stepStatus x n = v.world.stepStatus x n := by
    intro n
    rw [World.stepStatus, World.stepStatus, hsteps]
  refine ⟨⟨by rw [hex], hrows, (noJob_congr hqueue).mpr, fun _ _ _ hj _ => hj, fun _ hj => hj⟩,
    ⟨by rw [hex], fun n => (hrows n).symm, (noJob_congr hqueue).mp, fun _ _ _ hj _ => hj,
      fun _ hj => hj⟩⟩

/-- A call of a trigger leaves the executions alone that it neither owes nor creates. -/
theorem sameAt_of_triggerMove {environmentID : UUID} {input : TriggerEventInput}
    {a : Answered Op.Res GoError} (hi : v.phases i = some (.trigger environmentID input, (p, r)))
    (hmove : TriggerMove s environmentID a p v.world p' w') (hp : ¬ ∃ u n, p = .owing x u n)
    (hc : ∀ row, Created row v.world w' → row.id ≠ x) :
    SameAt x v ⟨w', Function.update v.phases i (some (.trigger environmentID input, (p', r)))⟩ := by
  have hex : w'.executions.get x = v.world.executions.get x := by
    rcases hmove.executions with heq | ⟨row, hrow⟩
    · rw [heq]
    · have hne := hc row hrow
      obtain ⟨-, -, rfl⟩ := hrow
      exact Table.get_set_of_ne hne.symm
  have hjobs : NoJob w' x ↔ NoJob v.world x := by
    rcases hmove.queue with heq | ⟨y, u, n, rfl, heq⟩
    · exact noJob_congr heq
    · have hother : jobExecution ⟨environmentID.toString, y.toString, u.toString, n⟩ ≠ some x := by
        simp only [jobExecution, UUID.parse_trimSpace_toString]
        rintro ⟨⟩
        exact hp ⟨u, n, rfl⟩
      rw [show NoJob w' x ↔ _ from noJob_congr (w := { v.world with queue := _ }) heq,
        noJob_append]
      exact and_iff_left hother
  refine sameAt_update hex (fun n => ?_) hjobs ?_ ?_
  · rw [World.stepStatus, World.stepStatus, hmove.frame.2.1]
  · intro q hq
    rw [hi] at hq
    cases hq
    rwa [concerns_trigger]
  · rintro q ⟨⟩
    rw [concerns_trigger]
    rintro ⟨u, n, hp'⟩
    rcases hmove.owing hp' with ⟨hold, -⟩ | ⟨row, hrow, hx, -⟩
    · exact hp ⟨u, n, hold⟩
    · exact hc row hrow hx

end Steps

end Iwifunni.Workflow
