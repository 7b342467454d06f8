/-
Iwifunni/Effect/Schedule.lean

Runs that are computed.

A schedule says turn by turn which activity moves:

    start i l,  call i a,  finish i,  lose i

The next call of an activity is determined by its program, the answer by a
choice `a`: which value is drawn, whether the call fails.  A `Player` knows
what a choice comes to, and it tests every event before it happens.  What it
plays is a run of the machine (`Player.run_of_play`), so that a run with many
activities is found by evaluation, and only its end has to be looked at.
-/
import Iwifunni.Effect.Pool

namespace Effect

variable {W L Ev Op : Type} {Res : Op → Type} {E α A : Type}

/-- The outcome of a program that has ended. -/
def Prog.ended? : Prog Res E α → Option (Except E α)
  | .ret a => some (.ok a)
  | .fail e => some (.error e)
  | .call _ _ => none

theorem Prog.ended_eq_some {p : Prog Res E α} {out : Except E α} (h : p.ended? = some out) :
    p = ofExcept out := by
  cases p with
  | ret a =>
      cases h
      rfl
  | fail e =>
      cases h
      rfl
  | call op k => cases h

/-- The label and the outcome of an activity that has ended but is not closed yet. -/
def Pool.result (s : Pool W L Res E α) (i : ℕ) : Option (L × Except E α) :=
  (s.threads i).bind fun t => t.prog.ended?.map fun r => (t.label, r)

theorem Pool.thread_of_result {s : Pool W L Res E α} {i : ℕ} {l : L} {r : Except E α}
    (h : s.result i = some (l, r)) : ∃ tr, s.threads i = some ⟨l, tr, Prog.ofExcept r⟩ := by
  obtain ⟨⟨l', tr, p⟩, hi, ht⟩ := Option.bind_eq_some_iff.mp h
  obtain ⟨r', hr, hl⟩ := Option.map_eq_some_iff.mp ht
  cases hl
  rw [← Prog.ended_eq_some hr]
  exact ⟨tr, hi⟩

/-- One turn of a schedule. -/
inductive Turn (L A : Type) : Type
  | start (i : ℕ) (l : L)
  | call (i : ℕ) (a : A)
  | finish (i : ℕ)
  | lose (i : ℕ)

/-- The next calls of one activity, answered by the given choices. -/
def Turn.calls (i : ℕ) (as : List A) : List (Turn L A) := as.map (.call i)

/-- A player of schedules for a machine whose world is changed by calls only.  The
events it lets happen meet the condition `C`. -/
structure Player (M : Machine W L Ev Res E α)
    (C : Pool W L Res E α → Event L Ev Res E α → Prop) (A : Type) where
  /-- What a choice comes to. -/
  serve : A → (op : Op) → W → Option (Except E (Res op) × W)
  test : Pool W L Res E α → Event L Ev Res E α → Bool
  serve_sem : ∀ {a op w r w'}, serve a op w = some (r, w') → M.sem op w r w'
  cond_of_test : ∀ {s e}, test s e = true → C s e
  spawn : ∀ l w, M.spawn l w w
  close : ∀ l r w, M.close l r w w
  drop : ∀ l w, M.lose l w w

namespace Player

variable {M : Machine W L Ev Res E α} {C : Pool W L Res E α → Event L Ev Res E α → Prop}

/-- Let an event happen if it passes the test. -/
def allow (p : Player M C A) (s : Pool W L Res E α) (e : Event L Ev Res E α)
    (s' : Pool W L Res E α) : Option (Event L Ev Res E α × Pool W L Res E α) :=
  if p.test s e then some (e, s') else none

/-- The event of a turn, and the pool after it. -/
def take (p : Player M C A) (s : Pool W L Res E α) :
    Turn L A → Option (Event L Ev Res E α × Pool W L Res E α)
  | .start i l => match s.threads i with
    | none => p.allow s (.start i l)
        ⟨s.world, Function.update s.threads i (some ⟨l, [], M.body l⟩)⟩
    | some _ => none
  | .call i a => match s.threads i with
    | some ⟨l, tr, .call op k⟩ => match p.serve a op s.world with
      | some (r, w') => p.allow s (.call i ⟨op, r⟩)
          ⟨w', Function.update s.threads i (some ⟨l, tr ++ [⟨op, r⟩], k r⟩)⟩
      | none => none
    | _ => none
  | .finish i => match s.threads i with
    | some t => match t.prog.ended? with
      | some r => p.allow s (.finish i r) ⟨s.world, Function.update s.threads i none⟩
      | none => none
    | none => none
  | .lose i => match s.threads i with
    | some _ => p.allow s (.lose i) ⟨s.world, Function.update s.threads i none⟩
    | none => none

/-- Play a schedule: the events, and the pool at the end. -/
def play (p : Player M C A) :
    List (Turn L A) → Pool W L Res E α → Option (List (Event L Ev Res E α) × Pool W L Res E α)
  | [], s => some ([], s)
  | t :: ts, s => (p.take s t).bind fun x =>
      (p.play ts x.2).map fun y => (x.1 :: y.1, y.2)

variable {p : Player M C A}

theorem allow_eq_some {s s' : Pool W L Res E α} {e} {x}
    (h : p.allow s e s' = some x) : C s e ∧ x = (e, s') := by
  unfold allow at h
  split at h
  · next htest =>
      cases h
      exact ⟨p.cond_of_test htest, rfl⟩
  · cases h

/-- A turn is a step that meets the condition. -/
theorem step_of_take {s : Pool W L Res E α} {t : Turn L A} {x} (h : p.take s t = some x) :
    C s x.1 ∧ Step M s x.1 x.2 := by
  obtain ⟨w, ts⟩ := s
  -- a turn is taken only if the activity is there, and at the point the turn needs
  cases t with
  | start i l =>
      rcases hi : ts i with - | t
      · simp only [take, hi] at h
        obtain ⟨hc, rfl⟩ := allow_eq_some h
        exact ⟨hc, .start hi (p.spawn l w)⟩
      · simp only [take, hi, reduceCtorEq] at h
  | call i a =>
      rcases hi : ts i with - | ⟨l, tr, _ | _ | ⟨op, k⟩⟩
      · simp only [take, hi, reduceCtorEq] at h
      · simp only [take, hi, reduceCtorEq] at h
      · simp only [take, hi, reduceCtorEq] at h
      · simp only [take, hi] at h
        rcases hs : p.serve a op w with - | ⟨r, w'⟩
        · simp only [hs, reduceCtorEq] at h
        · simp only [hs] at h
          obtain ⟨hc, rfl⟩ := allow_eq_some h
          exact ⟨hc, .call hi (p.serve_sem hs)⟩
  | finish i =>
      rcases hi : ts i with - | ⟨l, tr, q⟩
      · simp only [take, hi, reduceCtorEq] at h
      · simp only [take, hi] at h
        rcases hq : q.ended? with - | r
        · simp only [hq, reduceCtorEq] at h
        · simp only [hq] at h
          obtain ⟨hc, rfl⟩ := allow_eq_some h
          rw [Prog.ended_eq_some hq] at hi
          exact ⟨hc, .finish hi (p.close l r w)⟩
  | lose i =>
      rcases hi : ts i with - | t
      · simp only [take, hi, reduceCtorEq] at h
      · simp only [take, hi] at h
        obtain ⟨hc, rfl⟩ := allow_eq_some h
        exact ⟨hc, .lose hi (p.drop t.label w)⟩

/-- **What is played is a run.** -/
theorem run_of_play {ts : List (Turn L A)} {s s' : Pool W L Res E α} {evs}
    (h : p.play ts s = some (evs, s')) : Run M C s evs s' := by
  induction ts generalizing s evs with
  | nil =>
      cases h
      exact .nil _
  | cons t ts ih =>
      obtain ⟨x, hx, hy⟩ := Option.bind_eq_some_iff.mp h
      obtain ⟨y, hplay, hy⟩ := Option.map_eq_some_iff.mp hy
      cases hy
      obtain ⟨hc, hs⟩ := step_of_take hx
      exact (Run.single hc hs).trans (ih hplay)

/-- A schedule whose end passes a check leads, in a run, to a pool that does. -/
theorem run_of_check (ts : List (Turn L A)) (s : Pool W L Res E α)
    (check : List (Event L Ev Res E α) → Pool W L Res E α → Bool)
    (h : ((p.play ts s).any fun x => check x.1 x.2) = true) :
    ∃ evs s', Run M C s evs s' ∧ check evs s' = true := by
  rcases hplay : p.play ts s with - | ⟨evs, s'⟩
  · rw [hplay] at h
    cases h
  · rw [hplay] at h
    exact ⟨evs, s', run_of_play hplay, h⟩

/-- A schedule and one more turn, which passes a check. -/
theorem step_of_check (ts : List (Turn L A)) (t : Turn L A) (s : Pool W L Res E α)
    (check : Pool W L Res E α → Event L Ev Res E α → Pool W L Res E α → Bool)
    (h : ((p.play ts s).any fun x => (p.take x.2 t).any fun y => check x.2 y.1 y.2) = true) :
    ∃ evs s₁ e s₂, Run M C s evs s₁ ∧ C s₁ e ∧ Step M s₁ e s₂ ∧ check s₁ e s₂ = true := by
  rcases hplay : p.play ts s with - | ⟨evs, s₁⟩
  · rw [hplay] at h
    cases h
  rcases htake : p.take s₁ t with - | ⟨e, s₂⟩
  · simp only [hplay, Option.any_some, htake, Option.any_none, Bool.false_eq_true] at h
  · simp only [hplay, Option.any_some, htake] at h
    obtain ⟨hc, hs⟩ := step_of_take htake
    exact ⟨evs, s₁, e, s₂, run_of_play hplay, hc, hs, h⟩

end Player

end Effect
