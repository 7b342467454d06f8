/-
Iwifunni/Effect/Sequence.lean

Activities one after the other.

A visit is one activity on a world that is otherwise left alone: the world it
found, the calls it made, and what was left of its program (nothing more than
the outcome, unless it was cut short).  A sequence of visits

    w₀  --visit 1-->  w₁  --visit 2-->  w₂  ...

is what a server does for callers that wait for each other.  What a visit does
is proved by following its program through a protocol (`Keeps.runs`), and what
every visit preserves holds at the end of the sequence (`Visits.invariant`).
-/
import Iwifunni.Effect.Protocol

namespace Effect

variable {W L Op : Type} {Res : Op → Type} {E α β σ : Type}

/-! ### Runs through a protocol -/

namespace Prog

variable {P : Protocol L Res E α σ} {l : L} {post : σ → Except E β → Prop} {sem : Sem Res E W}

/-- **A run keeps what every call preserves.**  The invariant may speak of the calls so far,
of the phase and of the world, and it may be used to show that the next answer is an
expected one. -/
theorem Keeps.runs {I : List (Answered Res E) → σ → W → Prop}
    (hexp : ∀ tr st w op r w', I tr st w → sem op w r w' → P.expects l st ⟨op, r⟩)
    (hstep : ∀ tr st w op r st' w', I tr st w → P.next l st ⟨op, r⟩ = some st' → sem op w r w' →
      I (tr ++ [⟨op, r⟩]) st' w')
    {p p' : Prog Res E β} {w w' : W} {tr tr₀ st} (hrun : Runs sem p w tr p' w')
    (hp : Keeps P l post p st) (hI : I tr₀ st w) :
    ∃ st', I (tr₀ ++ tr) st' w' ∧ Keeps P l post p' st' := by
  induction hrun generalizing tr₀ st with
  | stop =>
      rw [List.append_nil]
      exact ⟨st, hI, hp⟩
  | call hs _ ih =>
      obtain ⟨st₁, hnext, hp'⟩ := keeps_call.mp hp _ (hexp _ _ _ _ _ _ hI hs)
      obtain ⟨st', hI', hk⟩ := ih hp' (hstep _ _ _ _ _ _ _ hI hnext hs)
      rw [List.append_assoc] at hI'
      exact ⟨st', hI', hk⟩

/-- **One protocol follows another.**  A program that keeps `Q` keeps `P`, if every phase of
`Q` is matched by a phase of `P` as long as the program makes calls of a certain kind. -/
theorem keeps_follow {α' τ : Type} {Q : Protocol L Res E α' τ} {post' : τ → Except E β → Prop}
    {R : τ → σ → Prop} {ok : Op → Prop}
    (hexp : ∀ t s a, R t s → P.expects l s a → Q.expects l t a)
    (hnext : ∀ t s op r t', R t s → ok op → Q.next l t ⟨op, r⟩ = some t' →
      ∃ s', P.next l s ⟨op, r⟩ = some s' ∧ R t' s')
    (hpost : ∀ t s out, R t s → post' t out → post s out)
    {p : Prog Res E β} {t : τ} {s : σ} (hok : Calls ok p) (hq : Keeps Q l post' p t)
    (hR : R t s) : Keeps P l post p s := by
  induction p generalizing t s with
  | ret a => exact keeps_ret.mpr (hpost t s _ hR (keeps_ret.mp hq))
  | fail e => exact keeps_fail.mpr (hpost t s _ hR (keeps_fail.mp hq))
  | call op k ih =>
      refine keeps_call.mpr fun r hr => ?_
      obtain ⟨t', ht, hq'⟩ := keeps_call.mp hq r (hexp t s _ hR hr)
      obtain ⟨s', hs, hR'⟩ := hnext t s op r t' hR hok.1 ht
      exact ⟨s', hs, ih r (hok.2 r) hq' hR'⟩

end Prog

/-! ### Visits -/

/-- One activity: its label, the world it found, the calls it made, and what is left of
its program. -/
structure Visit (W L : Type) {Op : Type} (Res : Op → Type) (E α : Type) where
  label : L
  before : W
  log : List (Answered Res E)
  rest : Prog Res E α

section Visits

variable (body : L → Prog Res E α) (sem : Prog.Sem Res E W)

/-- The visit happens, and leaves the world `w`. -/
def Visit.Leaves (v : Visit W L Res E α) (w : W) : Prop :=
  Prog.Runs sem (body v.label) v.before v.log v.rest w

/-- Visits one after the other, all of which meet the condition `C`. -/
inductive Visits (C : Visit W L Res E α → Prop) : W → List (Visit W L Res E α) → W → Prop
  | nil (w) : Visits C w [] w
  | snoc {w vs v w'} : Visits C w vs v.before → C v → v.Leaves body sem w' →
      Visits C w (vs ++ [v]) w'

variable {body sem}

/-- What every visit preserves holds at the end of a sequence. -/
theorem Visits.invariant {C : Visit W L Res E α → Prop} {I : List (Visit W L Res E α) → W → Prop}
    (hstep : ∀ vs v w, I vs v.before → C v → v.Leaves body sem w → I (vs ++ [v]) w)
    {w w' : W} {vs} (h : Visits body sem C w vs w') (h0 : I [] w) : I vs w' := by
  induction h with
  | nil => exact h0
  | snoc _ hc hv ih => exact hstep _ _ _ ih hc hv

/-! ### Visits that are computed -/

variable (body) in
/-- A visit to a world that answers every call, and the world it leaves. -/
def visit (answer : (op : Op) → W → Except E (Res op) × W) (l : L) (w : W) :
    Visit W L Res E α × W :=
  let d := (body l).drive answer w
  (⟨l, w, d.1, Prog.ofExcept d.2.1⟩, d.2.2)

variable (body) in
/-- A sequence of visits, of the given labels. -/
def visits (answer : (op : Op) → W → Except E (Res op) × W) :
    List L → W → List (Visit W L Res E α) × W
  | [], w => ([], w)
  | l :: ls, w =>
      let v := visit body answer l w
      let vs := visits answer ls v.2
      (v.1 :: vs.1, vs.2)

variable {answer : (op : Op) → W → Except E (Res op) × W}

theorem leaves_visit (ha : ∀ op w, sem op w (answer op w).1 (answer op w).2) (l : L) (w : W) :
    (visit body answer l w).1.Leaves body sem (visit body answer l w).2 :=
  Prog.runs_drive ha (body l) w

/-- The computed visits have the given labels. -/
theorem label_of_mem_visits {ls : List L} {v : Visit W L Res E α} {w : W}
    (h : v ∈ (visits body answer ls w).1) : v.label ∈ ls := by
  induction ls generalizing w with
  | nil => cases h
  | cons l ls ih =>
      rcases List.mem_cons.mp h with rfl | h
      · exact List.mem_cons_self ..
      · exact List.mem_cons_of_mem _ (ih h)

/-- **What is computed is a sequence of visits.** -/
theorem visits_of_computed {C : Visit W L Res E α → Prop}
    (ha : ∀ op w, sem op w (answer op w).1 (answer op w).2) {w₀ w : W} (ls : List L)
    {vs : List (Visit W L Res E α)} (h : Visits body sem C w₀ vs w)
    (hC : ∀ v ∈ (visits body answer ls w).1, C v) :
    Visits body sem C w₀ (vs ++ (visits body answer ls w).1) (visits body answer ls w).2 := by
  induction ls generalizing vs w with
  | nil => rwa [visits, List.append_nil]
  | cons l ls ih =>
      have hsnoc := Visits.snoc h (hC _ (List.mem_cons_self ..)) (leaves_visit ha l w)
      have hrest := ih hsnoc fun v hv => hC v (List.mem_cons_of_mem _ hv)
      rwa [List.append_assoc, List.singleton_append] at hrest

end Visits

end Effect
