/-
Iwifunni/Effect/Protocol.lean

What the calls of a program look like from outside.

A protocol is an automaton over answered calls.  It says in which phase a
program is after the calls it has made so far, which calls it may make next,
which answers have to be reckoned with, and with which outcome it may end:

    init l  --⟨op₁, r₁⟩-->  s₁  --⟨op₂, r₂⟩-->  s₂  ...  sₙ  ends in  out

The label `l` stands for the task the program was started for.  `Prog.Keeps`
says that a program stays inside the protocol whatever the answers are; it is
proved by following the program's text, and it is all that the reasoning about
shared state (`Effect.Pool`) needs to know of the program.
-/
import Iwifunni.Effect.Prog

namespace Effect

variable {L Op : Type} {Res : Op → Type} {E α β σ : Type}

/-- A protocol for programs started under labels in `L`. -/
structure Protocol (L : Type) {Op : Type} (Res : Op → Type) (E α σ : Type) where
  /-- The phase before the first call. -/
  init : L → σ
  /-- The answers a program has to be prepared for. -/
  expects : L → σ → Answered Res E → Prop
  /-- The phase after one more answered call; `none` if the call is not allowed. -/
  next : L → σ → Answered Res E → Option σ
  /-- The outcomes a program may end with. -/
  ends : L → σ → Except E α → Prop

namespace Protocol

/-- The phase after a list of answered calls. -/
def track (P : Protocol L Res E α σ) (l : L) : σ → List (Answered Res E) → Option σ
  | s, [] => some s
  | s, a :: tr => (P.next l s a).bind fun s' => P.track l s' tr

/-- Two protocols side by side. -/
def prod {τ : Type} (P : Protocol L Res E α σ) (Q : Protocol L Res E α τ) :
    Protocol L Res E α (σ × τ) where
  init l := (P.init l, Q.init l)
  expects l s a := P.expects l s.1 a ∧ Q.expects l s.2 a
  next l s a := (P.next l s.1 a).bind fun p => (Q.next l s.2 a).map fun q => (p, q)
  ends l s out := P.ends l s.1 out ∧ Q.ends l s.2 out

variable {P : Protocol L Res E α σ} {l : L}

/-- One step of two protocols is a step of each. -/
theorem prod_next_eq_some {τ : Type} {Q : Protocol L Res E α τ} {s s' : σ} {t t' : τ}
    {a : Answered Res E} :
    (P.prod Q).next l (s, t) a = some (s', t') ↔
      P.next l s a = some s' ∧ Q.next l t a = some t' := by
  simp only [prod, Option.bind_eq_some_iff, Option.map_eq_some_iff, Prod.mk.injEq]
  constructor
  · rintro ⟨p, hp, q, hq, rfl, rfl⟩
    exact ⟨hp, hq⟩
  · rintro ⟨hp, hq⟩
    exact ⟨s', hp, t', hq, rfl, rfl⟩

@[simp] theorem track_nil (s : σ) : P.track l s [] = some s := rfl

/-- One more call is tracked. -/
theorem track_concat {s s' s'' : σ} {tr : List (Answered Res E)} {a : Answered Res E}
    (h : P.track l s tr = some s') (ha : P.next l s' a = some s'') :
    P.track l s (tr ++ [a]) = some s'' := by
  induction tr generalizing s with
  | nil =>
      cases h
      simp only [List.nil_append, track, ha, Option.bind_some]
  | cons b tr ih =>
      simp only [track, List.cons_append] at h ⊢
      rcases hb : P.next l s b with - | s₁
      · simp only [hb, Option.bind_none, reduceCtorEq] at h
      · simp only [hb, Option.bind_some] at h ⊢
        exact ih h

end Protocol

namespace Prog

/-- `Keeps P l post p s`: from phase `s` on, the program `p` makes only calls
that `P` allows, and it ends only in outcomes that satisfy `post`. -/
def Keeps (P : Protocol L Res E α σ) (l : L) (post : σ → Except E β → Prop) :
    Prog Res E β → σ → Prop
  | ret a, s => post s (.ok a)
  | fail e, s => post s (.error e)
  | call op k, s => ∀ r, P.expects l s ⟨op, r⟩ →
      ∃ s', P.next l s ⟨op, r⟩ = some s' ∧ Keeps P l post (k r) s'

variable {P : Protocol L Res E α σ} {l : L} {post : σ → Except E β → Prop}

@[simp] theorem keeps_ret {a : β} {s : σ} :
    Keeps P l post (.ret a) s ↔ post s (.ok a) := Iff.rfl

@[simp] theorem keeps_fail {e : E} {s : σ} :
    Keeps P l post (.fail e) s ↔ post s (.error e) := Iff.rfl

@[simp] theorem keeps_ofExcept {out : Except E β} {s : σ} :
    Keeps P l post (ofExcept out) s ↔ post s out := by
  cases out <;> rfl

/-- A call, then the rest for every expected answer. -/
theorem keeps_call {op : Op} {k : Except E (Res op) → Prog Res E β} {s : σ} :
    Keeps P l post (.call op k) s ↔ ∀ r, P.expects l s ⟨op, r⟩ →
      ∃ s', P.next l s ⟨op, r⟩ = some s' ∧ Keeps P l post (k r) s' := Iff.rfl

/-- A weaker postcondition. -/
theorem keeps_mono {post' : σ → Except E β → Prop}
    (hpost : ∀ s out, post s out → post' s out) {p : Prog Res E β} {s : σ}
    (h : Keeps P l post p s) : Keeps P l post' p s := by
  induction p generalizing s with
  | ret a => exact hpost _ _ h
  | fail e => exact hpost _ _ h
  | call op k ih =>
      intro r hr
      obtain ⟨s', hs, hk⟩ := h r hr
      exact ⟨s', hs, ih r hk⟩

/-- Sequential composition: the second program starts in a phase in which the
first one may return. -/
theorem keeps_bind {γ : Type} {mid : σ → Except E γ → Prop} {p : Prog Res E γ}
    {f : γ → Prog Res E β} {s : σ} (hp : Keeps P l mid p s)
    (hok : ∀ s' a, mid s' (.ok a) → Keeps P l post (f a) s')
    (herr : ∀ s' e, mid s' (.error e) → post s' (.error e)) :
    Keeps P l post (p >>= f) s := by
  induction p generalizing s with
  | ret a => exact hok _ _ hp
  | fail e => exact herr _ _ hp
  | call op k ih =>
      intro r hr
      obtain ⟨s', hs, hk⟩ := hp r hr
      exact ⟨s', hs, ih r hk⟩

/-- `perform op` followed by more: an error answer ends the program. -/
theorem keeps_perform_bind {op : Op} {f : Res op → Prog Res E β} {s : σ}
    (hok : ∀ a, P.expects l s ⟨op, .ok a⟩ →
      ∃ s', P.next l s ⟨op, .ok a⟩ = some s' ∧ Keeps P l post (f a) s')
    (herr : ∀ e, P.expects l s ⟨op, .error e⟩ →
      ∃ s', P.next l s ⟨op, .error e⟩ = some s' ∧ post s' (.error e)) :
    Keeps P l post (perform op >>= f) s := by
  intro r hr
  cases r with
  | ok a => exact hok a hr
  | error e => exact herr e hr

/-- `ask op` followed by more: every answer is handed on. -/
theorem keeps_ask_bind {op : Op} {f : Except E (Res op) → Prog Res E β} {s : σ}
    (h : ∀ r, P.expects l s ⟨op, r⟩ →
      ∃ s', P.next l s ⟨op, r⟩ = some s' ∧ Keeps P l post (f r) s') :
    Keeps P l post (ask op >>= f) s := h

/-- A program that keeps two protocols keeps them side by side. -/
theorem keeps_prod {τ : Type} {Q : Protocol L Res E α τ} {post' : τ → Except E β → Prop}
    {p : Prog Res E β} {s : σ} {t : τ} (hp : Keeps P l post p s) (hq : Keeps Q l post' p t) :
    Keeps (P.prod Q) l (fun st out => post st.1 out ∧ post' st.2 out) p (s, t) := by
  induction p generalizing s t with
  | ret a => exact ⟨hp, hq⟩
  | fail e => exact ⟨hp, hq⟩
  | call op k ih =>
      intro r hr
      obtain ⟨s', hs, hp'⟩ := hp r hr.1
      obtain ⟨t', ht, hq'⟩ := hq r hr.2
      refine ⟨(s', t'), ?_, ih r hp' hq'⟩
      show (P.next l s ⟨op, r⟩).bind _ = _
      rw [hs, Option.bind_some, ht, Option.map_some]

/-- A program all of whose calls are of a kind that moves phases along `R` only. -/
theorem keeps_of_calls {Q : Op → Prop} {R : σ → σ → Prop} (hrefl : ∀ s, R s s)
    (htrans : ∀ s s' s'', R s s' → R s' s'' → R s s'')
    (hnext : ∀ op r s, Q op → P.expects l s ⟨op, r⟩ →
      ∃ s', P.next l s ⟨op, r⟩ = some s' ∧ R s s')
    {p : Prog Res E β} (hp : Calls Q p) (s : σ) : Keeps P l (fun s' _ => R s s') p s := by
  induction p generalizing s with
  | ret a => exact hrefl s
  | fail e => exact hrefl s
  | call op k ih =>
      intro r hr
      obtain ⟨s', hs, hR⟩ := hnext op r s hp.1 hr
      exact ⟨s', hs, keeps_mono (fun s'' _ h => htrans s s' s'' hR h) (ih r (hp.2 r) s')⟩

-- programs are taken apart by the rules above, never by evaluating them
attribute [irreducible] Keeps

end Prog

end Effect
