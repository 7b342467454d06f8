/-
Iwifunni/Effect/Ensures.lean

What a program makes sure of, whatever its calls answer.

`Ensures sem Q p w` says that every run of `p` from `w` on that comes to an end does so as
`Q` says.  The rules follow the program: a call is gone through for every answer the world
may give, a composition by way of an assertion in the middle.
-/
import Iwifunni.Effect.Prog

namespace Effect

namespace Prog

variable {Op : Type} {Res : Op → Type} {E α β W : Type}

/-- Every way a program can go from a world on ends as `Q` says. -/
def Ensures (sem : Sem Res E W) (Q : Except E α → W → Prop) : Prog Res E α → W → Prop
  | ret a, w => Q (.ok a) w
  | fail e, w => Q (.error e) w
  | call op k, w => ∀ r w', sem op w r w' → Ensures sem Q (k r) w'

variable {sem : Sem Res E W} {Q Q' : Except E α → W → Prop} {w : W}

@[simp] theorem ensures_ret {a : α} :
    Ensures sem Q (.ret a : Prog Res E α) w ↔ Q (.ok a) w := Iff.rfl

@[simp] theorem ensures_fail {e : E} :
    Ensures sem Q (.fail e : Prog Res E α) w ↔ Q (.error e) w := Iff.rfl

theorem ensures_call {op : Op} {k : Except E (Res op) → Prog Res E α} :
    Ensures sem Q (.call op k) w ↔ ∀ r w', sem op w r w' → Ensures sem Q (k r) w' := Iff.rfl

@[simp] theorem ensures_ofExcept {out : Except E α} :
    Ensures sem Q (ofExcept out : Prog Res E α) w ↔ Q out w := by
  cases out <;> exact Iff.rfl

theorem Ensures.mono {p : Prog Res E α} (h : Ensures sem Q p w)
    (hQ : ∀ out w, Q out w → Q' out w) : Ensures sem Q' p w := by
  induction p generalizing w with
  | ret a => exact hQ _ _ h
  | fail e => exact hQ _ _ h
  | call op k ih => exact fun r w' hs => ih r (h r w' hs)

/-- Composition: what the first program makes sure of is what the second one needs. -/
theorem Ensures.bind {R : Except E β → W → Prop} {p : Prog Res E α} {f : α → Prog Res E β}
    (h : Ensures sem Q p w) (hok : ∀ a w, Q (.ok a) w → Ensures sem R (f a) w)
    (herr : ∀ e w, Q (.error e) w → R (.error e) w) : Ensures sem R (p >>= f) w := by
  induction p generalizing w with
  | ret a => exact hok _ _ h
  | fail e => exact herr _ _ h
  | call op k ih => exact fun r w' hs => ih r (h r w' hs)

/-- A call that is asked, whatever it answers. -/
theorem ensures_ask_bind {Q : Except E β → W → Prop} {op : Op}
    {f : Except E (Res op) → Prog Res E β}
    (h : ∀ r w', sem op w r w' → Ensures sem Q (f r) w') : Ensures sem Q (ask op >>= f) w := h

/-! ### Calls that succeed -/

/-- From `w` on the call answers `.ok`, with a value and in a world as `R` says. -/
def Gives (sem : Sem Res E W) (op : Op) (w : W) (R : Res op → W → Prop) : Prop :=
  ∀ r w', sem op w r w' → ∃ a, r = .ok a ∧ R a w'

theorem Gives.perform_bind {Q : Except E β → W → Prop} {op : Op} {R : Res op → W → Prop}
    {f : Res op → Prog Res E β} (h : Gives sem op w R)
    (hf : ∀ a w', R a w' → Ensures sem Q (f a) w') : Ensures sem Q (perform op >>= f) w := by
  intro r w' hs
  obtain ⟨a, rfl, hR⟩ := h r w' hs
  exact hf a w' hR

theorem Gives.ask_bind {Q : Except E β → W → Prop} {op : Op} {R : Res op → W → Prop}
    {f : Except E (Res op) → Prog Res E β} (h : Gives sem op w R)
    (hf : ∀ a w', R a w' → Ensures sem Q (f (.ok a)) w') : Ensures sem Q (ask op >>= f) w := by
  intro r w' hs
  obtain ⟨a, rfl, hR⟩ := h r w' hs
  exact hf a w' hR

theorem Gives.perform {op : Op} {R : Res op → W → Prop} (h : Gives sem op w R) :
    Ensures sem (fun out w' => ∃ a, out = .ok a ∧ R a w') (Prog.perform op) w := by
  intro r w' hs
  obtain ⟨a, rfl, hR⟩ := h r w' hs
  exact ⟨a, rfl, hR⟩

-- programs are gone through by the rules above, never by evaluating them
attribute [irreducible] Ensures

end Prog

end Effect
