/-
Iwifunni/Effect/Lockstep.lean

Two programs side by side.

Two programs run in lockstep if, on corresponding answers, they make
corresponding calls and end in corresponding values.  What corresponds is given
by a relation on calls and, for two calls, a relation on their answers; errors
correspond only to themselves.

Statements about two runs of a program are proved in two parts that do not meet:

    the program is in lockstep with itself (`Lockstep.refl`, `Lockstep.bind`)
    two worlds give corresponding answers, and stay related (`Lockstep.drive`)
-/
import Iwifunni.Effect.Prog

namespace Effect.Prog

variable {Op : Type} {Res : Op → Type} {E α β γ δ : Type}

/-- Two programs that make calls related by `S` and return values related by `V`,
as long as the answers to related calls are related by `U`. -/
inductive Lockstep (S : Op → Op → Prop) (U : (op op' : Op) → Res op → Res op' → Prop)
    (V : α → β → Prop) : Prog Res E α → Prog Res E β → Prop
  | ret {a b} : V a b → Lockstep S U V (.ret a) (.ret b)
  | fail (e) : Lockstep S U V (.fail e) (.fail e)
  | call {op op' k k'} : S op op' →
      (∀ a b, U op op' a b → Lockstep S U V (k (.ok a)) (k' (.ok b))) →
      (∀ e, Lockstep S U V (k (.error e)) (k' (.error e))) →
      Lockstep S U V (.call op k) (.call op' k')

/-- Two outcomes: related values, or the same error. -/
def Agree (V : α → β → Prop) : Except E α → Except E β → Prop
  | .ok a, .ok b => V a b
  | .error e, .error e' => e = e'
  | _, _ => False

variable {S : Op → Op → Prop} {U : (op op' : Op) → Res op → Res op' → Prop}
  {V : α → β → Prop} {V' : γ → δ → Prop}

@[simp] theorem agree_ok (a : α) (b : β) :
    Agree (E := E) V (.ok a) (.ok b) ↔ V a b := Iff.rfl

@[simp] theorem agree_error (e e' : E) :
    Agree V (.error e) (.error e') ↔ e = e' := Iff.rfl

/-- Outcomes that agree on equality are equal. -/
theorem Agree.eq {r r' : Except E α} (h : Agree Eq r r') : r = r' := by
  cases r <;> cases r' <;> first | exact congrArg _ h | exact h.elim

theorem agree_refl (r : Except E α) : Agree Eq r r := by
  cases r <;> rfl

theorem Agree.mono {V₁ : α → β → Prop} (hV : ∀ a b, V a b → V₁ a b) {r : Except E α}
    {r' : Except E β} (h : Agree V r r') : Agree V₁ r r' := by
  rcases r with e | a <;> rcases r' with e' | b
  · exact h
  · exact h
  · exact h
  · exact hV a b h

/-! ### Building lockstep pairs -/

theorem lockstep_ofExcept {r : Except E α} {r' : Except E β} (h : Agree V r r') :
    Lockstep S U V (ofExcept r : Prog Res E α) (ofExcept r') := by
  rcases r with e | a <;> rcases r' with e' | b
  · cases h
    exact .fail e
  · exact h.elim
  · exact h.elim
  · exact .ret h

theorem Lockstep.bind {p : Prog Res E α} {q : Prog Res E β} {f : α → Prog Res E γ}
    {g : β → Prog Res E δ} (h : Lockstep S U V p q)
    (hfg : ∀ a b, V a b → Lockstep S U V' (f a) (g b)) :
    Lockstep S U V' (p >>= f) (q >>= g) := by
  induction h with
  | ret hv => exact hfg _ _ hv
  | fail e => exact .fail e
  | call hs _ _ ihok iherr => exact .call hs ihok iherr

theorem Lockstep.outcome {p : Prog Res E α} {q : Prog Res E β} (h : Lockstep S U V p q) :
    Lockstep S U (Agree V) p.outcome q.outcome := by
  induction h with
  | ret hv => exact .ret hv
  | fail e => exact .ret rfl
  | call hs _ _ ihok iherr => exact .call hs ihok iherr

theorem Lockstep.mono {V₁ : α → β → Prop} (hV : ∀ a b, V a b → V₁ a b) {p : Prog Res E α}
    {q : Prog Res E β} (h : Lockstep S U V p q) : Lockstep S U V₁ p q := by
  induction h with
  | ret hv => exact .ret (hV _ _ hv)
  | fail e => exact .fail e
  | call hs _ _ ihok iherr => exact .call hs ihok iherr

theorem lockstep_ask {op op' : Op} (h : S op op') :
    Lockstep S U (Agree (E := E) (U op op')) (ask op) (ask op') :=
  .call h (fun _ _ hu => .ret hu) fun _ => .ret rfl

theorem lockstep_perform {op op' : Op} (h : S op op') :
    Lockstep (E := E) S U (U op op') (perform op) (perform op') :=
  .call h (fun _ _ hu => .ret hu) fun e => .fail e

/-- A program is in lockstep with itself if corresponding answers to its calls are
equal. -/
theorem Lockstep.refl {P : Op → Prop} {p : Prog Res E α} (hp : Calls P p)
    (hS : ∀ op, P op → S op op) (hU : ∀ op a b, P op → U op op a b → a = b) :
    Lockstep S U Eq p p := by
  induction p with
  | ret a => exact .ret rfl
  | fail e => exact .fail e
  | call op k ih =>
      refine .call (hS op hp.1) (fun a b hu => ?_) fun e => ih _ (hp.2 _)
      rw [hU op a b hp.1 hu]
      exact ih _ (hp.2 _)

/-! ### Driving a pair -/

/-- **Worlds that give corresponding answers lead to corresponding outcomes.** -/
theorem Lockstep.drive {W W' : Type} {R : W → W' → Prop}
    {answer : (op : Op) → W → Except E (Res op) × W}
    {answer' : (op : Op) → W' → Except E (Res op) × W'}
    (hR : ∀ op op' w w', S op op' → R w w' →
      Agree (U op op') (answer op w).1 (answer' op' w').1 ∧
        R (answer op w).2 (answer' op' w').2)
    {p : Prog Res E α} {q : Prog Res E β} (h : Lockstep S U V p q) {w : W} {w' : W'}
    (hw : R w w') :
    Agree V (p.drive answer w).2.1 (q.drive answer' w').2.1 ∧
      R (p.drive answer w).2.2 (q.drive answer' w').2.2 := by
  induction h generalizing w w' with
  | ret hv => exact ⟨hv, hw⟩
  | fail e => exact ⟨rfl, hw⟩
  | @call op op' k k' hs _ _ ihok iherr =>
      obtain ⟨hans, hnext⟩ := hR op op' w w' hs hw
      show Agree V ((k (answer op w).1).drive answer (answer op w).2).2.1
          ((k' (answer' op' w').1).drive answer' (answer' op' w').2).2.1 ∧ _
      rcases hr : (answer op w).1 with e | a <;> rcases hr' : (answer' op' w').1 with e' | b
      · rw [hr, hr'] at hans
        cases hans
        have := iherr e hnext
        simpa only [Prog.drive, hr, hr'] using this
      · rw [hr, hr'] at hans
        exact hans.elim
      · rw [hr, hr'] at hans
        exact hans.elim
      · rw [hr, hr'] at hans
        have := ihok a b hans hnext
        simpa only [Prog.drive, hr, hr'] using this

end Effect.Prog
