/-
Iwifunni/Effect/Prog.lean

Sequential programs over an operation signature.

A program is a finite tree: it returns a value, stops with an error, or makes
one call and continues with whatever the call answers.  What a call *does* is
left open; a program only fixes which calls are made, in which order, and how
their answers are used.  The same tree is therefore read in three ways:

* as the set of its paths (`Prog.Path`): every sequence of answers at all;
* against a world (`Prog.Runs`): the answers are those of a shared state,
  and a run may stop at any call, which is what a crash looks like;
* against a protocol (`Effect.Protocol`).

An answer is an `Except`: `ask` hands it to the continuation as it is, and
`perform` turns an error answer into the error of the whole program.
-/
import Mathlib.Logic.Basic

namespace Effect

/-- Programs that make calls `op : Op` with answers in `Res op`, stop with an
error in `E` or return a value in `α`. -/
inductive Prog {Op : Type} (Res : Op → Type) (E α : Type) : Type
  | ret (a : α)
  | fail (e : E)
  | call (op : Op) (k : Except E (Res op) → Prog Res E α)

/-- One call together with its answer. -/
abbrev Answered {Op : Type} (Res : Op → Type) (E : Type) : Type :=
  (op : Op) × Except E (Res op)

namespace Prog

variable {Op : Type} {Res : Op → Type} {E α β γ : Type}

/-! ### The monad -/

/-- Sequential composition; an error skips the rest. -/
protected def bind : Prog Res E α → (α → Prog Res E β) → Prog Res E β
  | ret a, f => f a
  | fail e, _ => fail e
  | call op k, f => call op fun r => (k r).bind f

/-- Make one call and keep its answer, error or not. -/
def ask (op : Op) : Prog Res E (Except E (Res op)) :=
  call op ret

/-- The program that ends as an outcome says. -/
def ofExcept : Except E α → Prog Res E α
  | .ok a => ret a
  | .error e => fail e

/-- Hand on the outcome of a program, error or not. -/
def outcome : Prog Res E α → Prog Res E (Except E α)
  | ret a => ret (.ok a)
  | fail e => ret (.error e)
  | call op k => call op fun r => outcome (k r)

/-- Make one call; its error becomes the error of the program. -/
def perform (op : Op) : Prog Res E (Res op) :=
  call op ofExcept

instance : Monad (Prog Res E) where
  pure := ret
  bind := Prog.bind

@[simp] theorem pure_eq (a : α) : (pure a : Prog Res E α) = ret a := rfl

@[simp] theorem ret_bind (a : α) (f : α → Prog Res E β) : (ret a >>= f) = f a := rfl

@[simp] theorem fail_bind (e : E) (f : α → Prog Res E β) :
    (fail e >>= f) = fail e := rfl

@[simp] theorem call_bind (op : Op) (k : Except E (Res op) → Prog Res E α)
    (f : α → Prog Res E β) : (call op k >>= f) = call op fun r => k r >>= f := rfl

@[simp] theorem ofExcept_ok (a : α) : (ofExcept (.ok a) : Prog Res E α) = ret a := rfl

@[simp] theorem ofExcept_error (e : E) :
    (ofExcept (.error e) : Prog Res E α) = fail e := rfl

theorem bind_ret (p : Prog Res E α) : (p >>= ret) = p := by
  induction p with
  | ret a => rfl
  | fail e => rfl
  | call op k ih =>
      rw [call_bind]
      exact congrArg (call op) (funext ih)

theorem bind_assoc (p : Prog Res E α) (f : α → Prog Res E β) (g : β → Prog Res E γ) :
    (p >>= f >>= g) = (p >>= fun a => f a >>= g) := by
  induction p with
  | ret a => rfl
  | fail e => rfl
  | call op k ih =>
      simp only [call_bind]
      exact congrArg (call op) (funext ih)

/-! ### Paths -/

/-- `Path p tr out`: answered as in `tr`, the program `p` makes exactly the
calls of `tr` and ends in `out`. -/
inductive Path : Prog Res E α → List (Answered Res E) → Except E α → Prop
  | ret (a : α) : Path (.ret a) [] (.ok a)
  | fail (e : E) : Path (.fail e) [] (.error e)
  | call {op k tr out} (r : Except E (Res op)) :
      Path (k r) tr out → Path (.call op k) (⟨op, r⟩ :: tr) out

/-- The calls of a sequential composition: those of the first program, then,
if it returned a value, those of the second. -/
theorem Path.bind_inv {p : Prog Res E α} {f : α → Prog Res E β} {tr out}
    (h : Path (p >>= f) tr out) :
    (∃ e, Path p tr (.error e) ∧ out = .error e) ∨
    ∃ a tr₁ tr₂, tr = tr₁ ++ tr₂ ∧ Path p tr₁ (.ok a) ∧ Path (f a) tr₂ out := by
  induction p generalizing tr with
  | ret a => exact Or.inr ⟨a, [], tr, rfl, .ret a, h⟩
  | fail e =>
      rw [fail_bind] at h
      cases h
      exact Or.inl ⟨e, .fail e, rfl⟩
  | call op k ih =>
      rw [call_bind] at h
      cases h with
      | call r h =>
          rcases ih r h with ⟨e, hp, rfl⟩ | ⟨a, tr₁, tr₂, rfl, hp, hf⟩
          · exact Or.inl ⟨e, .call r hp, rfl⟩
          · exact Or.inr ⟨a, ⟨op, r⟩ :: tr₁, tr₂, rfl, .call r hp, hf⟩

theorem path_ret {a : α} {tr out} (h : Path (.ret a : Prog Res E α) tr out) :
    tr = [] ∧ out = .ok a := by
  cases h
  exact ⟨rfl, rfl⟩

theorem path_fail {e : E} {tr out} (h : Path (.fail e : Prog Res E α) tr out) :
    tr = [] ∧ out = .error e := by
  cases h
  exact ⟨rfl, rfl⟩

theorem path_call {op : Op} {k : Except E (Res op) → Prog Res E α} {tr out}
    (h : Path (.call op k) tr out) : ∃ r tr', tr = ⟨op, r⟩ :: tr' ∧ Path (k r) tr' out := by
  cases h with
  | call r h => exact ⟨r, _, rfl, h⟩

/-- An asked call hands on whatever it is answered. -/
theorem path_ask_bind {op : Op} {f : Except E (Res op) → Prog Res E α} {tr out}
    (h : Path (ask op >>= f) tr out) : ∃ r tr', tr = ⟨op, r⟩ :: tr' ∧ Path (f r) tr' out :=
  path_call h

/-- A performed call ends the program or hands on its value. -/
theorem path_perform_bind {op : Op} {f : Res op → Prog Res E α} {tr out}
    (h : Path (perform op >>= f) tr out) :
    (∃ e, tr = [⟨op, .error e⟩] ∧ out = .error e) ∨
      ∃ a tr', tr = ⟨op, .ok a⟩ :: tr' ∧ Path (f a) tr' out := by
  obtain ⟨r, tr', rfl, hk⟩ := path_call h
  cases r with
  | ok a => exact Or.inr ⟨a, tr', rfl, hk⟩
  | error e =>
      obtain ⟨rfl, rfl⟩ := path_fail hk
      exact Or.inl ⟨e, rfl, rfl⟩

theorem path_perform {op : Op} {tr out} (h : Path (perform op : Prog Res E (Res op)) tr out) :
    tr = [⟨op, out⟩] := by
  obtain ⟨r, tr', rfl, hk⟩ := path_call h
  cases r with
  | ok a =>
      obtain ⟨rfl, rfl⟩ := path_ret hk
      rfl
  | error e =>
      obtain ⟨rfl, rfl⟩ := path_fail hk
      rfl

/-! A program that returns has got through every part of it. -/

section Returned

variable {tr : List (Answered Res E)} {b : β}

theorem path_perform_ok {op : Op} {f : Res op → Prog Res E β}
    (h : Path (perform op >>= f) tr (.ok b)) :
    ∃ a tr', tr = ⟨op, .ok a⟩ :: tr' ∧ Path (f a) tr' (.ok b) := by
  rcases path_perform_bind h with ⟨e, -, hout⟩ | hok
  · cases hout
  · exact hok

theorem path_bind_ok {p : Prog Res E α} {f : α → Prog Res E β}
    (h : Path (p >>= f) tr (.ok b)) :
    ∃ a tr₁ tr₂, tr = tr₁ ++ tr₂ ∧ Path p tr₁ (.ok a) ∧ Path (f a) tr₂ (.ok b) := by
  rcases h.bind_inv with ⟨e, -, hout⟩ | hok
  · cases hout
  · exact hok

theorem not_path_fail {e : E} : ¬ Path (fail e : Prog Res E β) tr (.ok b) := by
  intro h
  cases (path_fail h).2

end Returned

/-- `After p tr p'`: answered as in `tr`, the program `p` has got as far as `p'`. -/
inductive After : Prog Res E α → List (Answered Res E) → Prog Res E α → Prop
  | nil (p) : After p [] p
  | call {op k tr p'} (r : Except E (Res op)) :
      After (k r) tr p' → After (.call op k) (⟨op, r⟩ :: tr) p'

theorem After.concat {p : Prog Res E α} {tr op} {k : Except E (Res op) → Prog Res E α}
    (h : After p tr (.call op k)) (r : Except E (Res op)) :
    After p (tr ++ [⟨op, r⟩]) (k r) := by
  generalize hq : Prog.call op k = q at h
  induction h with
  | nil =>
      cases hq
      exact .call r (.nil _)
  | call r' _ ih => exact .call r' (ih hq)

/-- The next call is made first, or one call has been answered. -/
theorem After.call_inv {op : Op} {k : Except E (Res op) → Prog Res E α} {tr p'}
    (h : After (.call op k) tr p') :
    (tr = [] ∧ p' = .call op k) ∨ ∃ r tr', tr = ⟨op, r⟩ :: tr' ∧ After (k r) tr' p' := by
  cases h with
  | nil => exact Or.inl ⟨rfl, rfl⟩
  | call r h => exact Or.inr ⟨r, _, rfl, h⟩

theorem After.fail_inv {e : E} {tr} {p' : Prog Res E α} (h : After (.fail e) tr p') :
    p' = .fail e := by
  cases h
  rfl

/-! ### Programs that make certain calls only -/

/-- Every call of the program, on every path, satisfies `P`. -/
def Calls (P : Op → Prop) : Prog Res E α → Prop
  | ret _ => True
  | fail _ => True
  | call op k => P op ∧ ∀ r, Calls P (k r)

section Calls

variable {P : Op → Prop}

@[simp] theorem calls_ret (a : α) : Calls P (.ret a : Prog Res E α) := True.intro

@[simp] theorem calls_fail (e : E) : Calls P (.fail e : Prog Res E α) := True.intro

theorem calls_ofExcept (r : Except E α) : Calls P (ofExcept r : Prog Res E α) := by
  cases r <;> exact True.intro

theorem Calls.bind {p : Prog Res E α} {f : α → Prog Res E β} (hp : Calls P p)
    (hf : ∀ a, Calls P (f a)) : Calls P (p >>= f) := by
  induction p with
  | ret a => exact hf a
  | fail e => exact True.intro
  | call op k ih => exact ⟨hp.1, fun r => ih r (hp.2 r)⟩

theorem Calls.outcome {p : Prog Res E α} (hp : Calls P p) : Calls P p.outcome := by
  induction p with
  | ret a => exact True.intro
  | fail e => exact True.intro
  | call op k ih => exact ⟨hp.1, fun r => ih r (hp.2 r)⟩

theorem calls_ask {op : Op} (h : P op) : Calls P (ask op : Prog Res E (Except E (Res op))) :=
  ⟨h, fun _ => True.intro⟩

theorem calls_perform {op : Op} (h : P op) : Calls P (perform op : Prog Res E (Res op)) :=
  ⟨h, fun r => calls_ofExcept r⟩

theorem Calls.mono {Q : Op → Prop} (hPQ : ∀ op, P op → Q op) {p : Prog Res E α}
    (hp : Calls P p) : Calls Q p := by
  induction p with
  | ret a => exact True.intro
  | fail e => exact True.intro
  | call op k ih => exact ⟨hPQ op hp.1, fun r => ih r (hp.2 r)⟩

/-- A program makes some calls or other. -/
theorem calls_true (p : Prog Res E α) : Calls (fun _ => True) p := by
  induction p with
  | ret a => exact True.intro
  | fail e => exact True.intro
  | call op k ih => exact ⟨True.intro, ih⟩

/-- The calls of a path are calls of the program. -/
theorem Calls.of_mem_path {p : Prog Res E α} {tr out} (hp : Calls P p) (h : Path p tr out)
    {a : Answered Res E} (ha : a ∈ tr) : P a.1 := by
  induction h with
  | ret => cases ha
  | fail => cases ha
  | call r _ ih =>
      rcases List.mem_cons.mp ha with rfl | ha
      · exact hp.1
      · exact ih (hp.2 r) ha

/-- What is left of a program makes calls of the program only. -/
theorem Calls.after {p p' : Prog Res E α} {tr} (hp : Calls P p) (h : After p tr p') :
    Calls P p' := by
  induction h with
  | nil => exact hp
  | call r _ ih => exact ih (hp.2 r)

end Calls

/-! ### Runs against a world -/

variable {W : Type}

/-- What the calls of a signature do to a world of type `W`.  A relation, so
that a call may fail, or draw a fresh value, without saying which. -/
abbrev Sem {Op : Type} (Res : Op → Type) (E W : Type) : Type :=
  (op : Op) → W → Except E (Res op) → W → Prop

/-- `Runs sem p w tr p' w'`: started on `w`, the program `p` can make the calls
`tr`; the world is then `w'` and `p'` is what is left of the program. -/
inductive Runs (sem : Sem Res E W) :
    Prog Res E α → W → List (Answered Res E) → Prog Res E α → W → Prop
  | stop (p w) : Runs sem p w [] p w
  | call {op k w r w₁ tr p' w'} :
      sem op w r w₁ → Runs sem (k r) w₁ tr p' w' →
      Runs sem (.call op k) w (⟨op, r⟩ :: tr) p' w'

variable {sem : Sem Res E W}

/-- A call is either not made at all, or made first. -/
theorem Runs.call_inv {op : Op} {k : Except E (Res op) → Prog Res E α} {w : W}
    {tr p' w'} (h : Runs sem (.call op k) w tr p' w') :
    (tr = [] ∧ p' = .call op k ∧ w' = w) ∨
    ∃ r w₁ tr', tr = ⟨op, r⟩ :: tr' ∧ sem op w r w₁ ∧ Runs sem (k r) w₁ tr' p' w' := by
  cases h with
  | stop => exact Or.inl ⟨rfl, rfl, rfl⟩
  | call hs hr => exact Or.inr ⟨_, _, _, rfl, hs, hr⟩

theorem runs_ret {a : α} {w : W} {tr p' w'}
    (h : Runs sem (.ret a : Prog Res E α) w tr p' w') : tr = [] ∧ p' = .ret a ∧ w' = w := by
  cases h
  exact ⟨rfl, rfl, rfl⟩

theorem runs_fail {e : E} {w : W} {tr p' w'}
    (h : Runs sem (.fail e : Prog Res E α) w tr p' w') : tr = [] ∧ p' = .fail e ∧ w' = w := by
  cases h
  exact ⟨rfl, rfl, rfl⟩

theorem ofExcept_injective {out out' : Except E α}
    (h : (ofExcept out : Prog Res E α) = ofExcept out') : out = out' := by
  cases out <;> cases out' <;> cases h <;> rfl

/-- A finished run of a composition: the first program ended it, or the second did. -/
theorem runs_bind {p : Prog Res E α} {f : α → Prog Res E β} {w w' : W} {tr out}
    (h : Runs sem (p >>= f) w tr (ofExcept out) w') :
    (∃ e, Runs sem p w tr (.fail e) w' ∧ out = .error e) ∨
    ∃ a w₁ tr₁ tr₂, tr = tr₁ ++ tr₂ ∧ Runs sem p w tr₁ (.ret a) w₁ ∧
      Runs sem (f a) w₁ tr₂ (ofExcept out) w' := by
  induction p generalizing w tr with
  | ret a => exact Or.inr ⟨a, w, [], tr, rfl, .stop _ _, h⟩
  | fail e =>
      obtain ⟨rfl, hout, rfl⟩ := runs_fail h
      exact Or.inl ⟨e, .stop _ _, ofExcept_injective hout⟩
  | call op k ih =>
      rcases h.call_inv with ⟨-, hout, -⟩ | ⟨r, w₁, tr', rfl, hs, hr⟩
      · cases out <;> cases hout
      rcases ih r hr with ⟨e, hp, rfl⟩ | ⟨a, w₂, tr₁, tr₂, rfl, hp, hf⟩
      · exact Or.inl ⟨e, .call hs hp, rfl⟩
      · exact Or.inr ⟨a, w₂, _, tr₂, rfl, .call hs hp, hf⟩

/-- A performed call ends the run or hands on its value. -/
theorem runs_perform_bind {op : Op} {f : Res op → Prog Res E β} {w w' : W} {tr out}
    (h : Runs sem (perform op >>= f) w tr (ofExcept out) w') :
    (∃ e, tr = [⟨op, .error e⟩] ∧ sem op w (.error e) w' ∧ out = .error e) ∨
    ∃ a w₁ tr', tr = ⟨op, .ok a⟩ :: tr' ∧ sem op w (.ok a) w₁ ∧
      Runs sem (f a) w₁ tr' (ofExcept out) w' := by
  rcases Runs.call_inv h with ⟨-, hout, -⟩ | ⟨r, w₁, tr', rfl, hs, hr⟩
  · cases out <;> cases hout
  cases r with
  | ok a => exact Or.inr ⟨a, w₁, tr', rfl, hs, hr⟩
  | error e =>
      obtain ⟨rfl, hout, rfl⟩ := runs_fail hr
      exact Or.inl ⟨e, rfl, hs, ofExcept_injective hout⟩

/-- A call that is asked is made, and its answer handed on. -/
theorem runs_ask_bind {op : Op} {f : Except E (Res op) → Prog Res E β} {w w' : W} {tr out}
    (h : Runs sem (ask op >>= f) w tr (ofExcept out) w') :
    ∃ r w₁ tr', tr = ⟨op, r⟩ :: tr' ∧ sem op w r w₁ ∧ Runs sem (f r) w₁ tr' (ofExcept out) w' := by
  rcases Runs.call_inv h with ⟨-, hout, -⟩ | ⟨r, w₁, tr', rfl, hs, hr⟩
  · cases out <;> cases hout
  · exact ⟨r, w₁, tr', rfl, hs, hr⟩

theorem runs_perform {op : Op} {r : Except E (Res op)} {w w' : W} {tr}
    (h : Runs sem (perform op : Prog Res E (Res op)) w tr (ofExcept r) w') : sem op w r w' := by
  rcases h.call_inv with ⟨-, hout, -⟩ | ⟨r', w₁, tr', -, hcall, h⟩
  · cases r <;> cases hout
  · have hr : r' = r ∧ w' = w₁ := by
      rcases r' with e | a
      · obtain ⟨-, hout, hw⟩ := runs_fail h
        exact ⟨(ofExcept_injective hout).symm, hw⟩
      · obtain ⟨-, hout, hw⟩ := runs_ret h
        exact ⟨(ofExcept_injective hout).symm, hw⟩
    rw [← hr.1, hr.2]
    exact hcall

/-- A finished run of an outcome followed by something goes through both. -/
theorem runs_outcome_bind {p : Prog Res E α} {f : Except E α → Prog Res E β} {w w' : W} {tr out}
    (h : Runs sem (p.outcome >>= f) w tr (ofExcept out) w') :
    ∃ r w₁ tr₁ tr₂, tr = tr₁ ++ tr₂ ∧ Runs sem p w tr₁ (ofExcept r) w₁ ∧
      Runs sem (f r) w₁ tr₂ (ofExcept out) w' := by
  induction p generalizing w tr with
  | ret a => exact ⟨.ok a, w, [], tr, rfl, .stop _ _, h⟩
  | fail e => exact ⟨.error e, w, [], tr, rfl, .stop _ _, h⟩
  | call op k ih =>
      rcases Runs.call_inv h with ⟨-, hout, -⟩ | ⟨r, w₁, tr', rfl, hs, hr⟩
      · cases out <;> cases hout
      · obtain ⟨r', w₂, tr₁, tr₂, rfl, hp, hf⟩ := ih r hr
        exact ⟨r', w₂, ⟨op, r⟩ :: tr₁, tr₂, rfl, .call hs hp, hf⟩

/-- A finished run makes the calls of a path. -/
theorem Runs.path {p : Prog Res E α} {w w' : W} {tr out}
    (h : Runs sem p w tr (ofExcept out) w') : Path p tr out := by
  induction p generalizing w tr with
  | ret a =>
      obtain ⟨rfl, hout, -⟩ := runs_ret h
      cases ofExcept_injective (show ofExcept out = ofExcept (.ok a) from hout)
      exact .ret a
  | fail e =>
      obtain ⟨rfl, hout, -⟩ := runs_fail h
      cases ofExcept_injective (show ofExcept out = ofExcept (.error e) from hout)
      exact .fail e
  | call op k ih =>
      rcases h.call_inv with ⟨-, hout, -⟩ | ⟨r, w₁, tr', rfl, -, hr⟩
      · cases out <;> cases hout
      · exact .call r (ih r hr)

/-- Runs compose. -/
theorem Runs.trans {p p₁ p₂ : Prog Res E α} {w w₁ w₂ : W} {tr tr'}
    (h : Runs sem p w tr p₁ w₁) (h' : Runs sem p₁ w₁ tr' p₂ w₂) :
    Runs sem p w (tr ++ tr') p₂ w₂ := by
  induction h with
  | stop => exact h'
  | call hs _ ih => exact .call hs (ih h')

/-- What every call of a run preserves holds at its end. -/
theorem Runs.invariant {I : W → Prop}
    (hI : ∀ op w r w', sem op w r w' → I w → I w')
    {p p' : Prog Res E α} {w w' tr} (h : Runs sem p w tr p' w') (hw : I w) : I w' := by
  induction h with
  | stop => exact hw
  | call hs _ ih => exact ih (hI _ _ _ _ hs hw)

/-! ### Driving a program with a deterministic world -/

/-- Run a program to its end against a world that answers every call. -/
def drive (answer : (op : Op) → W → Except E (Res op) × W) :
    Prog Res E α → W → List (Answered Res E) × Except E α × W
  | ret a, w => ([], .ok a, w)
  | fail e, w => ([], .error e, w)
  | call op k, w =>
      let d := drive answer (k (answer op w).1) (answer op w).2
      (⟨op, (answer op w).1⟩ :: d.1, d.2)

/-- Do all calls of the driven program satisfy a test on the world before the call? -/
def driveAll (answer : (op : Op) → W → Except E (Res op) × W) (test : W → Answered Res E → Bool) :
    Prog Res E α → W → Bool
  | ret _, _ => true
  | fail _, _ => true
  | call op k, w => test w ⟨op, (answer op w).1⟩ &&
      driveAll answer test (k (answer op w).1) (answer op w).2

@[simp] theorem drive_ret (answer : (op : Op) → W → Except E (Res op) × W) (a : α) (w : W) :
    drive answer (ret a : Prog Res E α) w = ([], .ok a, w) := rfl

@[simp] theorem drive_fail (answer : (op : Op) → W → Except E (Res op) × W) (e : E) (w : W) :
    drive answer (fail e : Prog Res E α) w = ([], .error e, w) := rfl

@[simp] theorem drive_ofExcept (answer : (op : Op) → W → Except E (Res op) × W) (r : Except E α)
    (w : W) : drive answer (ofExcept r) w = ([], r, w) := by
  cases r <;> rfl

/-- Driving a composition drives one program after the other. -/
theorem drive_bind (answer : (op : Op) → W → Except E (Res op) × W) (p : Prog Res E α)
    (f : α → Prog Res E β) (w : W) :
    (drive answer (p >>= f) w).2 = match (drive answer p w).2.1 with
      | .ok a => (drive answer (f a) (drive answer p w).2.2).2
      | .error e => (.error e, (drive answer p w).2.2) := by
  induction p generalizing w with
  | ret a => rfl
  | fail e => rfl
  | call op k ih => exact ih _ _

/-- What the calls of a program preserve holds after driving it. -/
theorem Calls.drive {P : Op → Prop} {I : W → Prop}
    {answer : (op : Op) → W → Except E (Res op) × W}
    (hI : ∀ op w, P op → I w → I (answer op w).2) {p : Prog Res E α} {w : W}
    (hp : Calls P p) (hw : I w) : I (p.drive answer w).2.2 := by
  induction p generalizing w with
  | ret a => exact hw
  | fail e => exact hw
  | call op k ih => exact ih _ (hp.2 _) (hI op w hp.1 hw)

/-- What the calls of a program do not see does not matter. -/
theorem Calls.drive_congr {P : Op → Prop} {R : W → W → Prop}
    {answer : (op : Op) → W → Except E (Res op) × W}
    (hR : ∀ op x y, P op → R x y →
      (answer op x).1 = (answer op y).1 ∧ R (answer op x).2 (answer op y).2)
    {p : Prog Res E α} {x y : W} (hp : Calls P p) (h : R x y) :
    (p.drive answer x).2.1 = (p.drive answer y).2.1 := by
  induction p generalizing x y with
  | ret a => rfl
  | fail e => rfl
  | call op k ih =>
      obtain ⟨hans, hnext⟩ := hR op x y hp.1 h
      show ((k (answer op x).1).drive answer _).2.1 = _
      rw [hans]
      exact ih _ (hp.2 _) hnext

theorem driveAll_true (answer : (op : Op) → W → Except E (Res op) × W) (p : Prog Res E α) (w : W) :
    p.driveAll answer (fun _ _ => true) w = true := by
  induction p generalizing w with
  | ret a => rfl
  | fail e => rfl
  | call op k ih => exact ih _ _

/-- What a driven program does is one of its paths. -/
theorem path_drive (answer : (op : Op) → W → Except E (Res op) × W) (p : Prog Res E α) (w : W) :
    Path p (p.drive answer w).1 (p.drive answer w).2.1 := by
  induction p generalizing w with
  | ret a => exact .ret a
  | fail e => exact .fail e
  | call op k ih => exact .call _ (ih _ _)

theorem mem_drive {answer : (op : Op) → W → Except E (Res op) × W} {p : Prog Res E α} {w : W}
    {a : Answered Res E} (h : a ∈ (p.drive answer w).1) : ∃ w', a.2 = (answer a.1 w').1 := by
  induction p generalizing w with
  | ret => cases h
  | fail => cases h
  | call op k ih =>
      rcases List.mem_cons.mp h with rfl | h
      · exact ⟨w, rfl⟩
      · exact ih _ h

/-- What the calls of a program preserve held when each of its calls was answered. -/
theorem Calls.mem_drive {P : Op → Prop} {I : W → Prop}
    {answer : (op : Op) → W → Except E (Res op) × W}
    (hI : ∀ op w, P op → I w → I (answer op w).2) {p : Prog Res E α} {w : W}
    (hp : Calls P p) (hw : I w) {a : Answered Res E} (h : a ∈ (p.drive answer w).1) :
    ∃ w', I w' ∧ a.2 = (answer a.1 w').1 := by
  induction p generalizing w with
  | ret => cases h
  | fail => cases h
  | call op k ih =>
      rcases List.mem_cons.mp h with rfl | h
      · exact ⟨w, hw, rfl⟩
      · exact ih _ (hp.2 _) (hI op w hp.1 hw) h

/-- A program that returns is followed by the rest of the composition. -/
theorem drive_bind_ok {answer : (op : Op) → W → Except E (Res op) × W} {p : Prog Res E α}
    {f : α → Prog Res E β} {w : W} {a : α} (h : (drive answer p w).2.1 = .ok a) :
    drive answer (p >>= f) w = ((drive answer p w).1 ++ (drive answer (f a) (drive answer p w).2.2).1,
      (drive answer (f a) (drive answer p w).2.2).2) := by
  induction p generalizing w with
  | ret b =>
      cases h
      rfl
  | fail e => cases h
  | call op k ih =>
      rw [call_bind, drive, ih _ h]
      rfl

/-- A program that fails ends the composition. -/
theorem drive_bind_error {answer : (op : Op) → W → Except E (Res op) × W} {p : Prog Res E α}
    {f : α → Prog Res E β} {w : W} {e : E} (h : (drive answer p w).2.1 = .error e) :
    drive answer (p >>= f) w = ((drive answer p w).1, .error e, (drive answer p w).2.2) := by
  induction p generalizing w with
  | ret b => cases h
  | fail e' =>
      cases h
      rfl
  | call op k ih =>
      rw [call_bind, drive, ih _ h]
      rfl

/-- A call that succeeds hands on its answer. -/
theorem drive_perform_bind {answer : (op : Op) → W → Except E (Res op) × W} {op : Op}
    {f : Res op → Prog Res E α} {w w' : W} {a : Res op} (h : answer op w = (.ok a, w')) :
    drive answer (perform op >>= f) w =
      (⟨op, .ok a⟩ :: (drive answer (f a) w').1, (drive answer (f a) w').2) := by
  show drive answer (.call op fun r => ofExcept r >>= f) w = _
  rw [drive, h]
  rfl

theorem drive_perform {answer : (op : Op) → W → Except E (Res op) × W} {op : Op} {w w' : W}
    {a : Res op} (h : answer op w = (.ok a, w')) :
    drive answer (perform op : Prog Res E (Res op)) w = ([⟨op, .ok a⟩], .ok a, w') := by
  rw [perform, drive, h]
  rfl

/-- Asking for the outcome changes neither calls nor world. -/
theorem drive_outcome {answer : (op : Op) → W → Except E (Res op) × W} (p : Prog Res E α)
    (w : W) :
    drive answer p.outcome w = ((drive answer p w).1, .ok (drive answer p w).2.1,
      (drive answer p w).2.2) := by
  induction p generalizing w with
  | ret a => rfl
  | fail e => rfl
  | call op k ih => rw [outcome, drive, ih, drive]

/-- What follows a program adds calls of its own to the log. -/
theorem drive_bind_log {P : Op → Prop} (answer : (op : Op) → W → Except E (Res op) × W)
    {f : α → Prog Res E β} (hf : ∀ a, Calls P (f a)) (p : Prog Res E α) (w : W) :
    ∃ log, (drive answer (p >>= f) w).1 = (drive answer p w).1 ++ log ∧ ∀ c ∈ log, P c.1 := by
  rcases h : (drive answer p w).2.1 with e | a
  · exact ⟨[], by rw [drive_bind_error h, List.append_nil], fun _ hc => by cases hc⟩
  · refine ⟨(drive answer (f a) (drive answer p w).2.2).1, by rw [drive_bind_ok h], ?_⟩
    exact fun _ hc => (hf a).of_mem_path (path_drive ..) hc

/-- Driving is one of the runs, provided the answers are. -/
theorem runs_drive {answer : (op : Op) → W → Except E (Res op) × W}
    (ha : ∀ op w, sem op w (answer op w).1 (answer op w).2) (p : Prog Res E α) (w : W) :
    Runs sem p w (drive answer p w).1 (ofExcept (drive answer p w).2.1)
      (drive answer p w).2.2 := by
  induction p generalizing w with
  | ret a => exact .stop _ _
  | fail e => exact .stop _ _
  | call op k ih => exact .call (ha op w) (ih _ _)

end Prog

end Effect
