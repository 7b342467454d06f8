/-
Iwifunni/Effect/Sessions.lean

Programs that say who they are.

What a statement does in a database depends on the transaction it is part of.  A
program is therefore put into a session: each of its calls `op` becomes the call
`(i, op)` of session `i`, and nothing else changes.  A protocol for the program is one
for the program in its session (`keeps_inSession`).
-/
import Mathlib.Data.Nat.Notation
import Iwifunni.Effect.Protocol

namespace Effect

variable {L Op : Type} {Res : Op → Type} {E α σ : Type}

/-- The answer to a call of a session. -/
abbrev InSession (Res : Op → Type) (o : ℕ × Op) : Type := Res o.2

/-- The program as session `i`. -/
def Prog.inSession (i : ℕ) : Prog Res E α → Prog (InSession Res) E α
  | .ret a => .ret a
  | .fail e => .fail e
  | .call op k => .call (i, op) fun r => (k r).inSession i

/-- The call without its session. -/
def Answered.plain (a : Answered (InSession Res) E) : Answered Res E := ⟨a.1.2, a.2⟩

/-- A protocol for sessions that keep to their number. -/
def Protocol.inSession (P : Protocol L Res E α σ) :
    Protocol (ℕ × L) (InSession Res) E α σ where
  init l := P.init l.2
  expects l s a := P.expects l.2 s (Answered.plain a)
  next l s a := if a.1.1 = l.1 then P.next l.2 s (Answered.plain a) else none
  ends l := P.ends l.2

/-- Being in a session is nothing to the protocol. -/
theorem Prog.keeps_inSession {P : Protocol L Res E α σ} {l : L} {post : σ → Except E α → Prop}
    (i : ℕ) {p : Prog Res E α} {s : σ} (h : Keeps P l post p s) :
    Keeps P.inSession (i, l) post (p.inSession i) s := by
  induction p generalizing s with
  | ret a => exact keeps_ret.mpr (keeps_ret.mp h)
  | fail e => exact keeps_fail.mpr (keeps_fail.mp h)
  | call op k ih =>
      apply keeps_call.mpr
      intro r hr
      obtain ⟨s', hs, hk⟩ := keeps_call.mp h r hr
      exact ⟨s', (if_pos rfl).trans hs, ih r hk⟩

end Effect
