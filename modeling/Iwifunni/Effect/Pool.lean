/-
Iwifunni/Effect/Pool.lean

Concurrent activities over one world.

A machine starts an activity for a label, runs the program of the label one
call at a time, and closes the activity when its program has ended.  A pool is
a world together with the activities in progress; between two calls of one
activity, any number of calls of others may happen:

    start i l,  call i ⟨op, r⟩,  call j ...,  finish i out,  lose j,  env e

`Run M C` is a run all of whose steps meet the condition `C`.

If the program of every label keeps a protocol, then a pool may be looked at
through that protocol (`Protocol.view`): of every activity only its label and
its phase remain, and every step of the pool is a step of the view
(`view_step`).  Invariants are therefore proved about phases
(`Run.view_invariant`) and hold of the programs.
-/
import Mathlib.Data.Nat.Notation
import Mathlib.Logic.Function.Basic
import Iwifunni.Effect.Protocol

namespace Effect

variable {W L Ev Op : Type} {Res : Op → Type} {E α σ : Type}

/-! ### Changes at one place -/

theorem update_some_eq_some {β : Type} {f : ℕ → Option β} {i j : ℕ} {a b : β}
    (h : Function.update f i (some a) j = some b) :
    (j = i ∧ b = a) ∨ (j ≠ i ∧ f j = some b) := by
  by_cases hj : j = i
  · subst hj
    rw [Function.update_self] at h
    exact Or.inl ⟨rfl, (Option.some.inj h).symm⟩
  · rw [Function.update_of_ne hj] at h
    exact Or.inr ⟨hj, h⟩

theorem update_none_eq_some {β : Type} {f : ℕ → Option β} {i j : ℕ} {b : β}
    (h : Function.update f i none j = some b) : j ≠ i ∧ f j = some b := by
  by_cases hj : j = i
  · subst hj
    rw [Function.update_self] at h
    cases h
  · rw [Function.update_of_ne hj] at h
    exact ⟨hj, h⟩

/-! ### Machines and pools -/

/-- A machine: what its activities do to the world. -/
structure Machine (W L Ev : Type) {Op : Type} (Res : Op → Type) (E α : Type) where
  /-- The program an activity runs. -/
  body : L → Prog Res E α
  /-- Taking up an activity. -/
  spawn : L → W → W → Prop
  /-- The calls. -/
  sem : Prog.Sem Res E W
  /-- Closing an activity whose program has ended. -/
  close : L → Except E α → W → W → Prop
  /-- Losing an activity before it is closed. -/
  lose : L → W → W → Prop
  /-- What happens to the world besides. -/
  env : Ev → W → W → Prop

/-- An activity in progress: its label, the calls made so far, and what is left
of its program. -/
structure Thread (L : Type) {Op : Type} (Res : Op → Type) (E α : Type) where
  label : L
  log : List (Answered Res E)
  prog : Prog Res E α

/-- A world and the activities in progress on it. -/
structure Pool (W L : Type) {Op : Type} (Res : Op → Type) (E α : Type) where
  world : W
  threads : ℕ → Option (Thread L Res E α)

/-- The steps of a pool. -/
inductive Event (L Ev : Type) {Op : Type} (Res : Op → Type) (E α : Type) : Type
  | start (i : ℕ) (l : L)
  | call (i : ℕ) (a : Answered Res E)
  | finish (i : ℕ) (out : Except E α)
  | lose (i : ℕ)
  | env (ev : Ev)

/-- `Step M s e s'`: event `e` leads from pool `s` to pool `s'`. -/
inductive Step (M : Machine W L Ev Res E α) :
    Pool W L Res E α → Event L Ev Res E α → Pool W L Res E α → Prop
  | start {w w' ts i l} : ts i = none → M.spawn l w w' →
      Step M ⟨w, ts⟩ (.start i l) ⟨w', Function.update ts i (some ⟨l, [], M.body l⟩)⟩
  | call {w w' ts i l tr op k r} : ts i = some ⟨l, tr, .call op k⟩ → M.sem op w r w' →
      Step M ⟨w, ts⟩ (.call i ⟨op, r⟩)
        ⟨w', Function.update ts i (some ⟨l, tr ++ [⟨op, r⟩], k r⟩)⟩
  | finish {w w' ts i l tr out} : ts i = some ⟨l, tr, Prog.ofExcept out⟩ →
      M.close l out w w' →
      Step M ⟨w, ts⟩ (.finish i out) ⟨w', Function.update ts i none⟩
  | lose {w w' ts i t} : ts i = some t → M.lose t.label w w' →
      Step M ⟨w, ts⟩ (.lose i) ⟨w', Function.update ts i none⟩
  | env {w w' ts ev} : M.env ev w w' → Step M ⟨w, ts⟩ (.env ev) ⟨w', ts⟩

/-- Runs whose steps all meet the condition `C` on the pool before the step and
the event. -/
inductive Run (M : Machine W L Ev Res E α)
    (C : Pool W L Res E α → Event L Ev Res E α → Prop) :
    Pool W L Res E α → List (Event L Ev Res E α) → Pool W L Res E α → Prop
  | nil (s) : Run M C s [] s
  | snoc {s evs s' e s''} : Run M C s evs s' → C s' e → Step M s' e s'' →
      Run M C s (evs ++ [e]) s''

variable {M : Machine W L Ev Res E α} {C : Pool W L Res E α → Event L Ev Res E α → Prop}

theorem Run.single {s s' : Pool W L Res E α} {e} (hc : C s e) (h : Step M s e s') :
    Run M C s [e] s' :=
  .snoc (.nil s) hc h

theorem Run.trans {s s' s'' : Pool W L Res E α} {evs evs'}
    (h : Run M C s evs s') (h' : Run M C s' evs' s'') : Run M C s (evs ++ evs') s'' := by
  induction h' with
  | nil => rwa [List.append_nil]
  | snoc _ hc hs ih =>
      rw [← List.append_assoc]
      exact .snoc ih hc hs

/-- A weaker condition allows more runs. -/
theorem Run.mono {C' : Pool W L Res E α → Event L Ev Res E α → Prop}
    (hC : ∀ s e, C s e → C' s e) {s s' : Pool W L Res E α} {evs}
    (h : Run M C s evs s') : Run M C' s evs s' := by
  induction h with
  | nil => exact .nil _
  | snoc _ hc hs ih => exact .snoc ih (hC _ _ hc) hs

/-- What every step of a run preserves holds at its end. -/
theorem Run.invariant {I : List (Event L Ev Res E α) → Pool W L Res E α → Prop}
    (hstep : ∀ evs s e s', I evs s → C s e → Step M s e s' → I (evs ++ [e]) s')
    {s s' : Pool W L Res E α} {evs} (h : Run M C s evs s') (h0 : I [] s) : I evs s' := by
  induction h with
  | nil => exact h0
  | snoc _ hc hs ih => exact hstep _ _ _ _ ih hc hs

/-- A run, taken apart at one of its events. -/
theorem Run.split {s s'' : Pool W L Res E α} {pre post e} (h : Run M C s (pre ++ e :: post) s'') :
    ∃ s₁ s₂, Run M C s pre s₁ ∧ C s₁ e ∧ Step M s₁ e s₂ ∧ Run M C s₂ post s'' := by
  generalize hall : pre ++ e :: post = all at h
  induction h generalizing post with
  | nil => cases pre <;> cases hall
  | @snoc all s' e' s'' h hc hs ih =>
      rcases List.eq_nil_or_concat post with rfl | ⟨front, last, rfl⟩
      · obtain ⟨rfl, hlast⟩ := List.append_inj' hall rfl
        cases hlast
        exact ⟨s', s'', h, hc, hs, .nil _⟩
      · rw [List.concat_eq_append, ← List.cons_append, ← List.append_assoc] at hall
        obtain ⟨rfl, hlast⟩ := List.append_inj' hall rfl
        cases hlast
        obtain ⟨s₁, s₂, h₁, hc₁, hs₁, h₂⟩ := ih rfl
        rw [List.concat_eq_append]
        exact ⟨s₁, s₂, h₁, hc₁, hs₁, .snoc h₂ hc hs⟩

/-- A condition that all events of a run meet. -/
theorem Run.restrict {D : Event L Ev Res E α → Prop} {s s' : Pool W L Res E α} {evs}
    (h : Run M C s evs s') (hD : ∀ e ∈ evs, D e) : Run M (fun s e => C s e ∧ D e) s evs s' := by
  induction h with
  | nil => exact .nil _
  | snoc _ hc hs ih =>
      refine .snoc (ih fun e he => hD e (List.mem_append_left _ he)) ⟨hc, ?_⟩ hs
      exact hD _ (List.mem_append_right _ (List.mem_singleton_self _))

/-- What the condition of a run says of every event holds of all its events. -/
theorem Run.forall_mem {D : Event L Ev Res E α → Prop} (hD : ∀ s e, C s e → D e)
    {s s' : Pool W L Res E α} {evs} (h : Run M C s evs s') : ∀ e ∈ evs, D e := by
  induction h with
  | nil => simp
  | snoc _ hc _ ih =>
      intro e he
      rcases List.mem_append.mp he with he | he
      · exact ih e he
      · rw [List.mem_singleton.mp he]
        exact hD _ _ hc

/-- Every activity has got as far as its log says. -/
theorem Run.after {s s' : Pool W L Res E α} {evs} (h : Run M C s evs s')
    (h0 : ∀ i t, s.threads i = some t → Prog.After (M.body t.label) t.log t.prog) :
    ∀ i t, s'.threads i = some t → Prog.After (M.body t.label) t.log t.prog := by
  refine h.invariant (I := fun _ s => ∀ i t, s.threads i = some t →
    Prog.After (M.body t.label) t.log t.prog) ?_ h0
  intro _ s e s' hI _ hs j t hj
  cases hs with
  | start =>
      rcases update_some_eq_some hj with ⟨-, rfl⟩ | ⟨-, hold⟩
      · exact .nil _
      · exact hI j t hold
  | call ht _ =>
      rcases update_some_eq_some hj with ⟨-, rfl⟩ | ⟨-, hold⟩
      · exact (hI _ _ ht).concat _
      · exact hI j t hold
  | finish => exact hI j t (update_none_eq_some hj).2
  | lose => exact hI j t (update_none_eq_some hj).2
  | env => exact hI j t hj

/-! ### Worlds that only calls change -/

/-- Taking up, closing and losing an activity leave the world alone, and nothing
else happens. -/
structure Machine.CallsOnly (M : Machine W L Ev Res E α) : Prop where
  spawn : ∀ {l w w'}, M.spawn l w w' → w' = w
  close : ∀ {l out w w'}, M.close l out w w' → w' = w
  lose : ∀ {l w w'}, M.lose l w w' → w' = w
  env : ∀ {ev w w'}, M.env ev w w' → w' = w

/-- Every activity makes calls that satisfy `P` only. -/
def Pool.Only (P : Op → Prop) (s : Pool W L Res E α) : Prop :=
  ∀ i t, s.threads i = some t → Prog.Calls P t.prog

theorem only_of_idle {P : Op → Prop} {s : Pool W L Res E α} (h : ∀ i, s.threads i = none) :
    s.Only P := by
  intro i t ht
  rw [h i] at ht
  cases ht

/-- A step keeps the world, or makes one of the allowed calls. -/
theorem Step.call_or_kept {P : Op → Prop} (hquiet : M.CallsOnly)
    (hbody : ∀ l, Prog.Calls P (M.body l)) {s s' : Pool W L Res E α} {e} (h : Step M s e s')
    (hs : s.Only P) :
    s'.Only P ∧ (s'.world = s.world ∨
      ∃ i op r, e = .call i ⟨op, r⟩ ∧ P op ∧ M.sem op s.world r s'.world) := by
  have hupdate : ∀ {w w' : W} {ts i} {t : Option (Thread L Res E α)},
      Pool.Only P ⟨w, ts⟩ → (∀ t', t = some t' → Prog.Calls P t'.prog) →
      Pool.Only P ⟨w', Function.update ts i t⟩ := by
    intro w w' ts i t hts ht j t' hj
    by_cases hji : j = i
    · subst hji
      simp only [Function.update_self] at hj
      exact ht t' hj
    · simp only [Function.update_of_ne hji] at hj
      exact hts j t' hj
  cases h with
  | start _ hsp =>
      refine ⟨hupdate hs ?_, Or.inl (hquiet.spawn hsp)⟩
      rintro t' ⟨⟩
      exact hbody _
  | call ht hsem =>
      have hcalls := hs _ _ ht
      refine ⟨hupdate hs ?_, Or.inr ⟨_, _, _, rfl, hcalls.1, hsem⟩⟩
      rintro t' ⟨⟩
      exact hcalls.2 _
  | finish _ hc => exact ⟨hupdate hs (fun t' h => by cases h), Or.inl (hquiet.close hc)⟩
  | lose _ hl => exact ⟨hupdate hs (fun t' h => by cases h), Or.inl (hquiet.lose hl)⟩
  | env he => exact ⟨hs, Or.inl (hquiet.env he)⟩

/-- **Invariants of the world.**  What every allowed call preserves holds at the end
of every run. -/
theorem Run.world_invariant {P : Op → Prop} {I : W → Prop} (hquiet : M.CallsOnly)
    (hbody : ∀ l, Prog.Calls P (M.body l))
    (hcall : ∀ s i op r w', P op → C s (.call i ⟨op, r⟩) → M.sem op s.world r w' →
      I s.world → I w')
    {s s' : Pool W L Res E α} {evs} (h : Run M C s evs s') (honly : s.Only P)
    (h0 : I s.world) : s'.Only P ∧ I s'.world := by
  refine h.invariant (I := fun _ s => s.Only P ∧ I s.world) ?_ ⟨honly, h0⟩
  rintro - s e s' ⟨hs, hI⟩ hc hstep
  obtain ⟨hs', hkept | ⟨i, op, r, rfl, hop, hsem⟩⟩ := hstep.call_or_kept hquiet hbody hs
  · rw [hkept]
    exact ⟨hs', hI⟩
  · exact ⟨hs', hcall s i op r _ hop hc hsem hI⟩

/-! ### One activity on its own -/

section Drive

variable {i : ℕ} {l : L} (answer : (op : Op) → W → Except E (Res op) × W)
  (test : W → Answered Res E → Bool)

/-- The calls of one activity, with no other activity in between. -/
theorem Run.calls (ts : ℕ → Option (Thread L Res E α))
    (ha : ∀ op w, M.sem op w (answer op w).1 (answer op w).2)
    (hcall : ∀ w tr p op, test w ⟨op, (answer op w).1⟩ = true →
      C ⟨w, Function.update ts i (some ⟨l, tr, p⟩)⟩ (.call i ⟨op, (answer op w).1⟩))
    (p : Prog Res E α) (w : W) (tr : List (Answered Res E))
    (htest : p.driveAll answer test w = true) :
    Run M C ⟨w, Function.update ts i (some ⟨l, tr, p⟩)⟩ ((p.drive answer w).1.map (.call i))
      ⟨(p.drive answer w).2.2, Function.update ts i
        (some ⟨l, tr ++ (p.drive answer w).1, Prog.ofExcept (p.drive answer w).2.1⟩)⟩ := by
  induction p generalizing w tr with
  | ret a =>
      simp only [Prog.drive, List.append_nil, List.map_nil]
      exact .nil _
  | fail e =>
      simp only [Prog.drive, List.append_nil, List.map_nil]
      exact .nil _
  | call op k ih =>
      rw [Prog.driveAll, Bool.and_eq_true] at htest
      have hrun := ih _ _ (tr ++ [⟨op, (answer op w).1⟩]) htest.2
      have hstep := Step.call (M := M)
        (Function.update_self i (some (⟨l, tr, .call op k⟩ : Thread L Res E α)) ts) (ha op w)
      rw [Function.update_idem] at hstep
      rw [List.append_assoc] at hrun
      exact (Run.single (hcall w tr _ _ htest.1) hstep).trans hrun

/-- Every call of a driven program happens in a run. -/
theorem Run.call_of_mem (ts : ℕ → Option (Thread L Res E α))
    (ha : ∀ op w, M.sem op w (answer op w).1 (answer op w).2)
    (hcall : ∀ w tr p op, test w ⟨op, (answer op w).1⟩ = true →
      C ⟨w, Function.update ts i (some ⟨l, tr, p⟩)⟩ (.call i ⟨op, (answer op w).1⟩))
    (p : Prog Res E α) (w : W) (tr : List (Answered Res E))
    (htest : p.driveAll answer test w = true) {a : Answered Res E}
    (h : a ∈ (p.drive answer w).1) :
    ∃ evs s₁ s₂, Run M C ⟨w, Function.update ts i (some ⟨l, tr, p⟩)⟩ evs s₁ ∧
      Step M s₁ (.call i a) s₂ := by
  obtain ⟨pre, post, hlog⟩ := List.append_of_mem h
  have hrun := Run.calls (M := M) (C := C) answer test ts ha hcall p w tr htest
  rw [hlog, List.map_append, List.map_cons] at hrun
  obtain ⟨s₁, s₂, hpre, -, hstep, -⟩ := hrun.split
  exact ⟨_, s₁, s₂, hpre, hstep⟩

/-- The events of a whole activity on its own. -/
theorem Run.drive_events {w w₁ w' : W} (ha : ∀ op w, M.sem op w (answer op w).1 (answer op w).2)
    (hstart : C ⟨w, fun _ => none⟩ (.start i l))
    (hcall : ∀ w tr p op, test w ⟨op, (answer op w).1⟩ = true →
      C ⟨w, Function.update (fun _ => none) i (some ⟨l, tr, p⟩)⟩ (.call i ⟨op, (answer op w).1⟩))
    (hfinish : ∀ s out, C s (.finish i out)) (hspawn : M.spawn l w w₁)
    (htest : (M.body l).driveAll answer test w₁ = true)
    (hclose : M.close l ((M.body l).drive answer w₁).2.1
      ((M.body l).drive answer w₁).2.2 w') :
    Run M C ⟨w, fun _ => none⟩
      (.start i l :: ((M.body l).drive answer w₁).1.map (.call i) ++
        [.finish i ((M.body l).drive answer w₁).2.1]) ⟨w', fun _ => none⟩ := by
  have hs : Step M ⟨w, fun _ => none⟩ (.start i l)
      ⟨w₁, Function.update (fun _ => none) i (some ⟨l, [], M.body l⟩)⟩ := .start rfl hspawn
  have hc := Run.calls (C := C) answer test _ ha hcall (M.body l) w₁ [] htest
  have hf := Step.finish (M := M) (Function.update_self i
    (some (⟨l, [] ++ ((M.body l).drive answer w₁).1,
      Prog.ofExcept ((M.body l).drive answer w₁).2.1⟩ : Thread L Res E α))
    (fun _ => none)) hclose
  have hnone : Function.update (fun _ => none : ℕ → Option (Thread L Res E α)) i none
      = fun _ => none := Function.update_eq_self i _
  rw [Function.update_idem, hnone] at hf
  exact ((Run.single hstart hs).trans hc).snoc (hfinish _ _) hf

/-- **A whole activity on its own**: taken up, driven to its end against a world
that answers every call, and closed. -/
theorem Run.drive {w w₁ w' : W} (ha : ∀ op w, M.sem op w (answer op w).1 (answer op w).2)
    (hstart : C ⟨w, fun _ => none⟩ (.start i l))
    (hcall : ∀ w tr p op, test w ⟨op, (answer op w).1⟩ = true →
      C ⟨w, Function.update (fun _ => none) i (some ⟨l, tr, p⟩)⟩ (.call i ⟨op, (answer op w).1⟩))
    (hfinish : ∀ s out, C s (.finish i out)) (hspawn : M.spawn l w w₁)
    (htest : (M.body l).driveAll answer test w₁ = true)
    (hclose : M.close l ((M.body l).drive answer w₁).2.1
      ((M.body l).drive answer w₁).2.2 w') :
    ∃ evs, Run M C ⟨w, fun _ => none⟩ evs ⟨w', fun _ => none⟩ :=
  ⟨_, Run.drive_events answer test ha hstart hcall hfinish hspawn htest hclose⟩

end Drive

/-! ### A pool seen through a protocol -/

/-- A world and the phases of the activities in progress on it. -/
structure View (W L σ : Type) where
  world : W
  phases : ℕ → Option (L × σ)

namespace View

variable {τ : Type}

/-- The first components of the phases. -/
def fst (v : View W L (σ × τ)) : View W L σ where
  world := v.world
  phases i := (v.phases i).map fun x => (x.1, x.2.1)

theorem fst_update (w : W) (ph : ℕ → Option (L × σ × τ)) (i : ℕ) (x : Option (L × σ × τ)) :
    fst ⟨w, Function.update ph i x⟩
      = ⟨w, Function.update (fst ⟨w, ph⟩).phases i (x.map fun x => (x.1, x.2.1))⟩ := by
  simp only [fst, View.mk.injEq, true_and]
  funext j
  by_cases hj : j = i
  · subst hj
    simp only [Function.update_self]
  · simp only [Function.update_of_ne hj]

theorem fst_eq_some {v : View W L (σ × τ)} {i l st} (h : v.phases i = some (l, st)) :
    v.fst.phases i = some (l, st.1) := by
  show (v.phases i).map _ = _
  rw [h, Option.map_some]

theorem fst_eq_none {v : View W L (σ × τ)} {i} : v.fst.phases i = none ↔ v.phases i = none :=
  Option.map_eq_none_iff

end View

namespace Protocol

variable (P : Protocol L Res E α σ)

/-- The label and the phase of an activity. -/
def phase (t : Thread L Res E α) : Option (L × σ) :=
  (P.track t.label (P.init t.label) t.log).map fun s => (t.label, s)

/-- A pool seen through a protocol. -/
def view (s : Pool W L Res E α) : View W L σ where
  world := s.world
  phases i := (s.threads i).bind P.phase

/-- Every activity of the pool is in a phase of the protocol and keeps it. -/
def Kept (s : Pool W L Res E α) : Prop :=
  ∀ i t, s.threads i = some t → ∃ st,
    P.track t.label (P.init t.label) t.log = some st ∧
    Prog.Keeps P t.label (P.ends t.label) t.prog st

/-- The steps of a view. -/
inductive ViewStep (M : Machine W L Ev Res E α) :
    View W L σ → Event L Ev Res E α → View W L σ → Prop
  | start {w w' ph i l} : ph i = none → M.spawn l w w' →
      ViewStep M ⟨w, ph⟩ (.start i l) ⟨w', Function.update ph i (some (l, P.init l))⟩
  | call {w w' ph i l st st' op r} : ph i = some (l, st) →
      P.next l st ⟨op, r⟩ = some st' → M.sem op w r w' →
      ViewStep M ⟨w, ph⟩ (.call i ⟨op, r⟩) ⟨w', Function.update ph i (some (l, st'))⟩
  | finish {w w' ph i l st out} : ph i = some (l, st) → P.ends l st out →
      M.close l out w w' →
      ViewStep M ⟨w, ph⟩ (.finish i out) ⟨w', Function.update ph i none⟩
  | lose {w w' ph i l st} : ph i = some (l, st) → M.lose l w w' →
      ViewStep M ⟨w, ph⟩ (.lose i) ⟨w', Function.update ph i none⟩
  | env {w w' ph ev} : M.env ev w w' → ViewStep M ⟨w, ph⟩ (.env ev) ⟨w', ph⟩

/-- The answers of an event are among the expected ones. -/
def Expected (v : View W L σ) (e : Event L Ev Res E α) : Prop :=
  ∀ i a l st, e = .call i a → v.phases i = some (l, st) → P.expects l st a

variable {P}

@[simp] theorem view_world (s : Pool W L Res E α) : (P.view s).world = s.world := rfl

theorem view_phases_of_thread {s : Pool W L Res E α} {i t st} (ht : s.threads i = some t)
    (hst : P.track t.label (P.init t.label) t.log = some st) :
    (P.view s).phases i = some (t.label, st) := by
  simp only [view, ht, phase, Option.bind_some, hst, Option.map_some]

theorem view_phases_of_none {s : Pool W L Res E α} {i} (ht : s.threads i = none) :
    (P.view s).phases i = none := by
  simp only [view, ht, Option.bind_none]

/-- A phase of the view is the phase of an activity. -/
theorem Kept.thread_of_view {s : Pool W L Res E α} (hk : P.Kept s) {i l st}
    (h : (P.view s).phases i = some (l, st)) :
    ∃ t, s.threads i = some t ∧ t.label = l ∧
      P.track t.label (P.init t.label) t.log = some st ∧
      Prog.Keeps P t.label (P.ends t.label) t.prog st := by
  rcases ht : s.threads i with - | t
  · rw [view_phases_of_none ht] at h
    cases h
  · obtain ⟨st', htr, hkeep⟩ := hk i t ht
    rw [view_phases_of_thread ht htr] at h
    cases h
    exact ⟨t, rfl, rfl, htr, hkeep⟩

/-- The view shows the activities there are. -/
theorem Kept.view_none_iff {s : Pool W L Res E α} (hk : P.Kept s) {i} :
    (P.view s).phases i = none ↔ s.threads i = none := by
  constructor
  · intro h
    rcases ht : s.threads i with - | t
    · rfl
    · obtain ⟨st, htr, -⟩ := hk i t ht
      rw [view_phases_of_thread ht htr] at h
      cases h
  · exact view_phases_of_none

/-- The threads of a pool after a change at one place, seen through the protocol. -/
theorem view_update (w : W) (ts : ℕ → Option (Thread L Res E α)) (i : ℕ)
    (t : Option (Thread L Res E α)) :
    P.view ⟨w, Function.update ts i t⟩
      = ⟨w, Function.update (P.view ⟨w, ts⟩).phases i (t.bind P.phase)⟩ := by
  simp only [view, View.mk.injEq, true_and]
  funext j
  by_cases hj : j = i
  · subst hj
    simp only [Function.update_self]
  · simp only [Function.update_of_ne hj]

/-- One activity is changed. -/
theorem Kept.update {w w' : W} {ts : ℕ → Option (Thread L Res E α)} (hk : P.Kept ⟨w, ts⟩)
    {i : ℕ} {t : Option (Thread L Res E α)}
    (ht : ∀ t', t = some t' → ∃ st,
      P.track t'.label (P.init t'.label) t'.log = some st ∧
      Prog.Keeps P t'.label (P.ends t'.label) t'.prog st) :
    P.Kept ⟨w', Function.update ts i t⟩ := by
  intro j t' hj
  by_cases hji : j = i
  · subst hji
    simp only [Function.update_self] at hj
    exact ht t' hj
  · simp only [Function.update_of_ne hji] at hj
    exact hk j t' hj

/-- **Every step of a pool is a step of its view**, as long as the programs keep
the protocol and the answers are among those it expects. -/
theorem view_step (hbody : ∀ l, Prog.Keeps P l (P.ends l) (M.body l) (P.init l))
    {s s' : Pool W L Res E α} {e} (hk : P.Kept s) (h : Step M s e s')
    (he : P.Expected (P.view s) e) :
    P.ViewStep M (P.view s) e (P.view s') ∧ P.Kept s' := by
  cases h with
  | start hnone hsp =>
      rw [view_update]
      refine ⟨.start (view_phases_of_none (s := ⟨_, _⟩) hnone) hsp, hk.update ?_⟩
      rintro t' ⟨⟩
      exact ⟨_, rfl, hbody _⟩
  | @call w w' ts i l tr op k r ht hs =>
      obtain ⟨st, htr, hkeep⟩ := hk i _ ht
      have hph := view_phases_of_thread (s := ⟨w, ts⟩) ht htr
      -- the protocol goes on with the answer that was expected
      obtain ⟨st', hnext, hkeep'⟩ := Prog.keeps_call.mp hkeep r (he i _ l st rfl hph)
      have htr' := track_concat htr hnext
      rw [view_update]
      refine ⟨?_, hk.update ?_⟩
      · simp only [Option.bind_some, phase, htr', Option.map_some]
        exact .call hph hnext hs
      · rintro t' ⟨⟩
        exact ⟨st', htr', hkeep'⟩
  | @finish w w' ts i l tr out ht hc =>
      obtain ⟨st, htr, hkeep⟩ := hk i _ ht
      rw [view_update]
      refine ⟨.finish (view_phases_of_thread (s := ⟨w, ts⟩) ht htr) (Prog.keeps_ofExcept.mp hkeep) hc,
        hk.update ?_⟩
      rintro t' ⟨⟩
  | @lose w w' ts i t ht hl =>
      obtain ⟨st, htr, -⟩ := hk i t ht
      rw [view_update]
      refine ⟨.lose (view_phases_of_thread (s := ⟨w, ts⟩) ht htr) hl, hk.update ?_⟩
      rintro t' ⟨⟩
  | env he' => exact ⟨.env he', hk⟩

section Prod

variable {τ : Type} {Q : Protocol L Res E α τ}

/-- A step of a view through two protocols is a step through the first. -/
theorem ViewStep.fst {v v' : View W L (σ × τ)} {e} (h : (P.prod Q).ViewStep M v e v') :
    P.ViewStep M v.fst e v'.fst := by
  cases h with
  | start hi hsp =>
      rw [View.fst_update]
      exact .start (View.fst_eq_none.mpr hi) hsp
  | @call w w' ph i l st st' op r hi hnext hs =>
      rw [View.fst_update]
      exact .call (View.fst_eq_some hi) (prod_next_eq_some.mp hnext).1 hs
  | finish hi hends hc =>
      rw [View.fst_update]
      exact .finish (View.fst_eq_some hi) hends.1 hc
  | lose hi hl =>
      rw [View.fst_update]
      exact .lose (View.fst_eq_some hi) hl
  | env he => exact .env he

end Prod

theorem kept_of_idle {s : Pool W L Res E α} (h : ∀ i, s.threads i = none) : P.Kept s := by
  intro i t ht
  rw [h i] at ht
  cases ht

end Protocol

/-- **Invariants by phases.**  An invariant of the views that every step of the
view preserves holds at the end of every run.  It may speak of the events so
far, and it may be used to show that the next answer is an expected one. -/
theorem Run.view_invariant {P : Protocol L Res E α σ}
    (hbody : ∀ l, Prog.Keeps P l (P.ends l) (M.body l) (P.init l))
    {I : List (Event L Ev Res E α) → View W L σ → Prop}
    (hexp : ∀ evs s e s', P.Kept s → I evs (P.view s) → C s e → Step M s e s' →
      P.Expected (P.view s) e)
    (hstep : ∀ evs s e v', P.Kept s → I evs (P.view s) → C s e →
      P.ViewStep M (P.view s) e v' → I (evs ++ [e]) v')
    {s s' : Pool W L Res E α} {evs} (h : Run M C s evs s') (hk : P.Kept s)
    (h0 : I [] (P.view s)) : P.Kept s' ∧ I evs (P.view s') := by
  refine h.invariant (I := fun evs s => P.Kept s ∧ I evs (P.view s)) ?_ ⟨hk, h0⟩
  rintro evs s e s' ⟨hk, hI⟩ hc hs
  obtain ⟨hv, hk'⟩ := Protocol.view_step hbody hk hs (hexp evs s e s' hk hI hc hs)
  exact ⟨hk', hstep evs s e _ hk hI hc hv⟩

end Effect
