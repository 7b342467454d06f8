/-
Iwifunni/Effect/History.lean

What the events of a run say about the activities in progress at its end.

    start i l, ..., call i a, ..., call i b, ...    ⊢    i ↦ ⟨l, [a, ..., b], p⟩

The label of an activity was started, and the calls of its log were made, in this run,
unless the activity was there before (`Run.started`, `Run.called`).  A call in the log of
an activity therefore happened at some pool of the run, and its answer is one that pool
gave (`Run.answered`).
-/
import Iwifunni.Effect.Pool

namespace Effect

variable {W L Ev Op : Type} {Res : Op → Type} {E α : Type}
variable {M : Machine W L Ev Res E α} {C : Pool W L Res E α → Event L Ev Res E α → Prop}

/-- No activity is in progress. -/
def Pool.Idle (s : Pool W L Res E α) : Prop := ∀ i, s.threads i = none

/-- Activity `i` was there with label `l`, and its log held `a`. -/
def Pool.Logged (s : Pool W L Res E α) (i : ℕ) (l : L) (a : Answered Res E) : Prop :=
  ∃ t, s.threads i = some t ∧ t.label = l ∧ a ∈ t.log

/-- An activity in progress was started in this run, or was there before. -/
theorem Run.started {s s' : Pool W L Res E α} {evs} (h : Run M C s evs s') :
    ∀ i t, s'.threads i = some t →
      .start i t.label ∈ evs ∨ ∃ t₀, s.threads i = some t₀ ∧ t₀.label = t.label := by
  refine h.invariant (I := fun evs p => ∀ i t, p.threads i = some t →
    .start i t.label ∈ evs ∨ ∃ t₀, s.threads i = some t₀ ∧ t₀.label = t.label) ?_
    (fun i t ht => Or.inr ⟨t, ht, rfl⟩)
  intro evs p e p' hI _ hs j t hj
  have hold : ∀ t', p.threads j = some t' → t'.label = t.label →
      .start j t.label ∈ evs ++ [e] ∨ ∃ t₀, s.threads j = some t₀ ∧ t₀.label = t.label := by
    intro t' ht' hl
    rw [← hl]
    exact (hI j t' ht').imp (List.mem_append_left _) id
  cases hs with
  | start =>
      rcases update_some_eq_some hj with ⟨rfl, rfl⟩ | ⟨-, hj⟩
      · exact Or.inl (List.mem_append_right _ (List.mem_singleton_self _))
      · exact hold t hj rfl
  | call ht _ =>
      rcases update_some_eq_some hj with ⟨rfl, rfl⟩ | ⟨-, hj⟩
      · exact hold _ ht rfl
      · exact hold t hj rfl
  | finish => exact hold t (update_none_eq_some hj).2 rfl
  | lose => exact hold t (update_none_eq_some hj).2 rfl
  | env => exact hold t hj rfl

/-- A call in the log of an activity was made in this run, or was there before. -/
theorem Run.called {s s' : Pool W L Res E α} {evs} (h : Run M C s evs s') :
    ∀ i t a, s'.threads i = some t → a ∈ t.log → .call i a ∈ evs ∨ s.Logged i t.label a := by
  refine h.invariant (I := fun evs p => ∀ i t a, p.threads i = some t → a ∈ t.log →
    .call i a ∈ evs ∨ s.Logged i t.label a) ?_ (fun i t a ht ha => Or.inr ⟨t, ht, rfl, ha⟩)
  intro evs p e p' hI _ hs j t a hj ha
  have hold : ∀ t', p.threads j = some t' → t'.label = t.label → a ∈ t'.log →
      .call j a ∈ evs ++ [e] ∨ s.Logged j t.label a := by
    intro t' ht' hl ha'
    rw [← hl]
    exact (hI j t' a ht' ha').imp (List.mem_append_left _) id
  cases hs with
  | start =>
      rcases update_some_eq_some hj with ⟨rfl, rfl⟩ | ⟨-, hj⟩
      · cases ha
      · exact hold t hj rfl ha
  | call ht _ =>
      rcases update_some_eq_some hj with ⟨rfl, rfl⟩ | ⟨-, hj⟩
      · rcases List.mem_append.mp ha with ha | ha
        · exact hold _ ht rfl ha
        · rw [List.mem_singleton.mp ha]
          exact Or.inl (List.mem_append_right _ (List.mem_singleton_self _))
      · exact hold t hj rfl ha
  | finish => exact hold t (update_none_eq_some hj).2 rfl ha
  | lose => exact hold t (update_none_eq_some hj).2 rfl ha
  | env => exact hold t hj rfl ha

/-- A call that happened was answered by the world it happened in. -/
theorem Run.answered {s s' : Pool W L Res E α} {evs i op r} (h : Run M C s evs s')
    (hcall : .call i ⟨op, r⟩ ∈ evs) :
    ∃ pre post s₁ s₂, evs = pre ++ .call i ⟨op, r⟩ :: post ∧ Run M C s pre s₁ ∧
      M.sem op s₁.world r s₂.world ∧ Step M s₁ (.call i ⟨op, r⟩) s₂ ∧ Run M C s₂ post s' := by
  obtain ⟨pre, post, rfl⟩ := List.append_of_mem hcall
  obtain ⟨s₁, s₂, hpre, -, hs, hpost⟩ := h.split
  refine ⟨pre, post, s₁, s₂, rfl, hpre, ?_, hs, hpost⟩
  cases hs with
  | call _ hsem => exact hsem

/-- A label that was started was taken up by the world it was started in. -/
theorem Run.spawned_at {s s' : Pool W L Res E α} {evs i l} (h : Run M C s evs s')
    (hstart : .start i l ∈ evs) :
    ∃ pre post s₁ w, evs = pre ++ .start i l :: post ∧ Run M C s pre s₁ ∧
      M.spawn l s₁.world w := by
  obtain ⟨pre, post, rfl⟩ := List.append_of_mem hstart
  obtain ⟨s₁, s₂, hpre, -, hs, -⟩ := h.split
  cases hs with
  | start _ hspawn => exact ⟨pre, post, _, _, rfl, hpre, hspawn⟩

/-- A label that was started was taken up. -/
theorem Run.spawned {s s' : Pool W L Res E α} {evs i l} (h : Run M C s evs s')
    (hstart : .start i l ∈ evs) : ∃ w w', M.spawn l w w' := by
  obtain ⟨-, -, s₁, w, -, -, hspawn⟩ := h.spawned_at hstart
  exact ⟨s₁.world, w, hspawn⟩

/-- The next call of an activity. -/
theorem Step.call_update {w w' : W} {ts : ℕ → Option (Thread L Res E α)} {i l tr op k r}
    (h : M.sem op w r w') :
    Step M ⟨w, Function.update ts i (some ⟨l, tr, .call op k⟩)⟩ (.call i ⟨op, r⟩)
      ⟨w', Function.update ts i (some ⟨l, tr ++ [⟨op, r⟩], k r⟩)⟩ := by
  have hcall := Step.call (M := M)
    (Function.update_self i (some (⟨l, tr, .call op k⟩ : Thread L Res E α)) ts) h
  rwa [Function.update_idem] at hcall

/-- The same for a call whose answer goes to the rest of a program. -/
theorem Step.ask_update {β : Type} {w w' : W} {ts : ℕ → Option (Thread L Res E α)} {i l tr op r}
    {f : Except E (Res op) → Prog Res E β} {g : β → Prog Res E α} (h : M.sem op w r w') :
    Step M ⟨w, Function.update ts i (some ⟨l, tr, (Prog.ask op >>= f) >>= g⟩)⟩ (.call i ⟨op, r⟩)
      ⟨w', Function.update ts i (some ⟨l, tr ++ [⟨op, r⟩], f r >>= g⟩)⟩ :=
  Step.call_update h

/-- Closing an activity that has ended. -/
theorem Step.finish_update {w w' : W} {ts : ℕ → Option (Thread L Res E α)} {i l tr p out}
    (hp : p = Prog.ofExcept out) (h : M.close l out w w') :
    Step M ⟨w, Function.update ts i (some ⟨l, tr, p⟩)⟩ (.finish i out)
      ⟨w', Function.update ts i none⟩ := by
  subst hp
  have hfinish := Step.finish (M := M)
    (Function.update_self i (some (⟨l, tr, Prog.ofExcept out⟩ : Thread L Res E α)) ts) h
  rwa [Function.update_idem] at hfinish

/-- The activity at an index that was just set. -/
theorem Pool.threads_update (w : W) (ts : ℕ → Option (Thread L Res E α)) (i : ℕ)
    (t : Option (Thread L Res E α)) :
    (⟨w, Function.update ts i t⟩ : Pool W L Res E α).threads i = t := Function.update_self i t ts

/-! ### Runs from an idle pool -/

section FromIdle

variable {s s' : Pool W L Res E α} {evs : List (Event L Ev Res E α)}

theorem Run.started_of_idle (h : Run M C s evs s') (hidle : s.Idle) {i t}
    (ht : s'.threads i = some t) : .start i t.label ∈ evs := by
  rcases h.started i t ht with hs | ⟨t₀, h₀, -⟩
  · exact hs
  · rw [hidle i] at h₀
    cases h₀

theorem Run.called_of_idle (h : Run M C s evs s') (hidle : s.Idle) {i t a}
    (ht : s'.threads i = some t) (ha : a ∈ t.log) : .call i a ∈ evs := by
  rcases h.called i t a ht ha with hs | ⟨t₀, h₀, -⟩
  · exact hs
  · rw [hidle i] at h₀
    cases h₀

theorem Run.after_of_idle (h : Run M C s evs s') (hidle : s.Idle) {i t}
    (ht : s'.threads i = some t) : Prog.After (M.body t.label) t.log t.prog := by
  refine h.after ?_ i t ht
  intro j t' hj
  rw [hidle j] at hj
  cases hj

end FromIdle

/-! ### Calls that need others before them -/

namespace Prog

variable {β : Type} {Q : List (Answered Res E) → Op → Prop}

/-- `p.Guarded Q tr`: after the calls of `tr`, the program makes a call only if `Q` holds of
the calls before it. -/
inductive Guarded (Q : List (Answered Res E) → Op → Prop) :
    Prog Res E α → List (Answered Res E) → Prop
  | ret (a tr) : Guarded Q (.ret a) tr
  | fail (e tr) : Guarded Q (.fail e) tr
  | call {op k tr} : Q tr op → (∀ r, Guarded Q (k r) (tr ++ [⟨op, r⟩])) →
      Guarded Q (.call op k) tr

/-- What is left of a guarded program is guarded. -/
theorem Guarded.after {p p' : Prog Res E α} {tr tr' : List (Answered Res E)}
    (hp : p.Guarded Q tr) (h : After p tr' p') : p'.Guarded Q (tr ++ tr') := by
  induction h generalizing tr with
  | nil =>
      rw [List.append_nil]
      exact hp
  | call r _ ih =>
      cases hp with
      | call _ hk =>
          have hrest := ih (hk r)
          rwa [List.append_assoc, List.singleton_append] at hrest

/-- The next call of a guarded program is one that may be made. -/
theorem Guarded.next {p : Prog Res E α} {tr op} {k : Except E (Res op) → Prog Res E α}
    (hp : p.Guarded Q []) (h : After p tr (.call op k)) : Q tr op := by
  cases hp.after h with
  | call hop _ => exact hop

/-- From here on the program makes calls that may be made whatever comes in between. -/
theorem Guarded.of_calls_from {P : Op → Prop} {p : Prog Res E α} (hp : Calls P p)
    {tr : List (Answered Res E)} (hPQ : ∀ tr' op, P op → Q (tr ++ tr') op) : p.Guarded Q tr := by
  induction p generalizing tr with
  | ret a => exact .ret a tr
  | fail e => exact .fail e tr
  | call op k ih =>
      have hop := hPQ [] op hp.1
      rw [List.append_nil] at hop
      refine .call hop fun r => ih r (hp.2 r) fun tr' op' hop' => ?_
      rw [List.append_assoc]
      exact hPQ _ op' hop'

theorem Guarded.of_calls {P : Op → Prop} (hPQ : ∀ tr op, P op → Q tr op) {p : Prog Res E α}
    (hp : Calls P p) (tr : List (Answered Res E)) : p.Guarded Q tr :=
  .of_calls_from hp fun _ => hPQ _

theorem Guarded.bind {p : Prog Res E α} {f : α → Prog Res E β} {tr : List (Answered Res E)}
    (hp : p.Guarded Q tr) (hf : ∀ a tr', (f a).Guarded Q tr') : (p >>= f).Guarded Q tr := by
  induction hp with
  | ret a tr => exact hf a tr
  | fail e tr => exact .fail e tr
  | call hop _ ih => exact .call hop ih

theorem Guarded.ask_bind {op : Op} {f : Except E (Res op) → Prog Res E β}
    {tr : List (Answered Res E)} (hop : Q tr op)
    (hf : ∀ r, (f r).Guarded Q (tr ++ [⟨op, r⟩])) : (Prog.ask op >>= f).Guarded Q tr :=
  .call hop hf

theorem Guarded.perform_bind {op : Op} {f : Res op → Prog Res E β}
    {tr : List (Answered Res E)} (hop : Q tr op)
    (hf : ∀ a, (f a).Guarded Q (tr ++ [⟨op, .ok a⟩])) : (perform op >>= f).Guarded Q tr := by
  refine .call hop fun r => ?_
  rcases r with e | a
  · exact .fail e _
  · exact hf a

theorem Guarded.outcome {p : Prog Res E α} {tr : List (Answered Res E)} (hp : p.Guarded Q tr) :
    p.outcome.Guarded Q tr := by
  induction hp with
  | ret a tr => exact .ret _ tr
  | fail e tr => exact .ret _ tr
  | call hop _ ih => exact .call hop ih

end Prog

/-- A program that has ended has gone along a path. -/
theorem Prog.After.path {p : Prog Res E α} {tr out} (h : Prog.After p tr (Prog.ofExcept out)) :
    Prog.Path p tr out := by
  generalize hq : Prog.ofExcept out = q at h
  induction h with
  | nil p =>
      subst hq
      cases out with
      | ok a => exact .ret a
      | error e => exact .fail e
  | call r _ ih => exact .call r (ih hq)

end Effect
