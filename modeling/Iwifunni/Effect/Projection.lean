/-
Iwifunni/Effect/Projection.lean

A run, as somebody sees it who sees a part of the activities and a part of the world.

    the run      p₀ --start i--> p₁ --call j--> p₂ --call i--> p₃ --env--> ...
                 |               |              |              |
    what is seen q₀ --start i--> q₁      =      q₁ --call i--> q₃     =

If hidden activities change nothing that is seen, and visible ones do to what is seen
what they do to the world (`Machine.Shows`), then what is seen of a run is a run in which
the hidden activities never were (`Run.seen`).
-/
import Iwifunni.Effect.Pool

namespace Effect

variable {W L Ev Op : Type} {Res : Op → Type} {E α : Type}

/-! ### Sights -/

/-- What somebody sees: a part of the world, some of the activities, and of what happens
besides what it does to that part. -/
structure Sight (W L Ev : Type) where
  world : W → W
  visible : L → Bool
  env : Ev → Ev

namespace Sight

variable (v : Sight W L Ev)

/-- The visible activities. -/
def threads (ts : ℕ → Option (Thread L Res E α)) (i : ℕ) : Option (Thread L Res E α) :=
  (ts i).filter fun t => v.visible t.label

def pool (p : Pool W L Res E α) : Pool W L Res E α := ⟨v.world p.world, v.threads p.threads⟩

def event : Event L Ev Res E α → Event L Ev Res E α
  | .env ev => .env (v.env ev)
  | e => e

/-- A change that is made to what is seen as well if the activity is visible, and else is
not seen. -/
def Shown (l : L) (R : W → W → Prop) (w w' : W) : Prop :=
  (v.visible l = true → R (v.world w) (v.world w')) ∧
    (v.visible l = false → v.world w' = v.world w)

/-- The event is one of a visible activity, or happens besides activities. -/
def Sees (p : Pool W L Res E α) : Event L Ev Res E α → Prop
  | .start _ l => v.visible l = true
  | .call i _ => ∃ t, p.threads i = some t ∧ v.visible t.label = true
  | .finish i _ => ∃ t, p.threads i = some t ∧ v.visible t.label = true
  | .lose i => ∃ t, p.threads i = some t ∧ v.visible t.label = true
  | .env _ => True

variable {v}

theorem threads_update (ts : ℕ → Option (Thread L Res E α)) (i : ℕ)
    (t : Option (Thread L Res E α)) :
    v.threads (Function.update ts i t) =
      Function.update (v.threads ts) i (t.filter fun t => v.visible t.label) := by
  funext j
  by_cases hj : j = i
  · subst hj
    simp only [threads, Function.update_self]
  · simp only [threads, Function.update_of_ne hj]

theorem threads_visible {ts : ℕ → Option (Thread L Res E α)} {i : ℕ} {t : Thread L Res E α}
    (h : ts i = some t) (ht : v.visible t.label = true) : v.threads ts i = some t := by
  show (ts i).filter _ = some t
  rw [h, Option.filter_some, if_pos ht]

theorem threads_hidden {ts : ℕ → Option (Thread L Res E α)} {i : ℕ} {t : Thread L Res E α}
    (h : ts i = some t) (ht : v.visible t.label = false) : v.threads ts i = none := by
  show (ts i).filter _ = none
  rw [h, Option.filter_some, ht]
  rfl

theorem threads_none {ts : ℕ → Option (Thread L Res E α)} {i : ℕ} (h : ts i = none) :
    v.threads ts i = none := by
  show (ts i).filter _ = none
  rw [h]
  rfl

/-- A hidden activity may come, go on or go. -/
theorem threads_update_hidden {ts : ℕ → Option (Thread L Res E α)} {i : ℕ}
    {t : Option (Thread L Res E α)} (h : v.threads ts i = none)
    (ht : ∀ t', t = some t' → v.visible t'.label = false) :
    v.threads (Function.update ts i t) = v.threads ts := by
  have hnone : t.filter (fun t => v.visible t.label) = none := by
    rcases t with - | t'
    · rfl
    · rw [Option.filter_some, ht t' rfl]
      rfl
  rw [threads_update, hnone, ← h, Function.update_eq_self]

theorem threads_update_visible {ts : ℕ → Option (Thread L Res E α)} {i : ℕ}
    {t : Thread L Res E α} (ht : v.visible t.label = true) :
    v.threads (Function.update ts i (some t)) = Function.update (v.threads ts) i (some t) := by
  rw [threads_update, Option.filter_some, if_pos ht]

end Sight

/-! ### Machines that show what they do -/

/-- Pools for which `I` holds can be seen with `v`. -/
structure Machine.Shows (M : Machine W L Ev Res E α) (v : Sight W L Ev)
    (I : Pool W L Res E α → Prop) : Prop where
  kept : ∀ {p e p'}, I p → Step M p e p' → I p'
  spawn : ∀ {l w w'}, M.spawn l w w' → v.Shown l (M.spawn l) w w'
  call : ∀ {p i l tr op k r w'}, I p → p.threads i = some ⟨l, tr, .call op k⟩ →
    M.sem op p.world r w' → v.Shown l (fun w w' => M.sem op w r w') p.world w'
  close : ∀ {l out w w'}, M.close l out w w' → v.Shown l (M.close l out) w w'
  lose : ∀ {l w w'}, M.lose l w w' → v.Shown l (M.lose l) w w'
  env : ∀ {ev w w'}, M.env ev w w' →
    M.env (v.env ev) (v.world w) (v.world w') ∨ v.world w' = v.world w

variable {M : Machine W L Ev Res E α} {C C' : Pool W L Res E α → Event L Ev Res E α → Prop}
  {v : Sight W L Ev} {I : Pool W L Res E α → Prop}

/-- **One step**: it is seen, or nothing of it is. -/
theorem Step.seen (hM : M.Shows v I) {p p' : Pool W L Res E α} {e} (hp : I p)
    (h : Step M p e p') :
    v.Sees p e ∧ Step M (v.pool p) (v.event e) (v.pool p') ∨ v.pool p' = v.pool p := by
  cases h with
  | @start w w' ts i l hts hspawn =>
      obtain ⟨hshown, hhidden⟩ := hM.spawn hspawn
      have hnone : v.threads ts i = none := Sight.threads_none hts
      -- what cannot be seen has changed nothing that can be seen
      rcases hl : v.visible l with - | -
      · refine Or.inr ?_
        simp only [Sight.pool]
        rw [hhidden hl, Sight.threads_update_hidden hnone]
        rintro t' ⟨⟩
        exact hl
      · refine Or.inl ?_
        simp only [Sight.pool]
        rw [Sight.threads_update_visible hl]
        exact ⟨hl, .start hnone (hshown hl)⟩
  | @call w w' ts i l tr op k r hts hsem =>
      obtain ⟨hshown, hhidden⟩ := hM.call hp hts hsem
      rcases hl : v.visible l with - | -
      · refine Or.inr ?_
        simp only [Sight.pool]
        rw [hhidden hl, Sight.threads_update_hidden (Sight.threads_hidden hts hl)]
        rintro t' ⟨⟩
        exact hl
      · refine Or.inl ?_
        simp only [Sight.pool]
        rw [Sight.threads_update_visible hl]
        exact ⟨⟨_, hts, hl⟩, .call (Sight.threads_visible hts hl) (hshown hl)⟩
  | @finish w w' ts i l tr out hts hclose =>
      obtain ⟨hshown, hhidden⟩ := hM.close hclose
      rcases hl : v.visible l with - | -
      · refine Or.inr ?_
        simp only [Sight.pool]
        rw [hhidden hl, Sight.threads_update_hidden (Sight.threads_hidden hts hl)]
        rintro t' ⟨⟩
      · refine Or.inl ?_
        simp only [Sight.pool]
        rw [Sight.threads_update]
        exact ⟨⟨_, hts, hl⟩, .finish (Sight.threads_visible hts hl) (hshown hl)⟩
  | @lose w w' ts i t hts hlose =>
      obtain ⟨hshown, hhidden⟩ := hM.lose hlose
      rcases hl : v.visible t.label with - | -
      · refine Or.inr ?_
        simp only [Sight.pool]
        rw [hhidden hl, Sight.threads_update_hidden (Sight.threads_hidden hts hl)]
        rintro t' ⟨⟩
      · refine Or.inl ?_
        simp only [Sight.pool]
        rw [Sight.threads_update]
        exact ⟨⟨_, hts, hl⟩, .lose (Sight.threads_visible hts hl) (hshown hl)⟩
  | @env w w' ts ev henv =>
      rcases hM.env henv with hseen | hkept
      · exact Or.inl ⟨True.intro, .env hseen⟩
      · refine Or.inr ?_
        simp only [Sight.pool]
        rw [hkept]

/-- **What is seen of a run is a run**: of the visible activities alone, on what is seen
of the world. -/
theorem Run.seen (hM : M.Shows v I) (hC : ∀ p e, I p → C p e → C' (v.pool p) (v.event e))
    {p p' : Pool W L Res E α} {evs} (h : Run M C p evs p') (hp : I p) :
    I p' ∧ ∃ evs', evs'.Sublist (evs.map v.event) ∧ Run M C' (v.pool p) evs' (v.pool p') := by
  induction h with
  | nil => exact ⟨hp, [], List.Sublist.refl _, .nil _⟩
  | @snoc evs p₁ e p₂ _ hc hs ih =>
      obtain ⟨hp₁, evs', hsub, hrun⟩ := ih
      refine ⟨hM.kept hp₁ hs, ?_⟩
      rw [List.map_append]
      rcases hs.seen hM hp₁ with ⟨-, hseen⟩ | hkept
      · exact ⟨evs' ++ [v.event e], hsub.append (List.Sublist.refl _),
          .snoc hrun (hC _ _ hp₁ hc) hseen⟩
      · rw [hkept]
        exact ⟨evs', hsub.trans (List.sublist_append_left _ _), hrun⟩

end Effect
