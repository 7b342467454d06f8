/-
Iwifunni/Graph/Reach.lean

Depth-first search for everything a vertex leads to.

The search keeps the list of the vertices it has seen, enters a vertex at most once
and hands the list on from one successor to the next.  The depth of the calls is
bounded by fuel; since every call below another one has seen one vertex more, as much
fuel as there are vertices is enough, and then the search finds exactly what is
reached (`mem_reach_iff`).
-/
import Mathlib.Data.List.Nodup
import Mathlib.Logic.Relation

namespace Graph

open Relation

variable {α : Type*} {next : α → List α} {vertices : List α}

/-- What a search from the vertices `vs` adds to what has been seen: every one of them,
nothing that is not reached, and with a vertex all its successors. -/
structure Collected (next : α → List α) (vs seen seen' : List α) : Prop where
  subset : ∀ x ∈ seen, x ∈ seen'
  mem : ∀ v ∈ vs, v ∈ seen'
  sound : ∀ x ∈ seen', x ∈ seen ∨ ∃ v ∈ vs, ReflTransGen (fun a b => b ∈ next a) v x
  closed : ∀ x ∈ seen', x ∈ seen ∨ ∀ y ∈ next x, y ∈ seen'
  nodup : seen.Nodup → seen'.Nodup

theorem Collected.refl (seen : List α) : Collected next [] seen seen where
  subset _ h := h
  mem v h := by cases h
  sound _ h := Or.inl h
  closed _ h := Or.inl h
  nodup h := h

/-- One search after the other. -/
theorem Collected.append {vs ws seen₁ seen₂ seen₃ : List α} (h : Collected next vs seen₁ seen₂)
    (h' : Collected next ws seen₂ seen₃) : Collected next (vs ++ ws) seen₁ seen₃ where
  subset x hx := h'.subset x (h.subset x hx)
  mem v hv := by
    rcases List.mem_append.mp hv with hv | hv
    · exact h'.subset v (h.mem v hv)
    · exact h'.mem v hv
  sound x hx := by
    rcases h'.sound x hx with hx | ⟨w, hw, hreach⟩
    · rcases h.sound x hx with hx | ⟨v, hv, hreach⟩
      · exact Or.inl hx
      · exact Or.inr ⟨v, List.mem_append_left _ hv, hreach⟩
    · exact Or.inr ⟨w, List.mem_append_right _ hw, hreach⟩
  closed x hx := by
    rcases h'.closed x hx with hx | hclosed
    · rcases h.closed x hx with hx | hclosed
      · exact Or.inl hx
      · exact Or.inr fun y hy => h'.subset y (hclosed y hy)
    · exact Or.inr hclosed
  nodup hn := h'.nodup (h.nodup hn)

section Search

variable [DecidableEq α]

/-- What a search from a vertex has seen, given what had been seen before. -/
def reach (next : α → List α) : ℕ → α → List α → List α
  | 0, _, seen => seen
  | fuel + 1, v, seen =>
      if v ∈ seen then seen
      else (next v).foldl (fun seen w => reach next fuel w seen) (seen ++ [v])

/-- The vertices that have not been seen. -/
def unseen (vertices seen : List α) : List α := vertices.filter (· ∉ seen)

theorem length_unseen_le {seen seen' : List α} (h : ∀ x ∈ seen, x ∈ seen') :
    (unseen vertices seen').length ≤ (unseen vertices seen).length := by
  refine List.Sublist.length_le (List.monotone_filter_right _ fun x hx => ?_)
  simp only [decide_eq_true_eq] at hx ⊢
  exact fun hmem => hx (h x hmem)

/-- A vertex that is seen for the first time leaves fewer unseen. -/
theorem length_unseen_lt {seen : List α} {v : α} (hv : v ∈ vertices) (hnew : v ∉ seen) :
    (unseen vertices (seen ++ [v])).length < (unseen vertices seen).length := by
  have hunseen : v ∈ unseen vertices seen := by simp [unseen, hv, hnew]
  -- what is left after `v` was seen is left without `v`
  have hrest : unseen vertices (seen ++ [v]) = (unseen vertices seen).filter (· ≠ v) := by
    simp only [unseen, List.filter_filter]
    apply List.filter_congr
    intro x _
    simp [not_or, and_comm]
  rw [hrest]
  exact List.length_filter_lt_length_iff_exists.mpr ⟨v, hunseen, by simp⟩

/-- The loop over the successors. -/
theorem collected_foldl {fuel : ℕ}
    (hstep : ∀ v seen, v ∈ vertices → (unseen vertices seen).length < fuel →
      Collected next [v] seen (reach next fuel v seen)) (vs seen : List α)
    (hvs : ∀ v ∈ vs, v ∈ vertices) (hfuel : (unseen vertices seen).length < fuel) :
    Collected next vs seen (vs.foldl (fun seen w => reach next fuel w seen) seen) := by
  induction vs generalizing seen with
  | nil => exact .refl _
  | cons v vs ih =>
      have hfirst := hstep v seen (hvs v (List.mem_cons_self ..)) hfuel
      refine hfirst.append (ih _ (fun w hw => hvs w (List.mem_cons_of_mem _ hw)) ?_)
      exact Nat.lt_of_le_of_lt (length_unseen_le hfirst.subset) hfuel

/-- **A search with enough fuel has seen everything the vertex leads to.** -/
theorem collected_reach (hvertices : ∀ x ∈ vertices, ∀ y ∈ next x, y ∈ vertices) (fuel : ℕ)
    (v : α) (seen : List α) (hv : v ∈ vertices) (hfuel : (unseen vertices seen).length < fuel) :
    Collected next [v] seen (reach next fuel v seen) := by
  induction fuel generalizing v seen with
  | zero => omega
  | succ fuel ih =>
      rw [reach]
      split
      · next hseen =>
        refine ⟨fun _ h => h, ?_, fun _ h => Or.inl h, fun _ h => Or.inl h, fun h => h⟩
        exact fun w hw => List.mem_singleton.mp hw ▸ hseen
      · next hnew =>
        have hless := length_unseen_lt hv hnew
        have hloop := collected_foldl ih (next v) (seen ++ [v]) (hvertices v hv) (by omega)
        -- the vertex itself was added before the loop, its successors in it
        have hself : v ∈ (next v).foldl (fun seen w => reach next fuel w seen) (seen ++ [v]) :=
          hloop.subset v (by simp)
        refine ⟨fun x hx => hloop.subset x (List.mem_append_left _ hx), ?_, ?_, ?_, ?_⟩
        · exact fun w hw => List.mem_singleton.mp hw ▸ hself
        · intro x hx
          rcases hloop.sound x hx with hx | ⟨w, hw, hreach⟩
          · rcases List.mem_append.mp hx with hx | hx
            · exact Or.inl hx
            · rw [List.mem_singleton.mp hx]
              exact Or.inr ⟨v, by simp, .refl⟩
          · exact Or.inr ⟨v, by simp, .head hw hreach⟩
        · intro x hx
          rcases hloop.closed x hx with hx | hclosed
          · rcases List.mem_append.mp hx with hx | hx
            · exact Or.inl hx
            · rw [List.mem_singleton.mp hx]
              exact Or.inr hloop.mem
          · exact Or.inr hclosed
        · intro hn
          apply hloop.nodup
          rw [List.nodup_append]
          refine ⟨hn, List.nodup_singleton v, ?_⟩
          rintro x hx y hy rfl
          exact hnew (List.mem_singleton.mp hy ▸ hx)

/-- **The search finds exactly what is reached.** -/
theorem mem_reach_iff (hvertices : ∀ x ∈ vertices, ∀ y ∈ next x, y ∈ vertices) {fuel : ℕ} {v : α}
    (hv : v ∈ vertices) (hfuel : vertices.length < fuel) {x : α} :
    x ∈ reach next fuel v [] ↔ ReflTransGen (fun a b => b ∈ next a) v x := by
  have hall : (unseen vertices []).length < fuel :=
    Nat.lt_of_le_of_lt (List.length_filter_le ..) hfuel
  have hcollected := collected_reach hvertices fuel v [] hv hall
  constructor
  · intro hx
    rcases hcollected.sound x hx with hx | ⟨w, hw, hreach⟩
    · cases hx
    · rwa [List.mem_singleton.mp hw] at hreach
  · intro hreach
    induction hreach with
    | refl => exact hcollected.mem v (by simp)
    | tail _ hstep ih => exact ((hcollected.closed _ ih).resolve_left (by simp)) _ hstep

/-- It has seen no vertex twice. -/
theorem nodup_reach (hvertices : ∀ x ∈ vertices, ∀ y ∈ next x, y ∈ vertices) {fuel : ℕ} {v : α}
    (hv : v ∈ vertices) (hfuel : vertices.length < fuel) : (reach next fuel v []).Nodup :=
  (collected_reach hvertices fuel v [] hv
    (Nat.lt_of_le_of_lt (List.length_filter_le ..) hfuel)).nodup List.nodup_nil

end Search

end Graph
