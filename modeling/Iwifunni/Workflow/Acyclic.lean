/-
Iwifunni/Workflow/Acyclic.lean

`hasCycle` finds exactly the cycles.

The search keeps two sets.  A node that is `visited` has no cycle in front of
it: the relation to its successors is accessible there (`Explored`).  The nodes
that are `visiting` form the path from where the search started to where it is
(`Trail`), so meeting one of them closes a cycle:

    visiting = x₁, x₂, ..., xₙ       xₙ -> ... -> x₂ -> x₁ -> node

Sources come in the order of the edges here and in the order of a map in the
code; `hasCycle_iff` does not mention the order.
-/
import Mathlib.Data.List.Nodup
import Mathlib.Logic.Relation
import Mathlib.Order.WellFoundedSet
import Iwifunni.Workflow.Definition

namespace Iwifunni.Workflow

open Relation

/-- There is an edge from `a` to `b`. -/
def Leads (ends : List (String × String)) (a b : String) : Prop := (a, b) ∈ ends

/-- The successors of a node. -/
def targetsOf (ends : List (String × String)) (n : String) : List String :=
  (ends.filter fun e => e.1 == n).map (·.2)

theorem mem_targetsOf {ends : List (String × String)} {a b : String} :
    b ∈ targetsOf ends a ↔ Leads ends a b := by
  simp only [targetsOf, List.mem_map, List.mem_filter, beq_iff_eq, Leads]
  constructor
  · rintro ⟨⟨s, t⟩, ⟨hmem, rfl⟩, rfl⟩
    exact hmem
  · intro h
    exact ⟨(a, b), ⟨h, rfl⟩, rfl⟩

/-! ### No cycle is missed -/

section Explored

variable {adjacency : String → List String}

/-- What a search that finds no cycle leaves behind: the visited nodes are still
visited, and no infinite path starts at any of them. -/
structure Explored (adjacency : String → List String) (m m' : Marks) : Prop where
  visiting : m'.visiting = m.visiting
  visited : ∀ n ∈ m.visited, n ∈ m'.visited
  acc : (∀ n ∈ m.visited, Acc (fun b a => b ∈ adjacency a) n) →
    ∀ n ∈ m'.visited, Acc (fun b a => b ∈ adjacency a) n

/-- No node in front of which all paths end leads back to itself. -/
theorem not_rel_self_of_acc {α : Type} {r : α → α → Prop} {a : α} (h : Acc r a) : ¬ r a a := by
  induction h with
  | intro a _ ih => exact fun ha => ih a ha ha

theorem Explored.refl (m₀ : Marks) : Explored adjacency m₀ m₀ where
  visiting := rfl
  visited _ h := h
  acc h := h

theorem Explored.trans {m₁ m₂ m₃ : Marks} (h : Explored adjacency m₁ m₂)
    (h' : Explored adjacency m₂ m₃) : Explored adjacency m₁ m₃ where
  visiting := h'.visiting.trans h.visiting
  visited n hn := h'.visited n (h.visited n hn)
  acc hm := h'.acc (h.acc hm)

/-- The loop over the successors. -/
theorem explored_visitAll {search : String → Marks → Bool × Marks}
    (hsearch : ∀ n m m', search n m = (false, m') →
      Explored adjacency m m' ∧ n ∈ m'.visited) (ns : List String) (m m' : Marks)
    (h : visitAll search ns m = (false, m')) :
    Explored adjacency m m' ∧ ∀ n ∈ ns, n ∈ m'.visited := by
  induction ns generalizing m with
  | nil =>
      cases h
      exact ⟨.refl _, fun n hn => by cases hn⟩
  | cons n ns ih =>
      rw [visitAll] at h
      rcases hs : search n m with ⟨found, m₁⟩
      rw [hs] at h
      cases found with
      | true => cases h
      | false =>
          obtain ⟨hfirst, hn⟩ := hsearch n m m₁ hs
          obtain ⟨hrest, hns⟩ := ih m₁ h
          refine ⟨hfirst.trans hrest, fun k hk => ?_⟩
          rcases List.mem_cons.mp hk with rfl | hk
          · exact hrest.visited k hn
          · exact hns k hk

/-- A visit that finds no cycle has explored what it has marked. -/
theorem explored_visit (fuel : ℕ) (n : String) (m m' : Marks)
    (h : visit adjacency fuel n m = (false, m')) :
    Explored adjacency m m' ∧ n ∈ m'.visited := by
  induction fuel generalizing n m m' with
  | zero => cases h
  | succ fuel ih =>
      rw [visit] at h
      split at h
      · next hvisited =>
        cases h
        exact ⟨.refl _, hvisited⟩
      split at h
      · cases h
      · rcases hall : visitAll (visit adjacency fuel) (adjacency n)
          { m with visiting := n :: m.visiting } with ⟨found, m₁⟩
        rw [hall] at h
        cases found with
        | true => cases h
        | false =>
            cases h
            obtain ⟨hsucc, hmem⟩ := explored_visitAll ih _ _ _ hall
            refine ⟨⟨?_, fun k hk => ?_, fun hm k hk => ?_⟩, List.mem_cons_self ..⟩
            · show m₁.visiting.erase n = m.visiting
              rw [hsucc.visiting]
              exact List.erase_cons_head ..
            · exact List.mem_cons_of_mem _ (hsucc.visited k hk)
            · rcases List.mem_cons.mp hk with rfl | hk
              -- all successors are visited, hence accessible
              · exact Acc.intro _ fun b hb => hsucc.acc hm b (hmem b hb)
              · exact hsucc.acc hm k hk

end Explored

/-! ### Every cycle reported is one -/

section Trail

variable {ends : List (String × String)}

/-- The nodes being visited, the last one first, form a path that ends in `n`. -/
inductive Trail (ends : List (String × String)) : List String → String → Prop
  | nil (n) : Trail ends [] n
  | cons {x xs n} : Trail ends xs x → Leads ends x n → Trail ends (x :: xs) n

/-- From every node of a trail the search got to its end. -/
theorem Trail.reaches {xs : List String} {n x : String} (h : Trail ends xs n) (hx : x ∈ xs) :
    TransGen (Leads ends) x n := by
  induction h with
  | nil => cases hx
  | cons _ hlead ih =>
      rcases List.mem_cons.mp hx with rfl | hx
      · exact .single hlead
      · exact (ih hx).tail hlead

/-- A trail without repetition is no longer than the list of edges. -/
theorem Trail.length_le {xs : List String} {n : String} (h : Trail ends xs n)
    (hnodup : xs.Nodup) : xs.length ≤ ends.length := by
  have hsub : ∀ x ∈ xs, x ∈ ends.map (·.1) := by
    clear hnodup
    induction h with
    | nil => exact fun x hx => by cases hx
    | @cons y ys n _ hlead ih =>
        intro x hx
        rcases List.mem_cons.mp hx with rfl | hx
        · exact List.mem_map.mpr ⟨(x, n), hlead, rfl⟩
        · exact ih x hx
  have hle := (hnodup.subperm hsub).length_le
  rwa [List.length_map] at hle

/-- Somewhere there is a cycle. -/
def Cyclic (ends : List (String × String)) : Prop := ∃ n, TransGen (Leads ends) n n

/-- A search that reports a cycle for one of the nodes has found one. -/
theorem cyclic_visitAll {search : String → Marks → Bool × Marks} (xs : List String)
    (hsearch : ∀ n m m', search n m = (false, m') → m'.visiting = m.visiting)
    (htrue : ∀ n m m', Trail ends xs n → m.visiting = xs → search n m = (true, m') →
      Cyclic ends) (ns : List String) (m m' : Marks) (hm : m.visiting = xs)
    (htrail : ∀ n ∈ ns, Trail ends xs n) (h : visitAll search ns m = (true, m')) :
    Cyclic ends := by
  induction ns generalizing m with
  | nil => cases h
  | cons n ns ih =>
      rw [visitAll] at h
      rcases hs : search n m with ⟨found, m₁⟩
      rw [hs] at h
      cases found with
      | true => exact htrue n m m₁ (htrail n (List.mem_cons_self ..)) hm hs
      | false =>
          refine ih m₁ ((hsearch n m m₁ hs).trans hm) ?_ h
          exact fun k hk => htrail k (List.mem_cons_of_mem _ hk)

/-- A search reports a cycle only where there is one: the fuel lasts, since no node
is on the trail twice. -/
theorem cyclic_visit (fuel : ℕ) (n : String) (m m' : Marks)
    (hfuel : ends.length < fuel + m.visiting.length) (hnodup : m.visiting.Nodup)
    (htrail : Trail ends m.visiting n)
    (h : visit (targetsOf ends) fuel n m = (true, m')) : Cyclic ends := by
  induction fuel generalizing n m m' with
  | zero =>
      have hle := htrail.length_le hnodup
      omega
  | succ fuel ih =>
      rw [visit] at h
      split at h
      · cases h
      split at h
      -- it is on the trail already
      · next hvisiting => exact ⟨n, htrail.reaches hvisiting⟩
      · next hvisited hvisiting =>
        rcases hall : visitAll (visit (targetsOf ends) fuel) (targetsOf ends n)
          { m with visiting := n :: m.visiting } with ⟨found, m₁⟩
        rw [hall] at h
        cases found with
        | false => cases h
        | true =>
            -- or one of its targets reports the cycle, with the trail one longer
            refine cyclic_visitAll (n :: m.visiting)
              (fun k m m' hk => (explored_visit fuel k m m' hk).1.visiting) ?_ _ _ _ rfl ?_ hall
            · intro k m₂ m₃ hk hm₂ hs
              refine ih k m₂ m₃ ?_ ?_ ?_ hs
              · rw [hm₂, List.length_cons]
                omega
              · rw [hm₂]
                exact List.nodup_cons.mpr ⟨hvisiting, hnodup⟩
              · rw [hm₂]
                exact hk
            · exact fun k hk => .cons htrail (mem_targetsOf.mp hk)

end Trail

/-- A search from anywhere that reports a cycle has found one. -/
theorem cyclic_of_visitAll {ends : List (String × String)} {fuel : ℕ} {order : List String}
    {m : Marks} (hfuel : ends.length < fuel)
    (h : visitAll (visit (targetsOf ends) fuel) order ⟨[], []⟩ = (true, m)) : Cyclic ends := by
  refine cyclic_visitAll [] (fun k m m' hk => (explored_visit _ k m m' hk).1.visiting)
    ?_ _ _ _ rfl (fun n _ => .nil n) h
  intro n m m' htrail hm hs
  refine cyclic_visit _ n m m' ?_ ?_ ?_ hs
  · omega
  · rw [hm]
    exact List.nodup_nil
  · rw [hm]
    exact htrail

/-- A search from all sources does not miss a cycle. -/
theorem found_of_cyclic {ends : List (String × String)} {fuel : ℕ} {order : List String}
    {found : Bool} {m : Marks} (horder : ∀ n ∈ ends.map (·.1), n ∈ order)
    (h : visitAll (visit (targetsOf ends) fuel) order ⟨[], []⟩ = (found, m)) :
    Cyclic ends → found = true := by
  rintro ⟨n, hcycle⟩
  cases found with
  | true => rfl
  | false =>
      obtain ⟨hexplored, hmem⟩ := explored_visitAll (explored_visit _) _ _ _ h
      have hacc := hexplored.acc fun n hn => by cases hn
      have hsource : n ∈ ends.map (·.1) := by
        obtain ⟨b, hlead, -⟩ := TransGen.head'_iff.mp hcycle
        exact List.mem_map.mpr ⟨(n, b), hlead, rfl⟩
      have hn := (hacc n (hmem n (horder n hsource))).transGen
      have hback : TransGen (fun b a => b ∈ targetsOf ends a) n n :=
        transGen_swap.mpr (hcycle.lift id fun a b hab => mem_targetsOf.mpr hab)
      exact absurd hback (not_rel_self_of_acc hn)

/-- **`hasCycle` finds exactly the cycles.** -/
theorem hasCycle_iff (ends : List (String × String)) :
    hasCycle ends = true ↔ ∃ n, TransGen (Leads ends) n n := by
  have hdef : hasCycle ends
      = (visitAll (visit (targetsOf ends) (ends.length + 2)) (ends.map (·.1)) ⟨[], []⟩).1 := rfl
  rcases hall : visitAll (visit (targetsOf ends) (ends.length + 2)) (ends.map (·.1)) ⟨[], []⟩
    with ⟨found, m⟩
  rw [hdef, hall]
  constructor
  · rintro rfl
    exact cyclic_of_visitAll (by omega) hall
  · exact found_of_cyclic (fun n hn => hn) hall

/-- Without a cycle, some node of a list has no predecessor in it. -/
theorem exists_source {ends : List (String × String)} (h : hasCycle ends = false)
    {ns : List String} (hne : ns ≠ []) : ∃ n ∈ ns, ∀ s ∈ ns, (s, n) ∉ ends := by
  have hirrefl : ∀ n, ¬ TransGen (Leads ends) n n := by
    intro n hn
    have htrue := (hasCycle_iff ends).mpr ⟨n, hn⟩
    rw [h] at htrue
    cases htrue
  have : IsStrictOrder String (TransGen (Leads ends)) :=
    { irrefl := hirrefl, trans := fun _ _ _ => TransGen.trans }
  have hfin : {n | n ∈ ns}.Finite := List.finite_toSet ns
  have hwf := hfin.wellFoundedOn (r := TransGen (Leads ends))
  obtain ⟨n, hn⟩ := List.exists_mem_of_ne_nil ns hne
  obtain ⟨⟨k, hk⟩, -, hmin⟩ := hwf.has_min Set.univ ⟨⟨n, hn⟩, True.intro⟩
  exact ⟨k, hk, fun s hs hlead => hmin ⟨s, hs⟩ True.intro (.single hlead)⟩

end Iwifunni.Workflow
