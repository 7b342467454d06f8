/-
Iwifunni/Go/Fields.lean

The order in which `json.Marshal` writes a map.

A map has no order of its own; its entries are written in the order of their keys.  So
what is written depends on the values the map holds for its keys, and on nothing else
(`sortedFields_congr`): not on the order in which they were put in, and not on values that
were replaced.
-/
import Mathlib.Data.List.Induction
import Mathlib.Data.List.Nodup
import Iwifunni.Go.Json

namespace Iwifunni.Go

variable {α : Type} {f g : String × α} {fields fields' gs : List (String × α)}

/-- Entries in the order of their keys, each key once. -/
def KeysAscend (gs : List (String × α)) : Prop := gs.Pairwise fun f g => f.1 < g.1

/-- What is inserted replaces what was there under its key. -/
theorem mem_insertKey_iff (h : KeysAscend gs) :
    g ∈ insertKey f gs ↔ g = f ∨ g ∈ gs ∧ g.1 ≠ f.1 := by
  induction gs with
  | nil => simp [insertKey]
  | cons head gs ih =>
      obtain ⟨hhead, hgs⟩ := List.pairwise_cons.mp h
      unfold insertKey
      split
      · -- the entry with this key is replaced
        next heq =>
        simp only [List.mem_cons]
        constructor
        · rintro (rfl | hmem)
          · exact Or.inl rfl
          · exact Or.inr ⟨Or.inr hmem, fun hkey =>
              String.lt_irrefl _ (hkey.symm ▸ heq ▸ hhead g hmem)⟩
        · rintro (rfl | ⟨rfl | hmem, hne⟩)
          · exact Or.inl rfl
          · exact absurd heq.symm hne
          · exact Or.inr hmem
      split
      -- it comes in front of everything
      · next hlt =>
        simp only [List.mem_cons]
        constructor
        · rintro (rfl | rfl | hmem)
          · exact Or.inl rfl
          · exact Or.inr ⟨Or.inl rfl, (String.ne_of_lt hlt).symm⟩
          · exact Or.inr ⟨Or.inr hmem,
              (String.ne_of_lt (String.lt_trans hlt (hhead g hmem))).symm⟩
        · rintro (rfl | ⟨hmem, -⟩)
          · exact Or.inl rfl
          · exact Or.inr hmem
      -- it goes further back
      · next hne hlt =>
        simp only [List.mem_cons, ih hgs]
        constructor
        · rintro (rfl | rfl | ⟨hmem, hkey⟩)
          · exact Or.inr ⟨Or.inl rfl, fun heq => hne heq.symm⟩
          · exact Or.inl rfl
          · exact Or.inr ⟨Or.inr hmem, hkey⟩
        · rintro (rfl | ⟨rfl | hmem, hkey⟩)
          · exact Or.inr (Or.inl rfl)
          · exact Or.inl rfl
          · exact Or.inr (Or.inr ⟨hmem, hkey⟩)

/-- Inserting keeps the keys ascending. -/
theorem keysAscend_insertKey (h : KeysAscend gs) : KeysAscend (insertKey f gs) := by
  induction gs with
  | nil => exact List.pairwise_singleton _ _
  | cons head gs ih =>
      obtain ⟨hhead, hgs⟩ := List.pairwise_cons.mp h
      unfold insertKey
      split
      · next heq =>
        exact List.pairwise_cons.mpr ⟨fun g hg => heq ▸ hhead g hg, hgs⟩
      split
      · next hlt =>
        refine List.pairwise_cons.mpr ⟨fun g hg => ?_, h⟩
        rcases List.mem_cons.mp hg with rfl | hg
        · exact hlt
        · exact String.lt_trans hlt (hhead g hg)
      · next hne hlt =>
        refine List.pairwise_cons.mpr ⟨fun g hg => ?_, ih hgs⟩
        rcases (mem_insertKey_iff hgs).mp hg with rfl | ⟨hg, -⟩
        · -- neither equal nor before, so after
          by_contra hnot
          exact hne (String.le_antisymm (String.not_lt.mp hnot) (String.not_lt.mp hlt))
        · exact hhead g hg

/-- What is written is in order. -/
theorem keysAscend_sortedFields (fields : List (String × α)) : KeysAscend (sortedFields fields) := by
  have hfold : ∀ (fs acc : List (String × α)), KeysAscend acc →
      KeysAscend (fs.foldl (fun acc f => insertKey f acc) acc) := by
    intro fs
    induction fs with
    | nil => exact fun acc h => h
    | cons f fs ih => exact fun acc h => ih _ (keysAscend_insertKey h)
  exact hfold fields [] List.Pairwise.nil

/-- What is written are the values of the map. -/
theorem mem_sortedFields_iff {key : String} {value : α} :
    (key, value) ∈ sortedFields fields ↔ Json.lookup fields key = some value := by
  induction fields using List.reverseRecOn with
  | nil => simp [sortedFields, Json.lookup]
  | append_singleton fields f ih =>
      have hsorted : sortedFields (fields ++ [f]) = insertKey f (sortedFields fields) := by
        simp [sortedFields]
      have hlookup : Json.lookup (fields ++ [f]) key =
          if key = f.1 then some f.2 else Json.lookup fields key := by
        by_cases hkey : key = f.1
        · simp [Json.lookup, hkey]
        · simp [Json.lookup, hkey, Ne.symm hkey]
      rw [hsorted, mem_insertKey_iff (keysAscend_sortedFields fields), hlookup, ih]
      split
      · next hkey =>
        subst hkey
        simp [Prod.ext_iff, eq_comm]
      · next hkey =>
        constructor
        · rintro (heq | ⟨hmem, -⟩)
          · exact absurd (congrArg Prod.fst heq) hkey
          · exact hmem
        · exact fun hmem => Or.inr ⟨hmem, hkey⟩

/-- What is written is read back. -/
theorem lookup_sortedFields (fields : List (String × α)) (key : String) :
    Json.lookup (sortedFields fields) key = Json.lookup fields key := by
  have hnodup : ((sortedFields fields).map Prod.fst).Nodup := by
    rw [List.Nodup, List.pairwise_map]
    exact (keysAscend_sortedFields fields).imp String.ne_of_lt
  rcases hlookup : Json.lookup fields key with - | value
  · rcases hwritten : Json.lookup (sortedFields fields) key with - | value
    · rfl
    · obtain ⟨entry, hentry, rfl⟩ := Option.map_eq_some_iff.mp hwritten
      have hkey : entry.1 = key := by simpa using List.find?_some hentry
      have hmem := List.mem_reverse.mp (List.mem_of_find?_eq_some hentry)
      rw [← hkey, mem_sortedFields_iff.mp hmem] at hlookup
      cases hlookup
  · exact Json.lookup_of_mem hnodup (mem_sortedFields_iff.mpr hlookup)

/-- **Maps that hold the same values are written alike.** -/
theorem sortedFields_congr (h : ∀ key, Json.lookup fields key = Json.lookup fields' key) :
    sortedFields fields = sortedFields fields' := by
  have hnodup : ∀ fields : List (String × α), (sortedFields fields).Nodup := fun fields =>
    (keysAscend_sortedFields fields).imp fun hlt heq => String.ne_of_lt hlt (congrArg Prod.fst heq)
  have hperm : (sortedFields fields).Perm (sortedFields fields') := by
    refine (List.perm_ext_iff_of_nodup (hnodup fields) (hnodup fields')).mpr ?_
    rintro ⟨key, value⟩
    rw [mem_sortedFields_iff, mem_sortedFields_iff, h]
  refine hperm.eq_of_pairwise ?_ (keysAscend_sortedFields fields) (keysAscend_sortedFields fields')
  exact fun f g _ _ hfg hgf => absurd hgf (String.lt_asymm hfg)

end Iwifunni.Go
