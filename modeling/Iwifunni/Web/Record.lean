/-
Iwifunni/Web/Record.lean

Objects that are used as maps.

A `Record` holds at most one value for a key, in the order in which the keys were set.
Setting a key replaces its value where it stands.  What matters of a record is what `get`
finds, so there is one lemma about that for each operation.
-/
import Mathlib.Data.List.Induction
import Mathlib.Data.List.Nodup
import Mathlib.Data.Option.Basic

namespace Iwifunni.Web

variable {α β : Type}

/-- An object with these entries, no two for the same key. -/
structure Record (α : Type) where
  entries : List (String × α)
  nodup : (entries.map Prod.fst).Nodup

namespace Record

variable (r : Record α) (key : String)

/-- `r[key]`. -/
def get : Option α := (r.entries.find? fun entry => entry.1 == key).map Prod.snd

/-- `{}`. -/
def empty : Record α := ⟨[], List.nodup_nil⟩

/-- An entry after one key was set. -/
def setEntry (value : α) (entry : String × α) : String × α :=
  if entry.1 = key then (key, value) else entry

theorem map_fst_setEntry (value : α) (entries : List (String × α)) :
    (entries.map (setEntry key value)).map Prod.fst = entries.map Prod.fst := by
  rw [List.map_map]
  refine List.map_congr_left fun entry _ => ?_
  show (setEntry key value entry).1 = entry.1
  unfold setEntry
  split
  · next h => exact h.symm
  · rfl

theorem nodup_concat (value : α) (h : key ∉ r.entries.map Prod.fst) :
    ((r.entries ++ [(key, value)]).map Prod.fst).Nodup := by
  rw [List.map_append]
  refine List.nodup_append.mpr ⟨r.nodup, List.nodup_singleton _, ?_⟩
  intro k hk k' hk' heq
  rw [List.map_singleton, List.mem_singleton] at hk'
  subst heq hk'
  exact h hk

/-- `{ ...r, [key]: value }`. -/
def set (value : α) : Record α :=
  if h : key ∈ r.entries.map Prod.fst then
    ⟨r.entries.map (setEntry key value), by
      rw [map_fst_setEntry]
      exact r.nodup⟩
  else ⟨r.entries ++ [(key, value)], r.nodup_concat key value h⟩

/-- The object with these entries set one after the other. -/
def ofEntries (entries : List (String × α)) : Record α :=
  entries.foldl (fun r entry => r.set entry.1 entry.2) empty

/-- The entries whose values satisfy `p`. -/
def filter (p : α → Bool) : Record α :=
  ⟨r.entries.filter fun entry => p entry.2,
    r.nodup.sublist (List.filter_sublist.map Prod.fst)⟩

/-- The same keys with other values. -/
def map (f : α → β) : Record β :=
  ⟨r.entries.map fun entry => (entry.1, f entry.2), by
    rw [List.map_map]
    exact r.nodup⟩

/-! ### What is found -/

/-- A value is found under a key exactly if there is such an entry. -/
theorem get_eq_some_iff {value : α} : r.get key = some value ↔ (key, value) ∈ r.entries := by
  constructor
  · intro h
    obtain ⟨entry, hentry, rfl⟩ := Option.map_eq_some_iff.mp h
    have hkey : entry.1 = key := by simpa using List.find?_some hentry
    exact hkey ▸ List.mem_of_find?_eq_some hentry
  · intro h
    rcases hfind : r.entries.find? fun entry => entry.1 == key with - | entry
    · have := List.find?_eq_none.mp hfind _ h
      simp at this
    · have hkey : entry.1 = key := by simpa using List.find?_some hfind
      have hmem := List.mem_of_find?_eq_some hfind
      obtain rfl := List.inj_on_of_nodup_map r.nodup hmem h hkey
      rw [get, hfind]
      rfl

theorem get_isSome_iff : (r.get key).isSome ↔ key ∈ r.entries.map Prod.fst := by
  rw [Option.isSome_iff_exists, List.mem_map]
  constructor
  · rintro ⟨value, h⟩
    exact ⟨_, (r.get_eq_some_iff key).mp h, rfl⟩
  · rintro ⟨entry, h, rfl⟩
    exact ⟨entry.2, (r.get_eq_some_iff entry.1).mpr h⟩

theorem get_empty : (empty : Record α).get key = none := rfl

/-- Two records find the same if they have the same entries. -/
theorem get_congr {r r' : Record α} {k k' : String}
    (h : ∀ value, (k, value) ∈ r.entries ↔ (k', value) ∈ r'.entries) : r.get k = r'.get k' := by
  ext value
  rw [r.get_eq_some_iff, r'.get_eq_some_iff, h]

/-- The entries after one was set. -/
theorem mem_set {value v : α} {k : String} :
    (k, v) ∈ (r.set key value).entries ↔ if k = key then v = value else (k, v) ∈ r.entries := by
  unfold set
  split
  · next hmem =>
    rw [List.mem_map]
    constructor
    · rintro ⟨entry, hentry, heq⟩
      unfold setEntry at heq
      split at heq
      · obtain ⟨rfl, rfl⟩ := Prod.mk.inj heq
        rw [if_pos rfl]
      · next hne =>
        subst heq
        rw [if_neg hne]
        exact hentry
    · intro h
      split at h
      · next hk =>
        subst hk h
        obtain ⟨entry, hentry, hkey⟩ := List.mem_map.mp hmem
        exact ⟨entry, hentry, if_pos hkey⟩
      · next hne => exact ⟨_, h, if_neg hne⟩
  · next hnone =>
    rw [List.mem_append, List.mem_singleton, Prod.mk.injEq]
    constructor
    · rintro (h | ⟨rfl, rfl⟩)
      · rw [if_neg]
        · exact h
        · rintro rfl
          exact hnone (List.mem_map_of_mem (f := Prod.fst) h)
      · rw [if_pos rfl]
    · intro h
      split at h
      · next hk => exact Or.inr ⟨hk, h⟩
      · exact Or.inl h

theorem get_set_self (value : α) : (r.set key value).get key = some value := by
  rw [get_eq_some_iff, mem_set, if_pos rfl]

theorem get_set_of_ne {k : String} (h : k ≠ key) (value : α) :
    (r.set key value).get k = r.get k := by
  apply get_congr
  intro v
  rw [mem_set, if_neg h]

theorem get_filter (p : α → Bool) : (r.filter p).get key = (r.get key).filter p := by
  ext value
  rw [get_eq_some_iff, filter, List.mem_filter, Option.filter_eq_some_iff, get_eq_some_iff]

theorem get_map (f : α → β) : (r.map f).get key = (r.get key).map f := by
  rw [get, get, map, List.find?_map, Option.map_map, Option.map_map]
  rfl

/-- Of several entries for a key the last one counts. -/
theorem get_ofEntries (entries : List (String × α)) (key : String) :
    (ofEntries entries).get key =
      (entries.reverse.find? fun entry => entry.1 == key).map Prod.snd := by
  induction entries using List.reverseRecOn with
  | nil => rfl
  | append_singleton entries entry ih =>
      have hset : ofEntries (entries ++ [entry]) = (ofEntries entries).set entry.1 entry.2 := by
        simp [ofEntries]
      rw [hset, List.reverse_append, List.reverse_singleton, List.singleton_append,
        List.find?_cons]
      by_cases hkey : entry.1 = key
      · rw [beq_iff_eq.mpr hkey, ← hkey, get_set_self]
        rfl
      · rw [beq_eq_false_iff_ne.mpr hkey, get_set_of_ne _ _ (Ne.symm hkey), ih]

/-- Entries of a record are found as they are in it. -/
theorem get_ofEntries_entries (r : Record α) (f : α → β) (key : String) :
    (ofEntries (r.entries.map fun entry => (entry.1, f entry.2))).get key =
      (r.get key).map f := by
  rw [← r.get_map key f]
  ext value
  rw [get_ofEntries, get_eq_some_iff]
  have hnodup : ((r.map f).entries.map Prod.fst).Nodup := (r.map f).nodup
  have hrev : ((r.map f).entries.reverse.map Prod.fst).Nodup := by
    rw [List.map_reverse, List.nodup_reverse]
    exact hnodup
  have hget := @get_eq_some_iff _ ⟨(r.map f).entries.reverse, hrev⟩ key value
  rw [List.mem_reverse] at hget
  exact hget

end Record

end Iwifunni.Web
