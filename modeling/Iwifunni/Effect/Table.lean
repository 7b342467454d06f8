/-
Iwifunni/Effect/Table.lean

Tables with a primary key.

A table is a partial function from keys to rows together with the proof that
every row is found under its own key, so that a row never has to be compared
with the key it was looked up by.  Writing is `set`, which replaces the row with
the same key; an INSERT is a `set` where there was no row, an UPDATE a `set`
where there was one.
-/
import Mathlib.Logic.Function.Basic

namespace Effect

/-- Rows under a primary key. -/
structure Table {K Row : Type} (key : Row → K) where
  get : K → Option Row
  keyed : ∀ {k r}, get k = some r → key r = k

namespace Table

variable {K Row : Type} {key : Row → K}

/-- The table without rows. -/
def empty (key : Row → K) : Table key where
  get _ := none
  keyed h := by cases h

@[simp] theorem get_empty (k : K) : (empty key).get k = none := rfl

/-- Change every row, but not its key. -/
def map (t : Table key) (f : Row → Row) (hf : ∀ r, key (f r) = key r) : Table key where
  get k := (t.get k).map f
  keyed := by
    intro k r h
    obtain ⟨r', hr', rfl⟩ := Option.map_eq_some_iff.mp h
    rw [hf, t.keyed hr']

/-! ### Part of a table -/

theorem ext {t t' : Table key} (h : ∀ k, t.get k = t'.get k) : t = t' := by
  obtain ⟨g, hg⟩ := t
  obtain ⟨g', hg'⟩ := t'
  obtain rfl : g = g' := funext h
  rfl

/-- The rows for which `p` holds. -/
def filter (t : Table key) (p : Row → Bool) : Table key where
  get k := (t.get k).filter p
  keyed := by
    intro k r h
    exact t.keyed (Option.filter_eq_some_iff.mp h).1

theorem get_filter (t : Table key) (p : Row → Bool) (k : K) :
    (t.filter p).get k = (t.get k).filter p := rfl

/-- Two conditions that agree on the rows of a table. -/
theorem filter_congr {t : Table key} {p q : Row → Bool} (h : ∀ k r, t.get k = some r → p r = q r) :
    t.filter p = t.filter q := by
  apply ext
  intro k
  rw [get_filter, get_filter]
  rcases hk : t.get k with - | r
  · rfl
  · rw [Option.filter_some, Option.filter_some, h k r hk]

/-! ### Writing -/

variable [DecidableEq K]

/-- Write a row under its key. -/
def set (t : Table key) (r : Row) : Table key where
  get := Function.update t.get (key r) (some r)
  keyed := by
    intro k r' h
    by_cases hk : k = key r
    · subst hk
      rw [Function.update_self] at h
      cases h
      rfl
    · rw [Function.update_of_ne hk] at h
      exact t.keyed h

@[simp] theorem get_set_self (t : Table key) (r : Row) : (t.set r).get (key r) = some r :=
  Function.update_self ..

theorem get_set_of_eq {t : Table key} {r : Row} {k : K} (h : key r = k) :
    (t.set r).get k = some r := by
  rw [← h, get_set_self]

theorem get_set_of_ne {t : Table key} {r : Row} {k : K} (h : k ≠ key r) :
    (t.set r).get k = t.get k :=
  Function.update_of_ne h ..

/-- What is in a table after a write: the new row, or an old one under another key. -/
theorem get_set_eq_some {t : Table key} {r r' : Row} {k : K}
    (h : (t.set r).get k = some r') :
    (k = key r ∧ r' = r) ∨ (k ≠ key r ∧ t.get k = some r') := by
  by_cases hk : k = key r
  · subst hk
    rw [get_set_self] at h
    cases h
    exact Or.inl ⟨rfl, rfl⟩
  · rw [get_set_of_ne hk] at h
    exact Or.inr ⟨hk, h⟩

theorem filter_set_of_true {t : Table key} {p : Row → Bool} {r : Row} (h : p r = true) :
    (t.set r).filter p = (t.filter p).set r := by
  apply ext
  intro k
  rw [get_filter]
  by_cases hk : k = key r
  · subst hk
    rw [get_set_self, get_set_self, Option.filter_some, if_pos h]
  · rw [get_set_of_ne hk, get_set_of_ne hk, get_filter]

/-- What is written outside a part does not show in it. -/
theorem filter_set_of_false {t : Table key} {p : Row → Bool} {r : Row} (h : p r = false)
    (hold : ∀ r', t.get (key r) = some r' → p r' = false) :
    (t.set r).filter p = t.filter p := by
  apply ext
  intro k
  rw [get_filter, get_filter]
  by_cases hk : k = key r
  · subst hk
    rw [get_set_self, Option.filter_some, h]
    rcases hr : t.get (key r) with - | r'
    · rfl
    · rw [Option.filter_some, hold r' hr]
      rfl
  · rw [get_set_of_ne hk]

/-- Remove the row under a key. -/
def erase (t : Table key) (k : K) : Table key where
  get := Function.update t.get k none
  keyed := by
    intro k' r h
    by_cases hk : k' = k
    · subst hk
      rw [Function.update_self] at h
      cases h
    · rw [Function.update_of_ne hk] at h
      exact t.keyed h

@[simp] theorem get_erase_self (t : Table key) (k : K) : (t.erase k).get k = none :=
  Function.update_self ..

theorem get_erase_of_ne {t : Table key} {k k' : K} (h : k' ≠ k) : (t.erase k).get k' = t.get k' :=
  Function.update_of_ne h ..

end Table

end Effect
