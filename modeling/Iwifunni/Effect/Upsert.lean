/-
Iwifunni/Effect/Upsert.lean

Lists of keys with values, and the statement that writes to them.

`INSERT .. ON CONFLICT (key) DO UPDATE` replaces the value of a key, or appends the key.
What several such statements leave is known from their arguments alone, as long as they
do not contradict each other (`mem_upserts`).
-/
import Mathlib.Data.List.Nodup

namespace Effect

variable {K V : Type} [DecidableEq K]

/-- Write a value under a key. -/
def upsert (p : K × V) (l : List (K × V)) : List (K × V) :=
  if p.1 ∈ l.map Prod.fst then l.map fun q => if q.1 = p.1 then p else q else l ++ [p]

/-- Write several values, one after the other. -/
def upserts (ps l : List (K × V)) : List (K × V) := ps.foldl (fun l p => upsert p l) l

variable {p q : K × V} {ps l : List (K × V)}

@[simp] theorem upserts_nil (l : List (K × V)) : upserts [] l = l := rfl

@[simp] theorem upserts_cons (p : K × V) (ps l : List (K × V)) :
    upserts (p :: ps) l = upserts ps (upsert p l) := rfl

theorem upserts_append (ps ps' l : List (K × V)) :
    upserts (ps ++ ps') l = upserts ps' (upserts ps l) := List.foldl_append ..

theorem upsert_of_mem (h : p.1 ∈ l.map Prod.fst) :
    upsert p l = l.map fun q => if q.1 = p.1 then p else q :=
  if_pos h

theorem upsert_of_notMem (h : p.1 ∉ l.map Prod.fst) : upsert p l = l ++ [p] :=
  if_neg h

/-- What is written is there; what was there under other keys stays. -/
theorem mem_upsert : q ∈ upsert p l ↔ q = p ∨ q.1 ≠ p.1 ∧ q ∈ l := by
  unfold upsert
  split
  · next hkey =>
    obtain ⟨r, hr, hrp⟩ := List.mem_map.mp hkey
    rw [List.mem_map]
    constructor
    · rintro ⟨r', hr', rfl⟩
      by_cases h : r'.1 = p.1
      · rw [if_pos h]
        exact Or.inl rfl
      · rw [if_neg h]
        exact Or.inr ⟨h, hr'⟩
    · rintro (rfl | ⟨hne, hq⟩)
      · exact ⟨r, hr, if_pos hrp⟩
      · exact ⟨q, hq, if_neg hne⟩
  · next hkey =>
    rw [List.mem_append, List.mem_singleton, or_comm]
    refine or_congr_right ⟨fun hq => ⟨fun he => hkey ?_, hq⟩, And.right⟩
    exact he ▸ List.mem_map_of_mem hq

/-- Keys stay distinct. -/
theorem nodup_upsert (h : (l.map Prod.fst).Nodup) : ((upsert p l).map Prod.fst).Nodup := by
  unfold upsert
  split
  · have hkeys : (fun q : K × V => (if q.1 = p.1 then p else q).1) = Prod.fst := by
      funext q
      by_cases hq : q.1 = p.1
      · rw [if_pos hq, hq]
      · rw [if_neg hq]
    rw [List.map_map]
    show (l.map fun q => (if q.1 = p.1 then p else q).1).Nodup
    rw [hkeys]
    exact h
  · next hkey =>
    rw [List.map_append, List.nodup_append]
    refine ⟨h, by simp, ?_⟩
    rintro a ha b hb rfl
    exact hkey ((List.mem_singleton.mp hb : a = p.1) ▸ ha)

theorem nodup_upserts (ps : List (K × V)) (h : (l.map Prod.fst).Nodup) :
    ((upserts ps l).map Prod.fst).Nodup := by
  induction ps generalizing l with
  | nil => exact h
  | cons p ps ih => exact ih (nodup_upsert h)

/-- The second of two values for one key counts. -/
theorem upsert_upsert (h : q.1 = p.1) : upsert p (upsert q l) = upsert p l := by
  have hreplace : ∀ r : K × V,
      (if (if r.1 = q.1 then q else r).1 = p.1 then p else if r.1 = q.1 then q else r) =
        if r.1 = p.1 then p else r := by
    intro r
    by_cases hr : r.1 = p.1
    · simp [h, hr]
    · simp [h, hr]
  have hstill : p.1 ∈ (upsert q l).map Prod.fst :=
    h ▸ List.mem_map_of_mem (mem_upsert.mpr (Or.inl rfl))
  rw [upsert_of_mem hstill]
  by_cases hkey : p.1 ∈ l.map Prod.fst
  · rw [upsert_of_mem (h ▸ hkey), upsert_of_mem hkey, List.map_map]
    exact List.map_congr_left fun r _ => hreplace r
  · have hothers : (l.map fun r => if r.1 = p.1 then p else r) = l := by
      conv_rhs => rw [← List.map_id l]
      refine List.map_congr_left fun r hr => if_neg fun he => hkey ?_
      exact he ▸ List.mem_map_of_mem hr
    rw [upsert_of_notMem (h ▸ hkey), upsert_of_notMem hkey, List.map_append, hothers]
    simp [h]

/-- Of several values for one key the last one counts. -/
theorem upserts_concat (h : ∀ q ∈ ps, q.1 = p.1) : upserts (ps ++ [p]) l = upsert p l := by
  induction ps generalizing l with
  | nil => rfl
  | cons q ps ih =>
      rw [List.cons_append, upserts_cons, ih fun r hr => h r (List.mem_cons_of_mem _ hr)]
      exact upsert_upsert (h q (List.mem_cons_self ..))

/-- What is left of writes that give every key one value. -/
theorem mem_upserts (h : ∀ p ∈ ps, ∀ q ∈ ps, p.1 = q.1 → p = q) :
    q ∈ upserts ps l ↔ q ∈ ps ∨ q.1 ∉ ps.map Prod.fst ∧ q ∈ l := by
  induction ps generalizing l with
  | nil => simp
  | cons p ps ih =>
      have hrest : ∀ p ∈ ps, ∀ q ∈ ps, p.1 = q.1 → p = q := fun p hp q hq =>
        h p (List.mem_cons_of_mem _ hp) q (List.mem_cons_of_mem _ hq)
      rw [upserts_cons, ih hrest, mem_upsert, List.mem_cons, List.map_cons, List.mem_cons,
        not_or]
      constructor
      · rintro (hq | ⟨hkey, rfl | ⟨hne, hq⟩⟩)
        · exact Or.inl (Or.inr hq)
        · exact Or.inl (Or.inl rfl)
        · exact Or.inr ⟨⟨hne, hkey⟩, hq⟩
      · rintro ((rfl | hq) | ⟨⟨hne, hkey⟩, hq⟩)
        · by_cases hkey : q.1 ∈ ps.map Prod.fst
          · -- a later write has the same key, hence the same value
            obtain ⟨r, hr, hrq⟩ := List.mem_map.mp hkey
            have he := h r (List.mem_cons_of_mem _ hr) q (List.mem_cons_self ..) hrq
            exact Or.inl (he ▸ hr)
          · exact Or.inr ⟨hkey, Or.inl rfl⟩
        · exact Or.inl hq
        · exact Or.inr ⟨hkey, Or.inr ⟨hne, hq⟩⟩

end Effect
