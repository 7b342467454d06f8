/-
Iwifunni/Graph/Line.lean

Graphs that are one directed path.

A graph is a list of edges, as pairs of their ends.  It is a line through a list of
vertices if the list has no repetition and the edges are the steps along it, in any
order:

    vertices   a, b, c, d
    edges      (c, d), (a, b), (b, c)

Vertices can be put into a line, put at its end and taken out of it, and what has to
be done to the edges is local.  From the head of a line every vertex is reached, no
vertex has two edges in or out, and no path leads back.  A graph with these properties
is a line (`exists_isLine`).
-/
import Mathlib.Data.List.Perm.Basic
import Mathlib.Data.List.Nodup
import Mathlib.Logic.Relation

namespace Graph

variable {α β : Type*}

/-! ### Steps -/

/-- The steps along a list. -/
def steps : List α → List (α × α)
  | [] => []
  | [_] => []
  | a :: b :: vs => (a, b) :: steps (b :: vs)

@[simp] theorem steps_nil : steps ([] : List α) = [] := rfl

@[simp] theorem steps_singleton (a : α) : steps [a] = [] := rfl

@[simp] theorem steps_cons_cons (a b : α) (vs : List α) :
    steps (a :: b :: vs) = (a, b) :: steps (b :: vs) := rfl

/-- The steps up to a vertex, and those from there on. -/
theorem steps_append (l : List α) (a : α) (r : List α) :
    steps (l ++ a :: r) = steps (l ++ [a]) ++ steps (a :: r) := by
  induction l with
  | nil => rfl
  | cons b l ih =>
      cases l with
      | nil => rfl
      | cons c l =>
          simp only [List.cons_append, steps_cons_cons] at ih ⊢
          rw [ih]

theorem steps_concat (l : List α) (a b : α) :
    steps (l ++ [a, b]) = steps (l ++ [a]) ++ [(a, b)] := steps_append l a [b]

/-- Every vertex but the last has a step out of it. -/
@[simp] theorem map_fst_steps (vs : List α) : (steps vs).map Prod.fst = vs.dropLast := by
  induction vs with
  | nil => rfl
  | cons a vs ih =>
      cases vs with
      | nil => rfl
      | cons b vs =>
          rw [steps_cons_cons, List.map_cons, ih]
          rfl

/-- Every vertex but the first has a step into it. -/
@[simp] theorem map_snd_steps (vs : List α) : (steps vs).map Prod.snd = vs.tail := by
  induction vs with
  | nil => rfl
  | cons a vs ih =>
      cases vs with
      | nil => rfl
      | cons b vs =>
          rw [steps_cons_cons, List.map_cons, ih]
          rfl

theorem fst_mem_of_mem_steps {vs : List α} {e : α × α} (h : e ∈ steps vs) : e.1 ∈ vs.dropLast := by
  rw [← map_fst_steps]
  exact List.mem_map_of_mem h

theorem snd_mem_of_mem_steps {vs : List α} {e : α × α} (h : e ∈ steps vs) : e.2 ∈ vs.tail := by
  rw [← map_snd_steps]
  exact List.mem_map_of_mem h

/-- A step is between neighbours. -/
theorem split_of_mem_steps {vs : List α} {a b : α} (h : (a, b) ∈ steps vs) :
    ∃ l r, vs = l ++ a :: b :: r := by
  induction vs with
  | nil => cases h
  | cons c vs ih =>
      cases vs with
      | nil => cases h
      | cons d vs =>
          rcases List.mem_cons.mp h with heq | hmem
          · obtain ⟨rfl, rfl⟩ := Prod.mk.inj heq
            exact ⟨[], vs, rfl⟩
          · obtain ⟨l, r, hsplit⟩ := ih hmem
            exact ⟨c :: l, r, by rw [hsplit]; rfl⟩

theorem steps_map (f : α → β) (vs : List α) : steps (vs.map f) = (steps vs).map (Prod.map f f) := by
  induction vs with
  | nil => rfl
  | cons a vs ih =>
      cases vs with
      | nil => rfl
      | cons b vs =>
          simp only [List.map_cons, steps_cons_cons] at ih ⊢
          rw [ih]
          rfl

/-- A vertex after another one. -/
theorem perm_insert (l : List α) (a n : α) (r : List α) :
    (l ++ a :: n :: r).Perm (n :: (l ++ a :: r)) := by
  have h : ((l ++ [a]) ++ n :: r).Perm (n :: ((l ++ [a]) ++ r)) := List.perm_middle
  simpa using h

/-! ### Lines -/

/-- The edges are one path through all of these vertices. -/
structure IsLine (vs : List α) (es : List (α × α)) : Prop where
  nodup : vs.Nodup
  perm : es.Perm (steps vs)

namespace IsLine

variable {vs l r : List α} {es es' : List (α × α)} {a b n : α}

theorem congr (h : IsLine vs es) (hp : es'.Perm es) : IsLine vs es' := ⟨h.nodup, hp.trans h.perm⟩

/-- A line under other names. -/
theorem map {f : α → β} (h : IsLine vs es) (hf : (vs.map f).Nodup) :
    IsLine (vs.map f) (es.map (Prod.map f f)) where
  nodup := hf
  perm := by
    rw [steps_map]
    exact h.perm.map _

/-- Put a vertex onto an edge. -/
theorem insert (h : IsLine (l ++ a :: b :: r) ((a, b) :: es)) (hn : n ∉ l ++ a :: b :: r) :
    IsLine (l ++ a :: n :: b :: r) (es ++ [(a, n), (n, b)]) where
  nodup := by
    exact (perm_insert l a n (b :: r)).nodup_iff.mpr (List.nodup_cons.mpr ⟨hn, h.nodup⟩)
  perm := by
    have hold : es.Perm (steps (l ++ [a]) ++ steps (b :: r)) := by
      have hp := h.perm
      rw [steps_append, steps_cons_cons] at hp
      exact List.Perm.cons_inv (hp.trans List.perm_middle)
    rw [steps_append, steps_cons_cons, steps_cons_cons]
    refine (hold.append_right _).trans ?_
    rw [List.append_assoc]
    refine List.Perm.append_left _ ?_
    exact List.perm_append_comm

/-- Put a vertex at the end. -/
theorem concat (h : IsLine (l ++ [a]) es) (hn : n ∉ l ++ [a]) :
    IsLine (l ++ [a, n]) (es ++ [(a, n)]) where
  nodup := by
    have hperm : (l ++ [a, n]).Perm (n :: (l ++ [a])) := by
      have := List.perm_append_singleton n (l ++ [a])
      simpa using this
    exact hperm.nodup_iff.mpr (List.nodup_cons.mpr ⟨hn, h.nodup⟩)
  perm := by
    rw [steps_concat]
    exact h.perm.append_right _

/-- Take a vertex out from between two others. -/
theorem erase (h : IsLine (l ++ a :: n :: b :: r) ((a, n) :: (n, b) :: es)) :
    IsLine (l ++ a :: b :: r) (es ++ [(a, b)]) where
  nodup := by
    have hsub : (a :: b :: r).Sublist (a :: n :: b :: r) :=
      (List.sublist_cons_self n (b :: r)).cons_cons a
    exact h.nodup.sublist (hsub.append_left l)
  perm := by
    have hold : es.Perm (steps (l ++ [a]) ++ steps (b :: r)) := by
      have hp := h.perm
      rw [steps_append, steps_cons_cons, steps_cons_cons] at hp
      refine List.Perm.cons_inv (List.Perm.cons_inv (hp.trans ?_))
      exact List.perm_middle.trans (List.perm_middle.cons _)
    rw [steps_append, steps_cons_cons]
    refine (hold.append_right _).trans ?_
    rw [List.append_assoc]
    exact List.Perm.append_left _ List.perm_append_comm

/-- Take the last vertex away. -/
theorem dropLast (h : IsLine (l ++ [a, n]) ((a, n) :: es)) : IsLine (l ++ [a]) es where
  nodup := by
    have hsub : [a].Sublist [a, n] := .cons_cons a (List.nil_sublist _)
    exact h.nodup.sublist (hsub.append_left l)
  perm := by
    have hp := h.perm
    rw [steps_concat] at hp
    exact List.Perm.cons_inv (hp.trans (List.perm_append_singleton _ _))

/-! ### Along a line -/

theorem mem_fst (h : IsLine vs es) {e : α × α} (he : e ∈ es) : e.1 ∈ vs :=
  List.dropLast_subset _ (fst_mem_of_mem_steps (h.perm.mem_iff.mp he))

theorem mem_snd (h : IsLine vs es) {e : α × α} (he : e ∈ es) : e.2 ∈ vs :=
  List.mem_of_mem_tail (snd_mem_of_mem_steps (h.perm.mem_iff.mp he))

/-- No vertex has two edges out of it. -/
theorem nodup_fst (h : IsLine vs es) : (es.map Prod.fst).Nodup := by
  refine ((h.perm.map Prod.fst).nodup_iff).mpr ?_
  rw [map_fst_steps]
  exact h.nodup.sublist (List.dropLast_sublist _)

/-- No vertex has two edges into it. -/
theorem nodup_snd (h : IsLine vs es) : (es.map Prod.snd).Nodup := by
  refine ((h.perm.map Prod.snd).nodup_iff).mpr ?_
  rw [map_snd_steps]
  exact h.nodup.sublist (List.tail_sublist _)

/-- All vertices but the head have an edge into them. -/
theorem mem_map_snd (h : IsLine vs es) {v : α} : v ∈ es.map Prod.snd ↔ v ∈ vs.tail := by
  rw [(h.perm.map Prod.snd).mem_iff, map_snd_steps]

theorem head_notMem (h : IsLine (a :: r) es) : a ∉ es.map Prod.snd := by
  rw [h.mem_map_snd]
  exact (List.nodup_cons.mp h.nodup).1

/-- A vertex without an edge out of it is the last one. -/
theorem eq_concat (h : IsLine vs es) (ha : a ∈ vs) (hlast : a ∉ es.map Prod.fst) :
    ∃ l, vs = l ++ [a] := by
  rw [(h.perm.map Prod.fst).mem_iff, map_fst_steps] at hlast
  have hne : vs ≠ [] := List.ne_nil_of_mem ha
  have hsplit := List.dropLast_append_getLast hne
  refine ⟨vs.dropLast, ?_⟩
  rw [← hsplit] at ha
  rcases List.mem_append.mp ha with hmem | hmem
  · exact absurd hmem hlast
  · rw [List.mem_singleton.mp hmem, hsplit]

/-- From the head every vertex is reached. -/
theorem reaches (h : IsLine (a :: r) es) {v : α} (hv : v ∈ a :: r) :
    Relation.ReflTransGen (fun x y => (x, y) ∈ es) a v := by
  have hsteps : ∀ (r : List α) (a : α), v ∈ a :: r →
      Relation.ReflTransGen (fun x y => (x, y) ∈ steps (a :: r)) a v := by
    intro r
    induction r with
    | nil =>
        intro a hv
        rw [List.mem_singleton.mp hv]
    | cons b r ih =>
        intro a hv
        rcases List.mem_cons.mp hv with rfl | hv
        · exact .refl
        · refine .head (List.mem_cons_self ..) ((ih b hv).lift id ?_)
          exact fun x y hxy => List.mem_cons_of_mem _ hxy
  exact (hsteps r a hv).lift id fun x y hxy => h.perm.mem_iff.mpr hxy

/-- No path of a line leads back. -/
theorem not_transGen_self [DecidableEq α] (h : IsLine vs es) (v : α) :
    ¬ Relation.TransGen (fun x y => (x, y) ∈ es) v v := by
  have hstep : ∀ x y, (x, y) ∈ es → vs.idxOf x < vs.idxOf y := by
    intro x y hxy
    obtain ⟨l, r, rfl⟩ := split_of_mem_steps (h.perm.mem_iff.mp hxy)
    have hx : x ∉ l := fun hl =>
      (List.nodup_append.mp h.nodup).2.2 x hl x (by simp) rfl
    have hy : y ∉ l := fun hl =>
      (List.nodup_append.mp h.nodup).2.2 y hl y (by simp) rfl
    have hne : x ≠ y := by
      have := (List.nodup_append.mp h.nodup).2.1
      simp only [List.nodup_cons, List.mem_cons, not_or] at this
      exact this.1.1
    rw [List.idxOf_append_of_notMem hx, List.idxOf_append_of_notMem hy, List.idxOf_cons_self,
      List.idxOf_cons_ne _ hne]
    omega
  have hpath : ∀ x y, Relation.TransGen (fun x y => (x, y) ∈ es) x y →
      vs.idxOf x < vs.idxOf y := by
    intro x y hxy
    induction hxy with
    | single hlead => exact hstep _ _ hlead
    | tail _ hlead ih => exact Nat.lt_trans ih (hstep _ _ hlead)
  exact fun hv => Nat.lt_irrefl _ (hpath v v hv)

end IsLine

/-! ### Graphs that are lines -/

section Found

variable {es es' : List (α × α)} {s t : α}

/-- What is reached after the one edge out of a vertex is reached without it. -/
theorem reaches_of_cons (hne : t ≠ s) (hstart : s ∉ es'.map Prod.snd) {v : α}
    (h : Relation.ReflTransGen (fun x y => (x, y) ∈ (s, t) :: es') t v) :
    Relation.ReflTransGen (fun x y => (x, y) ∈ es') t v ∧ v ≠ s := by
  induction h with
  | refl => exact ⟨.refl, hne⟩
  | tail _ hlead ih =>
      obtain ⟨hpath, hb⟩ := ih
      rcases List.mem_cons.mp hlead with heq | hmem
      · exact absurd (Prod.mk.inj heq).1 hb
      · refine ⟨hpath.tail hmem, ?_⟩
        rintro rfl
        exact hstart (List.mem_map_of_mem (f := Prod.snd) hmem)

/-- A vertex an edge goes out from is reached from the start, so the start has an edge. -/
theorem exists_edge_of_reaches {e : α × α} (he : e ∈ es)
    (h : Relation.ReflTransGen (fun x y => (x, y) ∈ es) s e.1) : ∃ t, (s, t) ∈ es := by
  rcases h.cases_head with rfl | ⟨t, hlead, _⟩
  · exact ⟨e.2, he⟩
  · exact ⟨t, hlead⟩

/-- **A graph is a line** if no vertex has two edges out or two edges in, nothing leads to
the start, and every edge is reached from there. -/
theorem exists_isLine (hfst : (es.map Prod.fst).Nodup) (hsnd : (es.map Prod.snd).Nodup)
    (hstart : s ∉ es.map Prod.snd)
    (hreach : ∀ e ∈ es, Relation.ReflTransGen (fun x y => (x, y) ∈ es) s e.1) :
    ∃ rest, IsLine (s :: rest) es := by
  induction hlen : es.length generalizing s es with
  | zero =>
      obtain rfl := List.length_eq_zero_iff.mp hlen
      exact ⟨[], List.nodup_singleton s, List.Perm.refl _⟩
  | succ n ih =>
      obtain ⟨e, he⟩ := List.exists_mem_of_length_pos (by omega : 0 < es.length)
      obtain ⟨t, ht⟩ := exists_edge_of_reaches he (hreach e he)
      obtain ⟨l, r, rfl⟩ := List.append_of_mem ht
      -- the edges are put so that the one out of the start is the first
      have hperm : (l ++ (s, t) :: r).Perm ((s, t) :: (l ++ r)) := List.perm_middle
      have hmem : ∀ x y, (x, y) ∈ l ++ (s, t) :: r ↔ (x, y) ∈ (s, t) :: (l ++ r) :=
        fun x y => hperm.mem_iff
      rw [(hperm.map _).nodup_iff, List.map_cons, List.nodup_cons] at hfst hsnd
      rw [(hperm.map _).mem_iff, List.map_cons, List.mem_cons, not_or] at hstart
      have hrest : ∀ e ∈ l ++ r,
          Relation.ReflTransGen (fun x y => (x, y) ∈ l ++ r) t e.1 := by
        intro e he
        have hpath := hreach e (hperm.mem_iff.mpr (List.mem_cons_of_mem _ he))
        simp only [hmem] at hpath
        have hes : e.1 ≠ s := fun heq => hfst.1 (List.mem_map.mpr ⟨e, he, heq⟩)
        rcases hpath.cases_head with heq | ⟨y, hlead, hafter⟩
        · exact absurd heq.symm hes
        rcases List.mem_cons.mp hlead with heq | hother
        · obtain ⟨-, rfl⟩ := Prod.mk.inj heq
          exact (reaches_of_cons (Ne.symm hstart.1) hstart.2 hafter).1
        · exact absurd (List.mem_map_of_mem (f := Prod.fst) hother) hfst.1
      have hcount : (l ++ r).length = n := by
        have := hperm.length_eq
        rw [hlen, List.length_cons] at this
        omega
      obtain ⟨rest, hline⟩ := ih hfst.2 hsnd.2 hsnd.1 hrest hcount
      refine ⟨t :: rest, List.nodup_cons.mpr ⟨?_, hline.nodup⟩, hperm.trans (hline.perm.cons _)⟩
      rw [List.mem_cons, not_or]
      refine ⟨hstart.1, fun hs => hstart.2 ?_⟩
      exact hline.mem_map_snd.mpr hs

end Found

/-! ### Edges told apart by a key -/

section Keyed

variable [DecidableEq β] {f : α → β} {es : List α} {e : α}

/-- Only the edge itself has its key. -/
theorem filter_key_eq (h : (es.map f).Nodup) (he : e ∈ es) :
    (es.filter fun x => f x == f e) = [e] := by
  induction es with
  | nil => cases he
  | cons x es ih =>
      rw [List.map_cons, List.nodup_cons] at h
      rcases List.mem_cons.mp he with rfl | he
      · rw [List.filter_cons_of_pos (by simp)]
        have hnone : (es.filter fun x => f x == f e) = [] := by
          refine List.filter_eq_nil_iff.mpr fun x hx hkey => h.1 ?_
          exact List.mem_map.mpr ⟨x, hx, by simpa using hkey⟩
        rw [hnone]
      · have hne : f x ≠ f e := fun heq => h.1 (heq ▸ List.mem_map_of_mem he)
        rw [List.filter_cons_of_neg (by simpa using hne)]
        exact ih h.2 he

/-- The other edges are those with another key. -/
theorem perm_cons_filter_key_ne (h : (es.map f).Nodup) (he : e ∈ es) :
    (e :: es.filter fun x => f x != f e).Perm es := by
  have hsplit := List.filter_append_perm (fun x => f x == f e) es
  rw [filter_key_eq h he] at hsplit
  exact hsplit

end Keyed

end Graph
