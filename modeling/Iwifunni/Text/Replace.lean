/-
Iwifunni/Text/Replace.lean

Replacing all matches of a pattern.

A pattern is what it matches at the start of a text: the replacement, and the length of
the match.  The matches are taken from left to right, and none overlaps the one before.
Where nothing matches, a text goes through as it is (`replaceAll_literal`), and a match is
cut out as a whole (`replaceAll_match`).

A text can also be cut at the matches (`cut`).  Then a replacement is made piece by piece
(`replaceAll_eq_pasted`), and a text is its own pieces (`pasted_cut`).
-/
import Mathlib.Data.List.Infix
import Mathlib.Data.Nat.Notation

namespace Replace

variable {α : Type}

/-- What a pattern matches at the start of a text: a replacement and a length. -/
abbrev Pattern (α : Type) : Type := List α → Option (List α × ℕ)

/-- The text with the matches replaced; `skip` elements belong to the last match. -/
def replaceAll (m : Pattern α) (skip : ℕ) : List α → List α
  | [] => []
  | c :: cs => match skip with
    | n + 1 => replaceAll m n cs
    | 0 => match m (c :: cs) with
      | some (replacement, n) => replacement ++ replaceAll m (n - 1) cs
      | none => c :: replaceAll m 0 cs

variable {m : Pattern α}

@[simp] theorem replaceAll_nil (skip : ℕ) : replaceAll m skip [] = [] := rfl

theorem replaceAll_cons_of_none {c : α} {cs : List α} (h : m (c :: cs) = none) :
    replaceAll m 0 (c :: cs) = c :: replaceAll m 0 cs := by
  rw [replaceAll, h]

/-- Text in which no match begins is left alone. -/
theorem replaceAll_literal {l cs : List α} (h : ∀ s, s <:+ l → s ≠ [] → m (s ++ cs) = none) :
    replaceAll m 0 (l ++ cs) = l ++ replaceAll m 0 cs := by
  induction l with
  | nil => rfl
  | cons c l ih =>
      have hnone : m (c :: (l ++ cs)) = none :=
        h (c :: l) (List.suffix_refl _) (List.cons_ne_nil _ _)
      rw [List.cons_append, replaceAll_cons_of_none hnone,
        ih fun s hs => h s (hs.trans (List.suffix_cons c l)), List.cons_append]

/-- The elements of a match are skipped. -/
theorem replaceAll_skip (l cs : List α) : replaceAll m l.length (l ++ cs) = replaceAll m 0 cs := by
  induction l with
  | nil => rfl
  | cons c l ih => exact ih

/-- A match is replaced as a whole. -/
theorem replaceAll_match {l cs out : List α} (hne : l ≠ [])
    (h : m (l ++ cs) = some (out, l.length)) :
    replaceAll m 0 (l ++ cs) = out ++ replaceAll m 0 cs := by
  obtain ⟨c, l, rfl⟩ := List.exists_cons_of_ne_nil hne
  rw [List.cons_append] at h
  rw [List.cons_append, replaceAll, h]
  exact congrArg (out ++ ·) (replaceAll_skip l cs)

/-! ### Delimiters -/

/-- The text before a delimiter of two equal elements has no delimiter in it, not even one
that begins in the text and ends in the delimiter. -/
theorem not_prefix_of_plain {d : α} {l cs s : List α} (h : ¬ [d, d] <:+: l ++ [d])
    (hs : s <:+ l) (hne : s ≠ []) : ¬ [d, d] <+: s ++ d :: cs := by
  rintro ⟨rest, hrest⟩
  obtain ⟨front, rfl⟩ := hs
  -- the delimiter is the start of `s` and the one after it
  have hpair : [d, d] <+: s ++ [d] := by
    cases s with
    | nil => exact absurd rfl hne
    | cons c s =>
        obtain ⟨hc, htail⟩ := List.cons.inj hrest
        subst hc
        cases s with
        | nil => exact List.prefix_refl _
        | cons c' s =>
            rw [← (List.cons.inj htail).1]
            exact ⟨s ++ [d], rfl⟩
  refine h (hpair.isInfix.trans ?_)
  rw [List.append_assoc]
  exact (List.suffix_append front _).isInfix

/-- A word without the delimiter that stands before one stands in the text. -/
theorem prefix_append_cons_iff {d : α} {w l cs : List α} (h : d ∉ w) :
    w <+: l ++ d :: cs ↔ w <+: l := by
  refine ⟨fun hw => ?_, fun hw => hw.trans (List.prefix_append l _)⟩
  induction w generalizing l with
  | nil => exact List.nil_prefix
  | cons a w ih =>
      cases l with
      | nil =>
          obtain rfl := (List.cons_prefix_cons.mp hw).1
          exact absurd List.mem_cons_self h
      | cons c l =>
          rw [List.cons_append, List.cons_prefix_cons] at hw
          exact List.cons_prefix_cons.mpr
            ⟨hw.1, ih (fun hd => h (List.mem_cons_of_mem a hd)) hw.2⟩

/-- A word that ends with the delimiter stands in the text, or is all of it with the
delimiter. -/
theorem prefix_or_eq_of_concat {d : α} {w l cs : List α} (h : d ∉ w)
    (hw : w ++ [d] <+: l ++ d :: cs) : w ++ [d] <+: l ∨ w = l := by
  induction w generalizing l with
  | nil =>
      cases l with
      | nil => exact Or.inr rfl
      | cons c l =>
          refine Or.inl (List.cons_prefix_cons.mpr ⟨?_, List.nil_prefix⟩)
          exact (List.cons_prefix_cons.mp hw).1
  | cons a w ih =>
      cases l with
      | nil =>
          obtain rfl := (List.cons_prefix_cons.mp hw).1
          exact absurd List.mem_cons_self h
      | cons c l =>
          obtain ⟨hc, htail⟩ := List.cons_prefix_cons.mp hw
          subst hc
          rcases ih (fun hd => h (List.mem_cons_of_mem a hd)) htail with hp | heq
          · exact Or.inl (List.cons_prefix_cons.mpr ⟨rfl, hp⟩)
          · exact Or.inr (congrArg (a :: ·) heq)

section

variable [DecidableEq α] {d : α} {l cs : List α}

/-- Up to a delimiter. -/
theorem takeWhile_append_of_notMem (h : d ∉ l) :
    (l ++ cs).takeWhile (· != d) = l ++ cs.takeWhile (· != d) :=
  List.takeWhile_append_of_pos fun _ hc => bne_iff_ne.mpr fun heq => h (heq ▸ hc)

/-- From a delimiter on. -/
theorem dropWhile_append_of_notMem (h : d ∉ l) :
    (l ++ cs).dropWhile (· != d) = cs.dropWhile (· != d) :=
  List.dropWhile_append_of_pos fun _ hc => bne_iff_ne.mpr fun heq => h (heq ▸ hc)

theorem dropWhile_of_notMem (h : d ∉ l) : l.dropWhile (· != d) = [] := by
  rw [← List.append_nil l, dropWhile_append_of_notMem h]
  rfl

@[simp] theorem takeWhile_cons_self : (d :: cs).takeWhile (· != d) = [] := by simp

@[simp] theorem dropWhile_cons_self : (d :: cs).dropWhile (· != d) = d :: cs := by simp

end

/-! ### The text cut at the matches -/

section Cut

variable {β : Type} {find : List α → Option (β × ℕ)} {f : β → List α}

/-- The pieces of a text: the elements that are left alone, and what was found in a match. -/
def cut (find : List α → Option (β × ℕ)) (skip : ℕ) : List α → List (α ⊕ β)
  | [] => []
  | c :: cs => match skip with
    | n + 1 => cut find n cs
    | 0 => match find (c :: cs) with
      | some (b, n) => Sum.inr b :: cut find (n - 1) cs
      | none => Sum.inl c :: cut find 0 cs

/-- The text of the pieces, with `f` for what was found. -/
def pasted (f : β → List α) (ps : List (α ⊕ β)) : List α := ps.flatMap (Sum.elim (fun c => [c]) f)

/-- Replacing is cutting, and pasting with the replacements. -/
theorem replaceAll_eq_pasted (skip : ℕ) (cs : List α) :
    replaceAll (fun cs => (find cs).map fun found => (f found.1, found.2)) skip cs =
      pasted f (cut find skip cs) := by
  induction cs generalizing skip with
  | nil => rfl
  | cons c cs ih =>
      cases skip with
      | succ n => exact ih n
      | zero =>
          rcases hfound : find (c :: cs) with - | ⟨b, n⟩
          · rw [replaceAll_cons_of_none (by rw [hfound, Option.map_none]), ih, cut, hfound]
            rfl
          · rw [replaceAll, hfound, Option.map_some, cut, hfound]
            exact congrArg (f b ++ ·) (ih (n - 1))

/-- If a match is the text of what is found, the pieces are the text. -/
theorem pasted_cut (h : ∀ cs b n, find cs = some (b, n) →
    f b ≠ [] ∧ n = (f b).length ∧ f b <+: cs) (cs : List α) : pasted f (cut find 0 cs) = cs := by
  rw [← replaceAll_eq_pasted]
  -- by induction on the length, as a match takes more than one element
  generalize hlength : cs.length = k
  induction k using Nat.strong_induction_on generalizing cs with
  | _ k ih =>
      cases cs with
      | nil => rfl
      | cons c cs =>
          rcases hfound : find (c :: cs) with - | ⟨b, n⟩
          · rw [replaceAll_cons_of_none (by rw [hfound, Option.map_none]),
              ih cs.length (by rw [← hlength]; exact Nat.lt_succ_self _) cs rfl]
          · obtain ⟨hne, rfl, rest, hrest⟩ := h _ _ _ hfound
            rw [← hrest] at hfound hlength ⊢
            rw [replaceAll_match hne (by rw [hfound, Option.map_some])]
            refine congrArg (f b ++ ·) (ih rest.length ?_ rest rfl)
            have hpos := List.length_pos_iff.mpr hne
            rw [← hlength, List.length_append]
            omega

/-- What is in the pieces was found. -/
theorem exists_find_of_mem_cut {skip : ℕ} {cs : List α} {b : β} (h : Sum.inr b ∈ cut find skip cs) :
    ∃ cs' n, find cs' = some (b, n) := by
  induction cs generalizing skip with
  | nil => cases h
  | cons c cs ih =>
      cases skip with
      | succ n => exact ih h
      | zero =>
          rcases hfound : find (c :: cs) with - | ⟨b', n⟩
          · rw [cut, hfound] at h
            rcases List.mem_cons.mp h with heq | hmem
            · cases heq
            · exact ih hmem
          · rw [cut, hfound] at h
            rcases List.mem_cons.mp h with heq | hmem
            · obtain rfl := Sum.inr.inj heq
              exact ⟨_, _, hfound⟩
            · exact ih hmem

end Cut

end Replace
