/-
Iwifunni/Go/Trim.lean

`strings.TrimSpace` of a concatenation.

A text that is trimmed already is not changed by white space around it, and by nothing
else: `trimSpace (a ++ b) = a` says that `b` is blank.
-/
import Iwifunni.Go.Strings
import Mathlib.Data.List.DropRight

namespace Iwifunni.Go

/-- White space only. -/
def Blank (cs : List Char) : Prop := ∀ c ∈ cs, isSpace c = true

theorem dropWhile_eq_nil {cs : List Char} : cs.dropWhile isSpace = [] ↔ Blank cs :=
  List.dropWhile_eq_nil_iff

theorem Blank.reverse {cs : List Char} : Blank cs.reverse ↔ Blank cs := by
  simp [Blank]

/-- Trimming leaves nothing of white space, and something of everything else. -/
theorem trimChars_eq_nil {cs : List Char} : trimChars cs = [] ↔ Blank cs := by
  rw [trimChars, List.reverse_eq_nil_iff, dropWhile_eq_nil, Blank.reverse]
  constructor
  · intro h c hc
    by_contra hspace
    rcases hdrop : cs.dropWhile isSpace with - | ⟨d, ds⟩
    · exact hspace (dropWhile_eq_nil.mp hdrop c hc)
    · have hd := isSpace_head_dropWhile cs d (by rw [hdrop]; rfl)
      rw [h d (by rw [hdrop]; exact List.mem_cons_self ..)] at hd
      cases hd
  · intro h c hc
    exact h c ((List.dropWhile_suffix _).subset hc)

theorem trimSpace_eq_empty {s : String} : trimSpace s = "" ↔ Blank s.toList := by
  rw [← trimChars_eq_nil, trimSpace]
  constructor
  · intro h
    rw [← String.toList_ofList (l := trimChars s.toList), h]
    exact String.toList_empty
  · intro h
    rw [h]

/-- The list starts and ends in something else than white space. -/
structure Trimmed (cs : List Char) : Prop where
  head : cs.dropWhile isSpace = cs
  last : cs.reverse.dropWhile isSpace = cs.reverse

/-- What was trimmed has no white space at its ends. -/
theorem trimmed_trimChars (cs : List Char) : Trimmed (trimChars cs) where
  head := by
    have hprefix : trimChars cs <+: cs.dropWhile isSpace := by
      rw [trimChars, ← List.reverse_suffix, List.reverse_reverse]
      exact List.dropWhile_suffix _
    rcases htrim : trimChars cs with - | ⟨c, rest⟩
    · rfl
    · obtain ⟨tail, htail⟩ := hprefix
      have hc : isSpace c = false := by
        refine isSpace_head_dropWhile cs c ?_
        rw [← htail, htrim]
        rfl
      exact List.dropWhile_cons_of_neg (by simp [hc])
  last := by
    rw [trimChars, List.reverse_reverse]
    exact List.dropWhile_idempotent ..

/-- What is appended to a trimmed text goes if it is blank, and only then. -/
theorem trimChars_append_right {cs : List Char} (hcs : Trimmed cs) (hne : cs ≠ []) (ds : List Char) :
    trimChars (cs ++ ds) = cs ↔ Blank ds := by
  have hleft : (cs ++ ds).dropWhile isSpace = cs ++ ds := by
    rw [List.dropWhile_append, hcs.head, if_neg (by simpa using hne)]
  rw [trimChars, hleft, List.reverse_append, List.dropWhile_append]
  by_cases hblank : Blank ds
  · rw [if_pos (by rw [dropWhile_eq_nil.mpr (Blank.reverse.mpr hblank)]; rfl), hcs.last,
      List.reverse_reverse]
    exact ⟨fun _ => hblank, fun _ => rfl⟩
  · have hrest : ds.reverse.dropWhile isSpace ≠ [] :=
      fun h => hblank (Blank.reverse.mp (dropWhile_eq_nil.mp h))
    rw [if_neg (by simpa using hrest), List.reverse_append, List.reverse_reverse]
    refine ⟨fun h => absurd ?_ hrest, fun h => absurd h hblank⟩
    simpa using h

/-- What is put before a trimmed text goes if it is blank, and only then. -/
theorem trimChars_append_left {cs : List Char} (hcs : Trimmed cs) (hne : cs ≠ []) (ds : List Char) :
    trimChars (ds ++ cs) = cs ↔ Blank ds := by
  by_cases hblank : Blank ds
  · rw [trimChars, List.dropWhile_append, if_pos (by rw [dropWhile_eq_nil.mpr hblank]; rfl),
      hcs.head, hcs.last, List.reverse_reverse]
    exact ⟨fun _ => hblank, fun _ => rfl⟩
  · have hrest : ds.dropWhile isSpace ≠ [] := fun h => hblank (dropWhile_eq_nil.mp h)
    rw [trimChars, List.dropWhile_append, if_neg (by simpa using hrest), List.reverse_append,
      List.dropWhile_append, hcs.last, if_neg (by simpa using hne), List.reverse_append,
      List.reverse_reverse, List.reverse_reverse]
    refine ⟨fun h => absurd ?_ hrest, fun h => absurd h hblank⟩
    simpa using h

/-- A text that is trimmed and not empty. -/
theorem trimmed_of_trimSpace {s : String} (h : trimSpace s = s) : Trimmed s.toList := by
  rw [← h, trimSpace, String.toList_ofList]
  exact trimmed_trimChars _

theorem toList_ne_nil {s : String} (h : s ≠ "") : s.toList ≠ [] :=
  fun hnil => h (String.toList_eq_nil_iff.mp hnil)

theorem trimSpace_eq_iff {s t : String} : trimSpace s = t ↔ trimChars s.toList = t.toList := by
  rw [trimSpace]
  exact ⟨fun h => by rw [← h, String.toList_ofList], fun h => by rw [h, String.ofList_toList]⟩

theorem blank_space_cons {cs : List Char} : Blank (' ' :: cs) ↔ Blank cs := by
  simp [Blank, isSpace]

/-- A word and a second one are the first one, trimmed, if the second is blank. -/
theorem trimSpace_words_left {s t : String} (hs : trimSpace s = s) (hne : s ≠ "") :
    trimSpace (s ++ " " ++ t) = s ↔ trimSpace t = "" := by
  have hlist : (s ++ " " ++ t).toList = s.toList ++ ' ' :: t.toList := by simp
  rw [trimSpace_eq_iff, hlist, trimChars_append_right (trimmed_of_trimSpace hs) (toList_ne_nil hne),
    blank_space_cons, trimSpace_eq_empty]

theorem blank_append {cs ds : List Char} : Blank (cs ++ ds) ↔ Blank cs ∧ Blank ds := by
  simp [Blank, or_imp, forall_and]

/-- A word after another one is itself, trimmed, if the first is blank. -/
theorem trimSpace_words_right {s t : String} (ht : trimSpace t = t) (hne : t ≠ "") :
    trimSpace (s ++ " " ++ t) = t ↔ trimSpace s = "" := by
  have hlist : (s ++ " " ++ t).toList = (s.toList ++ [' ']) ++ t.toList := by simp
  have hspace : Blank [' '] := by simp [Blank, isSpace]
  rw [trimSpace_eq_iff, hlist, trimChars_append_left (trimmed_of_trimSpace ht) (toList_ne_nil hne),
    blank_append, trimSpace_eq_empty]
  exact and_iff_left hspace

end Iwifunni.Go
