/-
Iwifunni/Go/Strings.lean

The functions of Go's `strings` package the service calls, on Lean strings: a
string is the list of its characters, and every function is a function of that
list, so that it can be evaluated as well as reasoned about.

Go strings are byte strings.  All strings of this development come out of JSON
documents or database columns and are valid UTF-8, where the two views agree.
-/
import Iwifunni.Go.Unicode

namespace Iwifunni.Go

/-! ### Trimming -/

/-- Drop white space from both ends of a list of characters. -/
def trimChars (cs : List Char) : List Char :=
  ((cs.dropWhile isSpace).reverse.dropWhile isSpace).reverse

/-- `strings.TrimSpace`. -/
def trimSpace (s : String) : String :=
  String.ofList (trimChars s.toList)

/-- A list that neither starts nor ends in white space is left alone. -/
theorem trimChars_eq_self {cs : List Char} (hhead : ∀ c ∈ cs.head?, isSpace c = false)
    (hlast : ∀ c ∈ cs.getLast?, isSpace c = false) : trimChars cs = cs := by
  have hdrop : ∀ ds : List Char, (∀ c ∈ ds.head?, isSpace c = false) →
      ds.dropWhile isSpace = ds := by
    intro ds hds
    cases ds with
    | nil => rfl
    | cons c ds => simp only [List.dropWhile, hds c (by simp)]
  have hrev : ∀ c ∈ cs.reverse.head?, isSpace c = false := by
    intro c hc
    rw [List.head?_reverse] at hc
    exact hlast c hc
  rw [trimChars, hdrop cs hhead, hdrop _ hrev, List.reverse_reverse]

theorem trimSpace_eq_self {s : String} (h : ∀ c ∈ s.toList, isSpace c = false) :
    trimSpace s = s := by
  rw [trimSpace, trimChars_eq_self, String.ofList_toList]
  · exact fun c hc => h c (List.mem_of_mem_head? hc)
  · exact fun c hc => h c (List.mem_of_mem_getLast? hc)

theorem isSpace_head_dropWhile (cs : List Char) :
    ∀ c ∈ (cs.dropWhile isSpace).head?, isSpace c = false := by
  intro c hc
  have hnot := List.head?_dropWhile_not isSpace cs
  rw [Option.mem_def.mp hc] at hnot
  simpa using hnot

/-- Trimming leaves nothing to trim. -/
theorem trimSpace_trimSpace (s : String) : trimSpace (trimSpace s) = trimSpace s := by
  have hprefix : trimChars s.toList <+: s.toList.dropWhile isSpace := by
    rw [trimChars, ← List.reverse_suffix, List.reverse_reverse]
    exact List.dropWhile_suffix _
  have htrim : trimChars (trimChars s.toList) = trimChars s.toList := by
    refine trimChars_eq_self (fun c hc => ?_) (fun c hc => ?_)
    · obtain ⟨rest, hrest⟩ := hprefix
      refine isSpace_head_dropWhile s.toList c ?_
      rw [← hrest, List.head?_append, Option.mem_def.mp hc]
      rfl
    · rw [trimChars, List.getLast?_reverse] at hc
      exact isSpace_head_dropWhile _ c hc
  rw [trimSpace, trimSpace, String.toList_ofList, htrim]

/-! ### Case -/

/-- `strings.ToLower`. -/
def toLower (s : String) : String :=
  String.ofList (s.toList.map toLowerRune)

/-- `strings.EqualFold`. -/
def equalFold (s t : String) : Bool :=
  s.toList.map foldRune == t.toList.map foldRune

@[simp] theorem equalFold_refl (s : String) : equalFold s s = true := by
  simp [equalFold]

theorem equalFold_comm (s t : String) : equalFold s t = equalFold t s := by
  rw [equalFold, equalFold, Bool.eq_iff_iff]
  simp only [beq_iff_eq]
  exact eq_comm

/-! ### Searching and splitting -/

/-- `strings.HasPrefix`. -/
def hasPrefix (s pre : String) : Bool :=
  pre.toList.isPrefixOf s.toList

/-- Does `sub` occur in `cs`? -/
def containsChars (sub : List Char) : List Char → Bool
  | [] => sub.isEmpty
  | c :: cs => sub.isPrefixOf (c :: cs) || containsChars sub cs

/-- `strings.Contains`. -/
def contains (s sub : String) : Bool :=
  containsChars sub.toList s.toList

/-- `strings.Split` at a single character. -/
def splitChars (sep : Char) : List Char → List (List Char)
  | [] => [[]]
  | c :: cs =>
      if c = sep then [] :: splitChars sep cs
      else match splitChars sep cs with
        | [] => [[c]]
        | part :: parts => (c :: part) :: parts

/-- `strings.Split` at a one-character separator. -/
def split (s : String) (sep : Char) : List String :=
  (splitChars sep s.toList).map String.ofList

/-- `strings.Join`. -/
def join (sep : String) : List String → String
  | [] => ""
  | [s] => s
  | s :: ss => s ++ sep ++ join sep ss

example : trimSpace "  a b\t\n" = "a b" := by decide

example : equalFold "demo-EMAIL" "Demo-Email" = true := by decide

end Iwifunni.Go
