/-
Iwifunni/Web/Preview.lean

The preview of a text with placeholders (`workflows/editors/encode.ts`).

What is between two pairs of braces is the path, spaces and all, and the context is asked
for it as it stands.  A placeholder the context has no text, number or truth value for
stays as it is.
-/
import Iwifunni.Go.Json
import Iwifunni.Text.Replace

namespace Iwifunni.Web

open Go

/-- The context of a preview: a value for some keys. -/
abbrev Context : Type := String → Option Json

/-- `TEMPLATE_VARIABLE_RE`, at the start of a text: the path, and the length of the match.
The path goes as far as it can, so that there is one way to match. -/
def templateVariable (cs : List Char) : Option (List Char × ℕ) :=
  if cs.take 2 = ['{', '{'] then
    let path := (cs.drop 2).takeWhile (· != '}')
    let rest := (cs.drop 2).dropWhile (· != '}')
    if path ≠ [] ∧ rest.take 2 = ['}', '}'] then some (path, 2 + path.length + 2) else none
  else none

/-- `String` of a number. -/
def numberText (x : Number) : String :=
  let k := x.digits.length
  let sign := if x.neg ∧ k ≠ 0 then "-" else ""
  let exp := x.point - 1
  if k = 0 then "0"
  else if x.point ≤ -6 ∨ 21 < x.point then
    let mantissa := digitsFrom x.digits 0 1 ++
      (if k = 1 then [] else '.' :: digitsFrom x.digits 1 (k - 1))
    sign ++ String.ofList (mantissa ++ 'e' :: (if exp < 0 then '-' else '+') ::
      (Nat.repr exp.natAbs).toList)
  else if 0 < x.point then
    let whole := x.point.toNat
    sign ++ String.ofList (digitsFrom x.digits 0 whole ++
      (if k ≤ whole then [] else '.' :: digitsFrom x.digits whole (k - whole)))
  else
    sign ++ String.ofList ('0' :: '.' :: (List.replicate (-x.point).toNat '0' ++
      digitsFrom x.digits 0 k))

/-- What is put in place of a match. -/
def resolved (context : Context) (path match' : List Char) : List Char :=
  match context (String.ofList path) with
  | some (.str s) => s.toList
  | some (.num x) => (numberText x).toList
  | some (.bool b) => (if b then "true" else "false").toList
  | _ => match'

/-- The replacement at the start of a text. -/
def variablePattern (context : Context) : Replace.Pattern Char := fun cs =>
  (templateVariable cs).map fun p => (resolved context p.1 (cs.take p.2), p.2)

/-- `resolveTemplateVariables`. -/
def resolveTemplateVariables (text : String) (context : Context) : String :=
  String.ofList (Replace.replaceAll (variablePattern context) 0 text.toList)

/-! ### Matches -/

section Matches

variable {context : Context}

theorem variablePattern_eq_none {cs : List Char} (h : ¬ ['{', '{'] <+: cs) :
    variablePattern context cs = none := by
  have htake : cs.take 2 ≠ ['{', '{'] := fun htake => h (htake ▸ List.take_prefix 2 cs)
  rw [variablePattern, templateVariable, if_neg htake, Option.map_none]

/-- Two pairs of braces with a path between. -/
theorem variablePattern_path {path : List Char} (hne : path ≠ []) (hpath : '}' ∉ path)
    (rest : List Char) :
    variablePattern context (['{', '{'] ++ path ++ ['}', '}'] ++ rest) =
      some (resolved context path (['{', '{'] ++ path ++ ['}', '}']),
        (['{', '{'] ++ path ++ ['}', '}']).length) := by
  have hkept : ∀ c ∈ path, (c != '}') = true := fun c hc => by
    rw [bne_iff_ne]
    rintro rfl
    exact hpath hc
  have htake : (path ++ '}' :: '}' :: rest).takeWhile (· != '}') = path := by
    rw [List.takeWhile_append_of_pos hkept]
    simp
  have hdrop : (path ++ '}' :: '}' :: rest).dropWhile (· != '}') = '}' :: '}' :: rest := by
    rw [List.dropWhile_append_of_pos hkept]
    simp
  have hvariable : templateVariable ('{' :: '{' :: (path ++ '}' :: '}' :: rest)) =
      some (path, 2 + path.length + 2) := by
    simp only [templateVariable, List.take_succ_cons, List.take_zero, List.drop_succ_cons,
      List.drop_zero, htake, hdrop]
    simp [hne]
  have htext : ['{', '{'] ++ path ++ ['}', '}'] ++ rest =
      '{' :: '{' :: (path ++ '}' :: '}' :: rest) := by simp
  have hlength : (['{', '{'] ++ path ++ ['}', '}']).length = 2 + path.length + 2 := by simp; omega
  rw [variablePattern, htext, hvariable, Option.map_some, ← hlength, ← htext, List.take_left]

end Matches

end Iwifunni.Web
