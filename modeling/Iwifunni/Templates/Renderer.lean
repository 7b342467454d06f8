/-
Iwifunni/Templates/Renderer.lean

Rendering of templates (`modules/templates/renderer.go`).

A placeholder without a leading dot gets one, and the text goes to
`text/template`:

    {{subscriber.firstName}}  -->  {{.subscriber.firstName}}

Of `text/template` the part is modelled that the editor's templates need: text,
and actions that are chains of fields, looked up with `missingkey=error`.  A
template with other actions, and the texts of errors, are parameters
(`TextTemplate`).
-/
import Iwifunni.Go.Json
import Mathlib.Data.Nat.Notation
import Mathlib.Data.List.Infix

namespace Iwifunni.Templates

open Go

/-! ### Placeholders -/

/-- `[a-zA-Z_]` -/
def isIdentStart (c : Char) : Bool :=
  ('a' ≤ c && c ≤ 'z') || ('A' ≤ c && c ≤ 'Z') || c == '_'

/-- `[a-zA-Z0-9_]` -/
def isIdentPart (c : Char) : Bool := isIdentStart c || ('0' ≤ c && c ≤ '9')

/-- `\s` of a regular expression. -/
def isBlank (c : Char) : Bool := c == ' ' || c == '\t' || c == '\n' || c == '\x0c' || c == '\r'

/-- A dotted path: identifiers with single dots between them, at least two. -/
def isDotPath (cs : List Char) : Bool :=
  let parts := cs.splitOn '.'
  decide (2 ≤ parts.length) && parts.all fun part =>
    (part.head?.any isIdentStart) && part.all isIdentPart

/-- `dotNotationPattern`, at the start of a text: the replacement, and the length of the
match.  Blanks, path and braces have no characters in common, so that there is one way to
match. -/
def dotNotation (cs : List Char) : Option (List Char × ℕ) :=
  if cs.take 2 = ['{', '{'] then
    let before := (cs.drop 2).takeWhile isBlank
    let rest := (cs.drop 2).dropWhile isBlank
    let path := rest.takeWhile fun c => isIdentPart c || c == '.'
    let rest := rest.dropWhile fun c => isIdentPart c || c == '.'
    let after := rest.takeWhile isBlank
    let rest := rest.dropWhile isBlank
    if isDotPath path && rest.take 2 == ['}', '}'] then
      some (['{', '{'] ++ before ++ ['.'] ++ path ++ after ++ ['}', '}'],
        2 + before.length + path.length + after.length + 2)
    else none
  else none

/-- `ReplaceAllString`: the matches from left to right; `skip` characters belong to the last
match. -/
def replaceAll (skip : ℕ) : List Char → List Char
  | [] => []
  | c :: cs => match skip with
    | n + 1 => replaceAll n cs
    | 0 => match dotNotation (c :: cs) with
      | some (replacement, n) => replacement ++ replaceAll (n - 1) cs
      | none => c :: replaceAll 0 cs

/-- `preprocessDotNotation`. -/
def preprocessDotNotation (tmpl : String) : String :=
  String.ofList (replaceAll 0 tmpl.toList)

/-! ### Parsing -/

/-- A piece of a parsed template. -/
inductive Segment
  | text (s : List Char)
  /-- A chain of fields. -/
  | field (path : List String)
  deriving DecidableEq

/-- Why a template is not parsed. -/
inductive Problem
  /-- `text/template` does not parse it either. -/
  | malformed
  /-- It has an action that is not modelled. -/
  | unmodelled
  deriving DecidableEq

/-- The action between two pairs of braces: a chain of fields, or nothing that can be parsed. -/
def action (content : List Char) : Except Problem (List String) :=
  let isSpace (c : Char) : Bool := c == ' ' || c == '\t' || c == '\n' || c == '\r'
  match ((content.dropWhile isSpace).reverse.dropWhile isSpace).reverse with
  | '{' :: _ => .error .malformed
  | '.' :: path =>
      if (path.splitOn '.').all fun part =>
          (part.head?.any isIdentStart) && part.all isIdentPart then
        .ok ((path.splitOn '.').map String.ofList)
      else .error .unmodelled
  | _ => .error .unmodelled

/-- The lexer, outside or inside of an action; `acc` is what has been read of the text or of
the action. -/
def parse : (inside : Bool) → (acc : List Char) → List Char → Except Problem (List Segment)
  | false, acc, '{' :: '{' :: cs => (parse true [] cs).map (.text acc :: ·)
  | false, acc, c :: cs => parse false (acc ++ [c]) cs
  | false, acc, [] => .ok [.text acc]
  | true, acc, '}' :: '}' :: cs => match action acc with
    | .ok path => (parse false [] cs).map (.field path :: ·)
    | .error p => .error p
  | true, acc, c :: cs => parse true (acc ++ [c]) cs
  | true, _, [] => .error .malformed

/-! ### Execution -/

/-- `evalFieldChain` with `missingkey=error`. -/
def evalFields (v : Json) : List String → Option Json
  | [] => some v
  | name :: path => match v with
    | .obj fields => (Json.lookup fields name).bind fun v => evalFields v path
    | _ => none

/-- `printValue`. -/
def printValue : Json → String
  | .null => "<no value>"
  | v => sprint v

/-- What is not modelled of `text/template`: templates with other actions, and the texts of
errors. -/
structure TextTemplate where
  other : String → List (String × Json) → Except String String
  parseError : String → String
  execError : String → List String → String

/-- `Execute`. -/
def execute (tt : TextTemplate) (tmpl : String) (vars : List (String × Json)) :
    List Segment → Except String String
  | [] => .ok ""
  | .text s :: rest => do
      let out ← execute tt tmpl vars rest
      return String.ofList s ++ out
  | .field path :: rest => match evalFields (.obj vars) path with
    | some v => do
        let out ← execute tt tmpl vars rest
        return printValue v ++ out
    | none => .error (tt.execError tmpl path)

/-- `renderString`. -/
def renderString (tt : TextTemplate) (tmpl : String) (vars : List (String × Json)) :
    Except String String :=
  let processed := preprocessDotNotation tmpl
  match parse false [] processed.toList with
  | .ok segments => execute tt processed vars segments
  | .error .malformed => .error (tt.parseError processed)
  | .error .unmodelled => tt.other processed vars

/-- `Render`: subject and body. -/
def render (tt : TextTemplate) (subject body : String) (vars : List (String × Json)) :
    Except String (String × String) :=
  match renderString tt body vars with
  | .error text => .error ("rendering body: " ++ text)
  | .ok renderedBody =>
      if subject = "" then .ok ("", renderedBody)
      else match renderString tt subject vars with
        | .error text => .error ("rendering subject: " ++ text)
        | .ok renderedSubject => .ok (renderedSubject, renderedBody)

end Iwifunni.Templates
