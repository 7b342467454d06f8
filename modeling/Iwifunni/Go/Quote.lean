/-
Iwifunni/Go/Quote.lean

String literals of JSON texts.

A literal is a text between quotation marks.  Inside, a backslash starts an escape, and
quotation marks and control characters do not stand for themselves.  A text without any
of these can be put between quotation marks as it is (`unquote_quoted`).
-/
import Mathlib.Data.Nat.Notation

namespace Iwifunni.Go

/-- The value of a hexadecimal digit. -/
def hexValue (c : Char) : Option ℕ :=
  if '0' ≤ c ∧ c ≤ '9' then some (c.toNat - '0'.toNat)
  else if 'a' ≤ c ∧ c ≤ 'f' then some (c.toNat - 'a'.toNat + 10)
  else if 'A' ≤ c ∧ c ≤ 'F' then some (c.toNat - 'A'.toNat + 10)
  else none

/-- The number of four hexadecimal digits. -/
def hex4 (a b c d : Char) : Option ℕ :=
  match hexValue a, hexValue b, hexValue c, hexValue d with
  | some a, some b, some c, some d => some (((a * 16 + b) * 16 + c) * 16 + d)
  | _, _, _, _ => none

/-- The character of an escape of one letter. -/
def escaped : Char → Option Char
  | '"' => some '"'
  | '\\' => some '\\'
  | '/' => some '/'
  | 'b' => some '\x08'
  | 'f' => some '\x0c'
  | 'n' => some '\n'
  | 'r' => some '\r'
  | 't' => some '\t'
  | _ => none

/-- What is between the quotation marks, with the closing one. -/
def unquoteChars : List Char → Option (List Char)
  | ['"'] => some []
  | '\\' :: 'u' :: a :: b :: c :: d :: rest => do
      let code ← hex4 a b c d
      -- a pair of surrogates stands for one character, a single one for none
      if 0xd800 ≤ code ∧ code < 0xe000 then
        match rest with
        | '\\' :: 'u' :: a :: b :: c :: d :: rest => do
            let low ← hex4 a b c d
            if code < 0xdc00 ∧ 0xdc00 ≤ low ∧ low < 0xe000 then
              let cs ← unquoteChars rest
              some (Char.ofNat (0x10000 + (code - 0xd800) * 0x400 + (low - 0xdc00)) :: cs)
            else none
        | _ => none
      else do
        let cs ← unquoteChars rest
        some (Char.ofNat code :: cs)
  | '\\' :: e :: rest => do
      let c ← escaped e
      let cs ← unquoteChars rest
      some (c :: cs)
  | c :: rest =>
      if c = '"' ∨ c = '\\' ∨ c.toNat < 0x20 then none
      else do
        let cs ← unquoteChars rest
        some (c :: cs)
  | [] => none

/-- The string a JSON text is a literal of. -/
def unquote (text : String) : Option String :=
  match text.toList with
  | '"' :: cs => (unquoteChars cs).map String.ofList
  | _ => none

/-! ### Writing -/

/-- The escape of a character by its number. -/
def escapeHex (c : Char) : List Char :=
  let n := c.toNat
  ['\\', 'u', Nat.digitChar (n / 4096 % 16), Nat.digitChar (n / 256 % 16),
    Nat.digitChar (n / 16 % 16), Nat.digitChar (n % 16)]

/-- What `json.Marshal` writes for a character of a string; it escapes the characters of
HTML, and the two line separators of JavaScript. -/
def quoteChar (c : Char) : List Char :=
  match c with
  | '"' => ['\\', '"']
  | '\\' => ['\\', '\\']
  | '\x08' => ['\\', 'b']
  | '\x0c' => ['\\', 'f']
  | '\n' => ['\\', 'n']
  | '\r' => ['\\', 'r']
  | '\t' => ['\\', 't']
  | c =>
      if c.toNat < 0x20 ∨ c = '<' ∨ c = '>' ∨ c = '&' ∨ c.toNat = 0x2028 ∨ c.toNat = 0x2029 then
        escapeHex c
      else [c]

/-- The literal of a string. -/
def quote (s : String) : String :=
  "\"" ++ String.ofList (s.toList.flatMap quoteChar) ++ "\""

/-! ### Plain texts -/

/-- The character stands for itself in a literal. -/
def Plain (c : Char) : Prop := c ≠ '"' ∧ c ≠ '\\' ∧ 0x20 ≤ c.toNat

/-- Nothing plain is escaped. -/
theorem unquoteChars_plain {cs : List Char} (h : ∀ c ∈ cs, Plain c) :
    unquoteChars (cs ++ ['"']) = some cs := by
  induction cs with
  | nil => rfl
  | cons c cs ih =>
      obtain ⟨hquote, hslash, hcontrol⟩ := h c (List.mem_cons_self ..)
      have hrest := ih fun c hc => h c (List.mem_cons_of_mem _ hc)
      have hstep : unquoteChars (c :: (cs ++ ['"'])) =
          if c = '"' ∨ c = '\\' ∨ c.toNat < 0x20 then none
          else (unquoteChars (cs ++ ['"'])).bind fun cs => some (c :: cs) := by
        rw [unquoteChars]
        · rfl
        all_goals intros; simp_all
      rw [List.cons_append, hstep, if_neg (by simp [hquote, hslash]; omega), hrest]
      rfl

/-- **Quotation marks around a plain text make a literal of it.** -/
theorem unquote_quoted {s : String} (h : ∀ c ∈ s.toList, Plain c) :
    unquote ("\"" ++ s ++ "\"") = some s := by
  have htext : ("\"" ++ s ++ "\"").toList = '"' :: (s.toList ++ ['"']) := by
    simp
  unfold unquote
  rw [htext]
  show (unquoteChars (s.toList ++ ['"'])).map String.ofList = some s
  rw [unquoteChars_plain h, Option.map_some, String.ofList_toList]

end Iwifunni.Go
