/-
Iwifunni/Go/Uuid.lean

`github.com/google/uuid`: identifiers of 32 hexadecimal digits, their canonical
text, and `uuid.Parse`, which accepts four spellings:

    xxxxxxxx-xxxx-xxxx-xxxx-xxxxxxxxxxxx
    urn:uuid:xxxxxxxx-xxxx-xxxx-xxxx-xxxxxxxxxxxx
    {xxxxxxxx-xxxx-xxxx-xxxx-xxxxxxxxxxxx}
    xxxxxxxxxxxxxxxxxxxxxxxxxxxxxxxx

In the third spelling the first and the last byte are skipped without a look.
What the engine needs is `parse_trimSpace_toString`: an identifier it has
written into a job is read back as itself.
-/
import Mathlib.Data.Fin.Basic
import Mathlib.Data.List.Basic
import Mathlib.Data.Nat.Cast.Basic
import Iwifunni.Go.Strings

namespace Iwifunni.Go

/-- An identifier of 32 hexadecimal digits. -/
structure UUID where
  digits : List (Fin 16)
  length_eq : digits.length = 32
  deriving DecidableEq

namespace UUID

/-! ### Hexadecimal digits -/

/-- The lower case digit of a value. -/
def hexDigit (d : Fin 16) : Char :=
  if d.val < 10 then Char.ofNat (48 + d.val) else Char.ofNat (87 + d.val)

/-- The value of a digit, in either case. -/
def hexValue (c : Char) : Option (Fin 16) :=
  let n := c.toNat
  if h : 48 ≤ n ∧ n ≤ 57 then some ⟨n - 48, by omega⟩
  else if h : 97 ≤ n ∧ n ≤ 102 then some ⟨n - 87, by omega⟩
  else if h : 65 ≤ n ∧ n ≤ 70 then some ⟨n - 55, by omega⟩
  else none

@[simp] theorem hexValue_hexDigit (d : Fin 16) : hexValue (hexDigit d) = some d := by
  revert d
  decide

theorem isSpace_hexDigit (d : Fin 16) : isSpace (hexDigit d) = false := by
  revert d
  decide

/-- The values of a list of digits. -/
def hexValues : List Char → Option (List (Fin 16))
  | [] => some []
  | c :: cs => do
      let d ← hexValue c
      let ds ← hexValues cs
      return d :: ds

@[simp] theorem hexValues_map_hexDigit (ds : List (Fin 16)) :
    hexValues (ds.map hexDigit) = some ds := by
  induction ds with
  | nil => rfl
  | cons d ds ih => simp [hexValues, ih]

/-! ### Text -/

/-- The digits in groups of 8, 4, 4, 4 and 12. -/
def groups (ds : List (Fin 16)) : List (List Char) :=
  let cs := ds.map hexDigit
  [cs.take 8, (cs.drop 8).take 4, (cs.drop 12).take 4, (cs.drop 16).take 4, cs.drop 20]

/-- The characters of the canonical text. -/
def chars (u : UUID) : List Char :=
  ['-'].intercalate (groups u.digits)

/-- `UUID.String`. -/
def toString (u : UUID) : String :=
  String.ofList u.chars

/-- The form with dashes at positions 8, 13, 18 and 23; what follows the 36th
character is not looked at. -/
def parseDashed (cs : List Char) : Option (List (Fin 16)) :=
  if cs[8]? = some '-' ∧ cs[13]? = some '-' ∧ cs[18]? = some '-' ∧ cs[23]? = some '-' then
    hexValues (cs.take 8 ++ (cs.drop 9).take 4 ++ (cs.drop 14).take 4 ++
      (cs.drop 19).take 4 ++ (cs.drop 24).take 12)
  else none

/-- Pack 32 digits. -/
def ofDigits? (ds : List (Fin 16)) : Option UUID :=
  if h : ds.length = 32 then some ⟨ds, h⟩ else none

/-- `uuid.Parse`.  Lengths are those of the byte string; a text with a character
outside ASCII is never accepted. -/
def parse (s : String) : Option UUID :=
  let cs := s.toList
  if cs.any (fun c => 0x80 ≤ c.toNat) then none
  else if cs.length = 36 then (parseDashed cs).bind ofDigits?
  else if cs.length = 45 then
    if equalFold (String.ofList (cs.take 9)) "urn:uuid:" then
      (parseDashed (cs.drop 9)).bind ofDigits?
    else none
  else if cs.length = 38 then (parseDashed (cs.drop 1)).bind ofDigits?
  else if cs.length = 32 then (hexValues cs).bind ofDigits?
  else none

/-! ### Reading back -/

theorem chars_eq (u : UUID) :
    u.chars = (u.digits.map hexDigit).take 8 ++ '-' :: (((u.digits.map hexDigit).drop 8).take 4 ++
      '-' :: (((u.digits.map hexDigit).drop 12).take 4 ++
      '-' :: (((u.digits.map hexDigit).drop 16).take 4 ++
      '-' :: (u.digits.map hexDigit).drop 20))) := by
  simp [chars, groups, List.intercalate, List.intersperse]

/-- The characters of an id: dashes and digits. -/
theorem mem_chars {u : UUID} {c : Char} (h : c ∈ u.chars) :
    c = '-' ∨ ∃ d, c = hexDigit d := by
  have hhex : ∀ {n m}, c ∈ ((u.digits.map hexDigit).drop n).take m → ∃ d, c = hexDigit d := by
    intro n m hc
    obtain ⟨d, -, rfl⟩ := List.mem_map.mp (List.mem_of_mem_drop (List.mem_of_mem_take hc))
    exact ⟨d, rfl⟩
  rw [chars_eq] at h
  simp only [List.mem_append, List.mem_cons] at h
  rcases h with h | h | h | h | h | h | h | h | h
  · exact Or.inr (hhex (n := 0) h)
  · exact Or.inl h
  · exact Or.inr (hhex h)
  · exact Or.inl h
  · exact Or.inr (hhex h)
  · exact Or.inl h
  · exact Or.inr (hhex h)
  · exact Or.inl h
  · obtain ⟨d, -, rfl⟩ := List.mem_map.mp (List.mem_of_mem_drop h)
    exact Or.inr ⟨d, rfl⟩

theorem isSpace_of_mem_chars {u : UUID} {c : Char} (h : c ∈ u.chars) : isSpace c = false := by
  rcases mem_chars h with rfl | ⟨d, rfl⟩
  · decide
  · exact isSpace_hexDigit d

theorem ascii_of_mem_chars {u : UUID} {c : Char} (h : c ∈ u.chars) : c.toNat < 0x80 := by
  rcases mem_chars h with rfl | ⟨d, rfl⟩
  · decide
  · clear h
    revert d
    decide

/-- The canonical text is trimmed already. -/
@[simp] theorem trimSpace_toString (u : UUID) : trimSpace u.toString = u.toString :=
  trimSpace_eq_self fun c hc => isSpace_of_mem_chars (by
    simpa only [toString, String.toList_ofList] using hc)

theorem length_chars (u : UUID) : u.chars.length = 36 := by
  have h := u.length_eq
  rw [chars_eq]
  simp [h]

/-- Five groups with dashes between them are read as one list of digits. -/
theorem parseDashed_groups {g₁ g₂ g₃ g₄ g₅ : List Char} (h₁ : g₁.length = 8)
    (h₂ : g₂.length = 4) (h₃ : g₃.length = 4) (h₄ : g₄.length = 4) (h₅ : g₅.length = 12) :
    parseDashed (g₁ ++ '-' :: (g₂ ++ '-' :: (g₃ ++ '-' :: (g₄ ++ '-' :: g₅))))
      = hexValues (g₁ ++ g₂ ++ g₃ ++ g₄ ++ g₅) := by
  have hdash : ∀ n {g t : List Char}, g.length = n → (g ++ '-' :: t)[n]? = some '-' := by
    rintro n g t rfl
    simp
  have hskip : ∀ n k {g t : List Char}, g.length = n →
      (g ++ '-' :: t)[n + 1 + k]? = t[k]? ∧ (g ++ '-' :: t).drop (n + 1 + k) = t.drop k := by
    rintro n k g t rfl
    constructor
    · rw [List.getElem?_append_right (by omega)]
      simp [show g.length + 1 + k - g.length = k + 1 by omega]
    · rw [List.drop_append, List.drop_eq_nil_of_le (by omega)]
      simp [show g.length + 1 + k - g.length = k + 1 by omega]
  have htake : ∀ n {g t : List Char}, g.length = n → (g ++ t).take n = g := by
    rintro n g t rfl
    exact List.take_left' rfl
  simp only [parseDashed, hdash 8 h₁, (hskip 8 4 h₁).1, hdash 4 h₂, (hskip 8 9 h₁).1,
    (hskip 4 4 h₂).1, hdash 4 h₃, (hskip 8 14 h₁).1, (hskip 4 9 h₂).1, (hskip 4 4 h₃).1,
    hdash 4 h₄, and_self, if_true, (hskip 8 0 h₁).2, (hskip 8 5 h₁).2, (hskip 4 0 h₂).2,
    (hskip 8 10 h₁).2, (hskip 4 5 h₂).2, (hskip 4 0 h₃).2, (hskip 8 15 h₁).2,
    (hskip 4 10 h₂).2, (hskip 4 5 h₃).2, (hskip 4 0 h₄).2, List.drop_zero, htake 8 h₁,
    htake 4 h₂, htake 4 h₃, htake 4 h₄, List.take_of_length_le (le_of_eq h₅)]

theorem parseDashed_chars (u : UUID) : parseDashed u.chars = some u.digits := by
  have h := u.length_eq
  rw [chars_eq, parseDashed_groups (by simp [h]) (by simp [h]) (by simp [h]) (by simp [h])
    (by simp [h]), ← List.take_add, ← List.take_add, ← List.take_add, List.take_append_drop,
    hexValues_map_hexDigit]

/-- **An identifier is read back from its text.** -/
@[simp] theorem parse_toString (u : UUID) : parse u.toString = some u := by
  have hascii : u.chars.any (fun c => 0x80 ≤ c.toNat) = false := by
    rw [List.any_eq_false]
    intro c hc
    have := ascii_of_mem_chars hc
    simp only [decide_eq_true_eq]
    omega
  simp only [parse, toString, String.toList_ofList, hascii, Bool.false_eq_true, if_false,
    length_chars, if_true, parseDashed_chars, Option.bind_some, ofDigits?, u.length_eq, dite_true]

/-- What the engine reads from the jobs it has written. -/
theorem parse_trimSpace_toString (u : UUID) : parse (trimSpace u.toString) = some u := by
  rw [trimSpace_toString, parse_toString]

theorem toString_injective : Function.Injective toString := by
  intro u v h
  have := parse_toString u
  rw [h, parse_toString] at this
  exact (Option.some.inj this).symm

/-- The identifier all of whose digits are `d`. -/
def ofDigit (d : ℕ) : UUID := ⟨List.replicate 32 (Fin.ofNat 16 d), List.length_replicate⟩

example : parse (trimSpace " {aaaaaaaa-aaaa-aaaa-aaaa-aaaaaaaaaaaa}") = some (ofDigit 10) := by
  decide

end UUID

end Iwifunni.Go
