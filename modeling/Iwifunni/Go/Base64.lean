/-
Iwifunni/Go/Base64.lean

`base64.StdEncoding`: three bytes to four characters of an alphabet of 64.

    a b c   ↦   a/4   a%4·16 + b/16   b%16·4 + c/64   c%64

A last group of one or two bytes is filled up with `=`.  Decoding passes over line
breaks, and gives back what was encoded (`decodeString_encodeToString`).
-/
import Mathlib.Data.Nat.Notation

namespace Iwifunni.Go.Base64

/-! ### The alphabet -/

/-- The 64 characters, in the order of their values. -/
def alphabet : List Char :=
  "ABCDEFGHIJKLMNOPQRSTUVWXYZabcdefghijklmnopqrstuvwxyz0123456789+/".toList

/-- The character of a value. -/
def digit (n : ℕ) : Char := (alphabet[n]?).getD '='

/-- The value of a character. -/
def value (c : Char) : Option ℕ := alphabet.idxOf? c

theorem value_digit : ∀ n < 64, value (digit n) = some n := by
  decide +kernel

theorem digit_mem : ∀ n < 64, digit n ∈ alphabet := by
  decide +kernel

theorem digit_ne_pad {n : ℕ} (h : n < 64) : digit n ≠ '=' := by
  intro he
  have hpad : '=' ∉ alphabet := by decide +kernel
  exact hpad (he ▸ digit_mem n h)

/-! ### Encoding -/

/-- The characters of a list of bytes. -/
def encodeChars : List UInt8 → List Char
  | [] => []
  | [a] => [digit (a.toNat / 4), digit (a.toNat % 4 * 16), '=', '=']
  | [a, b] => [digit (a.toNat / 4), digit (a.toNat % 4 * 16 + b.toNat / 16),
      digit (b.toNat % 16 * 4), '=']
  | a :: b :: c :: rest =>
      digit (a.toNat / 4) :: digit (a.toNat % 4 * 16 + b.toNat / 16) ::
        digit (b.toNat % 16 * 4 + c.toNat / 64) :: digit (c.toNat % 64) :: encodeChars rest

/-- `StdEncoding.EncodeToString`. -/
def encodeToString (bytes : List UInt8) : String := String.ofList (encodeChars bytes)

/-! ### Decoding -/

/-- The bytes of four values. -/
def group (w x y z : ℕ) : List UInt8 :=
  [UInt8.ofNat (w * 4 + x / 16), UInt8.ofNat (x % 16 * 16 + y / 4), UInt8.ofNat (y % 4 * 64 + z)]

/-- Decode groups of four characters; only the last one may be filled up. -/
def decodeChars : List Char → Option (List UInt8)
  | [] => some []
  | w :: x :: y :: z :: rest =>
      match value w, value x, value y, value z with
      | some w, some x, some y, some z => (decodeChars rest).map (group w x y z ++ ·)
      | some w, some x, some y, none =>
          if z = '=' ∧ rest = [] then some ((group w x y 0).take 2) else none
      | some w, some x, none, none =>
          if y = '=' ∧ z = '=' ∧ rest = [] then some ((group w x 0 0).take 1) else none
      | _, _, _, _ => none
  | _ => none

/-- `StdEncoding.DecodeString`. -/
def decodeString (s : String) : Option (List UInt8) :=
  decodeChars (s.toList.filter fun c => c ≠ '\n' ∧ c ≠ '\r')

/-! ### Round trip -/

theorem value_pad : value '=' = none := by
  decide +kernel

theorem toNat_lt (a : UInt8) : a.toNat < 256 := a.toNat_lt

/-- Four values give back the three bytes they were made from. -/
theorem group_digits (a b c : UInt8) :
    group (a.toNat / 4) (a.toNat % 4 * 16 + b.toNat / 16) (b.toNat % 16 * 4 + c.toNat / 64)
      (c.toNat % 64) = [a, b, c] := by
  have ha := toNat_lt a
  have hb := toNat_lt b
  have hc := toNat_lt c
  have h₁ : a.toNat / 4 * 4 + (a.toNat % 4 * 16 + b.toNat / 16) / 16 = a.toNat := by omega
  have h₂ : (a.toNat % 4 * 16 + b.toNat / 16) % 16 * 16 +
      (b.toNat % 16 * 4 + c.toNat / 64) / 4 = b.toNat := by omega
  have h₃ : (b.toNat % 16 * 4 + c.toNat / 64) % 4 * 64 + c.toNat % 64 = c.toNat := by omega
  rw [group, h₁, h₂, h₃, UInt8.ofNat_toNat, UInt8.ofNat_toNat, UInt8.ofNat_toNat]

/-- What is encoded can be decoded. -/
theorem decodeChars_encodeChars (bytes : List UInt8) :
    decodeChars (encodeChars bytes) = some bytes := by
  induction bytes using encodeChars.induct with
  | case1 => rfl
  | case2 a =>
      have ha := toNat_lt a
      have hgroup := group_digits a 0 0
      rw [encodeChars, decodeChars, value_digit _ (by omega), value_digit _ (by omega), value_pad]
      simp only [UInt8.toNat_zero, Nat.zero_div, Nat.add_zero, Nat.zero_mod, Nat.zero_mul] at hgroup
      simp [hgroup]
  | case3 a b =>
      have ha := toNat_lt a
      have hb := toNat_lt b
      have hgroup := group_digits a b 0
      rw [encodeChars, decodeChars, value_digit _ (by omega), value_digit _ (by omega),
        value_digit _ (by omega), value_pad]
      simp only [UInt8.toNat_zero, Nat.zero_div, Nat.add_zero, Nat.zero_mod] at hgroup
      simp [hgroup]
  | case4 a b c rest ih =>
      have ha := toNat_lt a
      have hb := toNat_lt b
      have hc := toNat_lt c
      rw [encodeChars, decodeChars, value_digit _ (by omega), value_digit _ (by omega),
        value_digit _ (by omega), value_digit _ (by omega), ih]
      simp [group_digits]

/-- Every character of an encoding is a letter, a digit or one of `+`, `/` and `=`. -/
theorem mem_encodeChars {bytes : List UInt8} {c : Char} (h : c ∈ encodeChars bytes) :
    c ∈ '=' :: alphabet := by
  -- every digit is below 64
  have hdigit : ∀ n < 64, digit n ∈ '=' :: alphabet :=
    fun n hn => List.mem_cons_of_mem _ (digit_mem n hn)
  induction bytes using encodeChars.induct with
  | case1 => cases h
  | case2 a =>
      have ha := toNat_lt a
      simp only [encodeChars, List.mem_cons, List.not_mem_nil, or_false] at h
      rcases h with rfl | rfl | rfl | rfl
      · exact hdigit _ (by omega)
      · exact hdigit _ (by omega)
      · exact List.mem_cons_self ..
      · exact List.mem_cons_self ..
  | case3 a b =>
      have ha := toNat_lt a
      have hb := toNat_lt b
      simp only [encodeChars, List.mem_cons, List.not_mem_nil, or_false] at h
      rcases h with rfl | rfl | rfl | rfl
      · exact hdigit _ (by omega)
      · exact hdigit _ (by omega)
      · exact hdigit _ (by omega)
      · exact List.mem_cons_self ..
  | case4 a b c' rest ih =>
      have ha := toNat_lt a
      have hb := toNat_lt b
      have hc := toNat_lt c'
      simp only [encodeChars, List.mem_cons] at h
      rcases h with rfl | rfl | rfl | rfl | h
      · exact hdigit _ (by omega)
      · exact hdigit _ (by omega)
      · exact hdigit _ (by omega)
      · exact hdigit _ (by omega)
      · exact ih h

theorem encodeChars_ne_nil {bytes : List UInt8} (h : bytes ≠ []) : encodeChars bytes ≠ [] := by
  rcases bytes with - | ⟨a, - | ⟨b, - | ⟨c, rest⟩⟩⟩
  · exact absurd rfl h
  all_goals
    rw [encodeChars]
    exact List.cons_ne_nil _ _

/-- **Decoding gives back what was encoded.** -/
theorem decodeString_encodeToString (bytes : List UInt8) :
    decodeString (encodeToString bytes) = some bytes := by
  have hbreaks : '\n' ∉ '=' :: alphabet ∧ '\r' ∉ '=' :: alphabet := by decide +kernel
  have hfilter : (encodeChars bytes).filter (fun c => c ≠ '\n' ∧ c ≠ '\r') = encodeChars bytes := by
    rw [List.filter_eq_self]
    intro c hc
    have hmem := mem_encodeChars hc
    simp only [decide_eq_true_eq]
    exact ⟨fun he => hbreaks.1 (he ▸ hmem), fun he => hbreaks.2 (he ▸ hmem)⟩
  rw [decodeString, encodeToString, String.toList_ofList, hfilter, decodeChars_encodeChars]

end Iwifunni.Go.Base64
