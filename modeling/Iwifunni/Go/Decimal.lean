/-
Iwifunni/Go/Decimal.lean

Integers as `float64`, and how `fmt` prints them.

A JSON integer of less than 2^53 is decoded to the `float64` of the same value,
whose shortest decimal form are its digits without the zeros at the end
(`Number.ofInt`).  `fmt.Sprint` switches to an exponent from seven digits on:

    999999    "999999"
    1000000   "1e+06"

so an integer is printed by its digits exactly if it has at most six
(`formatFloat_ofInt_iff`), and never by the digits of another
(`formatFloat_ofInt_inj`).
-/
import Mathlib.Data.List.DropRight
import Iwifunni.Go.Json

namespace Iwifunni.Go

/-! ### Digits -/

/-- The value of a digit. -/
def digitOf (c : Char) : Fin 10 := Fin.ofNat 10 (c.toNat - 48)

/-- The digits of an integer, without its sign. -/
def decimals (n : Int) : List (Fin 10) := (Nat.toDigits 10 n.natAbs).map digitOf

/-- Drop the zeros at the end. -/
def stripZeros (ds : List (Fin 10)) : List (Fin 10) := ds.rdropWhile (· = 0)

/-- The `float64` of an integer. -/
def Number.ofInt (n : Int) : Number where
  neg := n < 0
  digits := stripZeros (decimals n)
  point := (decimals n).length

theorem char_digitOf {c : Char} (h : c.isDigit = true) : Char.ofNat (48 + (digitOf c).val) = c := by
  have hrange : 48 ≤ c.toNat ∧ c.toNat ≤ 57 := Char.isDigit_iff_toNat.mp h
  have hval : 48 + (digitOf c).val = c.toNat := by
    show 48 + (c.toNat - 48) % 10 = c.toNat
    omega
  rw [hval, Char.ofNat_toNat]

/-- The digits, printed, are the decimal form. -/
theorem map_decimals (n : Int) :
    (decimals n).map (fun d => Char.ofNat (48 + d.val)) = Nat.toDigits 10 n.natAbs := by
  have hself : ∀ c ∈ Nat.toDigits 10 n.natAbs, Char.ofNat (48 + (digitOf c).val) = id c :=
    fun c hc => char_digitOf (Nat.isDigit_of_mem_toDigits (by omega) (by omega) hc)
  rw [decimals, List.map_map]
  exact (List.map_congr_left hself).trans (List.map_id _)

@[simp] theorem length_decimals (n : Int) :
    (decimals n).length = (Nat.toDigits 10 n.natAbs).length := List.length_map ..

/-- Only zero has no digit but zeros. -/
theorem stripZeros_decimals_ne_nil {n : Int} (hn : n ≠ 0) : stripZeros (decimals n) ≠ [] := by
  intro hnil
  have hzero : ∀ d ∈ decimals n, d = 0 := by
    simpa using List.rdropWhile_eq_nil_iff.mp hnil
  have hrep : Nat.toDigits 10 n.natAbs = List.replicate (decimals n).length '0' := by
    rw [← map_decimals, List.eq_replicate_of_mem hzero, List.map_replicate, List.length_replicate]
    rfl
  have habs := Nat.ofDigitChars_ten_toDigits (n := n.natAbs)
  rw [hrep, Nat.ofDigitChars_replicate_zero] at habs
  omega

/-- Padding with zeros gives the stripped zeros back. -/
theorem digitsFrom_stripZeros (ds : List (Fin 10)) :
    digitsFrom (stripZeros ds) 0 ds.length = ds.map fun d => Char.ofNat (48 + d.val) := by
  have hsplit : stripZeros ds ++ ds.rtakeWhile (· = 0) = ds := List.rdropWhile_append_rtakeWhile
  apply List.ext_getElem
  · simp [digitsFrom]
  intro i hi hi'
  have hlt : i < ds.length := by simpa using hi'
  have hdigit : (((stripZeros ds)[i]?).map Fin.val).getD 0 = (ds[i]).val := by
    have hget : ds[i]? = (stripZeros ds ++ ds.rtakeWhile (· = 0))[i]? := by rw [hsplit]
    rw [List.getElem?_append, List.getElem?_eq_getElem hlt] at hget
    by_cases hk : i < (stripZeros ds).length
    · rw [if_pos hk] at hget
      rw [← hget]
      rfl
    · -- behind the kept digits there are only zeros
      rw [if_neg hk] at hget
      have hz : ds[i] = 0 := by
        simpa using List.mem_rtakeWhile_imp (List.mem_of_getElem? hget.symm)
      rw [List.getElem?_eq_none (by omega), hz]
      rfl
  simp [digitsFrom, hdigit]

/-! ### Printed integers -/

/-- The decimal form of an integer. -/
theorem toList_repr (n : Int) :
    n.repr.toList = (if n < 0 then ['-'] else []) ++ Nat.toDigits 10 n.natAbs := by
  rw [Int.repr_eq_if]
  by_cases hn : n < 0
  · have habs : (-n).toNat = n.natAbs := by omega
    rw [if_neg (by omega), if_pos hn, habs, String.toList_append, Nat.toList_repr]
    rfl
  · have habs : n.toNat = n.natAbs := by omega
    rw [if_pos (by omega), if_neg hn, habs, Nat.toList_repr]
    rfl

theorem ne_minus_of_mem_toDigits {m : ℕ} {c : Char} (hc : c ∈ Nat.toDigits 10 m) : c ≠ '-' := by
  rintro rfl
  have hdigit := Nat.isDigit_of_mem_toDigits (by omega) (by omega) hc
  exact absurd hdigit (by decide)

/-- No decimal form has an exponent. -/
theorem e_not_mem_repr (n : Int) : 'e' ∉ n.repr.toList := by
  rw [toList_repr]
  intro hmem
  rcases List.mem_append.mp hmem with hsign | hdigits
  · split at hsign <;> simp at hsign
  · have hdigit := Nat.isDigit_of_mem_toDigits (by omega) (by omega) hdigits
    exact absurd hdigit (by decide)

theorem natAbs_eq_of_toDigits {m n : Int} (h : Nat.toDigits 10 m.natAbs = Nat.toDigits 10 n.natAbs) :
    m.natAbs = n.natAbs := by
  rw [← Nat.ofDigitChars_ten_toDigits (n := m.natAbs), h, Nat.ofDigitChars_ten_toDigits]

/-- Different numbers are printed differently. -/
theorem repr_injective {m n : Int} (h : m.repr = n.repr) : m = n := by
  have hlist := congrArg String.toList h
  rw [toList_repr, toList_repr] at hlist
  by_cases hm : m < 0 <;> by_cases hn : n < 0
  · rw [if_pos hm, if_pos hn] at hlist
    have := natAbs_eq_of_toDigits (List.append_cancel_left hlist)
    omega
  · -- a sign on one side only is no digit of the other
    rw [if_pos hm, if_neg hn, List.nil_append] at hlist
    have hmem : '-' ∈ Nat.toDigits 10 n.natAbs := by simp [← hlist]
    exact absurd rfl (ne_minus_of_mem_toDigits hmem)
  · rw [if_neg hm, if_pos hn, List.nil_append] at hlist
    have hmem : '-' ∈ Nat.toDigits 10 m.natAbs := by simp [hlist]
    exact absurd rfl (ne_minus_of_mem_toDigits hmem)
  · rw [if_neg hm, if_neg hn] at hlist
    have := natAbs_eq_of_toDigits (List.append_cancel_left hlist)
    omega

/-- The integers of at most six digits. -/
def Short (n : Int) : Prop := n.natAbs < 1000000

instance (n : Int) : Decidable (Short n) := by
  unfold Short
  infer_instance

theorem short_iff_length {n : Int} : Short n ↔ (Nat.toDigits 10 n.natAbs).length ≤ 6 := by
  rw [Nat.length_toDigits_le_iff (by omega) (by omega)]
  rfl

theorem short_zero : Short 0 := by decide

/-- A short integer is printed by its digits. -/
theorem formatFloat_ofInt {n : Int} (h : Short n) : formatFloat (.ofInt n) = n.repr := by
  by_cases hn : n = 0
  · subst hn
    rfl
  have hlen := short_iff_length.mp h
  have hpos : 0 < (Nat.toDigits 10 n.natAbs).length := Nat.length_toDigits_pos
  have hkept : (stripZeros (decimals n)).length ≤ (decimals n).length :=
    (List.rdropWhile_prefix ..).length_le
  have hne : (stripZeros (decimals n)).length ≠ 0 :=
    fun h0 => stripZeros_decimals_ne_nil hn (List.length_eq_zero_iff.mp h0)
  apply String.toList_inj.mp
  rw [toList_repr, ← map_decimals, ← digitsFrom_stripZeros]
  unfold formatFloat Number.ofInt
  simp only [length_decimals] at hkept ⊢
  rw [if_neg hne, if_neg (by omega), if_pos (by omega), Int.toNat_natCast, if_pos hkept]
  by_cases hneg : n < 0
  · simp [hneg]
  · simp [hneg]

/-- A longer one is printed with an exponent. -/
theorem e_mem_formatFloat {n : Int} (h : ¬ Short n) : 'e' ∈ (formatFloat (.ofInt n)).toList := by
  have hlen : 6 < (Nat.toDigits 10 n.natAbs).length := not_le.mp fun hle => h (short_iff_length.mpr hle)
  have hn : n ≠ 0 := by
    rintro rfl
    exact h short_zero
  have hne : (stripZeros (decimals n)).length ≠ 0 :=
    fun h0 => stripZeros_decimals_ne_nil hn (List.length_eq_zero_iff.mp h0)
  unfold formatFloat Number.ofInt
  simp only [length_decimals]
  rw [if_neg hne, if_pos (by omega)]
  simp

/-- **Only short integers are printed by their digits.** -/
theorem formatFloat_ofInt_iff {n : Int} : formatFloat (.ofInt n) = n.repr ↔ Short n := by
  refine ⟨fun h => ?_, formatFloat_ofInt⟩
  by_contra hlong
  have hmem := e_mem_formatFloat hlong
  rw [h] at hmem
  exact e_not_mem_repr n hmem

/-- No integer is printed by the digits of another. -/
theorem formatFloat_ofInt_inj {m n : Int} (h : formatFloat (.ofInt m) = n.repr) : m = n := by
  by_cases hshort : Short m
  · exact repr_injective ((formatFloat_ofInt hshort).symm.trans h)
  · have hmem := e_mem_formatFloat hshort
    rw [h] at hmem
    exact absurd hmem (e_not_mem_repr n)

example : formatFloat (.ofInt (-120)) = "-120" := by decide

end Iwifunni.Go
