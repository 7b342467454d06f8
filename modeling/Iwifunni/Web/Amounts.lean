/-
Iwifunni/Web/Amounts.lean

Numbers as JavaScript reads and prints them.

    "1.50"  --toNumber-->  1.5  --numberString-->  "1.5"

A text of digits, with or without a point, is read as the double next to it
(`toNumber_amountText`).  A double that is next to a number of hundredths is printed as this
number, with two digits after the point at most (`numberString_hundredths`).
-/
import Iwifunni.Go.Decimal
import Iwifunni.Number.Double
import Iwifunni.Web.Conditions
import Iwifunni.Web.Patterns
import Iwifunni.Web.Preview

namespace Iwifunni.Web

open Go Double

/-! ### Reading -/

/-- The exponent of a literal, if nothing else is left. -/
def exponentOf : List Char → Option ℤ
  | [] => some 0
  | e :: cs =>
      let digits := match cs with
        | '+' :: digits => digits
        | '-' :: digits => digits
        | digits => digits
      if (e = 'e' ∨ e = 'E') ∧ digits ≠ [] ∧ digits.all Duration.isDigit = true then
        some (if cs.head? = some '-' then -(DurationTerm.number digits 0 : ℤ)
          else DurationTerm.number digits 0)
      else none

/-- The value of a decimal literal. -/
def decimalLiteral (cs : List Char) : Option ℚ :=
  let whole := cs.takeWhile Duration.isDigit
  let rest := cs.dropWhile Duration.isDigit
  let fraction := fractionDigits rest
  let rest := if rest.head? = some '.' then rest.tail.dropWhile Duration.isDigit else rest
  if whole = [] ∧ fraction = [] then none
  else (exponentOf rest).map fun (e : ℤ) =>
    (DurationTerm.number (whole ++ fraction) 0 : ℚ) * 10 ^ (e - (fraction.length : ℤ))

/-- The base a literal is written in. -/
def baseOf (c : Char) : Option ℕ :=
  if c = 'x' ∨ c = 'X' then some 16
  else if c = 'o' ∨ c = 'O' then some 8
  else if c = 'b' ∨ c = 'B' then some 2
  else none

/-- The value of the digits of a base. -/
def baseLiteral (base : ℕ) (cs : List Char) : Option ℚ :=
  if cs = [] then none
  else (cs.mapM fun c => (UUID.hexValue c).filter fun d => d.val < base).map fun digits =>
    ((digits.foldl (fun n d => base * n + d.val) 0 : ℕ) : ℚ)

/-- The value of a literal that is not blank. -/
def literal (cs : List Char) : Option ℚ :=
  match cs with
  | '+' :: cs => decimalLiteral cs
  | '-' :: cs => (decimalLiteral cs).map Neg.neg
  | '0' :: c :: digits =>
      match baseOf c with
      | some base => baseLiteral base digits
      | none => decimalLiteral ('0' :: c :: digits)
  | cs => decimalLiteral cs

/-- The double of a value, if there is one. -/
def finite (value : ℚ) : Option ℚ := if |double value| < 2 ^ 1024 then some (double value) else none

/-- `Number(s)`, if this is a finite number. -/
def toNumber (s : String) : Option ℚ :=
  if trim s = "" then some 0 else (literal (trim s).toList).bind finite

/-! ### Printing -/

/-- `String(x)` of a finite number. -/
def numberString (x : ℚ) : String :=
  if x = 0 then "0"
  else match shortest |x| with
    | some (s, e) => numberText ⟨x < 0, stripZeros (decimals s), (decimals s).length + e⟩
    -- no double needs more than 17 digits
    | none => ""

/-- Digits, and digits after a point. -/
def amountText (whole fraction : List Char) : List Char :=
  whole ++ if fraction = [] then [] else '.' :: fraction

/-- The number the digits are. -/
def amountValue (whole fraction : List Char) : ℚ :=
  DurationTerm.number (whole ++ fraction) 0 / 10 ^ fraction.length

/-- Digits only, and at least one before the point. -/
structure IsAmount (whole fraction : List Char) : Prop where
  whole_ne : whole ≠ []
  whole : ∀ c ∈ whole, Duration.isDigit c = true
  fraction : ∀ c ∈ fraction, Duration.isDigit c = true

section Digits

variable {ds : List (Fin 10)}

theorem number_eq_ofDigitChars (cs : List Char) (n : ℕ) :
    DurationTerm.number cs n = Nat.ofDigitChars 10 cs n := by
  rw [Nat.ofDigitChars_eq_foldl, DurationTerm.number]
  congr 1
  funext n c
  show n * 10 + (c.toNat - 48) = 10 * n + (c.toNat - 48)
  rw [Nat.mul_comm]

/-- The number of digits that are put together. -/
theorem number_append (cs cs' : List Char) :
    DurationTerm.number (cs ++ cs') 0 =
      DurationTerm.number cs 0 * 10 ^ cs'.length + DurationTerm.number cs' 0 := by
  induction cs' using List.reverseRecOn with
  | nil => simp [DurationTerm.number]
  | append_singleton cs' c ih =>
      have hstep : ∀ cs : List Char, DurationTerm.number (cs ++ [c]) 0 =
          DurationTerm.number cs 0 * 10 + Duration.digitValue c := fun cs => by
        rw [DurationTerm.number, List.foldl_append]
        rfl
      rw [← List.append_assoc, hstep, hstep, ih, List.length_append, List.length_singleton,
        pow_succ]
      ring

theorem number_replicate (n : ℕ) : DurationTerm.number (List.replicate n '0') 0 = 0 := by
  rw [number_eq_ofDigitChars, Nat.ofDigitChars_replicate_zero, Nat.mul_zero]

theorem isDigit_digitsFrom (start count : ℕ) {c : Char} (h : c ∈ digitsFrom ds start count) :
    Duration.isDigit c = true := by
  obtain ⟨i, -, rfl⟩ := List.mem_map.mp h
  have hdigit : ∀ d : Fin 10, Duration.isDigit (Char.ofNat (48 + d.val)) = true := by decide
  rcases ds[start + i]? with - | d
  · exact hdigit 0
  · exact hdigit d

theorem length_digitsFrom (start count : ℕ) : (digitsFrom ds start count).length = count := by
  rw [digitsFrom, List.length_map, List.length_range]

theorem digitsFrom_add (start m n : ℕ) :
    digitsFrom ds start (m + n) = digitsFrom ds start m ++ digitsFrom ds (start + m) n := by
  rw [digitsFrom, List.range_add, List.map_append, List.map_map]
  refine congrArg (digitsFrom ds start m ++ ·) (List.map_congr_left fun i _ => ?_)
  show Char.ofNat (48 + ((ds[start + (m + i)]?).map Fin.val).getD 0) = _
  rw [Nat.add_assoc]

/-- Beyond the digits there are zeros. -/
theorem digitsFrom_length (n : ℕ) : digitsFrom ds ds.length n = List.replicate n '0' := by
  rw [digitsFrom, List.eq_replicate_iff]
  refine ⟨by rw [List.length_map, List.length_range], fun c hc => ?_⟩
  obtain ⟨i, -, rfl⟩ := List.mem_map.mp hc
  rw [List.getElem?_eq_none (Nat.le_add_right _ _)]
  rfl

/-- The number of the digits, filled up with zeros. -/
theorem number_digitsFrom {m : ℕ} (h : ds.length ≤ m) :
    DurationTerm.number (digitsFrom ds 0 m) 0 =
      DurationTerm.number (digitsFrom ds 0 ds.length) 0 * 10 ^ (m - ds.length) := by
  obtain ⟨n, rfl⟩ := Nat.exists_eq_add_of_le h
  rw [digitsFrom_add, Nat.zero_add, digitsFrom_length, number_append, number_replicate,
    List.length_replicate, Nat.add_sub_cancel_left, Nat.add_zero]

end Digits

/-! ### Hundredths -/

/-- A number that is not too large and not too small is printed with a point only. -/
theorem exists_numberText {ds : List (Fin 10)} {point : ℤ} (hds : ds ≠ []) (hlow : -6 < point)
    (hhigh : point ≤ 21) :
    ∃ whole fraction, IsAmount whole fraction ∧
      (numberText ⟨false, ds, point⟩).toList = amountText whole fraction ∧
      fraction.length = ((ds.length : ℤ) - point).toNat ∧
      amountValue whole fraction =
        DurationTerm.number (digitsFrom ds 0 ds.length) 0 * 10 ^ (point - ds.length) := by
  have hlength : ds.length ≠ 0 := fun h => hds (List.eq_nil_of_length_eq_zero h)
  have hrange : ¬ (point ≤ -6 ∨ 21 < point) := by omega
  by_cases hpos : 0 < point
  · -- the point is in the digits, or behind them and zeros
    obtain ⟨m, rfl⟩ := Int.eq_ofNat_of_zero_le hpos.le
    have hwhole : digitsFrom ds 0 m ≠ [] := fun h => by
      have := congrArg List.length h
      rw [length_digitsFrom] at this
      simp at this
      omega
    refine ⟨digitsFrom ds 0 m, digitsFrom ds m (ds.length - m), ⟨hwhole,
      fun c => isDigit_digitsFrom 0 m, fun c => isDigit_digitsFrom m _⟩, ?_, ?_, ?_⟩
    -- a fraction is printed only if there are digits behind the point
    · have hnil : digitsFrom ds m (ds.length - m) = [] ↔ ds.length ≤ m := by
        rw [← List.length_eq_zero_iff, length_digitsFrom]
        omega
      unfold numberText amountText
      dsimp only
      rw [if_neg hlength, if_neg hrange, if_pos hpos]
      simp [hnil]
    · rw [length_digitsFrom]
      omega
    · have happend : digitsFrom ds 0 m ++ digitsFrom ds m (ds.length - m) =
          digitsFrom ds 0 (m + (ds.length - m)) := by rw [digitsFrom_add, Nat.zero_add]
      rw [amountValue, happend, length_digitsFrom, number_digitsFrom (by omega)]
      -- the zeros that fill up the whole part are a power of ten
      rcases le_total ds.length m with hle | hle
      · have hzero : ds.length - m = 0 := by omega
        have hexp : (m : ℤ) - ds.length = ((m - ds.length : ℕ) : ℤ) := by omega
        rw [hzero, hexp, zpow_natCast]
        push_cast
        rw [Nat.add_zero, pow_zero, div_one]
      · have hexp : (m : ℤ) - ds.length = -((ds.length - m : ℕ) : ℤ) := by omega
        have hzero : m + (ds.length - m) - ds.length = 0 := by omega
        rw [hexp, hzero, zpow_neg, zpow_natCast, pow_zero, mul_one, div_eq_mul_inv]
  · -- the digits begin after the point
    obtain ⟨m, hm⟩ := Int.eq_ofNat_of_zero_le (show 0 ≤ -point by omega)
    obtain rfl : point = -(m : ℤ) := by omega
    refine ⟨['0'], List.replicate m '0' ++ digitsFrom ds 0 ds.length, ⟨List.cons_ne_nil _ _,
      List.forall_mem_singleton.mpr (by decide), fun c hc => ?_⟩, ?_, ?_, ?_⟩
    · rcases List.mem_append.mp hc with hc | hc
      · rw [List.eq_of_mem_replicate hc]
        decide
      · exact isDigit_digitsFrom 0 _ hc
    -- the digits are not empty, so the fraction is printed
    · have hne : digitsFrom ds 0 ds.length ≠ [] := fun h => by
        have := congrArg List.length h
        rw [length_digitsFrom] at this
        exact hlength this
      unfold numberText amountText
      dsimp only
      rw [if_neg hlength, if_neg hrange, if_neg hpos]
      simp [hne]
    · rw [List.length_append, List.length_replicate, length_digitsFrom]
      omega
    -- the leading zeros count for nothing
    · have hnumber : DurationTerm.number (['0'] ++ (List.replicate m '0' ++
          digitsFrom ds 0 ds.length)) 0 = DurationTerm.number (digitsFrom ds 0 ds.length) 0 := by
        rw [number_append, number_append, number_replicate]
        simp [DurationTerm.number, Duration.digitValue]
      have hexp : -(m : ℤ) - ds.length = -((m + ds.length : ℕ) : ℤ) := by
        push_cast
        ring
      rw [amountValue, hnumber, List.length_append, List.length_replicate, length_digitsFrom, hexp,
        zpow_neg, zpow_natCast, div_eq_mul_inv]

theorem length_stripZeros_le (ds : List (Fin 10)) : (stripZeros ds).length ≤ ds.length := by
  unfold stripZeros
  exact (List.rdropWhile_prefix _ ds).length_le

/-- An integer has no less than its digits say. -/
theorem pow_le_of_length {k : ℕ} (hk : k ≠ 0) : 10 ^ ((decimals k).length - 1) ≤ k := by
  rcases Nat.eq_zero_or_pos ((decimals k).length - 1) with hone | hpos
  · rw [hone]
    exact Nat.one_le_iff_ne_zero.mpr hk
  · by_contra hlt
    have hlength := (Nat.length_toDigits_le_iff (by omega) hpos).mpr (not_le.mp hlt)
    have hdecimals : (decimals k).length = (Nat.toDigits 10 k).length := length_decimals k
    omega

/-- The digits of an integer, without the zeros behind, and their number. -/
theorem number_stripZeros (s : ℕ) :
    s = DurationTerm.number (digitsFrom (stripZeros (decimals s)) 0
        (stripZeros (decimals s)).length) 0 *
      10 ^ ((decimals s).length - (stripZeros (decimals s)).length) := by
  rw [← number_digitsFrom (length_stripZeros_le _), digitsFrom_stripZeros, map_decimals,
    number_eq_ofDigitChars]
  exact Nat.ofDigitChars_ten_toDigits.symm

/-- **A double that is next to a number of hundredths is printed as this number.** -/
theorem numberString_hundredths {n : ℕ} (h : n < 2 ^ 41) :
    ∃ whole fraction, IsAmount whole fraction ∧ fraction.length ≤ 2 ∧
      (numberString (double (n / 100))).toList = amountText whole fraction ∧
      amountValue whole fraction = n / 100 := by
  rcases eq_or_ne n 0 with rfl | hn
  · refine ⟨['0'], [], ⟨List.cons_ne_nil _ _, List.forall_mem_singleton.mpr (by decide),
      nofun⟩, by decide, ?_, ?_⟩
    · rw [Nat.cast_zero, zero_div, double_zero]
      rfl
    · simp [amountValue, DurationTerm.number, Duration.digitValue]
  -- the shortest decimal of the double has the value of the hundredths
  obtain ⟨s, e, hshortest, he, hvalue⟩ := exists_shortest_hundredths hn h
  have hlow := double_hundredths_pos hn h
  have hpos : 0 < double ((n : ℚ) / 100) := by linarith
  have hten : (0 : ℚ) < 10 ^ e := zpow_pos (by norm_num) _
  have hs : 0 < s := by
    have hprod : (0 : ℚ) < s * 10 ^ e := by
      rw [hvalue]
      positivity
    exact_mod_cast (mul_pos_iff_of_pos_right hten).mp hprod
  obtain ⟨k, rfl⟩ := Int.eq_ofNat_of_zero_le hs.le
  have hk : (k : ℤ) ≠ 0 := hs.ne'
  have hle := length_stripZeros_le (decimals k)
  -- it is below 2^35, so JavaScript prints it without an exponent
  have hsize : ((decimals k).length : ℤ) + e ≤ 21 := by
    by_contra hlarge
    have hpow : (10 : ℚ) ^ ((decimals k).length - 1) ≤ k := by
      exact_mod_cast pow_le_of_length (k := k) (by exact_mod_cast hk)
    have hle' : (10 : ℚ) ^ (20 : ℤ) ≤ 10 ^ ((decimals k).length - 1) * 10 ^ e := by
      rw [← zpow_natCast, ← zpow_add₀ (by norm_num)]
      exact zpow_le_zpow_right₀ (by norm_num) (by omega)
    have hupper := hundredths_lt h
    rw [abs_of_nonneg (by positivity), ← hvalue] at hupper
    have hmul := mul_le_mul_of_nonneg_right hpow hten.le
    have hbound : (2 : ℚ) ^ (35 : ℤ) < 10 ^ (20 : ℤ) := by norm_num
    rw [Int.cast_natCast] at hupper
    linarith
  obtain ⟨whole, fraction, hamount, htext, hlength, hnumber⟩ := exists_numberText
    (stripZeros_decimals_ne_nil hk) (show -6 < ((decimals k).length : ℤ) + e by omega) hsize
  refine ⟨whole, fraction, hamount, by omega, ?_, ?_⟩
  · have hneg : (decide (double ((n : ℚ) / 100) < 0)) = false := by simpa using hpos.le
    rw [← htext, numberString, if_neg hpos.ne', abs_of_pos hpos, hshortest]
    show (numberText ⟨decide (double ((n : ℚ) / 100) < 0), _, _⟩).toList = _
    rw [hneg]
  · -- what is stripped from the digits is a power of ten
    have hdigits : (k : ℚ) = DurationTerm.number (digitsFrom (stripZeros (decimals k)) 0
        (stripZeros (decimals k)).length) 0 *
          10 ^ ((decimals k).length - (stripZeros (decimals k)).length) := by
      exact_mod_cast number_stripZeros k
    rw [hnumber, ← hvalue, Int.cast_natCast]
    conv_rhs => rw [hdigits]
    rw [mul_assoc, ← zpow_natCast, ← zpow_add₀ (by norm_num)]
    have hexp : ((decimals k).length : ℤ) + e - (stripZeros (decimals k)).length =
        (((decimals k).length - (stripZeros (decimals k)).length : ℕ) : ℤ) + e := by omega
    rw [hexp]

/-! ### Texts of digits -/

section Texts

variable {whole fraction rest : List Char} {c : Char}

theorem takeWhile_digits {cs : List Char} (h : ∀ c ∈ cs, Duration.isDigit c = true)
    (hrest : Stops rest) : (cs ++ rest).takeWhile Duration.isDigit = cs := by
  rw [List.takeWhile_append_of_pos h]
  cases rest with
  | nil => simp
  | cons c rest => simp [hrest c rfl]

theorem dropWhile_digits {cs : List Char} (h : ∀ c ∈ cs, Duration.isDigit c = true)
    (hrest : Stops rest) : (cs ++ rest).dropWhile Duration.isDigit = rest := by
  rw [List.dropWhile_append_of_pos h]
  cases rest with
  | nil => rfl
  | cons c rest => simp [hrest c rfl]

/-- A text of digits is the text of an amount, and nothing else. -/
theorem decimalLiteral_amountText (h : IsAmount whole fraction) :
    decimalLiteral (amountText whole fraction) = some (amountValue whole fraction) := by
  have hstop : Stops (if fraction = [] then [] else '.' :: fraction) := by
    split
    · nofun
    · intro c hc
      cases hc
      decide
  have hfraction : fractionDigits (if fraction = [] then [] else '.' :: fraction) = fraction := by
    split
    · next hnil => rw [hnil]; rfl
    · show fraction.takeWhile _ = _
      exact List.takeWhile_eq_self_iff.mpr h.fraction
  have hrest : (if (if fraction = [] then [] else '.' :: fraction).head? = some '.' then
      (if fraction = [] then [] else '.' :: fraction).tail.dropWhile Duration.isDigit
      else if fraction = [] then [] else '.' :: fraction) = [] := by
    by_cases hnil : fraction = []
    · simp [hnil]
    · simp only [if_neg hnil, List.head?_cons, if_true, List.tail_cons]
      exact List.dropWhile_eq_nil_iff.mpr h.fraction
  unfold decimalLiteral amountText
  dsimp only
  rw [takeWhile_digits h.whole hstop, dropWhile_digits h.whole hstop, hfraction, hrest,
    if_neg fun hnil => h.whole_ne hnil.1, exponentOf, Option.map_some, amountValue, zero_sub,
    zpow_neg, zpow_natCast, div_eq_mul_inv]

theorem isWhiteSpace_of_isDigit (h : Duration.isDigit c = true) : isWhiteSpace c = false := by
  simp only [Duration.isDigit, Bool.and_eq_true, decide_eq_true_eq, Char.le_def,
    UInt32.le_iff_toNat_le] at h
  have hlow : 48 ≤ c.toNat := h.1
  have hhigh : c.toNat ≤ 57 := h.2
  simp [isWhiteSpace]
  omega

theorem mem_amountText (h : IsAmount whole fraction) (hc : c ∈ amountText whole fraction) :
    Duration.isDigit c = true ∨ c = '.' := by
  rcases List.mem_append.mp hc with hc | hc
  · exact Or.inl (h.whole c hc)
  · split at hc
    · cases hc
    · rcases List.mem_cons.mp hc with rfl | hc
      · exact Or.inr rfl
      · exact Or.inl (h.fraction c hc)

theorem trim_amountText (h : IsAmount whole fraction) :
    trim (String.ofList (amountText whole fraction)) =
      String.ofList (amountText whole fraction) := by
  refine trim_eq_self fun c hc => ?_
  rw [String.toList_ofList] at hc
  rcases mem_amountText h hc with hdigit | rfl
  · exact isWhiteSpace_of_isDigit hdigit
  · decide

theorem amountText_ne_nil (h : IsAmount whole fraction) : amountText whole fraction ≠ [] :=
  List.append_ne_nil_of_left_ne_nil h.whole_ne _

theorem baseOf_of_isDigit (h : Duration.isDigit c = true) : baseOf c = none := by
  unfold baseOf
  split
  · next hc => rcases hc with rfl | rfl <;> cases h
  split
  · next hc => rcases hc with rfl | rfl <;> cases h
  split
  · next hc => rcases hc with rfl | rfl <;> cases h
  · rfl

/-- A text that begins with a digit, and goes on with something other than the letter of a base,
is a decimal literal. -/
theorem literal_eq {cs : List Char} (hc : Duration.isDigit c = true)
    (h : ∀ d ∈ cs.head?, baseOf d = none) : literal (c :: cs) = decimalLiteral (c :: cs) := by
  unfold literal
  split
  · next heq =>
    rw [(List.cons.inj heq).1] at hc
    cases hc
  · next heq =>
    rw [(List.cons.inj heq).1] at hc
    cases hc
  · next d digits heq =>
    obtain ⟨rfl, rfl⟩ := List.cons.inj heq
    rw [h d rfl]
  · rfl

/-- **A text of digits is read as the double next to it.** -/
theorem toNumber_amountText (h : IsAmount whole fraction) :
    toNumber (String.ofList (amountText whole fraction)) =
      finite (amountValue whole fraction) := by
  obtain ⟨c, cs, hcs⟩ := List.exists_cons_of_ne_nil h.whole_ne
  have hne : String.ofList (amountText whole fraction) ≠ "" := fun heq =>
    amountText_ne_nil h (by rw [← String.toList_ofList (l := amountText whole fraction), heq]; rfl)
  have htext : amountText whole fraction =
      c :: (cs ++ if fraction = [] then [] else '.' :: fraction) := by
    rw [amountText, hcs]
    rfl
  have hliteral : literal (amountText whole fraction) = some (amountValue whole fraction) := by
    rw [← decimalLiteral_amountText h, htext]
    refine literal_eq (h.whole c (by rw [hcs]; exact List.mem_cons_self)) fun d hd => ?_
    have hmem : d ∈ amountText whole fraction := by
      rw [htext]
      exact List.mem_cons_of_mem _ (List.mem_of_mem_head? hd)
    rcases mem_amountText h hmem with hdigit | rfl
    · exact baseOf_of_isDigit hdigit
    · decide
  rw [toNumber, trim_amountText h, if_neg hne, String.toList_ofList, hliteral, Option.bind_some]

theorem exponentOf_eq_none {e : Char} {cs : List Char} (he : e ≠ 'e') (hE : e ≠ 'E') :
    exponentOf (e :: cs) = none := if_neg fun h => h.1.elim he hE

/-- An amount that is not too large is a finite number. -/
theorem finite_of_lt {q : ℚ} (h : |q| < 2 ^ (41 : ℤ)) : finite q = some (double q) := by
  have herror := abs_double_sub_le_of_lt (by norm_num) h
  have htriangle := abs_sub_abs_le_abs_sub (double q) q
  refine if_pos ?_
  have hsmall : (2 : ℚ) ^ (41 : ℤ) + 2 ^ ((41 : ℤ) - 53) / 2 < 2 ^ 42 := by norm_num
  have hlarge : (2 : ℚ) ^ 42 ≤ 2 ^ 1024 := pow_le_pow_right₀ (by norm_num) (by norm_num)
  exact lt_of_lt_of_le (by linarith) hlarge

end Texts

end Iwifunni.Web
