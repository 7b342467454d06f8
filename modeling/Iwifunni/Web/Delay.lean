/-
Iwifunni/Web/Delay.lean

A delay as a number and a unit (`utils/duration`).

    "48h"  --parseDelayDuration-->  2 days  --formatDelayDuration-->  "48h"

A single number of seconds, minutes or hours is taken apart, and full days and weeks are found.
Any other duration stays a text, as it is not a number.  Both ways a number is rounded to two
digits after the point, so a delay is kept if it has no more (`delayKept_iff`).
-/
import Mathlib.Data.Bool.AllAny
import Iwifunni.Go.Scaling
import Iwifunni.Web.Amounts

namespace Iwifunni.Web

open Go Double

/-! ### Taking apart and putting together -/

/-- `DelayUnit`. -/
inductive DelayUnit
  | seconds
  | minutes
  | hours
  | days
  | weeks

/-- The units of a delay that is taken apart. -/
def delayTokens : List (List Char) := [['s'], ['m'], ['h']]

/-- `/^(\d+(?:\.\d+)?)(s|m|h)$/`. -/
def delayTerm (duration : String) : Option DurationTerm :=
  match matchTerm duration.toList with
  | some (term, []) => if delayTokens.contains term.unit then some term else none
  | _ => none

/-- The hundredths `toFixed(2)` shows. -/
def hundredths (value : ℚ) : ℤ := ⌊100 * value + 1 / 2⌋

/-- `formatDurationAmount`, of a number that is not negative; none is the infinite one. -/
def formatDurationAmount : Option ℚ → String
  | none => "Infinity"
  | some value =>
      if value = ⌊value⌋ then numberString value
      else numberString (double (hundredths value / 100))

/-- `amount >= n && amount % n === 0`. -/
def isMultiple (amount : Option ℚ) (n : ℚ) : Bool :=
  amount.any fun x => decide (n ≤ x ∧ x / n = ⌊x / n⌋)

/-- `parseDelayDuration`. -/
def parseDelayDuration (duration : String) : String × DelayUnit :=
  match delayTerm (trim duration) with
  | none => (trim duration, .minutes)
  | some term =>
      let amount := toNumber (String.ofList (amountText term.whole term.fraction))
      if term.unit = ['h'] then
        if isMultiple amount 168 then
          (formatDurationAmount (amount.bind fun x => finite (x / 168)), .weeks)
        else if isMultiple amount 24 then
          (formatDurationAmount (amount.bind fun x => finite (x / 24)), .days)
        else (formatDurationAmount amount, .hours)
      else (formatDurationAmount amount, if term.unit = ['s'] then .seconds else .minutes)

/-- `formatDelayDuration`. -/
def formatDelayDuration (amount : String) (unit : DelayUnit) : String :=
  if trim amount = "" then ""
  else match toNumber (trim amount) with
    | none => trim amount
    | some numericAmount =>
        if numericAmount ≤ 0 then trim amount
        else match unit with
          | .seconds => formatDurationAmount (some numericAmount) ++ "s"
          | .minutes => formatDurationAmount (some numericAmount) ++ "m"
          | .hours => formatDurationAmount (some numericAmount) ++ "h"
          | .days => formatDurationAmount (finite (numericAmount * 24)) ++ "h"
          | .weeks => formatDurationAmount (finite (numericAmount * 168)) ++ "h"

/-- A delay that is taken apart and put together again. -/
def reopenedDelay (duration : String) : String :=
  formatDelayDuration (parseDelayDuration duration).1 (parseDelayDuration duration).2

/-! ### What a duration denotes -/

/-- The nanoseconds of a term, exactly. -/
def DurationTerm.value (term : DurationTerm) : ℚ :=
  amountValue term.whole term.fraction * ((Duration.unitOf term.unit).getD 0 : ℕ)

/-- The nanoseconds a duration text stands for. -/
def durationValue (duration : String) : Option ℚ :=
  if duration = "0" then some 0
  else (durationTerms duration).map fun terms => (terms.map DurationTerm.value).sum

/-- The delay is accepted again, and is the same one. -/
structure DelayKept (duration : String) : Prop where
  accepted : (Duration.parse (reopenedDelay duration)).isSome
  value : durationValue (reopenedDelay duration) = durationValue duration

/-! ### Amounts -/

/-- The text of a number of hundredths. -/
def hundredthsText (n : ℕ) : String := numberString (double (n / 100))

/-- Hundredths can be read off their double. -/
theorem hundredths_double {n : ℕ} (h : n < 2 ^ 41) : hundredths (double (n / 100)) = n := by
  obtain ⟨hlow, hhigh⟩ := abs_le.mp (abs_double_hundredths_sub_le h)
  unfold hundredths
  rw [Int.floor_eq_iff]
  norm_num at hlow hhigh
  constructor
  · push_cast
    linarith
  · push_cast
    linarith

/-- The text of a double of this size. -/
theorem formatDurationAmount_eq {x : ℚ} {n : ℕ} (hn : hundredths x = n) (hlt : n < 2 ^ 41) :
    formatDurationAmount (some x) = hundredthsText n := by
  unfold formatDurationAmount hundredthsText
  dsimp only
  split
  · next hint =>
    -- an integer is as many hundreds of hundredths
    have hvalue : (n : ℚ) / 100 = ⌊x⌋ := by
      have hfloor : hundredths x = 100 * ⌊x⌋ := by
        unfold hundredths
        rw [Int.floor_eq_iff]
        push_cast
        rw [← hint]
        constructor <;> linarith
      have hcast : (n : ℚ) = 100 * (⌊x⌋ : ℚ) := by exact_mod_cast hn.symm.trans hfloor
      rw [hcast]
      ring
    have hsmall : |⌊x⌋| < 2 ^ 53 := by
      have hfloor : 100 * ⌊x⌋ = (n : ℤ) := by
        have : (100 : ℚ) * ⌊x⌋ = n := by rw [← hvalue]; ring
        exact_mod_cast this
      rw [abs_lt]
      constructor <;> omega
    rw [hvalue, double_intCast hsmall, ← hint]
  · rw [hn, Int.cast_natCast]

/-- The text of hundredths is read as the double next to them. -/
theorem toNumber_hundredthsText {n : ℕ} (h : n < 2 ^ 41) :
    toNumber (hundredthsText n) = some (double (n / 100)) ∧
      trim (hundredthsText n) = hundredthsText n ∧ hundredthsText n ≠ "" := by
  obtain ⟨whole, fraction, hamount, -, htext, hvalue⟩ := numberString_hundredths h
  have heq : hundredthsText n = String.ofList (amountText whole fraction) := by
    rw [← htext, String.ofList_toList]
    rfl
  have hlt : |(n : ℚ) / 100| < 2 ^ (41 : ℤ) :=
    (hundredths_lt h).trans (zpow_lt_zpow_right₀ (by norm_num) (by norm_num))
  refine ⟨?_, ?_, ?_⟩
  · rw [heq, toNumber_amountText hamount, hvalue, finite_of_lt hlt]
  · rw [heq, trim_amountText hamount]
  · intro hnil
    refine amountText_ne_nil hamount ?_
    rw [← htext]
    show (hundredthsText n).toList = []
    rw [hnil]
    rfl

/-- A number of the unit of a token is put together with it. -/
theorem formatDelayDuration_hundredths {n : ℕ} (h : n < 2 ^ 41) (unit : DelayUnit) :
    formatDelayDuration (hundredthsText n) unit =
      if n = 0 then "0" else match unit with
        | .seconds => hundredthsText n ++ "s"
        | .minutes => hundredthsText n ++ "m"
        | .hours => hundredthsText n ++ "h"
        | .days => formatDurationAmount (finite (double (n / 100) * 24)) ++ "h"
        | .weeks => formatDurationAmount (finite (double (n / 100) * 168)) ++ "h" := by
  obtain ⟨hnumber, htrim, hne⟩ := toNumber_hundredthsText h
  unfold formatDelayDuration
  rw [htrim, if_neg hne, hnumber]
  dsimp only
  rcases eq_or_ne n 0 with rfl | hn
  · rw [if_pos rfl, if_pos (by rw [Nat.cast_zero, zero_div, double_zero])]
    unfold hundredthsText
    rw [Nat.cast_zero, zero_div, double_zero]
    rfl
  · have hpos := double_hundredths_pos hn h
    rw [if_neg hn, if_neg (by linarith), formatDurationAmount_eq (hundredths_double h) h]

/-! ### A single number -/

/-- Below 2^34 a number is close to its double, and the hundredths of that are natural numbers. -/
theorem exists_hundredths {q : ℚ} (hpos : 0 ≤ q) (h : q < 2 ^ 34) :
    |double q - q| ≤ 1 / 2 ^ 19 ∧ ∃ n : ℕ, n < 2 ^ 41 ∧ hundredths (double q) = n := by
  have hlt : |q| < 2 ^ (34 : ℤ) := by
    rw [abs_of_nonneg hpos]
    exact_mod_cast h
  have herror : |double q - q| ≤ 1 / 2 ^ 19 := by
    refine (abs_double_sub_le_of_lt (by norm_num) hlt).trans ?_
    norm_num
  refine ⟨herror, ?_⟩
  obtain ⟨hlow, hhigh⟩ := abs_le.mp herror
  have hnonneg : 0 ≤ hundredths (double q) := by
    refine Int.floor_nonneg.mpr ?_
    norm_num at hlow
    linarith
  obtain ⟨n, hn⟩ := Int.eq_ofNat_of_zero_le hnonneg
  refine ⟨n, ?_, hn⟩
  have hfloor := Int.floor_le (100 * double q + 1 / 2)
  have hn' : (hundredths (double q) : ℚ) = n := by exact_mod_cast congrArg (Int.cast (R := ℚ)) hn
  have hcast : (n : ℚ) < 2 ^ 41 := by
    have hbound : (2 : ℚ) ^ 41 = 2199023255552 := by norm_num
    unfold hundredths at hn'
    rw [hbound]
    norm_num at h hhigh
    linarith
  exact_mod_cast hcast

/-- A whole number of this size is a double. -/
theorem double_natCast {m : ℕ} (h : m < 2 ^ 53) : double m = m := by
  have hint := double_intCast (n := m) (by rw [abs_of_nonneg (by omega)]; exact_mod_cast h)
  exact_mod_cast hint

theorem finite_natCast {m : ℕ} (h : m < 2 ^ 41) : finite m = some (m : ℚ) := by
  have hlt : |(m : ℚ)| < 2 ^ (41 : ℤ) := by
    rw [abs_of_nonneg (by positivity)]
    exact_mod_cast h
  rw [finite_of_lt hlt, double_natCast (h.trans (by norm_num))]

theorem hundredths_natCast (m : ℕ) : hundredths m = (100 * m : ℕ) := by
  unfold hundredths
  rw [Int.floor_eq_iff]
  push_cast
  constructor <;> linarith

/-- Days and weeks are put together to hours again. -/
theorem isMultiple_some {x : ℚ} {k n : ℕ} (hk : 0 < k) (h : isMultiple (some x) k = true)
    (hn : hundredths x = n) (hlt : n < 2 ^ 41) :
    ∃ j : ℕ, 0 < j ∧ 100 * j < 2 ^ 41 ∧ x = (j * k : ℕ) ∧ n = 100 * (j * k) ∧
      finite (x / k) = some (j : ℚ) := by
  have hkq : (0 : ℚ) < k := by exact_mod_cast hk
  obtain ⟨hle, hint⟩ := of_decide_eq_true h
  have hone : (1 : ℚ) ≤ x / k := (one_le_div hkq).mpr hle
  have hj : 0 < ⌊x / k⌋ := by
    have : (0 : ℚ) < ⌊x / k⌋ := by rw [← hint]; linarith
    exact_mod_cast this
  obtain ⟨j, hj'⟩ := Int.eq_ofNat_of_zero_le hj.le
  have hquotient : x / k = j := by
    rw [hint, hj']
    rfl
  have hx : x = (j * k : ℕ) := by
    rw [div_eq_iff hkq.ne'] at hquotient
    rw [hquotient]
    push_cast
    rfl
  have hn' : n = 100 * (j * k) := by
    rw [hx, hundredths_natCast] at hn
    omega
  have hjk : j ≤ j * k := Nat.le_mul_of_pos_right j hk
  refine ⟨j, by omega, by omega, hx, hn', ?_⟩
  rw [hquotient, finite_natCast (by omega)]

/-- **A single number is rounded to hundredths of its unit.** -/
theorem reopenedDelay_term {duration : String} {term : DurationTerm}
    (hterm : delayTerm (trim duration) = some term) (h : IsAmount term.whole term.fraction)
    (hlt : amountValue term.whole term.fraction < 2 ^ 34) :
    ∃ n : ℕ, n < 2 ^ 41 ∧
      hundredths (double (amountValue term.whole term.fraction)) = n ∧
      reopenedDelay duration =
        if n = 0 then "0" else hundredthsText n ++ String.ofList term.unit := by
  have hpos : 0 ≤ amountValue term.whole term.fraction := by
    unfold amountValue
    positivity
  obtain ⟨-, n, hn, hround⟩ := exists_hundredths hpos hlt
  refine ⟨n, hn, hround, ?_⟩
  have hnumber : toNumber (String.ofList (amountText term.whole term.fraction)) =
      some (double (amountValue term.whole term.fraction)) := by
    rw [toNumber_amountText h]
    refine finite_of_lt ?_
    rw [abs_of_nonneg hpos]
    exact hlt.trans (by norm_num)
  have hunit : term.unit ∈ delayTokens := by
    unfold delayTerm at hterm
    split at hterm
    · split at hterm
      · next hmem =>
        obtain rfl := Option.some.inj hterm
        exact List.contains_iff_mem.mp hmem
      · cases hterm
    · cases hterm
  have hplain := formatDurationAmount_eq hround hn
  -- full days or weeks
  have hfull : ∀ (k : ℕ) (unit : DelayUnit), 0 < k →
      (∀ j : ℕ, 0 < j → 100 * j < 2 ^ 41 → formatDelayDuration (hundredthsText (100 * j)) unit =
        formatDurationAmount (finite (j * k)) ++ "h") →
      isMultiple (some (double (amountValue term.whole term.fraction))) k = true →
      formatDelayDuration (formatDurationAmount
        (finite (double (amountValue term.whole term.fraction) / k))) unit =
          hundredthsText n ++ "h" ∧ n ≠ 0 := by
    intro k unit hk hformat hmultiple
    obtain ⟨j, hj, hsmall, hx, rfl, hfinite⟩ := isMultiple_some hk hmultiple hround hn
    rw [hfinite, formatDurationAmount_eq (hundredths_natCast j) hsmall, hformat j hj hsmall]
    have hjk : ((j : ℚ) * k) = ((j * k : ℕ) : ℚ) := by push_cast; rfl
    rw [hjk, finite_natCast (by omega), formatDurationAmount_eq (hundredths_natCast _) hn]
    exact ⟨rfl, by positivity⟩
  have hback : ∀ j : ℕ, 0 < j → 100 * j < 2 ^ 41 →
      100 * j ≠ 0 ∧ double (((100 * j : ℕ) : ℚ) / 100) = j := by
    intro j hj hsmall
    have hdiv : ((100 * j : ℕ) : ℚ) / 100 = j := by
      push_cast
      ring
    rw [hdiv, double_natCast (by omega)]
    exact ⟨by omega, rfl⟩
  unfold reopenedDelay parseDelayDuration
  rw [hterm]
  dsimp only
  rw [hnumber]
  simp only [delayTokens, List.mem_cons, List.not_mem_nil, or_false] at hunit
  rcases hunit with hs | hm | hh
  · rw [hs, if_neg (by decide), if_pos rfl]
    dsimp only
    rw [hplain, formatDelayDuration_hundredths hn]
  · rw [hm, if_neg (by decide), if_neg (by decide)]
    dsimp only
    rw [hplain, formatDelayDuration_hundredths hn]
  · rw [hh, if_pos rfl]
    split
    · next hweeks =>
      obtain ⟨heq, hne⟩ := hfull 168 .weeks (by norm_num) (fun j hj hsmall => by
        rw [formatDelayDuration_hundredths hsmall, if_neg (hback j hj hsmall).1]
        dsimp only
        rw [(hback j hj hsmall).2]
        rfl) hweeks
      rw [if_neg hne]
      exact heq
    · split
      · next hdays =>
        obtain ⟨heq, hne⟩ := hfull 24 .days (by norm_num) (fun j hj hsmall => by
          rw [formatDelayDuration_hundredths hsmall, if_neg (hback j hj hsmall).1]
          dsimp only
          rw [(hback j hj hsmall).2]
          rfl) hdays
        rw [if_neg hne]
        exact heq
      · dsimp only
        rw [hplain, formatDelayDuration_hundredths hn]

/-! ### Texts of terms -/

section Terms

variable {term : DurationTerm} {rest : List Char} {c : Char}

theorem mem_text (h : Matched term rest) (hc : c ∈ term.text) :
    Duration.isDigit c = true ∨ c = '.' ∨ c ∈ ['n', 's', 'u', 'µ', 'm', 'h'] := by
  have hunit : ∀ c ∈ durationUnits.flatten, c ∈ ['n', 's', 'u', 'µ', 'm', 'h'] :=
    List.all_iff_forall_prop.mp (by decide)
  rcases List.mem_append.mp hc with hc | hc
  · rcases mem_amountText ⟨h.whole_ne, h.whole, h.fraction⟩ hc with hdigit | hpoint
    · exact Or.inl hdigit
    · exact Or.inr (Or.inl hpoint)
  · exact Or.inr (Or.inr (hunit c (List.mem_flatten_of_mem h.unit hc)))

theorem isWhiteSpace_text (h : Matched term rest) (hc : c ∈ term.text) :
    isWhiteSpace c = false := by
  have hletter : ∀ c ∈ ['n', 's', 'u', 'µ', 'm', 'h'], isWhiteSpace c = false :=
    List.all_iff_forall_prop.mp (by decide)
  rcases mem_text h hc with hdigit | rfl | hmem
  · exact isWhiteSpace_of_isDigit hdigit
  · decide
  · exact hletter c hmem

theorem text_append (term : DurationTerm) (rest : List Char) :
    term.text ++ rest = term.whole ++ ((if term.fraction = [] then [] else '.' :: term.fraction) ++
      (term.unit ++ rest)) := by
  rw [DurationTerm.text, List.append_assoc, List.append_assoc]

/-- No digit follows the whole number. -/
theorem stops_fraction (h : Matched term rest) :
    Stops ((if term.fraction = [] then [] else '.' :: term.fraction) ++ (term.unit ++ rest)) := by
  obtain ⟨⟨u, us, hu, -, hdigit⟩, -⟩ := unit_chars h.unit
  intro c hc
  split at hc
  · rw [hu] at hc
    cases hc
    exact hdigit
  · cases hc
    decide

/-- The digits of the fraction are read from the text. -/
theorem fractionDigits_text (h : Matched term rest) :
    fractionDigits ((if term.fraction = [] then [] else '.' :: term.fraction) ++
      (term.unit ++ rest)) = term.fraction := by
  obtain ⟨⟨u, us, hu, hpoint, hdigit⟩, -⟩ := unit_chars h.unit
  split
  · next hnil =>
    rw [hu, hnil, List.nil_append, List.cons_append, fractionDigits]
    exact fun _ heq => hpoint (List.cons.inj heq).1
  · refine takeWhile_digits h.fraction fun c hc => ?_
    rw [hu] at hc
    cases hc
    exact hdigit

/-- **The text of a term is matched.** -/
theorem matchTerm_text (h : Matched term rest) :
    matchTerm (term.text ++ rest) = some (term, rest) := by
  have hstop := stops_fraction h
  have htake : (term.unit ++ rest).takeWhile (fun c => !Duration.isDigit c) = term.unit := by
    obtain ⟨-, hunit⟩ := unit_chars h.unit
    have hletters : ∀ c ∈ term.unit, (!Duration.isDigit c) = true := fun c hc => by
      have hc := hunit c hc
      rw [Bool.not_or, Bool.and_eq_true] at hc
      exact hc.2
    rw [List.takeWhile_append_of_pos hletters]
    cases rest with
    | nil => simp
    | cons c rest => simp [h.rest c rfl]
  unfold matchTerm
  dsimp only
  rw [text_append, takeWhile_digits h.whole hstop, dropWhile_digits h.whole hstop,
    fractionDigits_text h]
  have hdrop : ((if term.fraction = [] then [] else '.' :: term.fraction) ++
      (term.unit ++ rest)).drop (if term.fraction = [] then 0 else term.fraction.length + 1) =
        term.unit ++ rest := by
    split
    · rfl
    · rw [List.cons_append, List.drop_succ_cons, List.drop_left]
  rw [hdrop, htake, if_pos ⟨h.whole_ne, h.unit⟩, List.drop_left]

/-- A term is read from its own text. -/
theorem durationTerms_text (h : Matched term []) :
    durationTerms (String.ofList term.text) = some [term] := by
  have hne : term.text ≠ [] := by
    obtain ⟨c, cs, hcs⟩ := List.exists_cons_of_ne_nil h.whole_ne
    rw [DurationTerm.text, hcs]
    exact List.cons_ne_nil _ _
  have hne' : String.ofList term.text ≠ "" := fun heq => hne (by
    rw [← String.toList_ofList (l := term.text), heq]
    rfl)
  obtain ⟨c, cs, hcs⟩ := List.exists_cons_of_ne_nil hne
  have hmatch := matchTerm_text h
  rw [List.append_nil, hcs] at hmatch
  rw [durationTerms, if_neg hne', String.toList_ofList, hcs, List.length_cons, matchTerms, hmatch,
    Option.bind_eq_bind, Option.bind_some]
  dsimp only
  rw [matchTerms]
  rfl

/-- A text of terms begins with one, and the rest are the others. -/
theorem exists_matchTerm {duration : String} {terms : List DurationTerm}
    (h : durationTerms duration = some terms) :
    ∃ term rest others, matchTerm duration.toList = some (term, rest) ∧ terms = term :: others ∧
      (others = [] ↔ rest = []) := by
  unfold durationTerms at h
  split at h
  · cases h
  next hne =>
  rcases hcs : duration.toList with - | ⟨c, cs⟩
  · exact absurd (String.toList_eq_nil_iff.mp hcs) hne
  rw [hcs, List.length_cons, matchTerms] at h
  obtain ⟨⟨term, rest⟩, hterm, h⟩ := Option.bind_eq_some_iff.mp h
  obtain ⟨others, hothers, h⟩ := Option.bind_eq_some_iff.mp h
  refine ⟨term, rest, others, hterm, (Option.some.inj h).symm, ?_⟩
  constructor
  · rintro rfl
    cases rest with
    | nil => rfl
    | cons d rest =>
        -- a rest that is not empty has a term
        exfalso
        generalize cs.length = fuel at hothers
        cases fuel with
        | zero => cases hothers
        | succ fuel =>
            rw [matchTerms] at hothers
            obtain ⟨⟨term', rest'⟩, -, hothers⟩ := Option.bind_eq_some_iff.mp hothers
            obtain ⟨others', -, hothers⟩ := Option.bind_eq_some_iff.mp hothers
            cases hothers
  · rintro rfl
    rw [matchTerms] at hothers
    exact (Option.some.inj hothers).symm

theorem trim_durationTerms {duration : String} {terms : List DurationTerm}
    (h : durationTerms duration = some terms) : trim duration = duration := by
  unfold durationTerms at h
  split at h
  · cases h
  · exact trim_eq_self (forall_mem_of_matchTerms (fun _ _ hm _ => isWhiteSpace_text hm) h)

/-- A duration is not a number. -/
theorem toNumber_durationTerms {duration : String} {terms : List DurationTerm}
    (h : durationTerms duration = some terms) : toNumber duration = none := by
  have htrim := trim_durationTerms h
  obtain ⟨term, rest, others, hterm, -, -⟩ := exists_matchTerm h
  obtain ⟨htext, hmatched⟩ := matchTerm_eq hterm
  obtain ⟨c, whole, hwhole⟩ := List.exists_cons_of_ne_nil hmatched.whole_ne
  obtain ⟨⟨u, us, hu, hpoint, hdigit⟩, -⟩ := unit_chars hmatched.unit
  have hne : duration ≠ "" := by
    rintro rfl
    cases h
  -- no unit begins like an exponent
  have hexponent : exponentOf (term.unit ++ rest) = none := by
    have hletter : ∀ unit ∈ durationUnits, unit.head? ≠ some 'e' ∧ unit.head? ≠ some 'E' := by
      decide
    obtain ⟨he, hE⟩ := hletter _ hmatched.unit
    rw [hu] at he hE ⊢
    exact exponentOf_eq_none (fun heq => he (congrArg some heq)) fun heq => hE (congrArg some heq)
  -- so a decimal literal ends before the unit
  have hdecimal : decimalLiteral (term.text ++ rest) = none := by
    have hstop := stops_fraction hmatched
    have hleft : (if ((if term.fraction = [] then [] else '.' :: term.fraction) ++
        (term.unit ++ rest)).head? = some '.' then
          ((if term.fraction = [] then [] else '.' :: term.fraction) ++
            (term.unit ++ rest)).tail.dropWhile Duration.isDigit
        else (if term.fraction = [] then [] else '.' :: term.fraction) ++
          (term.unit ++ rest)) = term.unit ++ rest := by
      by_cases hnil : term.fraction = []
      · have hhead : (term.unit ++ rest).head? ≠ some '.' := by
          rw [hu]
          exact fun heq => hpoint (Option.some.inj heq)
        simp only [if_pos hnil, List.nil_append, if_neg hhead]
      · simp only [if_neg hnil, List.cons_append, List.head?_cons, if_true, List.tail_cons]
        refine dropWhile_digits hmatched.fraction fun d hd => ?_
        rw [hu] at hd
        cases hd
        exact hdigit
    unfold decimalLiteral
    dsimp only
    rw [text_append, takeWhile_digits hmatched.whole hstop, dropWhile_digits hmatched.whole hstop,
      hleft, hexponent, if_neg fun hand => hmatched.whole_ne hand.1]
    rfl
  -- and no unit makes the text one of another base
  have hliteral : literal (term.text ++ rest) = none := by
    rw [← hdecimal]
    have hcons : term.text ++ rest = c :: ((whole ++ (if term.fraction = [] then [] else
        '.' :: term.fraction) ++ term.unit) ++ rest) := by
      rw [DurationTerm.text, hwhole]
      simp
    rw [hcons]
    refine literal_eq (hmatched.whole c (by rw [hwhole]; exact List.mem_cons_self)) fun d hd => ?_
    have hmem : d ∈ term.text := by
      rw [DurationTerm.text, hwhole, List.cons_append, List.cons_append]
      refine List.mem_cons_of_mem _ (List.mem_of_mem_head? ?_)
      rw [List.head?_append_of_ne_nil _ (by rw [hu]; simp)] at hd
      exact hd
    have hletter : ∀ d ∈ ['n', 's', 'u', 'µ', 'm', 'h'], baseOf d = none :=
      List.all_iff_forall_prop.mp (by decide)
    rcases mem_text hmatched hmem with hdig | rfl | hunit
    · exact baseOf_of_isDigit hdig
    · decide
    · exact hletter d hunit
  rw [toNumber, htrim, if_neg hne, htext, hliteral]
  rfl

end Terms

/-! ### Hundredths in a text -/

section Hundredths

variable {whole fraction : List Char}

theorem digitValue_lt {c : Char} (h : Duration.isDigit c = true) :
    Duration.digitValue c < 10 ∧ (Duration.digitValue c = 0 → c = '0') := by
  simp only [Duration.isDigit, Bool.and_eq_true, decide_eq_true_eq, Char.le_def,
    UInt32.le_iff_toNat_le] at h
  have hlow : 48 ≤ c.toNat := h.1
  have hhigh : c.toNat ≤ 57 := h.2
  unfold Duration.digitValue
  refine ⟨by omega, fun hzero => ?_⟩
  have heq : c.toNat = 48 := by omega
  rw [← Char.ofNat_toNat c, heq]

/-- The number of the digits is less than the power for as many, and zero only for zeros. -/
theorem number_lt {cs : List Char} (h : ∀ c ∈ cs, Duration.isDigit c = true) :
    DurationTerm.number cs 0 < 10 ^ cs.length ∧
      (DurationTerm.number cs 0 = 0 → ∀ c ∈ cs, c = '0') := by
  induction cs with
  | nil => exact ⟨by decide, fun _ => nofun⟩
  | cons c cs ih =>
      obtain ⟨hlt, hzeros⟩ := ih fun d hd => h d (List.mem_cons_of_mem c hd)
      obtain ⟨hdigit, hzero⟩ := digitValue_lt (h c List.mem_cons_self)
      have hsplit : DurationTerm.number (c :: cs) 0 =
          Duration.digitValue c * 10 ^ cs.length + DurationTerm.number cs 0 := by
        have happend := number_append [c] cs
        rw [List.singleton_append] at happend
        rw [happend]
        simp [DurationTerm.number]
      constructor
      · rw [hsplit, List.length_cons, pow_succ]
        have hpos : 0 < 10 ^ cs.length := by positivity
        nlinarith
      · intro hnumber d hd
        have hpos : 0 < 10 ^ cs.length := by positivity
        have hvalue : Duration.digitValue c = 0 := by
          by_contra hne
          have := Nat.mul_pos (Nat.pos_of_ne_zero hne) hpos
          omega
        rcases List.mem_cons.mp hd with rfl | hd
        · exact hzero hvalue
        · exact hzeros (by omega) d hd

/-- The first two digits of a fraction, and the number of hundredths they are. -/
def hundredthsOf (whole fraction : List Char) : ℕ :=
  DurationTerm.number (whole ++ fraction.take 2) 0 * 10 ^ (2 - fraction.length)

/-- An amount with two digits behind the point, in hundredths. -/
theorem amountValue_eq (h : ∀ c ∈ fraction.drop 2, c = '0') :
    amountValue whole fraction = hundredthsOf whole fraction / 100 := by
  have hzeros : fraction.drop 2 = List.replicate (fraction.length - 2) '0' := by
    rw [List.eq_replicate_iff, List.length_drop]
    exact ⟨rfl, h⟩
  have hnumber : DurationTerm.number (whole ++ fraction) 0 =
      DurationTerm.number (whole ++ fraction.take 2) 0 * 10 ^ (fraction.length - 2) := by
    conv_lhs => rw [← List.take_append_drop 2 fraction, hzeros]
    rw [← List.append_assoc, number_append, number_replicate, List.length_replicate, Nat.add_zero]
  unfold amountValue hundredthsOf
  rw [hnumber]
  push_cast
  rcases le_total fraction.length 2 with hle | hle
  · have hzero : fraction.length - 2 = 0 := by omega
    have hpow : (10 : ℚ) ^ (2 - fraction.length) * 10 ^ fraction.length = 100 := by
      rw [← pow_add, Nat.sub_add_cancel hle]
      norm_num
    rw [hzero, pow_zero, mul_one, div_eq_div_iff (by positivity) (by norm_num), mul_assoc, hpow]
  · have hzero : 2 - fraction.length = 0 := by omega
    have hpow : (10 : ℚ) ^ (fraction.length - 2) * 100 = 10 ^ fraction.length := by
      have : (100 : ℚ) = 10 ^ 2 := by norm_num
      rw [this, ← pow_add, Nat.sub_add_cancel hle]
    rw [hzero, pow_zero, mul_one, div_eq_div_iff (by positivity) (by norm_num), mul_assoc, hpow]

/-- **A number is one of hundredths exactly if** only zeros come after the second digit. -/
theorem exists_hundredths_iff (hfraction : ∀ c ∈ fraction, Duration.isDigit c = true) :
    (∃ n : ℕ, amountValue whole fraction = n / 100) ↔ ∀ c ∈ fraction.drop 2, c = '0' := by
  refine ⟨fun ⟨n, hn⟩ => ?_, fun h => ⟨_, amountValue_eq h⟩⟩
  have hdigits : ∀ c ∈ fraction.drop 2, Duration.isDigit c = true :=
    fun c hc => hfraction c (List.mem_of_mem_drop hc)
  refine (number_lt hdigits).2 ?_
  rcases le_total fraction.length 2 with hle | hle
  · rw [List.drop_eq_nil_of_le hle]
    rfl
  have hlength : (fraction.drop 2).length = fraction.length - 2 := List.length_drop
  have hnumber := number_append (whole ++ fraction.take 2) (fraction.drop 2)
  rw [List.append_assoc, List.take_append_drop, hlength] at hnumber
  have hpow : 10 ^ fraction.length = 10 ^ (fraction.length - 2) * 100 := by
    rw [show (100 : ℕ) = 10 ^ 2 by norm_num, ← pow_add, Nat.sub_add_cancel hle]
  have hcross : DurationTerm.number (whole ++ fraction) 0 = n * 10 ^ (fraction.length - 2) := by
    unfold amountValue at hn
    rw [div_eq_div_iff (by positivity) (by norm_num)] at hn
    have hnat : DurationTerm.number (whole ++ fraction) 0 * 100 = n * 10 ^ fraction.length := by
      exact_mod_cast hn
    rw [hpow, ← Nat.mul_assoc] at hnat
    exact Nat.eq_of_mul_eq_mul_right (by norm_num) hnat
  have hlt := (number_lt hdigits).1
  rw [hlength] at hlt
  -- the rest is less than the power that divides it
  have hdvd : 10 ^ (fraction.length - 2) ∣ DurationTerm.number (fraction.drop 2) 0 := by
    rw [hcross] at hnumber
    exact (Nat.dvd_add_right (Dvd.intro_left _ rfl)).mp (hnumber ▸ Dvd.intro_left _ rfl)
  exact Nat.eq_zero_of_dvd_of_lt hdvd hlt

end Hundredths

/-! ### Nanoseconds -/

section Nanoseconds

variable {term : DurationTerm} {whole fraction : List Char} {unit : ℕ}

/-- The hundredths of a fraction. -/
def fractionHundredths (fraction : List Char) : ℕ :=
  DurationTerm.number (fraction.take 2) 0 * 10 ^ (2 - fraction.length)

theorem hundredthsOf_eq (whole fraction : List Char) :
    hundredthsOf whole fraction =
      DurationTerm.number whole 0 * 100 + fractionHundredths fraction := by
  unfold hundredthsOf fractionHundredths
  rw [number_append, Nat.add_mul, Nat.mul_assoc, ← pow_add, List.length_take]
  have hexp : min 2 fraction.length + (2 - fraction.length) = 2 := by omega
  rw [hexp]
  norm_num

/-- A fraction has less than a hundred hundredths. -/
theorem fractionHundredths_lt (h : ∀ c ∈ fraction, Duration.isDigit c = true) :
    fractionHundredths fraction < 100 := by
  have hdigits : ∀ c ∈ fraction.take 2, Duration.isDigit c = true :=
    fun c hc => h c (List.mem_of_mem_take hc)
  have hlt := (number_lt hdigits).1
  unfold fractionHundredths
  rw [List.length_take] at hlt
  have hexp : min 2 fraction.length + (2 - fraction.length) = 2 := by omega
  calc _ < 10 ^ min 2 fraction.length * 10 ^ (2 - fraction.length) :=
        Nat.mul_lt_mul_of_pos_right hlt (by positivity)
    _ = 100 := by rw [← pow_add, hexp]; norm_num

/-- The loop takes a digit. -/
theorem leadingFraction_cons {c : Char} {cs : List Char} {f scale : ℕ}
    (hc : Duration.isDigit c = true) (hf : f < 100) :
    Duration.leadingFraction f scale false (c :: cs) =
      Duration.leadingFraction (f * 10 + Duration.digitValue c) (scale * 10) false cs := by
  have hdigit := (digitValue_lt hc).1
  have hlimit : ¬ (Duration.limit - 1) / 10 < f := by
    have : 100 ≤ (Duration.limit - 1) / 10 := by decide
    omega
  have hlimit' : ¬ Duration.limit < f * 10 + Duration.digitValue c := by
    have : 1100 ≤ Duration.limit := by decide
    omega
  rw [Duration.leadingFraction, if_pos hc, if_neg (by decide), if_neg hlimit, if_neg hlimit']

/-- Zeros do not change the fraction, taken or not. -/
theorem leadingFraction_zeros {cs : List Char} (h : ∀ c ∈ cs, c = '0') {f scale : ℕ}
    (hscale : 0 < scale) (beyond : Bool) :
    (Duration.leadingFraction f scale beyond cs).1 * scale =
        f * (Duration.leadingFraction f scale beyond cs).2.1 ∧
      0 < (Duration.leadingFraction f scale beyond cs).2.1 := by
  induction cs generalizing f scale beyond with
  | nil => exact ⟨rfl, hscale⟩
  | cons c cs ih =>
      obtain rfl := h c List.mem_cons_self
      have ih' := fun {f scale : ℕ} (hscale : 0 < scale) (beyond : Bool) =>
        ih (fun c hc => h c (List.mem_cons_of_mem _ hc)) (f := f) hscale beyond
      rw [Duration.leadingFraction, if_pos (by decide)]
      split
      · exact ih' hscale true
      split
      · exact ih' hscale true
      split
      · exact ih' hscale true
      · obtain ⟨heq, hpos⟩ := @ih' (f * 10 + Duration.digitValue '0') (scale * 10)
          (Nat.mul_pos hscale (by norm_num)) false
        refine ⟨?_, hpos⟩
        have hdigit : Duration.digitValue '0' = 0 := by decide
        rw [hdigit, Nat.add_zero] at heq ⊢
        refine Nat.eq_of_mul_eq_mul_right (show 0 < 10 by norm_num) ?_
        rw [Nat.mul_assoc, heq]
        ring

/-- What is read of a fraction of hundredths. -/
theorem leadingFraction_hundredths (hdigits : ∀ c ∈ fraction, Duration.isDigit c = true)
    (h : ∀ c ∈ fraction.drop 2, c = '0') :
    (Duration.leadingFraction 0 1 false fraction).1 * 100 =
        fractionHundredths fraction * (Duration.leadingFraction 0 1 false fraction).2.1 ∧
      0 < (Duration.leadingFraction 0 1 false fraction).2.1 := by
  rcases fraction with - | ⟨a, - | ⟨b, cs⟩⟩
  · decide
  · rw [leadingFraction_cons (hdigits a List.mem_cons_self) (by norm_num)]
    simp [Duration.leadingFraction, fractionHundredths, DurationTerm.number]
    omega
  · have ha := hdigits a List.mem_cons_self
    have hb := hdigits b (List.mem_cons_of_mem a List.mem_cons_self)
    have hlt := (digitValue_lt ha).1
    rw [leadingFraction_cons ha (by norm_num), leadingFraction_cons hb (by omega)]
    have hhundredths : fractionHundredths (a :: b :: cs) =
        (0 * 10 + Duration.digitValue a) * 10 + Duration.digitValue b := by
      simp [fractionHundredths, DurationTerm.number]
    rw [hhundredths]
    exact leadingFraction_zeros h (by norm_num) false

/-- The units of a delay. -/
def delayNanoseconds : List ℕ := [1000000000, 60000000000, 3600000000000]

theorem exists_unit (h : term.unit ∈ delayTokens) :
    ∃ unit ∈ delayNanoseconds, Duration.unitOf term.unit = some unit := by
  simp only [delayTokens, List.mem_cons, List.not_mem_nil, or_false] at h
  rcases h with h | h | h
  · exact ⟨1000000000, by decide, by rw [h]; rfl⟩
  · exact ⟨60000000000, by decide, by rw [h]; rfl⟩
  · exact ⟨3600000000000, by decide, by rw [h]; rfl⟩

theorem nanoseconds_eq (h : Duration.unitOf term.unit = some unit) :
    term.nanoseconds = DurationTerm.number term.whole 0 * unit +
      if 0 < (Duration.leadingFraction 0 1 false term.fraction).1 then
        Duration.scaleFraction (Duration.leadingFraction 0 1 false term.fraction).1 unit
          (Duration.leadingFraction 0 1 false term.fraction).2.1 else 0 := by
  rw [DurationTerm.nanoseconds, h]
  rfl

/-- Two digits at most are exact. -/
theorem nanoseconds_short (hunit : unit ∈ delayNanoseconds)
    (hterm : Duration.unitOf term.unit = some unit)
    (hdigits : ∀ c ∈ term.fraction, Duration.isDigit c = true) (h : term.fraction.length ≤ 2) :
    term.nanoseconds = hundredthsOf term.whole term.fraction * (unit / 100) := by
  -- for the three units and at most two digits the scaling is run
  have hexact : ∀ unit ∈ delayNanoseconds, unit / 100 * 100 = unit ∧
      (∀ r < 10, Duration.scaleFraction r unit 10 = r * 10 * (unit / 100)) ∧
        ∀ r < 100, Duration.scaleFraction r unit 100 = r * (unit / 100) := by decide +kernel
  obtain ⟨hdiv, hten, hhundred⟩ := hexact unit hunit
  have hwhole : DurationTerm.number term.whole 0 * unit =
      DurationTerm.number term.whole 0 * 100 * (unit / 100) := by
    rw [Nat.mul_assoc, Nat.mul_comm 100, hdiv]
  rw [nanoseconds_eq hterm, hundredthsOf_eq, Nat.add_mul, ← hwhole]
  refine congrArg (DurationTerm.number term.whole 0 * unit + ·) ?_
  rcases hfraction : term.fraction with - | ⟨a, - | ⟨b, - | ⟨c, cs⟩⟩⟩
  · simp [Duration.leadingFraction, fractionHundredths, DurationTerm.number]
  · rw [hfraction] at hdigits
    have ha := hdigits a List.mem_cons_self
    have hvalue : fractionHundredths [a] = Duration.digitValue a * 10 := by
      simp [fractionHundredths, DurationTerm.number]
    rw [leadingFraction_cons ha (by norm_num), hvalue]
    simp only [Duration.leadingFraction, Nat.zero_mul, Nat.zero_add, Nat.one_mul]
    split
    · exact hten _ (digitValue_lt ha).1
    · next hzero => rw [Nat.eq_zero_of_not_pos hzero, Nat.zero_mul]
  · rw [hfraction] at hdigits
    have ha := hdigits a List.mem_cons_self
    have hb := hdigits b (List.mem_cons_of_mem a List.mem_cons_self)
    have hlt := (digitValue_lt ha).1
    have hlt' := (digitValue_lt hb).1
    have hvalue : fractionHundredths [a, b] =
        Duration.digitValue a * 10 + Duration.digitValue b := by
      simp [fractionHundredths, DurationTerm.number]
    rw [leadingFraction_cons ha (by norm_num), leadingFraction_cons hb (by omega), hvalue]
    simp only [Duration.leadingFraction, Nat.zero_mul, Nat.zero_add, Nat.one_mul]
    split
    · exact hhundred _ (by omega)
    · next hzero => rw [Nat.eq_zero_of_not_pos hzero, Nat.zero_mul]
  · rw [hfraction] at h
    simp at h

/-- More digits lose two nanoseconds at most. -/
theorem le_nanoseconds (hunit : unit ∈ delayNanoseconds)
    (hterm : Duration.unitOf term.unit = some unit)
    (hdigits : ∀ c ∈ term.fraction, Duration.isDigit c = true)
    (h : ∀ c ∈ term.fraction.drop 2, c = '0') :
    hundredthsOf term.whole term.fraction * (unit / 100) ≤ term.nanoseconds + 2 := by
  have hunits : ∀ unit ∈ delayNanoseconds, unit / 100 * 100 = unit ∧ 0 < unit ∧
      unit ≤ 3600000000000 := by decide
  obtain ⟨hdiv, hpos, hsize⟩ := hunits unit hunit
  obtain ⟨hread, hscale⟩ := leadingFraction_hundredths hdigits h
  have hlt := fractionHundredths_lt hdigits
  have hwhole : DurationTerm.number term.whole 0 * unit =
      DurationTerm.number term.whole 0 * 100 * (unit / 100) := by
    rw [Nat.mul_assoc, Nat.mul_comm 100, hdiv]
  rw [nanoseconds_eq hterm, hundredthsOf_eq, Nat.add_mul, ← hwhole, Nat.add_assoc]
  refine Nat.add_le_add_left ?_ _
  -- only what is read of the fraction matters: its number and its scale
  generalize (Duration.leadingFraction 0 1 false term.fraction).1 = f at *
  generalize (Duration.leadingFraction 0 1 false term.fraction).2.1 = scale at *
  generalize fractionHundredths term.fraction = r at *
  split
  · next hf =>
    have hge := Duration.scaleFraction_ge hf.ne' hpos.ne' hscale
    have hscaleq : (0 : ℚ) < scale := by exact_mod_cast hscale
    -- without rounding the fraction is its hundredths
    have hexact : (f : ℚ) * unit / scale = r * (unit / 100 : ℕ) := by
      have hreadq : (f : ℚ) * 100 = r * scale := by exact_mod_cast hread
      have hdivq : ((unit / 100 : ℕ) : ℚ) * 100 = unit := by exact_mod_cast hdiv
      rw [div_eq_iff hscaleq.ne', ← hdivq]
      calc (f : ℚ) * ((unit / 100 : ℕ) * 100) = f * 100 * (unit / 100 : ℕ) := by ring
        _ = r * (unit / 100 : ℕ) * scale := by rw [hreadq]; ring
    have hsmall : (r : ℚ) * (unit / 100 : ℕ) ≤ 3600000000000 := by
      have hnat : r * (unit / 100) ≤ 100 * (unit / 100) := Nat.mul_le_mul_right _ hlt.le
      have : r * (unit / 100) ≤ 3600000000000 := by omega
      exact_mod_cast this
    -- rounding loses three parts in 2^52 and less than one, of an hour at most
    rw [hexact] at hge
    have hle : (r : ℚ) * (unit / 100 : ℕ) ≤ Duration.scaleFraction f unit scale + 2 := by
      norm_num at hge
      linarith
    exact_mod_cast hle
  · next hf =>
    obtain rfl := Nat.eq_zero_of_not_pos hf
    have hr : r = 0 := by
      rw [Nat.zero_mul] at hread
      exact (Nat.mul_eq_zero.mp hread.symm).resolve_right hscale.ne'
    rw [hr, Nat.zero_mul]
    exact Nat.zero_le _

end Nanoseconds

/-! ### Delays -/

section Delays

variable {duration : String} {terms : List DurationTerm} {term : DurationTerm}

/-- A delay is taken apart if it is a single number of one of the three units. -/
theorem delayTerm_eq (h : durationTerms duration = some terms) :
    (∃ term, terms = [term] ∧ term.unit ∈ delayTokens ∧ Matched term [] ∧
        duration = String.ofList term.text ∧ delayTerm duration = some term) ∨
      (¬ ∃ term, terms = [term] ∧ term.unit ∈ delayTokens) ∧ delayTerm duration = none := by
  obtain ⟨term, rest, others, hterm, rfl, hothers⟩ := exists_matchTerm h
  obtain ⟨htext, hmatched⟩ := matchTerm_eq hterm
  cases rest with
  | cons c rest =>
      refine Or.inr ⟨?_, ?_⟩
      · rintro ⟨term', heq, -⟩
        exact absurd (hothers.mp (List.cons.inj heq).2) (List.cons_ne_nil _ _)
      · rw [delayTerm, hterm]
  | nil =>
      obtain rfl := hothers.mpr rfl
      by_cases hunit : term.unit ∈ delayTokens
      · refine Or.inl ⟨term, rfl, hunit, hmatched, ?_, ?_⟩
        · rw [← String.ofList_toList (s := duration), htext, List.append_nil]
        · rw [delayTerm, hterm]
          exact if_pos (List.contains_iff_mem.mpr hunit)
      · refine Or.inr ⟨?_, ?_⟩
        · rintro ⟨term', heq, hunit'⟩
          rw [← (List.cons.inj heq).1] at hunit'
          exact hunit hunit'
        · rw [delayTerm, hterm]
          exact if_neg fun hmem => hunit (List.contains_iff_mem.mp hmem)

/-- Any other delay stays as it is. -/
theorem reopenedDelay_text (h : durationTerms duration = some terms)
    (hterm : delayTerm duration = none) : reopenedDelay duration = duration := by
  have htrim := trim_durationTerms h
  have hne : duration ≠ "" := by
    rintro rfl
    cases h
  have hparse : parseDelayDuration duration = (duration, .minutes) := by
    rw [parseDelayDuration, htrim, hterm]
  rw [reopenedDelay, hparse, formatDelayDuration, htrim, if_neg hne, toNumber_durationTerms h]

/-- What is accepted is not too large for a double of two digits. -/
theorem amountValue_lt (hmatched : Matched term []) {unit : ℕ} (hunit : unit ∈ delayNanoseconds)
    (hterm : Duration.unitOf term.unit = some unit) (h : term.nanoseconds < Duration.limit) :
    amountValue term.whole term.fraction < 2 ^ 34 := by
  have hunits : ∀ unit ∈ delayNanoseconds, 1000000000 ≤ unit := by decide
  have hle := hunits unit hunit
  rw [nanoseconds_eq hterm] at h
  have hwhole : DurationTerm.number term.whole 0 < 9223372037 := by
    by_contra hge
    have hmul := Nat.mul_le_mul (not_lt.mp hge) hle
    have hlimit : Duration.limit < 9223372037 * 1000000000 := by decide
    omega
  have hfraction := (number_lt hmatched.fraction).1
  have hpow : (0 : ℚ) < 10 ^ term.fraction.length := by positivity
  unfold amountValue
  rw [div_lt_iff₀ hpow, number_append]
  have hnat : DurationTerm.number term.whole 0 * 10 ^ term.fraction.length +
      DurationTerm.number term.fraction 0 < 9223372037 * 10 ^ term.fraction.length := by
    have := Nat.mul_le_mul_right (10 ^ term.fraction.length) (Nat.le_sub_one_of_lt hwhole)
    omega
  have hq : ((DurationTerm.number term.whole 0 * 10 ^ term.fraction.length +
      DurationTerm.number term.fraction 0 : ℕ) : ℚ) < 9223372037 * 10 ^ term.fraction.length := by
    exact_mod_cast hnat
  refine hq.trans (mul_lt_mul_of_pos_right (by norm_num) hpow)

theorem durationValue_eq (h : durationTerms duration = some terms) :
    durationValue duration = some (terms.map DurationTerm.value).sum := by
  have hne : duration ≠ "0" := by
    rintro rfl
    cases h
  rw [durationValue, if_neg hne, h]
  rfl

/-- What the text of hundredths with a unit denotes, and whether it is accepted. -/
theorem hundredthsText_unit {n : ℕ} (hn : n < 2 ^ 41) (hunit : term.unit ∈ delayTokens) {unit : ℕ}
    (hmem : unit ∈ delayNanoseconds) (hterm : Duration.unitOf term.unit = some unit) :
    durationValue (hundredthsText n ++ String.ofList term.unit) = some ((n : ℚ) / 100 * unit) ∧
      ((Duration.parse (hundredthsText n ++ String.ofList term.unit)).isSome ↔
        n * (unit / 100) < Duration.limit) := by
  obtain ⟨whole, fraction, hamount, hlength, htext, hvalue⟩ := numberString_hundredths hn
  have hunits : term.unit ∈ durationUnits := by
    have hall : ∀ unit ∈ delayTokens, unit ∈ durationUnits := by decide
    exact hall _ hunit
  -- the term that is read
  have hmatched : Matched ⟨whole, fraction, term.unit⟩ [] :=
    ⟨hamount.whole_ne, hamount.whole, hamount.fraction, hunits, nofun⟩
  have heq : hundredthsText n ++ String.ofList term.unit =
      String.ofList (DurationTerm.text ⟨whole, fraction, term.unit⟩) := by
    have hchars : (hundredthsText n).toList = amountText whole fraction := htext
    rw [← String.ofList_toList (s := hundredthsText n), hchars, ← String.ofList_append]
    rfl
  have hterms := durationTerms_text hmatched
  rw [heq]
  constructor
  · rw [durationValue_eq hterms]
    show some ((DurationTerm.value ⟨whole, fraction, term.unit⟩) + 0) = _
    rw [add_zero, DurationTerm.value, hvalue]
    dsimp only
    rw [hterm]
    rfl
  · have hnanos : DurationTerm.nanoseconds ⟨whole, fraction, term.unit⟩ =
        n * (unit / 100) := by
      have hshort : DurationTerm.nanoseconds ⟨whole, fraction, term.unit⟩ =
          hundredthsOf whole fraction * (unit / 100) :=
        nanoseconds_short hmem hterm hamount.fraction hlength
      have hdrop : ∀ c ∈ fraction.drop 2, c = '0' := by
        rw [List.drop_eq_nil_of_le hlength]
        nofun
      have hcount : hundredthsOf whole fraction = n := by
        have hexact : amountValue whole fraction = hundredthsOf whole fraction / 100 :=
          amountValue_eq hdrop
        have hq := hexact.symm.trans hvalue
        rw [div_left_inj' (by norm_num)] at hq
        exact_mod_cast hq
      rw [← hcount, ← hshort]
    rw [parse_durationTerms hterms, fits_singleton, hnanos]

/-- A number of hundredths is accepted without its fraction being rounded. -/
theorem lt_limit {n unit : ℕ} (hunit : unit ∈ delayNanoseconds)
    (h : n * (unit / 100) ≤ Duration.limit + 1) : n * (unit / 100) < Duration.limit := by
  have hlimit : Duration.limit = 9223372036854775808 := by decide
  rw [hlimit] at h ⊢
  simp only [delayNanoseconds, List.mem_cons, List.not_mem_nil, or_false] at hunit
  rcases hunit with rfl | rfl | rfl
  · norm_num at h ⊢
    omega
  · norm_num at h ⊢
    omega
  · norm_num at h ⊢
    omega

/-- **A delay is kept exactly if** it is not a single number of seconds, minutes or hours, or the
number has no more than two digits after the point but zeros. -/
theorem delayKept_iff (h : durationTerms duration = some terms)
    (hparse : (Duration.parse duration).isSome) :
    DelayKept duration ↔ ∀ term, terms = [term] → term.unit ∈ delayTokens →
      ∀ c ∈ term.fraction.drop 2, c = '0' := by
  rcases delayTerm_eq h with ⟨term, rfl, hunit, hmatched, -, hterm⟩ | ⟨hno, hterm⟩
  · have htrim := trim_durationTerms h
    obtain ⟨unit, hmem, hunitOf⟩ := exists_unit hunit
    have hpos : 0 < unit := by
      have hall : ∀ unit ∈ delayNanoseconds, 0 < unit := by decide
      exact hall unit hmem
    have hlimit := fits_singleton.mp ((parse_durationTerms h).mp hparse)
    have hlt := amountValue_lt hmatched hmem hunitOf hlimit
    have hamount : IsAmount term.whole term.fraction :=
      ⟨hmatched.whole_ne, hmatched.whole, hmatched.fraction⟩
    obtain ⟨n, hn, hround, hreopened⟩ := reopenedDelay_term (htrim.symm ▸ hterm) hamount hlt
    have hvalue : durationValue duration =
        some (amountValue term.whole term.fraction * unit) := by
      rw [durationValue_eq h]
      show some (DurationTerm.value term + 0) = _
      rw [add_zero, DurationTerm.value, hunitOf]
      rfl
    -- what is put together denotes the hundredths
    have hreopened' : durationValue (reopenedDelay duration) = some ((n : ℚ) / 100 * unit) := by
      rw [hreopened]
      split
      · next hzero =>
        rw [hzero]
        simp [durationValue]
      · exact (hundredthsText_unit hn hunit hmem hunitOf).1
    have hsame : durationValue (reopenedDelay duration) = durationValue duration ↔
        amountValue term.whole term.fraction = n / 100 := by
      rw [hreopened', hvalue, Option.some_inj,
        mul_left_inj' (show (unit : ℚ) ≠ 0 by exact_mod_cast hpos.ne')]
      exact eq_comm
    constructor
    · intro hkept term' heq _
      obtain rfl := (List.cons.inj heq).1
      exact (exists_hundredths_iff hmatched.fraction).mp ⟨n, hsame.mp hkept.value⟩
    · intro hcond
      have hzeros := hcond term rfl hunit
      have hexact : amountValue term.whole term.fraction =
          hundredthsOf term.whole term.fraction / 100 := amountValue_eq hzeros
      have hcount : hundredthsOf term.whole term.fraction = n := by
        have hsmall : hundredthsOf term.whole term.fraction < 2 ^ 41 := by
          rw [hexact, div_lt_iff₀ (by norm_num)] at hlt
          have hnat : hundredthsOf term.whole term.fraction < 2 ^ 34 * 100 := by exact_mod_cast hlt
          omega
        rw [hexact, hundredths_double hsmall] at hround
        exact_mod_cast hround
      refine ⟨?_, hsame.mpr (hcount ▸ hexact)⟩
      rw [hreopened]
      split
      · rfl
      · refine (hundredthsText_unit hn hunit hmem hunitOf).2.mpr (lt_limit hmem ?_)
        have hle := le_nanoseconds hmem hunitOf hmatched.fraction hzeros
        rw [hcount] at hle
        omega
  · refine iff_of_true ?_ fun term heq hunit => absurd ⟨term, heq, hunit⟩ hno
    have hsame := reopenedDelay_text h hterm
    exact ⟨by rw [hsame]; exact hparse, congrArg durationValue hsame⟩

end Delays

/-- Half a day is kept. -/
theorem delayKept_iff_hours : DelayKept "12.50h" :=
  (@delayKept_iff "12.50h" [⟨['1', '2'], ['5', '0'], ['h']⟩] (by decide)
    (by decide)).mpr fun term heq _ => by
      rw [← (List.cons.inj heq).1]
      exact List.forall_mem_nil _

/-- A millisecond that is written as a part of a second is lost. -/
theorem not_delayKept :
    (durationTerms "0.001s").isSome ∧ (Duration.parse "0.001s").isSome ∧
      ¬ DelayKept "0.001s" := by
  refine ⟨by decide, by decide, fun h => ?_⟩
  have hreopened : reopenedDelay "0.001s" = "0" := by decide +kernel
  have hvalue := h.value
  rw [hreopened] at hvalue
  exact absurd hvalue (by decide +kernel)

end Iwifunni.Web
