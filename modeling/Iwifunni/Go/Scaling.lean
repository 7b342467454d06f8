/-
Iwifunni/Go/Scaling.lean

What `time.ParseDuration` loses of a fraction.

The fraction of a number is scaled to nanoseconds in `float64`.  A rounded number of 53 bits is
not less than its value by more than one in 2^52 (`roundFloat_ge`), so that of a fraction of an
hour less than two nanoseconds are lost (`scaleFraction_ge`).  Fractions of two digits are exact.
-/
import Iwifunni.Go.Duration
import Mathlib.Data.Rat.Floor
import Mathlib.Tactic.FieldSimp
import Mathlib.Tactic.Linarith
import Mathlib.Tactic.Ring

namespace Iwifunni.Go.Duration

/-! ### Rounding down -/

/-- The value of a fraction. -/
def Frac.value (x : Frac) : ℚ := x.1 / x.2

theorem le_roundHalfEven (num den : ℕ) : num / den ≤ roundHalfEven num den := by
  unfold roundHalfEven
  dsimp only
  split <;> omega

/-- Rounding loses less than one. -/
theorem roundHalfEven_ge {num den : ℕ} (hden : 0 < den) :
    (num : ℚ) / den - 1 ≤ roundHalfEven num den := by
  have hlt : num < den * (roundHalfEven num den + 1) := by
    calc num < den * (num / den + 1) := Nat.lt_mul_div_succ num hden
      _ ≤ _ := Nat.mul_le_mul_left _ (Nat.add_le_add_right (le_roundHalfEven num den) 1)
  have hdenq : (0 : ℚ) < den := by exact_mod_cast hden
  have hltq : (num : ℚ) < den * (roundHalfEven num den + 1) := by exact_mod_cast hlt
  rw [sub_le_iff_le_add, div_le_iff₀ hdenq]
  linarith

/-- The quotient that is rounded has 53 bits at least. -/
theorem le_quotient {a b : ℕ} (ha : a ≠ 0) :
    2 ^ 52 * (b * 2 ^ (Nat.log2 a - (53 + Nat.log2 b))) ≤
      a * 2 ^ (53 + Nat.log2 b - Nat.log2 a) := by
  have halow : 2 ^ Nat.log2 a ≤ a := Nat.log2_self_le ha
  have hbhigh : b < 2 ^ (Nat.log2 b + 1) := Nat.lt_log2_self
  rcases le_total (Nat.log2 a) (53 + Nat.log2 b) with hle | hle
  · have hzero : Nat.log2 a - (53 + Nat.log2 b) = 0 := by omega
    rw [hzero, pow_zero, Nat.mul_one]
    calc 2 ^ 52 * b ≤ 2 ^ 52 * 2 ^ (Nat.log2 b + 1) := Nat.mul_le_mul_left _ hbhigh.le
      _ = 2 ^ Nat.log2 a * 2 ^ (53 + Nat.log2 b - Nat.log2 a) := by
          rw [← pow_add, ← pow_add]
          congr 1
          omega
      _ ≤ _ := Nat.mul_le_mul_right _ halow
  · have hzero : 53 + Nat.log2 b - Nat.log2 a = 0 := by omega
    rw [hzero, pow_zero, Nat.mul_one]
    calc 2 ^ 52 * (b * 2 ^ (Nat.log2 a - (53 + Nat.log2 b)))
        ≤ 2 ^ 52 * (2 ^ (Nat.log2 b + 1) * 2 ^ (Nat.log2 a - (53 + Nat.log2 b))) :=
          Nat.mul_le_mul_left _ (Nat.mul_le_mul_right _ hbhigh.le)
      _ = 2 ^ Nat.log2 a := by
          rw [← pow_add, ← pow_add]
          congr 1
          omega
      _ ≤ a := halow

/-- A quotient of 53 bits loses one in 2^52 at most. -/
theorem roundHalfEven_ge_mul {num den : ℕ} (hden : 0 < den) (h : 2 ^ 52 * den ≤ num) :
    (num : ℚ) / den * (1 - 1 / 2 ^ 52) ≤ roundHalfEven num den := by
  have hdenq : (0 : ℚ) < den := by exact_mod_cast hden
  have hlarge : (2 : ℚ) ^ 52 ≤ num / den := by
    rw [le_div_iff₀ hdenq]
    exact_mod_cast h
  have hround := @roundHalfEven_ge num den hden
  linarith

/-- **A rounded number is not less than its value by more than one in 2^52.** -/
theorem roundFloat_ge {a b : ℕ} (ha : a ≠ 0) (hb : 0 < b) :
    (a : ℚ) / b * (1 - 1 / 2 ^ 52) ≤ Frac.value (roundFloat (a, b)) ∧
      0 < (roundFloat (a, b)).2 := by
  have hquotient := le_quotient (b := b) ha
  have hbq : (0 : ℚ) < b := by exact_mod_cast hb
  unfold roundFloat
  dsimp only
  generalize 53 + Nat.log2 b - Nat.log2 a = up at *
  generalize Nat.log2 a - (53 + Nat.log2 b) = down at *
  have hdown : 0 < b * 2 ^ down := by positivity
  split
  · refine ⟨?_, by positivity⟩
    have hround := roundHalfEven_ge_mul hdown hquotient
    have hsplit : (a : ℚ) / b * (1 - 1 / 2 ^ 52) =
        ((a * 2 ^ up : ℕ) : ℚ) / ((b * 2 ^ down : ℕ) : ℚ) * (1 - 1 / 2 ^ 52) *
          (2 ^ down / 2 ^ up) := by
      push_cast
      field_simp
    have hvalue : Frac.value (roundHalfEven (a * 2 ^ up) (b * 2 ^ down) * 2 ^ down, 2 ^ up) =
        roundHalfEven (a * 2 ^ up) (b * 2 ^ down) * (2 ^ down / 2 ^ up) := by
      unfold Frac.value
      push_cast
      ring
    rw [hsplit, hvalue]
    exact mul_le_mul_of_nonneg_right hround (by positivity)
  · next hlarge =>
    refine ⟨?_, by positivity⟩
    -- the quotient has 54 bits, so half of it has 53
    have hhalf : 2 ^ 52 * (2 * (b * 2 ^ down)) ≤ a * 2 ^ up := by
      have := (Nat.le_div_iff_mul_le hdown).mp (not_lt.mp hlarge)
      omega
    have hround := roundHalfEven_ge_mul (by positivity) hhalf
    have hsplit : (a : ℚ) / b * (1 - 1 / 2 ^ 52) =
        ((a * 2 ^ up : ℕ) : ℚ) / ((2 * (b * 2 ^ down) : ℕ) : ℚ) * (1 - 1 / 2 ^ 52) *
          (2 ^ (down + 1) / 2 ^ up) := by
      push_cast
      field_simp
      ring
    have hvalue : Frac.value (roundHalfEven (a * 2 ^ up) (2 * (b * 2 ^ down)) * 2 ^ (down + 1),
        2 ^ up) = roundHalfEven (a * 2 ^ up) (2 * (b * 2 ^ down)) * (2 ^ (down + 1) / 2 ^ up) := by
      unfold Frac.value
      push_cast
      ring
    rw [hsplit, hvalue]
    exact mul_le_mul_of_nonneg_right hround (by positivity)

/-- Rounding does not lose a number that is not zero. -/
theorem roundFloat_pos {a b : ℕ} (ha : a ≠ 0) (hb : 0 < b) :
    (roundFloat (a, b)).1 ≠ 0 := by
  intro hzero
  have hge := (roundFloat_ge ha hb).1
  have hpos : (0 : ℚ) < a / b := by
    have : (0 : ℚ) < a := by exact_mod_cast Nat.pos_of_ne_zero ha
    positivity
  have hvalue : Frac.value (roundFloat (a, b)) = 0 := by
    rw [Frac.value, hzero, Nat.cast_zero, zero_div]
  rw [hvalue] at hge
  norm_num at hge
  linarith

/-- Of the product of two numbers three are lost in 2^52, and what is less than one. -/
theorem scaleFraction_ge {f unit scale : ℕ} (hf : f ≠ 0) (hunit : unit ≠ 0) (hscale : 0 < scale) :
    (f : ℚ) * unit / scale * (1 - 3 / 2 ^ 52) - 1 ≤ scaleFraction f unit scale := by
  unfold scaleFraction
  dsimp only
  -- two roundings of the factors, one of the product, and the floor
  obtain ⟨hratio, hratio'⟩ := roundFloat_ge hunit hscale
  obtain ⟨hg, hg'⟩ := roundFloat_ge hf Nat.one_pos
  have hratio₀ := roundFloat_pos hunit hscale
  have hg₀ := roundFloat_pos hf Nat.one_pos
  obtain ⟨hproduct, hproduct'⟩ := roundFloat_ge (Nat.mul_ne_zero hg₀ hratio₀)
    (Nat.mul_pos hg' hratio')
  generalize roundFloat (unit, scale) = ratio at *
  generalize roundFloat (f, 1) = g at *
  generalize roundFloat (g.1 * ratio.1, g.2 * ratio.2) = product at *
  have hfloor : Frac.value product - 1 ≤ ((product.1 / product.2 : ℕ) : ℚ) := by
    have hlt := Nat.lt_mul_div_succ product.1 hproduct'
    have hltq : (product.1 : ℚ) < product.2 * ((product.1 / product.2 : ℕ) + 1) := by
      exact_mod_cast hlt
    have hden : (0 : ℚ) < product.2 := by exact_mod_cast hproduct'
    rw [Frac.value, sub_le_iff_le_add, div_le_iff₀ hden]
    linarith
  have hsplit : ((g.1 * ratio.1 : ℕ) : ℚ) / ((g.2 * ratio.2 : ℕ) : ℚ) =
      Frac.value g * Frac.value ratio := by
    unfold Frac.value
    push_cast
    rw [mul_div_mul_comm]
  rw [hsplit] at hproduct
  rw [Nat.cast_one, div_one] at hg
  have hfactors : (f : ℚ) * (1 - 1 / 2 ^ 52) * ((unit : ℚ) / scale * (1 - 1 / 2 ^ 52)) ≤
      Frac.value g * Frac.value ratio :=
    mul_le_mul hg hratio (mul_nonneg (by positivity) (by norm_num)) (by
      unfold Frac.value
      positivity)
  have hexact : (f : ℚ) * unit / scale * (1 - 3 / 2 ^ 52) ≤
      f * (1 - 1 / 2 ^ 52) * ((unit : ℚ) / scale * (1 - 1 / 2 ^ 52)) * (1 - 1 / 2 ^ 52) := by
    have hcube : (1 : ℚ) - 3 / 2 ^ 52 ≤ (1 - 1 / 2 ^ 52) * (1 - 1 / 2 ^ 52) * (1 - 1 / 2 ^ 52) := by
      norm_num
    calc (f : ℚ) * unit / scale * (1 - 3 / 2 ^ 52)
        ≤ f * unit / scale * ((1 - 1 / 2 ^ 52) * (1 - 1 / 2 ^ 52) * (1 - 1 / 2 ^ 52)) :=
          mul_le_mul_of_nonneg_left hcube (by positivity)
      _ = _ := by ring
  have hrounded := mul_le_mul_of_nonneg_right hfactors (show (0 : ℚ) ≤ 1 - 1 / 2 ^ 52 by norm_num)
  linarith

end Iwifunni.Go.Duration
