/-
Iwifunni/Number/Double.lean

Numbers of double precision, as rationals.

A rational is rounded to a multiple of a power of two, the one that leaves 53 bits or the
least there is (`double`).  A double is printed by the shortest decimal that is rounded to it
(`shortest`).  Decimals of two places are further apart than doubles of their size, as long as
they are not too large, so that they are printed back (`exists_shortest_hundredths`).
-/
import Mathlib.Algebra.Order.Round
import Mathlib.Data.Int.Log
import Mathlib.Data.Rat.Floor
import Mathlib.Tactic.FieldSimp
import Mathlib.Tactic.Linarith
import Mathlib.Tactic.Ring

namespace Double

/-! ### Rounding -/

/-- The nearest integer, and the even one of two. -/
def roundEven (x : ℚ) : ℤ :=
  if x - ⌊x⌋ < 1 / 2 ∨ x - ⌊x⌋ = 1 / 2 ∧ ⌊x⌋ % 2 = 0 then ⌊x⌋ else ⌊x⌋ + 1

/-- Rounding moves a number by a half at most. -/
theorem abs_roundEven_sub_le (x : ℚ) : |(roundEven x : ℚ) - x| ≤ 1 / 2 := by
  have hlow := Int.floor_le x
  have hhigh := Int.lt_floor_add_one x
  unfold roundEven
  rw [abs_le]
  split
  · next h =>
    have hhalf : x - ⌊x⌋ ≤ 1 / 2 := h.elim le_of_lt fun h => h.1.le
    constructor <;> linarith
  · next h =>
    have hhalf : 1 / 2 ≤ x - ⌊x⌋ := not_lt.mp fun hlt => h (Or.inl hlt)
    push_cast
    constructor <;> linarith

@[simp] theorem roundEven_intCast (n : ℤ) : roundEven n = n := by
  simp [roundEven]

/-- The exponent of the last bit. -/
def lastBit (x : ℚ) : ℤ := max (Int.log 2 |x| - 52) (-1074)

/-- The double nearest to a rational. -/
def double (x : ℚ) : ℚ := roundEven (x / 2 ^ lastBit x) * 2 ^ lastBit x

theorem abs_double_sub_le (x : ℚ) : |double x - x| ≤ 2 ^ lastBit x / 2 := by
  have hpos : (0 : ℚ) < 2 ^ lastBit x := zpow_pos (by norm_num) _
  have hround := abs_roundEven_sub_le (x / 2 ^ lastBit x)
  have hsplit : double x - x = (roundEven (x / 2 ^ lastBit x) - x / 2 ^ lastBit x) *
      2 ^ lastBit x := by
    rw [double, sub_mul, div_mul_cancel₀ _ hpos.ne']
  rw [hsplit, abs_mul, abs_of_pos hpos]
  calc _ ≤ 1 / 2 * 2 ^ lastBit x := mul_le_mul_of_nonneg_right hround hpos.le
    _ = _ := by ring

theorem lastBit_le {x : ℚ} {k : ℤ} (hk : 1 ≤ k) (h : |x| < 2 ^ k) : lastBit x ≤ k - 53 := by
  unfold lastBit
  refine max_le ?_ (by omega)
  rcases eq_or_ne x 0 with rfl | hx
  · rw [abs_zero, Int.log_zero_right]
    omega
  · have h' : |x| < ((2 : ℕ) : ℚ) ^ k := by exact_mod_cast h
    have hlog := (Int.lt_zpow_iff_log_lt (by norm_num) (abs_pos.mpr hx)).mp h'
    omega

/-- The error of a rational that is not too large. -/
theorem abs_double_sub_le_of_lt {x : ℚ} {k : ℤ} (hk : 1 ≤ k) (h : |x| < 2 ^ k) :
    |double x - x| ≤ 2 ^ (k - 53) / 2 := by
  refine (abs_double_sub_le x).trans ?_
  have hmono : (2 : ℚ) ^ lastBit x ≤ 2 ^ (k - 53) :=
    zpow_le_zpow_right₀ (by norm_num) (lastBit_le hk h)
  linarith

/-- Integers of 53 bits are doubles. -/
theorem double_intCast {n : ℤ} (h : |n| < 2 ^ 53) : double n = n := by
  have hlast : lastBit (n : ℚ) ≤ 0 := lastBit_le (k := 53) (by norm_num) (by exact_mod_cast h)
  obtain ⟨m, hm⟩ := Int.eq_ofNat_of_zero_le (neg_nonneg.mpr hlast)
  have hlast' : lastBit (n : ℚ) = -(m : ℤ) := by omega
  have hscaled : (n : ℚ) / 2 ^ lastBit (n : ℚ) = ((n * 2 ^ m : ℤ) : ℚ) := by
    rw [hlast', zpow_neg, div_inv_eq_mul, zpow_natCast]
    push_cast
    rfl
  rw [double, hscaled, roundEven_intCast, hlast', zpow_neg, zpow_natCast]
  push_cast
  rw [mul_assoc, mul_inv_cancel₀ (by positivity), mul_one]

theorem double_zero : double 0 = 0 := by
  have h := double_intCast (n := 0) (by norm_num)
  exact_mod_cast h

/-! ### Printing -/

/-- The two decimals next to a number, the nearer one first. -/
def candidates (x : ℚ) (e : ℤ) : List ℤ :=
  let q := x / 10 ^ e
  if q - ⌊q⌋ ≤ ⌈q⌉ - q then [⌊q⌋, ⌈q⌉] else [⌈q⌉, ⌊q⌋]

/-- The first decimal that is rounded to a number, from a last digit on. -/
def shortestFrom (x : ℚ) : ℕ → ℤ → Option (ℤ × ℤ)
  | 0, _ => none
  | fuel + 1, e =>
      match (candidates x e).find? fun (s : ℤ) => double (s * 10 ^ e) = x with
      | some s => some (s, e)
      | none => shortestFrom x fuel (e - 1)

/-- The decimal of least digits that is rounded to a number.  There are at most 17, and one
digit may come before those of the number, as in `10` for a number next to it. -/
def shortest (x : ℚ) : Option (ℤ × ℤ) := shortestFrom x 19 (Int.log 10 x + 1)

theorem mem_candidates_iff {x : ℚ} {e s : ℤ} :
    s ∈ candidates x e ↔ s = ⌊x / 10 ^ e⌋ ∨ s = ⌈x / 10 ^ e⌉ := by
  unfold candidates
  dsimp only
  split
  · simp
  · simp [or_comm]

/-- A candidate is not further away than the last digit. -/
theorem abs_sub_le_of_mem_candidates {x : ℚ} {e s : ℤ} (h : s ∈ candidates x e) :
    |s * 10 ^ e - x| ≤ 10 ^ e := by
  have hpos : (0 : ℚ) < 10 ^ e := zpow_pos (by norm_num) _
  have hnear : |(s : ℚ) - x / 10 ^ e| ≤ 1 := by
    rw [abs_le]
    rcases mem_candidates_iff.mp h with rfl | rfl
    · have hlow := Int.floor_le (x / 10 ^ e)
      have hhigh := Int.lt_floor_add_one (x / 10 ^ e)
      constructor <;> linarith
    · have hlow := Int.le_ceil (x / 10 ^ e)
      have hhigh := Int.ceil_lt_add_one (x / 10 ^ e)
      constructor <;> linarith
  have hsplit : s * 10 ^ e - x = (s - x / 10 ^ e) * 10 ^ e := by
    rw [sub_mul, div_mul_cancel₀ _ hpos.ne']
  rw [hsplit, abs_mul, abs_of_pos hpos]
  exact mul_le_of_le_one_left hpos.le hnear

/-- An integer that is nearer than one is a candidate. -/
theorem mem_candidates {x : ℚ} {e s : ℤ} (h : |x / 10 ^ e - s| < 1) : s ∈ candidates x e := by
  obtain ⟨hlow, hhigh⟩ := abs_lt.mp h
  rw [mem_candidates_iff]
  rcases le_total (s : ℚ) (x / 10 ^ e) with hle | hle
  · left
    exact (Int.floor_eq_iff.mpr ⟨hle, by linarith⟩).symm
  · right
    exact (Int.ceil_eq_iff.mpr ⟨by linarith, hle⟩).symm

/-- If some decimal is rounded to a number, one that is not longer is found. -/
theorem exists_shortestFrom {x : ℚ} {m e₀ : ℤ} (hdouble : double (m * 10 ^ e₀) = x)
    (hnear : |x / 10 ^ e₀ - m| < 1) {fuel : ℕ} {e : ℤ} (hlow : e₀ ≤ e) (hhigh : e < e₀ + fuel) :
    ∃ s e', shortestFrom x fuel e = some (s, e') ∧ e₀ ≤ e' ∧ e' ≤ e ∧ s ∈ candidates x e' ∧
      double (s * 10 ^ e') = x := by
  induction fuel generalizing e with
  | zero => omega
  | succ fuel ih =>
      rcases hfind : (candidates x e).find? (fun (s : ℤ) => double (s * 10 ^ e) = x) with - | s
      · have hne : e ≠ e₀ := by
          rintro rfl
          refine List.find?_eq_none.mp hfind m (mem_candidates hnear) ?_
          simpa using hdouble
        obtain ⟨s, e', hfound, hlow', hhigh', hmem, hs⟩ := ih (e := e - 1) (by omega) (by omega)
        refine ⟨s, e', ?_, hlow', by omega, hmem, hs⟩
        rw [shortestFrom, hfind]
        exact hfound
      · refine ⟨s, e, ?_, hlow, le_rfl, List.mem_of_find?_eq_some hfind, ?_⟩
        · rw [shortestFrom, hfind]
        · simpa using List.find?_some hfind

/-! ### Hundredths -/

/-- Hundredths of this size are less than the bounds of the errors. -/
theorem hundredths_lt {n : ℕ} (h : n < 2 ^ 41) : |(n : ℚ) / 100| < 2 ^ (35 : ℤ) := by
  have hn : (n : ℚ) < 2199023255552 := by exact_mod_cast h
  rw [abs_of_nonneg (by positivity)]
  norm_num
  linarith

theorem abs_double_hundredths_sub_le {n : ℕ} (h : n < 2 ^ 41) :
    |double (n / 100) - n / 100| ≤ 1 / 2 ^ 19 := by
  refine (abs_double_sub_le_of_lt (by norm_num) (hundredths_lt h)).trans (le_of_eq ?_)
  norm_num

theorem double_hundredths_pos {n : ℕ} (hn : n ≠ 0) (h : n < 2 ^ 41) :
    1 / 1000 ≤ double ((n : ℚ) / 100) := by
  have herror := (abs_le.mp (abs_double_hundredths_sub_le h)).1
  have hone : (1 : ℚ) ≤ n := by exact_mod_cast Nat.one_le_iff_ne_zero.mpr hn
  norm_num at herror
  linarith

/-- **Hundredths are printed back.** -/
theorem exists_shortest_hundredths {n : ℕ} (hn : n ≠ 0) (h : n < 2 ^ 41) :
    ∃ s e : ℤ, shortest (double ((n : ℚ) / 100)) = some (s, e) ∧ -2 ≤ e ∧
      (s : ℚ) * 10 ^ e = n / 100 := by
  have herror := abs_double_hundredths_sub_le h
  have hlow := double_hundredths_pos hn h
  have hhigh := hundredths_lt h
  rw [abs_of_nonneg (by positivity)] at hhigh
  set x := double ((n : ℚ) / 100) with hx
  have hpos : 0 < x := by linarith
  have hlog : -3 ≤ Int.log 10 x := by
    refine (Int.zpow_le_iff_le_log (by norm_num) hpos).mp ?_
    norm_num
    linarith
  have hlog' : Int.log 10 x < 11 := by
    refine (Int.lt_zpow_iff_log_lt (by norm_num) hpos).mp ?_
    have := (abs_le.mp herror).2
    norm_num at hhigh this ⊢
    linarith
  have hhundredth : ((n : ℤ) : ℚ) * 10 ^ (-2 : ℤ) = n / 100 := by
    norm_num
    ring
  have hnear : |x / 10 ^ (-2 : ℤ) - (n : ℤ)| < 1 := by
    have hsplit : x / 10 ^ (-2 : ℤ) - (n : ℤ) = (x - n / 100) * 100 := by
      norm_num
      ring
    rw [hsplit, abs_mul, abs_of_pos (by norm_num : (0 : ℚ) < 100)]
    norm_num at herror
    linarith
  obtain ⟨s, e, hfound, he, he', hmem, hs⟩ := @exists_shortestFrom x n (-2)
    (by rw [hhundredth]) hnear 19 (Int.log 10 x + 1) (by omega) (by omega)
  refine ⟨s, e, hfound, he, ?_⟩
  -- another decimal of two places is too far away to be rounded to the same double
  obtain ⟨k, hk⟩ := Int.eq_ofNat_of_zero_le (show 0 ≤ e + 2 by omega)
  have hplaces : (s : ℚ) * 10 ^ e = (s * 10 ^ k : ℤ) / 100 := by
    have he : e = (k : ℤ) - 2 := by omega
    rw [he, zpow_sub₀ (by norm_num), zpow_natCast]
    push_cast
    ring
  have hsize : |(s : ℚ) * 10 ^ e| < 2 ^ (39 : ℤ) := by
    have hstep := abs_sub_le_of_mem_candidates hmem
    have hten : (10 : ℚ) ^ e ≤ 10 * x := by
      calc (10 : ℚ) ^ e ≤ 10 ^ (Int.log 10 x + 1) := zpow_le_zpow_right₀ (by norm_num) he'
        _ = 10 ^ Int.log 10 x * 10 := zpow_add_one₀ (by norm_num) _
        _ ≤ 10 * x := by
            have hle := Int.zpow_log_le_self (b := 10) (by norm_num) hpos
            push_cast at hle
            linarith
    have hdist := abs_sub_abs_le_abs_sub ((s : ℚ) * 10 ^ e) x
    rw [abs_of_pos hpos] at hdist
    have hupper := (abs_le.mp herror).2
    have hbound : (2 : ℚ) ^ (39 : ℤ) = 549755813888 := by norm_num
    rw [hbound]
    norm_num at hhigh hupper
    linarith
  have herror' := abs_double_sub_le_of_lt (by norm_num) hsize
  rw [hs, hplaces] at herror'
  have hclose : |((s * 10 ^ k : ℤ) : ℚ) - (n : ℤ)| < 1 := by
    have htriangle := abs_sub_le (((s * 10 ^ k : ℤ) : ℚ) / 100) x (n / 100)
    rw [abs_sub_comm] at herror'
    have hsplit : ((s * 10 ^ k : ℤ) : ℚ) - (n : ℤ) =
        (((s * 10 ^ k : ℤ) : ℚ) / 100 - n / 100) * 100 := by
      rw [sub_mul, div_mul_cancel₀ _ (by norm_num), div_mul_cancel₀ _ (by norm_num)]
      rfl
    rw [hsplit, abs_mul, abs_of_pos (by norm_num : (0 : ℚ) < 100)]
    norm_num at herror herror' htriangle ⊢
    linarith
  have heq : s * 10 ^ k = n := by
    have hlt : |s * 10 ^ k - (n : ℤ)| < 1 := by exact_mod_cast hclose
    have := Int.abs_lt_one_iff.mp hlt
    omega
  rw [hplaces, heq, Int.cast_natCast]

end Double
