/- Foundation/Float64
   digest: Rational numbers rounded to double precision, and which of them become zero. -/

import Mathlib.Data.Int.Log
import Mathlib.Data.Rat.Floor
import Mathlib.Tactic.Linarith
import Mathlib.Tactic.NormNum
import Mathlib.Tactic.Positivity

set_option autoImplicit false
set_option relaxedAutoImplicit false

namespace L3Firewall.Foundation.Float64

def roundEven (x : ℚ) : ℤ :=
  if x - ⌊x⌋ < 1 / 2 then ⌊x⌋
  else if 1 / 2 < x - ⌊x⌋ then ⌊x⌋ + 1
  else if ⌊x⌋ % 2 = 0 then ⌊x⌋
  else ⌊x⌋ + 1

/-- The distance of neighbouring doubles around a number. All subnormal ones have the same. -/
def ulp (q : ℚ) : ℚ := 2 ^ (max (Int.log 2 |q|) (-1022) - 52)

def nearest (q : ℚ) : ℚ := roundEven (q / ulp q) * ulp q

/-- The double for a number; an error when it is out of range. -/
def ParseFloat (q : ℚ) : Option ℚ := if |nearest q| < 2 ^ 1024 then some (nearest q) else none

private theorem roundEven_error (x : ℚ) : |(roundEven x : ℚ) - x| ≤ 1 / 2 := by
  have below := Int.floor_le x
  have above := Int.lt_floor_add_one x
  unfold roundEven
  rw [abs_le]
  split_ifs <;> push_cast <;> constructor <;> linarith

private theorem roundEven_eq_zero_iff (x : ℚ) : roundEven x = 0 ↔ |x| ≤ 1 / 2 := by
  constructor
  · intro zero
    have error := roundEven_error x
    rw [zero, Int.cast_zero, zero_sub, abs_neg] at error
    exact error
  · intro small
    obtain ⟨lower, upper⟩ := abs_le.mp small
    unfold roundEven
    rcases lt_or_ge x 0 with negative | nonneg
    · have floor : ⌊x⌋ = -1 := Int.floor_eq_iff.mpr ⟨by push_cast; linarith, by push_cast; linarith⟩
      rw [floor, if_neg (by push_cast; linarith)]
      split
      · rfl
      · rfl
    · have floor : ⌊x⌋ = 0 := Int.floor_eq_iff.mpr ⟨by push_cast; linarith, by push_cast; linarith⟩
      rw [floor]
      split
      · rfl
      · rw [if_neg (by push_cast; linarith)]
        rfl

private theorem ulp_pos (q : ℚ) : 0 < ulp q := zpow_pos (by norm_num) _

private theorem nearest_eq_zero_iff_le_ulp (q : ℚ) : nearest q = 0 ↔ |q| ≤ ulp q / 2 := by
  rw [nearest, mul_eq_zero, or_iff_left (ulp_pos q).ne', Int.cast_eq_zero, roundEven_eq_zero_iff,
    abs_div, abs_of_pos (ulp_pos q), div_le_iff₀ (ulp_pos q), one_div_mul_eq_div]

private theorem nearest_eq_zero_iff (q : ℚ) : nearest q = 0 ↔ |q| ≤ 2 ^ (-1075 : ℤ) := by
  have half (n : ℤ) : (2 : ℚ) ^ n / 2 = 2 ^ (n - 1) := (zpow_sub_one₀ two_ne_zero n).symm
  rw [nearest_eq_zero_iff_le_ulp, ulp, half]
  rcases le_or_gt (Int.log 2 |q|) (-1022) with subnormal | normal
  · rw [max_eq_right subnormal]
    norm_num
  · rcases eq_or_ne q 0 with rfl | moved
    · have within (n : ℤ) : |(0 : ℚ)| ≤ 2 ^ n := abs_zero.trans_le (zpow_nonneg (by norm_num) n)
      exact iff_of_true (within _) (within _)
    · have size := Int.zpow_log_le_self (b := 2) (by norm_num) (abs_pos.mpr moved)
      have larger {n : ℤ} (smaller : n < Int.log 2 |q|) : ¬ |q| ≤ 2 ^ n :=
        not_le.mpr ((zpow_lt_zpow_right₀ (by norm_num) smaller).trans_le (by exact_mod_cast size))
      exact iff_of_false (larger (by omega)) (larger (by omega))

theorem ParseFloat_of_small {q : ℚ} (small : |q| ≤ 2 ^ (-1075 : ℤ)) : ParseFloat q = some 0 := by
  have zero := (nearest_eq_zero_iff q).mpr small
  rw [ParseFloat, zero, abs_zero, if_pos (by positivity)]

theorem ParseFloat_ne_zero {q r : ℚ} (parsed : ParseFloat q = some r)
    (large : 2 ^ (-1075 : ℤ) < |q|) : r ≠ 0 := by
  unfold ParseFloat at parsed
  split at parsed
  · rw [← Option.some.inj parsed, Ne, nearest_eq_zero_iff]
    exact not_le.mpr large
  · exact absurd parsed (by simp)

end L3Firewall.Foundation.Float64
