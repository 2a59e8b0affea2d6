import Mathlib.Data.Int.Log
import Mathlib.Data.Rat.Floor
import Mathlib.Tactic.NormNum.Basic
import Mathlib.Tactic.FieldSimp
import Mathlib.Tactic.Linarith

/-!
# Numbers of type float64

The results of `float64` operations, as the rational numbers they are: `Iscp.Go.float64` rounds a
number to 53 binary places, the nearest of which is taken, and of two that are equally near the
even one. This is what a `float64` keeps of a number whose magnitude is neither very large nor very
small, as integers and their quotients are.
-/

namespace Iscp

namespace Go

/-- **The nearest integer**, and of two the even one. -/
def roundToEven (x : ℚ) : ℤ :=
  if x - ⌊x⌋ < 1 / 2 then ⌊x⌋
  else if 1 / 2 < x - ⌊x⌋ then ⌊x⌋ + 1
  else ⌊x⌋ + ⌊x⌋ % 2

theorem roundToEven_intCast (n : ℤ) : roundToEven n = n := by
  rw [roundToEven, Int.floor_intCast, sub_self, if_pos (by norm_num)]

theorem floor_le_roundToEven (x : ℚ) : ⌊x⌋ ≤ roundToEven x := by
  rw [roundToEven]
  split_ifs <;> omega

/-- The place value of the last of 53 places. -/
def lastPlace (x : ℚ) : ℚ := 2 ^ (Int.log 2 |x| - 52)

/-- **What a `float64` keeps of a number.** -/
def float64 (x : ℚ) : ℚ := roundToEven (x / lastPlace x) * lastPlace x

theorem lastPlace_pos (x : ℚ) : 0 < lastPlace x := zpow_pos two_pos _

theorem lastPlace_le {x : ℚ} (h : 0 < x) : lastPlace x ≤ x := by
  calc lastPlace x ≤ 2 ^ Int.log 2 |x| := zpow_le_zpow_right₀ one_le_two (by omega)
    _ ≤ x := by
      rw [abs_of_pos h]
      exact_mod_cast Int.zpow_log_le_self (by norm_num) h

theorem float64_pos {x : ℚ} (h : 0 < x) : 0 < float64 x := by
  have hone : 1 ≤ x / lastPlace x := (one_le_div (lastPlace_pos x)).mpr (lastPlace_le h)
  have hround : 1 ≤ roundToEven (x / lastPlace x) :=
    (Int.le_floor.mpr (by exact_mod_cast hone)).trans (floor_le_roundToEven _)
  refine mul_pos ?_ (lastPlace_pos x)
  exact_mod_cast hround

theorem float64_one : float64 1 = 1 := by
  have hplace : lastPlace 1 = 2 ^ (-52 : ℤ) := by
    rw [lastPlace, abs_one, Int.log_one_right, zero_sub]
  have hscaled : (1 : ℚ) / 2 ^ (-52 : ℤ) = (2 ^ 52 : ℤ) := by norm_num
  rw [float64, hplace, hscaled, roundToEven_intCast]
  norm_num

end Go

end Iscp
