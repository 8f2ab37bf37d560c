import Mathlib.Algebra.Order.Field.Power
import Mathlib.Data.Int.Log
import Mathlib.Data.Rat.Floor
import Mathlib.Tactic.Linarith
import Mathlib.Tactic.NormNum
import Mathlib.Tactic.Positivity
import Mathlib.Tactic.Ring

/-!
# Rounding to double precision

The result of an operation in double precision is the exact one, rounded to 53 binary digits: to
the nearest number that has as many, and of two that are equally near to the one with an even last
digit. Overflow and numbers close to zero are left out.
-/

namespace Binary64

/-- The nearest integer. -/
def nearestEven (x : ℚ) : ℤ :=
  if x - ⌊x⌋ < 1 / 2 ∨ x - ⌊x⌋ = 1 / 2 ∧ ⌊x⌋ % 2 = 0 then ⌊x⌋ else ⌊x⌋ + 1

/-- What the last of the 53 digits of a number stands for. -/
def ulp (x : ℚ) : ℚ := 2 ^ (Int.log 2 |x| - 52)

def round (x : ℚ) : ℚ := nearestEven (x / ulp x) * ulp x

variable {x : ℚ}

theorem abs_nearestEven_sub_le : |nearestEven x - x| ≤ 1 / 2 := by
  have hbelow := Int.floor_le x
  have habove := Int.lt_floor_add_one x
  unfold nearestEven
  split_ifs with hcase
  · have hrest : x - ⌊x⌋ ≤ 1 / 2 := hcase.elim le_of_lt fun h => le_of_eq h.1
    rw [abs_le]
    constructor <;> linarith
  · have hrest : 1 / 2 ≤ x - ⌊x⌋ := not_lt.1 fun h => hcase (Or.inl h)
    push_cast
    rw [abs_le]
    constructor <;> linarith

theorem ulp_pos : 0 < ulp x := by
  unfold ulp
  positivity

theorem ulp_le (hx : x ≠ 0) : ulp x ≤ |x| / 2 ^ 52 := by
  have hlog : (2 : ℚ) ^ Int.log 2 |x| ≤ |x| := by
    exact_mod_cast Int.zpow_log_le_self (b := 2) (by norm_num) (abs_pos.2 hx)
  unfold ulp
  rw [zpow_sub₀ (by norm_num)]
  exact div_le_div_of_nonneg_right hlog (by positivity)

@[simp] theorem round_zero : round 0 = 0 := by
  simp [round, nearestEven]

/-- The relative error of a rounding. -/
theorem abs_round_sub_le : |round x - x| ≤ |x| / 2 ^ 53 := by
  rcases eq_or_ne x 0 with rfl | hx
  · simp
  · have hsplit : round x - x = (nearestEven (x / ulp x) - x / ulp x) * ulp x := by
      unfold round
      rw [sub_mul, div_mul_cancel₀ _ ulp_pos.ne']
    calc |round x - x| = |nearestEven (x / ulp x) - x / ulp x| * ulp x := by
          rw [hsplit, abs_mul, abs_of_pos ulp_pos]
      _ ≤ 1 / 2 * (|x| / 2 ^ 52) :=
          mul_le_mul abs_nearestEven_sub_le (ulp_le hx) ulp_pos.le (by norm_num)
      _ = |x| / 2 ^ 53 := by ring

theorem abs_round_sub_le_of_abs_le {bound : ℚ} (hle : |x| ≤ bound) :
    |round x - x| ≤ bound / 2 ^ 53 :=
  abs_round_sub_le.trans (div_le_div_of_nonneg_right hle (by norm_num))

theorem round_nonneg (hx : 0 ≤ x) : 0 ≤ round x := by
  have herror := (abs_le.1 (abs_round_sub_le (x := x))).1
  rw [abs_of_nonneg hx] at herror
  linarith

end Binary64
