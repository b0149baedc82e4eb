import Mathlib

/-! Operations on Int64 as a machine does them, with truncated division and wrapping products:
when they are exact, and versions that refuse what is not. -/
namespace Agentrax.CheckedInt64

inductive Fault
  | divideByZero
  | overflow
  deriving DecidableEq, Repr

def div (x y : Int64) : Except Fault Int64 :=
  if y = 0 then .error .divideByZero else .ok (x / y)

/-- The product, if it does not wrap. -/
def mul (x y : Int64) : Except Fault Int64 :=
  if -2 ^ 63 ≤ x.toInt * y.toInt ∧ x.toInt * y.toInt < 2 ^ 63 then .ok (x * y)
  else .error .overflow

section Exact
variable {x y : Int64}

theorem eq_zero_iff_toInt : x = 0 ↔ x.toInt = 0 := by
  rw [← Int64.toInt_inj, Int64.toInt_zero]

theorem pos_iff_toInt : 0 < x ↔ 0 < x.toInt := by
  rw [Int64.lt_iff_toInt_lt, Int64.toInt_zero]

theorem nonneg_iff_toInt : 0 ≤ x ↔ 0 ≤ x.toInt := by
  rw [Int64.le_iff_toInt_le, Int64.toInt_zero]

theorem toInt_mul_of_fits (hlow : -2 ^ 63 ≤ x.toInt * y.toInt) (hhigh : x.toInt * y.toInt < 2 ^ 63) :
    (x * y).toInt = x.toInt * y.toInt := by
  rw [Int64.toInt_mul, Int.bmod_eq_of_le (by omega) (by omega)]

theorem toInt_sub_of_le (hy : 0 ≤ y.toInt) (hle : y.toInt ≤ x.toInt) :
    (x - y).toInt = x.toInt - y.toInt := by
  have hlt := Int64.toInt_lt x
  rw [Int64.toInt_sub, Int.bmod_eq_of_le (by omega) (by omega)]

theorem toInt_mod_of_nonneg (hx : 0 ≤ x.toInt) : (x % y).toInt = x.toInt % y.toInt := by
  rw [Int64.toInt_mod, Int.tmod_eq_emod_of_nonneg hx]

theorem toInt_div_of_pos (hx : 0 ≤ x.toInt) (hy : 0 < y.toInt) :
    (x / y).toInt = x.toInt / y.toInt := by
  have hne : y ≠ -1 := by
    intro h
    rw [h] at hy
    exact absurd hy (by decide)
  rw [Int64.toInt_div_of_ne_right _ _ hne, Int.tdiv_eq_ediv_of_nonneg hx]

/-- What is left after the whole units of size `y` does not wrap. -/
theorem toInt_sub_div_mul (hx : 0 ≤ x.toInt) (hy : 0 < y.toInt) :
    (x - x / y * y).toInt = x.toInt % y.toInt := by
  have hlt := Int64.toInt_lt x
  have hsplit := Int.ediv_mul_add_emod x.toInt y.toInt
  have hmod := Int.emod_nonneg x.toInt hy.ne'
  have hdiv : 0 ≤ x.toInt / y.toInt * y.toInt :=
    Int.mul_nonneg (Int.ediv_nonneg hx hy.le) hy.le
  have hquot : (x / y).toInt = x.toInt / y.toInt := toInt_div_of_pos hx hy
  have hmul : (x / y * y).toInt = x.toInt / y.toInt * y.toInt := by
    rw [toInt_mul_of_fits (by rw [hquot]; omega) (by rw [hquot]; omega), hquot]
  rw [toInt_sub_of_le (by omega) (by omega), hmul]
  omega

theorem mod_eq_zero_iff (hx : 0 < x) : x % y = 0 ↔ x.toInt % y.toInt = 0 := by
  rw [eq_zero_iff_toInt, toInt_mod_of_nonneg (pos_iff_toInt.mp hx).le]

/-- The way from `x` to the next multiple of `y`. -/
theorem sub_mod_within (hx : 0 ≤ x) (hy : 0 < y) : 0 < y - x % y ∧ y - x % y ≤ y := by
  rw [nonneg_iff_toInt] at hx
  rw [pos_iff_toInt] at hy
  have hmod : (x % y).toInt = x.toInt % y.toInt := toInt_mod_of_nonneg hx
  have hlow := Int.emod_nonneg x.toInt hy.ne'
  have hhigh := Int.emod_lt_of_pos x.toInt hy
  have hsub : (y - x % y).toInt = y.toInt - x.toInt % y.toInt := by
    rw [toInt_sub_of_le (by omega) (by omega), hmod]
  rw [pos_iff_toInt, Int64.le_iff_toInt_le, hsub]
  omega

theorem sub_within (hx : 0 ≤ x) (hlt : x < y) : 0 < y - x ∧ y - x ≤ y := by
  rw [nonneg_iff_toInt] at hx
  rw [Int64.lt_iff_toInt_lt] at hlt
  have hsub : (y - x).toInt = y.toInt - x.toInt := toInt_sub_of_le hx hlt.le
  rw [pos_iff_toInt, Int64.le_iff_toInt_le, hsub]
  omega

/-- Dividing the largest value overstates no product: the quotient tells exactly whether a
product would wrap. -/
theorem maxValue_div_lt_iff (hx : 0 < x.toInt) :
    Int64.maxValue / x < y ↔ 2 ^ 63 - 1 < x.toInt * y.toInt := by
  have hmax : (0 : ℤ) ≤ Int64.maxValue.toInt := by decide
  rw [Int64.lt_iff_toInt_lt, toInt_div_of_pos hmax hx, Int.ediv_lt_iff_lt_mul hx,
    Int64.toInt_maxValue, mul_comm]

end Exact

section Checked
variable {x y : Int64}

theorem div_of_ne_zero (hy : y ≠ 0) : div x y = .ok (x / y) := if_neg hy

theorem mul_of_fits (hlow : -2 ^ 63 ≤ x.toInt * y.toInt) (hhigh : x.toInt * y.toInt < 2 ^ 63) :
    mul x y = .ok (x * y) := if_pos ⟨hlow, hhigh⟩

end Checked

end Agentrax.CheckedInt64
