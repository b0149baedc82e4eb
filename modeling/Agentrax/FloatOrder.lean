import Mathlib

/-! Numbers as IEEE 754 compares them: the rationals, two infinities and a value that is not
a number. -/
namespace Agentrax.FloatOrder

inductive Value
  | finite (x : ℚ)
  | posInf
  | negInf
  | nan
  deriving DecidableEq, Repr

namespace Value

/-- Every comparison with `nan` is false. -/
def lt : Value → Value → Prop
  | finite x, finite y => x < y
  | finite _, posInf => True
  | negInf, finite _ => True
  | negInf, posInf => True
  | _, _ => False

def le : Value → Value → Prop
  | finite x, finite y => x ≤ y
  | finite _, posInf => True
  | negInf, finite _ => True
  | negInf, posInf => True
  | posInf, posInf => True
  | negInf, negInf => True
  | _, _ => False

instance : LT Value := ⟨lt⟩
instance : LE Value := ⟨le⟩

instance decidableLt : (a b : Value) → Decidable (a < b)
  | finite x, finite y => inferInstanceAs (Decidable (x < y))
  | finite _, posInf => .isTrue trivial
  | negInf, finite _ => .isTrue trivial
  | negInf, posInf => .isTrue trivial
  | finite _, negInf => .isFalse id
  | finite _, nan => .isFalse id
  | negInf, negInf => .isFalse id
  | negInf, nan => .isFalse id
  | posInf, _ => .isFalse id
  | nan, _ => .isFalse id

@[simp] theorem finite_lt_finite {x y : ℚ} : finite x < finite y ↔ x < y := Iff.rfl

/-- Away from `nan` a comparison that fails is the opposite one. -/
theorem le_iff_not_lt {a b : Value} : a ≤ b ↔ ¬ b < a ∧ a ≠ nan ∧ b ≠ nan := by
  cases a <;> cases b <;> simp [LT.lt, LE.le, lt, le]

end Value

end Agentrax.FloatOrder
