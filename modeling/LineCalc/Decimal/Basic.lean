import LineCalc.Binary64.Rounding

set_option autoImplicit false

/- Nonnegative decimal fractions and the binary64 number nearest to each. -/
namespace LineCalc

/-- `coefficient * 10 ^ exponent`. -/
structure Decimal where
  coefficient : Nat
  exponent : Int
  deriving DecidableEq, Repr

namespace Decimal

/-- The exact quotient, in units, that the decimal stands for. -/
def ratio (d : Decimal) : Nat × Nat :=
  match d.exponent with
  | .ofNat up => (d.coefficient * Nat.pow 10 up * Binary64.one, 1)
  | .negSucc down => (d.coefficient * Binary64.one, Nat.pow 10 (down + 1))

/-- The nearest binary64 number, infinity beyond the largest. -/
def nearest (d : Decimal) : Binary64 := .ofRatio false d.ratio.1 d.ratio.2

/-- At least `8 ^ 342`, which is beyond the largest finite number. -/
def Huge (d : Decimal) : Prop := d.coefficient ≠ 0 ∧ 342 ≤ d.exponent

/-- Less than `2 ^ -1100`, which is below half of the least positive number. -/
def Tiny (d : Decimal) : Prop :=
  d.coefficient = 0 ∨ (d.coefficient.log2 : Int) + 1101 ≤ -3 * d.exponent

instance (d : Decimal) : Decidable d.Huge := inferInstanceAs (Decidable (_ ∧ _))
instance (d : Decimal) : Decidable d.Tiny := inferInstanceAs (Decidable (_ ∨ _))

/-- The nearest binary64 number, reached without forming a power of ten that cannot matter. -/
def toBinary64 (d : Decimal) : Binary64 :=
  if d.Tiny then .zero false
  else if d.Huge then .infinity false
  else d.nearest

end Decimal

end LineCalc
