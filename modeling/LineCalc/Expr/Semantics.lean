import LineCalc.Binary64.Arithmetic
import LineCalc.Expr.Basic

set_option autoImplicit false

/- The value of an expression. Division by zero is refused; every other operation has a value, if
need be an infinity or "not a number". -/
namespace LineCalc

structure Bindings where
  a : Binary64
  b : Binary64
  deriving DecidableEq

def Bindings.get? (bindings : Bindings) (name : String) : Option Binary64 :=
  if name = "a" then some bindings.a
  else if name = "b" then some bindings.b
  else none

theorem Bindings.get?_eq_none_iff {bindings : Bindings} {name : String} :
    bindings.get? name = none ↔ name ∉ ["a", "b"] := by
  simp only [get?, List.mem_cons, List.not_mem_nil, or_false, not_or]
  split
  · simp_all
  · split <;> simp_all

inductive Failure where
  | unbound (name : String)
  | divisionByZero (op : Operator)
  deriving DecidableEq, Repr

def Failure.message : Failure → String
  | .unbound name => "Unbound Variable: " ++ name
  | .divisionByZero op => "Division By Zero: right operand of \"" ++ op.symbol ++ "\" is zero"

/-- The remainder under the sign of the divisor, and the quotient that goes with it. A truncated
remainder of the other sign is moved by one divisor. -/
def flooredRemainder (x y : Binary64) : Binary64 :=
  let rem := x % y
  if rem.isZero then .copySign (.zero false) y
  else if y.less (.zero false) != rem.less (.zero false) then rem + y
  else rem

/-- The quotient that goes with `flooredRemainder`: `x` less the truncated remainder divides to a
whole number but for rounding, so the nearer of the two whole numbers around it is meant. -/
def flooredQuotient (x y : Binary64) : Binary64 :=
  let one := Binary64.ofInt 1
  let rem := x % y
  let exact := (x - rem) / y
  let quotient :=
    if !rem.isZero && (y.less (.zero false) != rem.less (.zero false)) then exact - one else exact
  if quotient.isZero then .copySign (.zero false) (x / y)
  else
    let floor := quotient.floor
    let half : Binary64 := one / Binary64.ofInt 2
    if half.less (quotient - floor) then floor + one else floor

namespace Operator

/-- Operators without a value where the right operand is zero. -/
def divides : Operator → Bool
  | .div | .floorDiv | .mod => true
  | _ => false

theorem divides_iff {op : Operator} : op.divides = true ↔ op.symbol ∈ ["/", "//", "%"] := by
  cases op <;> decide

def compute (op : Operator) (left right : Binary64) : Binary64 :=
  match op with
  | .add => left + right
  | .sub => left - right
  | .mul => left * right
  | .div => left / right
  | .floorDiv => flooredQuotient left right
  | .mod => flooredRemainder left right
  | .pow => left.pow right

def apply (op : Operator) (left right : Binary64) : Except Failure Binary64 :=
  if op.divides && right.isZero then .error (.divisionByZero op)
  else .ok (op.compute left right)

theorem apply_eq_ok (op : Operator) (left : Binary64) {right : Binary64}
    (nonzero : right.isZero = false) : op.apply left right = .ok (op.compute left right) := by
  rw [apply, nonzero, Bool.and_false, if_neg Bool.false_ne_true]

theorem apply_eq_error_iff {op : Operator} {left right : Binary64} {reason : Failure} :
    op.apply left right = .error reason ↔
      op.divides = true ∧ right.isZero = true ∧ reason = .divisionByZero op := by
  rw [apply]
  split
  · rename_i refused
    rw [Bool.and_eq_true] at refused
    simp only [refused, Except.error.injEq, true_and]
    exact eq_comm
  · rename_i allowed
    rw [Bool.and_eq_true] at allowed
    constructor
    · nofun
    · rintro ⟨divides, zero, _⟩
      exact absurd ⟨divides, zero⟩ allowed

end Operator

/-- Operands are evaluated from left to right, and the first failure is reported. -/
def evaluate (bindings : Bindings) : Expr → Except Failure Binary64
  | .literal value => .ok value
  | .var name =>
    match bindings.get? name with
    | some value => .ok value
    | none => .error (.unbound name)
  | .neg operand => do
    let value ← evaluate bindings operand
    return -value
  | .binary op left right => do
    let left ← evaluate bindings left
    let right ← evaluate bindings right
    op.apply left right

end LineCalc
