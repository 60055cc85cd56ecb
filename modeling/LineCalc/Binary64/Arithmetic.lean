import LineCalc.Binary64.Encoding
import LineCalc.Binary64.Rounding

set_option autoImplicit false

/- Arithmetic on binary64 numbers: the exact result in units, rounded once, or a quiet "not a
number". Powers alone are left to the machine. -/
namespace LineCalc.Binary64

/-- A sign and a magnitude as one integer; both zeros give 0. -/
def signed (negative : Bool) (units : Nat) : Int :=
  if negative then -(units : Int) else units

protected def neg : Binary64 → Binary64
  | .nan signaling => .nan signaling
  | .infinity negative => .infinity !negative
  | .finite negative units fits => .finite (!negative) units fits

instance : Neg Binary64 := ⟨Binary64.neg⟩

/-- The magnitude of `x` under the sign of `y`. -/
def copySign (x y : Binary64) : Binary64 :=
  match x with
  | .nan signaling => .nan signaling
  | .infinity _ => .infinity y.isNegative
  | .finite _ units fits => .finite y.isNegative units fits

/-- A sum of zero is positive unless both terms are negative zeros. -/
protected def add : Binary64 → Binary64 → Binary64
  | .nan _, _ => .nan false
  | _, .nan _ => .nan false
  | .infinity s, .infinity t => if s = t then .infinity s else .nan false
  | .infinity s, .finite .. => .infinity s
  | .finite .., .infinity t => .infinity t
  | .finite s m _, .finite t n _ =>
    let sum := signed s m + signed t n
    if sum = 0 then zero (s && t) else ofRatio (sum < 0) sum.natAbs 1

protected def sub (x y : Binary64) : Binary64 := x.add y.neg

protected def mul : Binary64 → Binary64 → Binary64
  | .nan _, _ => .nan false
  | _, .nan _ => .nan false
  | .infinity s, .infinity t => .infinity (s != t)
  | .infinity s, .finite t n _ => if n = 0 then .nan false else .infinity (s != t)
  | .finite s m _, .infinity t => if m = 0 then .nan false else .infinity (s != t)
  | .finite s m _, .finite t n _ => ofRatio (s != t) (m * n) one

protected def div : Binary64 → Binary64 → Binary64
  | .nan _, _ => .nan false
  | _, .nan _ => .nan false
  | .infinity _, .infinity _ => .nan false
  | .infinity s, .finite t _ _ => .infinity (s != t)
  | .finite s _ _, .infinity t => zero (s != t)
  | .finite s m _, .finite t n _ =>
    if n = 0 then if m = 0 then .nan false else .infinity (s != t)
    else ofRatio (s != t) (m * one) n

/-- The remainder of the truncated quotient, under the sign of `x`. -/
protected def rem : Binary64 → Binary64 → Binary64
  | .nan _, _ => .nan false
  | _, .nan _ => .nan false
  | .infinity _, _ => .nan false
  | .finite s m fits, .infinity _ => .finite s m fits
  | .finite s m _, .finite _ n _ => if n = 0 then .nan false else ofRatio s (m % n) 1

instance : Add Binary64 := ⟨Binary64.add⟩
instance : Sub Binary64 := ⟨Binary64.sub⟩
instance : Mul Binary64 := ⟨Binary64.mul⟩
instance : Div Binary64 := ⟨Binary64.div⟩
instance : Mod Binary64 := ⟨Binary64.rem⟩

/-- The machine's power function, for which some powers of a quiet "not a number" are 1. A signaling
operand is never overlooked. -/
def pow (x y : Binary64) : Binary64 :=
  if x.isSignaling || y.isSignaling then .nan false
  else ofBits ((Float.ofBits x.toBits).pow (Float.ofBits y.toBits)).toBits

/-- The numeric order, in which the two zeros are equal and "not a number" is beside it. -/
def less : Binary64 → Binary64 → Bool
  | .nan _, _ => false
  | _, .nan _ => false
  | .infinity s, .infinity t => s && !t
  | .infinity s, .finite .. => s
  | .finite .., .infinity t => !t
  | .finite s m _, .finite t n _ => signed s m < signed t n

/-- The greatest whole number at most `x`. -/
def floor : Binary64 → Binary64
  | .nan _ => .nan false
  | .infinity negative => .infinity negative
  | .finite negative units _ =>
    let whole := units / one
    let away := if negative ∧ units % one ≠ 0 then 1 else 0
    ofRatio negative ((whole + away) * one) 1

/-- The nearest 64-bit integer, a half going to the even one and what is out of range to the
nearer end; "not a number" gives 0. -/
def toInt64 : Binary64 → Int64
  | .nan _ => 0
  | .infinity negative => if negative then Int64.minValue else Int64.maxValue
  | .finite negative units _ => Int64.ofIntClamp (signed negative (nearestEven units one))

end LineCalc.Binary64
