import Mathlib.Data.Rat.Floor
import LineCalc.Binary64.Arithmetic

set_option autoImplicit false

/- The rational number that a binary64 number stands for, and where its encoding says so. -/
namespace LineCalc.Binary64

/-- The magnitude in units. An infinity counts as the magnitude that would follow the finite ones,
as it does where numbers are rounded. -/
def units : Binary64 → Nat
  | .nan _ => 0
  | .infinity _ => magnitudeLimit
  | .finite _ units _ => units

/-- The value of a number. -/
def value (x : Binary64) : ℚ := (signed x.isNegative x.units : ℚ) / one

theorem cast_shiftLeft (n shift : Nat) : ((n <<< shift : Nat) : ℚ) = n * 2 ^ shift := by
  rw [Nat.shiftLeft_eq, Nat.cast_mul, Nat.cast_pow, Nat.cast_ofNat]

theorem one_pos : (0 : ℚ) < one := by
  rw [one, cast_shiftLeft]
  positivity

theorem signed_eq (negative : Bool) (units : Nat) :
    (signed negative units : ℚ) = (if negative then -1 else 1) * (units : ℚ) := by
  cases negative <;> simp [signed]

theorem abs_signed (negative : Bool) (units : Nat) : |(signed negative units : ℚ)| = units := by
  cases negative <;> simp [signed]

theorem natAbs_signed (negative : Bool) (units : Nat) : (signed negative units).natAbs = units := by
  cases negative <;> simp [signed]

theorem decide_signed_lt_zero (negative : Bool) {units : Nat} (nonzero : units ≠ 0) :
    decide (signed negative units < 0) = negative := by
  cases negative <;> simp [signed]
  omega

theorem signed_not (negative : Bool) (units : Nat) :
    signed (!negative) units = -signed negative units := by
  cases negative <;> simp [signed]

theorem value_finite (negative : Bool) {units : Nat} (fits : Representable units) :
    (Binary64.finite negative units fits).value = (signed negative units : ℚ) / one := rfl

theorem abs_value (x : Binary64) : |x.value| = (x.units : ℚ) / one := by
  rw [value, abs_div, abs_signed, abs_of_pos one_pos]

theorem value_neg (x : Binary64) : (-x).value = -x.value := by
  change x.neg.value = -x.value
  have flipped : ∀ (negative : Bool) (units : Nat),
      (signed (!negative) units : ℚ) = -(signed negative units : ℚ) := by
    intro negative units
    rw [signed_not, Int.cast_neg]
  cases x with
  | nan signaling => simp [Binary64.neg, value, units, signed]
  | infinity negative => exact (congrArg (· / (one : ℚ)) (flipped negative _)).trans (neg_div ..)
  | finite negative units fits =>
    exact (congrArg (· / (one : ℚ)) (flipped negative _)).trans (neg_div ..)

theorem isNan_neg (x : Binary64) : (-x).isNan = x.isNan := by
  change x.neg.isNan = x.isNan
  cases x <;> rfl

theorem code_neg (x : Binary64) : (-x).code = x.code := by
  change x.neg.code = x.code
  cases x with
  | nan signaling => cases signaling <;> rfl
  | infinity negative => rfl
  | finite negative units fits => rfl

theorem double_neg (x : Binary64) : -(-x) = x := by
  change x.neg.neg = x
  cases x <;> simp [Binary64.neg]

/-- What the fields of an encoding stand for: the exponent counts from the least numbers, whose
fraction stands alone, and the others have a leading digit that is left out. -/
theorem value_ofBits {bits : UInt64} {negative : Bool} {exponent fraction : Nat}
    (fields : bits.toNat = (if negative then 1 <<< 63 else 0) + exponent <<< 52 + fraction)
    (finite : exponent < 2047) (narrow : fraction < 1 <<< 52) :
    (ofBits bits).isFinite = true ∧ (ofBits bits).value =
      (if negative then -1 else 1) *
        (if exponent = 0 then (fraction : ℚ) else (2 ^ 52 + fraction) * 2 ^ (exponent - 1)) /
          2 ^ 1074 := by
  have small : exponent <<< 52 + fraction < infinityCode := by
    rw [infinityCode]
    omega
  have number : ofBits bits = ofCode negative (exponent <<< 52 + fraction) := by
    rw [ofBits, fields]
    cases negative with
    | true =>
      have high : 1 <<< 63 ≤ 1 <<< 63 + exponent <<< 52 + fraction := by omega
      rw [if_pos rfl, if_pos high, Nat.add_assoc, Nat.add_sub_cancel_left]
    | false =>
      have low : ¬1 <<< 63 ≤ 0 + exponent <<< 52 + fraction := by
        rw [infinityCode] at small
        omega
      rw [if_neg Bool.false_ne_true, if_neg low, Nat.zero_add]
  have magnitude : (decodeUnits (exponent <<< 52 + fraction) : ℚ) =
      if exponent = 0 then (fraction : ℚ) else (2 ^ 52 + fraction) * 2 ^ (exponent - 1) := by
    split
    · rename_i least
      rw [least, Nat.zero_shiftLeft, Nat.zero_add, decodeUnits_of_lt narrow]
    · rename_i greater
      have leading :
          exponent <<< 52 + fraction = (exponent - 1) <<< 52 + (1 <<< 52 + fraction) := by
        omega
      rw [leading, decodeUnits_shifted (by omega) (by omega), cast_shiftLeft, Nat.cast_add,
        cast_shiftLeft, Nat.cast_one, one_mul]
  rw [number, ofCode_of_lt _ small]
  refine ⟨rfl, ?_⟩
  rw [value_finite, signed_eq, magnitude, one, cast_shiftLeft, Nat.cast_one, one_mul]

end LineCalc.Binary64
