set_option autoImplicit false

/- Binary64 numbers by value. Every finite one is a whole multiple of the least positive one,
`2 ^ -1074`, so magnitudes are natural numbers in that unit and no fraction is ever needed. -/
namespace LineCalc

/-- Finite magnitudes lie below `2 ^ 1024`, in units of `2 ^ -1074`. -/
def magnitudeLimit : Nat := 1 <<< 2098

/-- A magnitude that binary64 can hold: in range, and with nothing but zeros after the first 53
binary digits. -/
structure Representable (units : Nat) : Prop where
  lt : units < magnitudeLimit
  dvd : 1 <<< (units.log2 - 52) ∣ units

/-- "Not a number" is quiet or signaling. Its encodings differ in nothing else that an operation
tells apart. -/
inductive Binary64 where
  | nan (signaling : Bool)
  | infinity (negative : Bool)
  | finite (negative : Bool) (units : Nat) (fits : Representable units)
  deriving DecidableEq

theorem lt_magnitudeLimit {units exponent : Nat} (lt : units < 1 <<< exponent)
    (range : exponent ≤ 2098) : units < magnitudeLimit := by
  have grown : ∀ limit, exponent ≤ limit → units < 1 <<< limit := by
    intro limit wider
    rw [Nat.one_shiftLeft] at lt ⊢
    exact Nat.lt_of_lt_of_le lt (Nat.pow_le_pow_right Nat.two_pos wider)
  exact grown 2098 range

/-- A shift adds its distance to the width. -/
theorem shiftLeft_lt {significand width : Nat} (narrow : significand < 1 <<< width) (shift : Nat) :
    significand <<< shift < 1 <<< (width + shift) := by
  rw [Nat.shiftLeft_eq, Nat.shiftLeft_add, Nat.shiftLeft_eq (1 <<< width)]
  exact Nat.mul_lt_mul_of_pos_right narrow (Nat.two_pow_pos shift)

namespace Representable

theorem zero : Representable 0 := ⟨by decide, Nat.dvd_zero _⟩

/-- At most 53 binary digits, shifted anywhere within range. -/
theorem shifted {significand shift : Nat} (narrow : significand ≤ 1 <<< 53)
    (lt : significand <<< shift < magnitudeLimit) : Representable (significand <<< shift) := by
  refine ⟨lt, ?_⟩
  by_cases zero : significand = 0
  · rw [zero, Nat.zero_shiftLeft]
    exact Nat.dvd_zero _
  by_cases full : significand = 1 <<< 53
  · rw [full, ← Nat.shiftLeft_add, Nat.one_shiftLeft, Nat.one_shiftLeft, Nat.log2_two_pow]
    exact Nat.pow_dvd_pow 2 (by omega)
  · have bound := shiftLeft_lt (Nat.lt_of_le_of_ne narrow full) shift
    have positive : significand <<< shift ≠ 0 := by
      rw [Nat.shiftLeft_eq]
      exact Nat.mul_ne_zero zero (Nat.ne_of_gt (Nat.two_pow_pos shift))
    rw [Nat.one_shiftLeft] at bound
    have log := (Nat.log2_lt positive).mpr bound
    rw [Nat.one_shiftLeft, Nat.shiftLeft_eq significand]
    rw [Nat.shiftLeft_eq] at log
    exact Nat.dvd_mul_left_of_dvd (Nat.pow_dvd_pow 2 (by omega)) significand

/-- A significand of 53 digits with one of the 2046 exponents of finite numbers. -/
theorem encoded {significand shift : Nat} (narrow : significand < 1 <<< 53)
    (range : shift ≤ 2045) : Representable (significand <<< shift) :=
  shifted (Nat.le_of_lt narrow) (lt_magnitudeLimit (shiftLeft_lt narrow shift) (by omega))

/-- From `2 ^ 52` units on, a magnitude is a significand with its leading digit in place,
shifted. -/
theorem exists_shifted {units : Nat} (fits : Representable units)
    (large : 1 <<< 52 ≤ units) :
    ∃ significand shift, 1 <<< 52 ≤ significand ∧ significand < 1 <<< 53 ∧ shift ≤ 2045 ∧
      units = significand <<< shift := by
  obtain ⟨significand, product⟩ := fits.dvd
  have positive : units ≠ 0 := by
    rintro rfl
    exact absurd large (by decide)
  have log : 52 ≤ units.log2 := (Nat.le_log2 positive).mpr (by rwa [← Nat.one_shiftLeft])
  have below : ∀ limit, units < 1 <<< limit → units.log2 < limit := by
    intro limit lt
    rw [Nat.one_shiftLeft] at lt
    exact (Nat.log2_lt positive).mpr lt
  have range := below 2098 fits.lt
  have lower := Nat.log2_self_le positive
  have upper := @Nat.lt_log2_self units
  rw [Nat.one_shiftLeft] at product
  have positiveShift := Nat.two_pow_pos (units.log2 - 52)
  refine ⟨significand, units.log2 - 52, ?_, ?_, by omega, ?_⟩
  · rw [Nat.one_shiftLeft]
    refine Nat.le_of_mul_le_mul_left ?_ positiveShift
    rw [← product, ← Nat.pow_add, show units.log2 - 52 + 52 = units.log2 by omega]
    exact lower
  · rw [Nat.one_shiftLeft]
    refine Nat.lt_of_mul_lt_mul_left (a := 2 ^ (units.log2 - 52)) ?_
    rw [← product, ← Nat.pow_add, show units.log2 - 52 + 53 = units.log2 + 1 by omega]
    exact upper
  · rw [Nat.shiftLeft_eq, Nat.mul_comm]
    exact product

end Representable

namespace Binary64

/-- The number of units in one. -/
def one : Nat := 1 <<< 1074

def zero (negative : Bool) : Binary64 := .finite negative 0 .zero

instance : Inhabited Binary64 := ⟨zero false⟩

def isNan : Binary64 → Bool
  | .nan _ => true
  | _ => false

def isSignaling : Binary64 → Bool
  | .nan signaling => signaling
  | _ => false

def isZero : Binary64 → Bool
  | .finite _ units _ => units == 0
  | _ => false

theorem isZero_iff {x : Binary64} : x.isZero = true ↔ ∃ negative, x = zero negative := by
  cases x with
  | nan signaling => simp [isZero, zero]
  | infinity negative => simp [isZero, zero]
  | finite negative units fits => simp [isZero, zero]

def isFinite : Binary64 → Bool
  | .finite .. => true
  | _ => false

theorem isFinite_iff {x : Binary64} :
    x.isFinite = true ↔ ∃ negative units fits, x = finite negative units fits := by
  cases x with
  | nan signaling => simp [isFinite]
  | infinity negative => simp [isFinite]
  | finite negative units fits => exact ⟨fun _ => ⟨negative, units, fits, rfl⟩, fun _ => rfl⟩

theorem isNan_of_isFinite {x : Binary64} (finite : x.isFinite = true) : x.isNan = false := by
  cases x with
  | nan signaling => cases finite
  | infinity negative => rfl
  | finite negative units fits => rfl

/-- The sign, which zeros and infinities have too. -/
def isNegative : Binary64 → Bool
  | .nan _ => false
  | .infinity negative => negative
  | .finite negative _ _ => negative

end Binary64

end LineCalc
