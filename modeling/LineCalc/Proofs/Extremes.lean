import LineCalc.Proofs.Precision

set_option autoImplicit false

/- Rounding at the ends of the range. What is rounded overflows from half a step beyond the largest
number on, and comes to zero up to half the least positive one. -/
namespace LineCalc.Binary64

/-! The ends -/

def largest : Binary64 := .finite false ((1 <<< 53 - 1) <<< 2045) (.encoded (by decide) (by decide))

def leastPositive : Binary64 := .finite false (1 <<< 0) (.encoded (by decide) (by decide))

theorem value_infinity : (infinity false).value = 2 ^ 1024 := by
  change ((1 <<< (1024 + 1074) : Nat) : ℚ) / (1 <<< 1074 : Nat) = 2 ^ 1024
  rw [Nat.shiftLeft_add, cast_shiftLeft, cast_shiftLeft, cast_shiftLeft]
  field_simp

theorem value_largest : largest.value = 2 ^ 1024 - 2 ^ 971 := by
  have digits : ((1 <<< 53 - 1 : Nat) : ℚ) = 2 ^ 53 - 1 := by
    rw [Nat.cast_sub (by decide), cast_shiftLeft, Nat.cast_one, one_mul]
  change (((1 <<< 53 - 1) <<< (971 + 1074) : Nat) : ℚ) / (1 <<< 1074 : Nat) = 2 ^ 1024 - 2 ^ 971
  rw [Nat.shiftLeft_add, cast_shiftLeft, cast_shiftLeft, cast_shiftLeft, digits, Nat.cast_one,
    one_mul, mul_div_cancel_right₀ _ (by positivity), sub_mul, ← pow_add, one_mul]

theorem value_leastPositive : leastPositive.value = 1 / 2 ^ 1074 := by
  change ((1 <<< 0 : Nat) : ℚ) / (1 <<< 1074 : Nat) = 1 / 2 ^ 1074
  rw [cast_shiftLeft, cast_shiftLeft, Nat.cast_one, one_mul, pow_zero, one_mul]

theorem code_largest : largest.code + 1 = infinityCode := by
  change encodeUnits ((1 <<< 53 - 1) <<< 2045) + 1 = infinityCode
  rw [encodeUnits_shifted (by decide) (by decide)]
  rfl

theorem code_leastPositive : leastPositive.code = 1 := encodeUnits_of_lt (by decide)

section

variable {x y : Binary64}

theorem code_eq_of_value (first : x.isNan = false) (second : y.isNan = false)
    (same : x.value = y.value) : x.code = y.code := by
  have above := mt (value_lt_value_iff first second).mpr same.not_lt
  have below := mt (value_lt_value_iff second first).mpr same.not_gt
  rw [← natAbs_signed x.isNegative x.code, ← natAbs_signed y.isNegative y.code,
    le_antisymm (not_lt.mp below) (not_lt.mp above)]

theorem value_le_largest (number : x.isNan = false) (positive : x.isNegative = false)
    (bounded : x ≠ .infinity false) : x.value ≤ largest.value := by
  cases x with
  | nan signaling => cases number
  | infinity negative =>
    cases positive
    exact absurd rfl bounded
  | finite negative units fits =>
    cases positive
    have below := encodeUnits_lt fits
    have last := code_largest
    rw [← not_lt, value_lt_value_iff rfl rfl, not_lt]
    change (encodeUnits units : ℤ) ≤ largest.code
    generalize largest.code = most at last ⊢
    omega

theorem leastPositive_le_value (number : x.isNan = false) (positive : x.isNegative = false)
    (nonzero : x ≠ zero false) : leastPositive.value ≤ x.value := by
  rw [← not_lt, value_lt_value_iff_units, positive]
  intro (less : (x.units : ℤ) < (1 : Nat))
  rw [Int.ofNat_lt, Nat.lt_one_iff] at less
  cases x with
  | nan signaling => cases number
  | infinity negative => exact absurd less (Nat.ne_of_gt Representable.zero.lt)
  | finite negative units fits =>
    cases positive
    cases (show units = 0 from less)
    exact nonzero rfl

end

namespace Nearest

variable {q : ℚ} {x y z : Binary64}

/-- What is rounded to the lower of two numbers, or to one below it, does not lie beyond their
middle. -/
theorem le_middle (nearest : Nearest q x) (number : z.isNan = false) (within : x.value ≤ y.value)
    (ordered : y.value < z.value) : q ≤ (y.value + z.value) / 2 := by
  have closest := nearest.closest z number
  by_contra beyond
  rw [not_le] at beyond
  have nearer : |q - z.value| < q - x.value := by
    rw [abs_lt]
    constructor <;> linarith
  have far := le_abs_self (q - x.value)
  linarith

/-- If the significand of the lower one is odd, it does not lie in their middle either. -/
theorem lt_middle (nearest : Nearest q x) (first : y.isNan = false) (second : z.isNan = false)
    (within : x.value ≤ y.value) (ordered : y.value < z.value) (odd : Odd y.code) :
    q < (y.value + z.value) / 2 := by
  refine lt_of_le_of_ne (nearest.le_middle second within ordered) fun middle => ?_
  -- In the middle the upper one is as near, and a tie does not go to an odd significand.
  have near : |q - z.value| = (z.value - y.value) / 2 := by
    rw [middle, abs_of_nonpos (by linarith)]
    ring
  have own : |q - x.value| = q - x.value := abs_of_nonneg (by linarith)
  have closest := nearest.closest z second
  have same : x.value = y.value := by linarith
  have tie : |q - x.value| = |q - z.value| := by linarith
  rcases nearest.even z second tie with equal | even
  · linarith
  · rw [code_eq_of_value nearest.number first same] at even
    exact Nat.not_even_iff_odd.mpr odd even

/-- Seen from above, by reflection. -/
theorem middle_le (nearest : Nearest q x) (number : y.isNan = false) (within : z.value ≤ x.value)
    (ordered : y.value < z.value) : (y.value + z.value) / 2 ≤ q := by
  have mirrored : -q ≤ ((-z).value + (-y).value) / 2 := by
    apply nearest.neg.le_middle (by rwa [isNan_neg])
    · rw [value_neg, value_neg]
      exact neg_le_neg within
    · rw [value_neg, value_neg]
      exact neg_lt_neg ordered
  rw [value_neg, value_neg] at mirrored
  linarith

theorem middle_lt (nearest : Nearest q x) (first : y.isNan = false) (second : z.isNan = false)
    (within : z.value ≤ x.value) (ordered : y.value < z.value) (odd : Odd z.code) :
    (y.value + z.value) / 2 < q := by
  have mirrored : -q < ((-z).value + (-y).value) / 2 := by
    apply nearest.neg.lt_middle (by rwa [isNan_neg]) (by rwa [isNan_neg])
    · rw [value_neg, value_neg]
      exact neg_le_neg within
    · rw [value_neg, value_neg]
      exact neg_lt_neg ordered
    · rwa [code_neg]
  rw [value_neg, value_neg] at mirrored
  linarith

/-- Overflow begins half a step beyond the largest number. -/
theorem eq_infinity_iff (nearest : Nearest q x) (positive : x.isNegative = false) :
    x = .infinity false ↔ 2 ^ 1024 - 2 ^ 970 ≤ q := by
  have ordered : largest.value < (infinity false).value := by
    rw [value_largest, value_infinity]
    exact sub_lt_self _ (by positivity)
  have odd : Odd largest.code := by
    have even : Even infinityCode := by decide
    rwa [← code_largest, Nat.even_add_one, Nat.not_even_iff_odd] at even
  have middle : (largest.value + (infinity false).value) / 2 = 2 ^ 1024 - 2 ^ 970 := by
    rw [value_largest, value_infinity, pow_succ (2 : ℚ) 970]
    generalize (2 : ℚ) ^ 1024 = top, (2 : ℚ) ^ 970 = half
    ring
  rw [← middle]
  constructor
  · rintro rfl
    exact nearest.middle_le rfl le_rfl ordered
  · intro reached
    by_contra bounded
    have within := value_le_largest nearest.number positive bounded
    exact absurd reached (not_le.mpr (nearest.lt_middle rfl rfl within ordered odd))

/-- Up to half of the least positive number, nothing is left. -/
theorem eq_zero_iff (nearest : Nearest q x) (positive : x.isNegative = false) :
    x = zero false ↔ q ≤ 1 / 2 ^ 1075 := by
  have ordered : (zero false).value < leastPositive.value := by
    rw [value_zero, value_leastPositive]
    positivity
  have odd : Odd leastPositive.code := by
    rw [code_leastPositive]
    exact odd_one
  have middle : ((zero false).value + leastPositive.value) / 2 = 1 / 2 ^ 1075 := by
    rw [value_zero, value_leastPositive, zero_add, div_div, ← pow_succ]
  rw [← middle]
  constructor
  · rintro rfl
    exact nearest.le_middle rfl le_rfl ordered
  · intro small
    by_contra nonzero
    have within := leastPositive_le_value nearest.number positive nonzero
    exact absurd small (not_le.mpr (nearest.middle_lt rfl rfl within ordered odd))

end Nearest

end LineCalc.Binary64
