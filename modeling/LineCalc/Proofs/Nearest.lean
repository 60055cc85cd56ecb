import LineCalc.Decimal.Basic

set_option autoImplicit false

/- Reading a decimal rounds its exact value once: neither the shortcuts for values out of range nor
the zeros at the end of a coefficient make a difference. -/
namespace LineCalc

/-! Quotients with a common factor -/

theorem nearestEven_scale (num den : Nat) {scale : Nat} (positive : 0 < scale) :
    nearestEven (num * scale) (den * scale) = nearestEven num den := by
  have rest : num * scale % (den * scale) = num % den * scale := Nat.mul_mod_mul_right ..
  have below : 2 * (num % den * scale) < den * scale ↔ 2 * (num % den) < den := by
    rw [← Nat.mul_assoc]
    exact Nat.mul_lt_mul_right positive
  have above : den * scale < 2 * (num % den * scale) ↔ den < 2 * (num % den) := by
    rw [← Nat.mul_assoc]
    exact Nat.mul_lt_mul_right positive
  simp only [nearestEven, Nat.mul_div_mul_right _ _ positive, rest, below, above]

theorem div_le_nearestEven (num den : Nat) : num / den ≤ nearestEven num den := by
  unfold nearestEven
  dsimp only
  split
  · omega
  · split <;> omega

namespace Binary64

theorem roundUnits_scale (num den : Nat) {scale : Nat} (positive : 0 < scale) :
    roundUnits (num * scale) (den * scale) = roundUnits num den := by
  have whole := Nat.mul_div_mul_right num den positive
  have grid : ∀ shift, (den * scale) <<< shift = den <<< shift * scale := by
    intro shift
    rw [Nat.shiftLeft_eq, Nat.shiftLeft_eq]
    ac_rfl
  simp only [roundUnits, whole, grid, nearestEven_scale _ _ positive]

theorem ofRatio_scale (negative : Bool) (num den : Nat) {scale : Nat} (positive : 0 < scale) :
    ofRatio negative (num * scale) (den * scale) = ofRatio negative num den := by
  simp only [ofRatio, roundUnits_scale num den positive]

/-- Less than half a unit is rounded away. -/
theorem roundUnits_of_lt {num den : Nat} (small : 2 * num < den) : roundUnits num den = 0 := by
  have whole : num / den = 0 := Nat.div_eq_of_lt (by omega)
  have rest : num % den = num := Nat.mod_eq_of_lt (by omega)
  have shift : gridShift 0 = 0 := by decide
  simp only [roundUnits, nearestEven, whole, shift, Nat.shiftLeft_zero, rest, if_pos small]

/-- Where the local grid is wider than a unit, the significand on it has its leading digit in
place. -/
theorem leading_digit_le {num den : Nat} (wide : 52 ≤ (num / den).log2) (nonzero : num / den ≠ 0) :
    52 + gridShift (num / den) = (num / den).log2 ∧
      1 <<< 52 ≤ nearestEven num (den <<< gridShift (num / den)) := by
  have leading : 52 + gridShift (num / den) = (num / den).log2 := by
    rw [gridShift]
    omega
  refine ⟨leading, Nat.le_trans ?_ (div_le_nearestEven _ _)⟩
  rw [Nat.one_shiftLeft, Nat.shiftLeft_eq, ← Nat.div_div_eq_div_mul,
    Nat.le_div_iff_mul_le (Nat.two_pow_pos _), ← Nat.pow_add, leading]
  exact Nat.log2_self_le nonzero

/-- Rounding does not bring a magnitude below a power of two that it reached. -/
theorem le_roundUnits {num den width : Nat} (wide : 52 ≤ width) (large : 1 <<< width ≤ num / den) :
    1 <<< width ≤ roundUnits num den := by
  rw [Nat.one_shiftLeft] at large ⊢
  have positive : num / den ≠ 0 := Nat.ne_of_gt (Nat.lt_of_lt_of_le (Nat.two_pow_pos _) large)
  have range : width ≤ (num / den).log2 := (Nat.le_log2 positive).mpr large
  obtain ⟨leading, digits⟩ := leading_digit_le (Nat.le_trans wide range) positive
  rw [Nat.one_shiftLeft] at digits
  calc 2 ^ width
    _ ≤ 2 ^ (num / den).log2 := Nat.pow_le_pow_right Nat.two_pos range
    _ = 2 ^ 52 * 2 ^ gridShift (num / den) := by rw [← leading, Nat.pow_add]
    _ ≤ nearestEven num (den <<< gridShift (num / den)) * 2 ^ gridShift (num / den) :=
      Nat.mul_le_mul_right _ digits
    _ = roundUnits num den := (Nat.shiftLeft_eq _ _).symm

theorem ofRatio_of_lt (negative : Bool) {num den : Nat} (small : 2 * num < den) :
    ofRatio negative num den = zero negative := by
  have rounded := roundUnits_of_lt small
  have range : roundUnits num den < magnitudeLimit := by
    rw [rounded]
    exact Representable.zero.lt
  rw [ofRatio, dif_pos range, zero]
  congr 1

theorem ofRatio_of_le (negative : Bool) {num den : Nat} (large : magnitudeLimit ≤ num / den) :
    ofRatio negative num den = .infinity negative := by
  have beyond : magnitudeLimit ≤ roundUnits num den := le_roundUnits (by decide) large
  rw [ofRatio, dif_neg (Nat.not_lt.mpr beyond)]

end Binary64

/-! The shortcuts -/

theorem shiftLeft_mul_shiftLeft (width shift : Nat) :
    1 <<< width * 1 <<< shift = 1 <<< (width + shift) := by
  simp only [Nat.one_shiftLeft, Nat.pow_add]

theorem shiftLeft_le_ten_pow {width exponent : Nat} (room : width ≤ 3 * exponent) :
    1 <<< width ≤ Nat.pow 10 exponent :=
  calc 1 <<< width
    _ = 2 ^ width := Nat.one_shiftLeft width
    _ ≤ 2 ^ (3 * exponent) := Nat.pow_le_pow_right Nat.two_pos room
    _ = 8 ^ exponent := Nat.pow_mul ..
    _ ≤ Nat.pow 10 exponent := Nat.pow_le_pow_left (by decide) exponent

namespace Decimal

theorem nearest_of_huge {d : Decimal} (huge : d.Huge) : d.nearest = .infinity false := by
  obtain ⟨coefficient, exponent⟩ := d
  obtain ⟨nonzero, large⟩ : coefficient ≠ 0 ∧ 342 ≤ exponent := huge
  cases exponent with
  | negSucc down => omega
  | ofNat up =>
    have up_le : 342 ≤ up := Int.ofNat_le.mp large
    apply Binary64.ofRatio_of_le
    calc magnitudeLimit
      _ = 1 <<< 1024 * Binary64.one := (shiftLeft_mul_shiftLeft 1024 1074).symm
      _ ≤ coefficient * Nat.pow 10 up * Binary64.one := by
        have room : 1024 ≤ 3 * up := by omega
        apply Nat.mul_le_mul_right
        refine Nat.le_trans (shiftLeft_le_ten_pow room) ?_
        exact Nat.le_mul_of_pos_left _ (Nat.pos_of_ne_zero nonzero)
      _ = coefficient * Nat.pow 10 up * Binary64.one / 1 := (Nat.div_one _).symm

theorem nearest_of_tiny {d : Decimal} (tiny : d.Tiny) : d.nearest = .zero false := by
  obtain ⟨coefficient, exponent⟩ := d
  rcases tiny with zero | tiny
  · obtain rfl : coefficient = 0 := zero
    cases exponent with
    | ofNat up =>
      apply Binary64.ofRatio_of_lt
      simp [ratio]
    | negSucc down =>
      apply Binary64.ofRatio_of_lt
      simp only [ratio, Nat.zero_mul, Nat.mul_zero]
      exact Nat.pow_pos (by decide)
  · change (coefficient.log2 : Int) + 1101 ≤ -3 * exponent at tiny
    cases exponent with
    | ofNat up => simp only [Int.ofNat_eq_natCast] at tiny; omega
    | negSucc down =>
      have room : 1 + (coefficient.log2 + 1 + 1074) ≤ 3 * (down + 1) := by omega
      apply Binary64.ofRatio_of_lt
      calc 2 * (coefficient * Binary64.one)
        _ < 2 * (1 <<< (coefficient.log2 + 1) * Binary64.one) := by
          apply Nat.mul_lt_mul_of_pos_left _ Nat.two_pos
          apply Nat.mul_lt_mul_of_pos_right _ (by decide +kernel)
          rw [Nat.one_shiftLeft]
          exact Nat.lt_log2_self
        _ = 1 <<< (1 + (coefficient.log2 + 1 + 1074)) := by
          rw [Binary64.one, shiftLeft_mul_shiftLeft]
          exact shiftLeft_mul_shiftLeft 1 _
        _ ≤ Nat.pow 10 (down + 1) := shiftLeft_le_ten_pow room

/-- Powers of ten that are never formed would not have mattered. -/
theorem toBinary64_eq_nearest (d : Decimal) : d.toBinary64 = d.nearest := by
  rw [toBinary64]
  split
  · rename_i tiny
    exact (nearest_of_tiny tiny).symm
  · split
    · rename_i huge
      exact (nearest_of_huge huge).symm
    · rfl

/-! Zeros at the end of a coefficient -/

theorem nearest_shift (coefficient : Nat) (exponent : Int) :
    nearest ⟨coefficient * 10, exponent⟩ = nearest ⟨coefficient, exponent + 1⟩ := by
  match exponent with
  | .ofNat up =>
    have same : coefficient * 10 * Nat.pow 10 up = coefficient * Nat.pow 10 (up + 1) := by
      rw [Nat.pow_eq, Nat.pow_eq, Nat.pow_succ]
      ac_rfl
    change Binary64.ofRatio false (coefficient * 10 * Nat.pow 10 up * Binary64.one) 1 =
      Binary64.ofRatio false (coefficient * Nat.pow 10 (up + 1) * Binary64.one) 1
    rw [same]
  | .negSucc 0 =>
    have same :
        coefficient * 10 * Binary64.one = coefficient * Nat.pow 10 0 * Binary64.one * 10 := by
      rw [Nat.pow_eq, Nat.pow_zero]
      ac_rfl
    change Binary64.ofRatio false (coefficient * 10 * Binary64.one) (1 * 10) =
      Binary64.ofRatio false (coefficient * Nat.pow 10 0 * Binary64.one) 1
    rw [same, Binary64.ofRatio_scale _ _ _ (by decide)]
  | .negSucc (down + 1) =>
    have same : coefficient * 10 * Binary64.one = coefficient * Binary64.one * 10 := by ac_rfl
    change Binary64.ofRatio false (coefficient * 10 * Binary64.one) (Nat.pow 10 (down + 1) * 10) =
      Binary64.ofRatio false (coefficient * Binary64.one) (Nat.pow 10 (down + 1))
    rw [same, Binary64.ofRatio_scale _ _ _ (by decide)]

/-- A zero at the end of a coefficient counts as much as one more in the exponent. -/
theorem nearest_shifted (coefficient zeros : Nat) (exponent : Int) :
    nearest ⟨coefficient * Nat.pow 10 zeros, exponent⟩ =
      nearest ⟨coefficient, exponent + zeros⟩ := by
  induction zeros generalizing exponent with
  | zero => simp
  | succ zeros ih =>
    have split : coefficient * Nat.pow 10 (zeros + 1) = coefficient * Nat.pow 10 zeros * 10 := by
      rw [Nat.pow_eq, Nat.pow_eq, Nat.pow_succ, Nat.mul_assoc]
    rw [split, nearest_shift, ih]
    congr 2
    omega

end Decimal

end LineCalc
