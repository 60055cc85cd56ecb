import LineCalc.Proofs.Rounding

set_option autoImplicit false

/- How far one rounding goes. Sums, differences and quotients of finite numbers come to the nearest
number, which is off by at most one part in `2 ^ 53`; whole numbers up to `2 ^ 53` are not off at
all. -/
namespace LineCalc.Binary64

/-! Operations -/

theorem value_zero (negative : Bool) : (zero negative).value = 0 := by
  cases negative <;> simp [zero, value, units, signed]

theorem signed_natAbs (k : ℤ) : signed (k < 0) k.natAbs = k := by
  simp only [signed, decide_eq_true_eq]
  split <;> omega

theorem signed_mul (s t : Bool) (m n : Nat) :
    signed (s != t) (m * n) = signed s m * signed t n := by
  cases s <;> cases t <;> simp [signed]

theorem nearest_add {x y : Binary64} (first : x.isFinite = true) (second : y.isFinite = true) :
    Nearest (x.value + y.value) (x + y) := by
  obtain ⟨s, m, _, rfl⟩ := isFinite_iff.mp first
  obtain ⟨t, n, _, rfl⟩ := isFinite_iff.mp second
  rw [value_finite, value_finite, ← add_div, ← Int.cast_add]
  change Nearest _ (Binary64.add _ _)
  simp only [Binary64.add]
  generalize signed s m + signed t n = sum
  split
  · rename_i none
    have zeros : ((sum : ℤ) : ℚ) / one = (zero (s && t)).value := by
      rw [none, Int.cast_zero, zero_div, value_zero]
    rw [zeros]
    exact .value rfl
  · have nearest := nearest_ofRatio (sum < 0) sum.natAbs Nat.one_pos
    rwa [signed_natAbs, Nat.cast_one, div_one] at nearest

theorem isFinite_neg (x : Binary64) : (-x).isFinite = x.isFinite := by
  change x.neg.isFinite = x.isFinite
  cases x <;> rfl

theorem nearest_sub {x y : Binary64} (first : x.isFinite = true) (second : y.isFinite = true) :
    Nearest (x.value - y.value) (x - y) := by
  rw [sub_eq_add_neg, ← value_neg]
  exact nearest_add first (by rwa [isFinite_neg])

theorem nearest_div {x y : Binary64} (first : x.isFinite = true) (second : y.isFinite = true)
    (nonzero : y.isZero = false) : Nearest (x.value / y.value) (x / y) := by
  obtain ⟨s, m, _, rfl⟩ := isFinite_iff.mp first
  obtain ⟨t, n, _, rfl⟩ := isFinite_iff.mp second
  have positive : n ≠ 0 := ne_of_beq_false nonzero
  have nearest := nearest_ofRatio (s != t) (m * one) (Nat.pos_of_ne_zero positive)
  have scaled : (signed (s != t) (m * one) : ℚ) / n / one = (signed s m : ℚ) / signed t n := by
    have unit := one_pos.ne'
    have size : (n : ℚ) ≠ 0 := Nat.cast_ne_zero.mpr positive
    rw [signed_mul, Int.cast_mul, signed_eq t, signed_eq t]
    generalize (signed s m : ℚ) = left
    cases t <;> simp <;> field_simp
  rw [value_finite, value_finite, div_div_div_cancel_right₀ one_pos.ne', ← scaled]
  change Nearest _ (Binary64.div _ _)
  rw [Binary64.div, if_neg positive]
  exact nearest

/-! One rounding -/

/-- Rounding keeps a whole number of units as it is, or all but one part in `2 ^ 53` of it. -/
theorem abs_sub_roundUnits_le (num : Nat) {den : Nat} (positive : 0 < den)
    (fine : den = 1 ∨ 2 ^ 52 ≤ (num : ℚ) / den) :
    |(num : ℚ) / den - roundUnits num den| ≤ (num : ℚ) / den / 2 ^ 53 := by
  obtain ⟨significand, shift, rounded, nearest, _, leading⟩ := exists_significand num positive
  have either : (num : ℚ) / den = significand ∧ shift = 0 ∨ 2 ^ (52 + shift) ≤ (num : ℚ) / den := by
    rcases Nat.eq_zero_or_pos shift with rfl | shifted
    · rcases fine with rfl | large
      · left
        rw [Nat.cast_one, div_one, pow_zero, div_one] at nearest
        have own : NearestInt (num : ℚ) (num : ℤ) := .of_lt (by simp)
        have same := nearest.unique own
        rw [Nat.cast_one, div_one]
        exact ⟨by exact_mod_cast same, rfl⟩
      · exact .inr large
    · exact .inr (leading shifted.ne').2
  rw [rounded, cast_shiftLeft]
  generalize (num : ℚ) / den = exact at *
  rcases either with ⟨rfl, rfl⟩ | large
  · rw [pow_zero, mul_one, sub_self, abs_zero]
    positivity
  · have spacing : (0 : ℚ) < 2 ^ shift := by positivity
    have scaled : exact - significand * 2 ^ shift =
        (exact / 2 ^ shift - (significand : ℤ)) * 2 ^ shift := by
      rw [sub_mul, div_mul_cancel₀ _ spacing.ne', Int.cast_natCast]
    rw [scaled, abs_mul, abs_of_pos spacing, le_div_iff₀ (by positivity)]
    calc |exact / 2 ^ shift - (significand : ℤ)| * 2 ^ shift * 2 ^ 53
      _ ≤ 1 / 2 * 2 ^ shift * 2 ^ 53 := by
        have close := nearest.close
        gcongr
      _ = 2 ^ (52 + shift) := by
        rw [pow_add]
        ring
      _ ≤ exact := large

/-- Infinity is as near as its magnitude to what lies before it. -/
theorem abs_sub_units_ofRatio_le (negative : Bool) (num : Nat) {den : Nat} (positive : 0 < den)
    (fine : den = 1 ∨ 2 ^ 52 ≤ (num : ℚ) / den) (range : (num : ℚ) / den ≤ magnitudeLimit) :
    |(num : ℚ) / den - (ofRatio negative num den).units| ≤ (num : ℚ) / den / 2 ^ 53 := by
  have close := abs_sub_roundUnits_le num positive fine
  rw [ofRatio]
  split
  · exact close
  · rename_i beyond
    have past : (magnitudeLimit : ℚ) ≤ roundUnits num den := by
      exact_mod_cast Nat.not_lt.mp beyond
    refine le_trans ?_ close
    change |(num : ℚ) / den - magnitudeLimit| ≤ _
    rw [abs_of_nonpos (by linarith), abs_of_nonpos (by linarith)]
    linarith

/-- A whole number of units. -/
def WholeUnits (q : ℚ) : Prop := ∃ k : ℤ, q = k / one

theorem wholeUnits_value (x : Binary64) : WholeUnits x.value := ⟨signed x.isNegative x.units, rfl⟩

theorem wholeUnits_intCast (k : ℤ) : WholeUnits k := by
  refine ⟨k * one, ?_⟩
  rw [Int.cast_mul, Int.cast_natCast, mul_div_cancel_right₀ _ one_pos.ne']

theorem WholeUnits.sub {p q : ℚ} (first : WholeUnits p) (second : WholeUnits q) :
    WholeUnits (p - q) := by
  obtain ⟨k, rfl⟩ := first
  obtain ⟨l, rfl⟩ := second
  exact ⟨k - l, by rw [Int.cast_sub, sub_div]⟩

theorem exists_ratio {q : ℚ} (fine : WholeUnits q ∨ 1 / 2 ≤ |q|) :
    ∃ negative num den, 0 < den ∧ q = (signed negative num : ℚ) / (den : Nat) / one ∧
      (den = 1 ∨ 2 ^ 52 ≤ (num : ℚ) / den) := by
  rcases fine with ⟨k, rfl⟩ | large
  · refine ⟨k < 0, k.natAbs, 1, Nat.one_pos, ?_, .inl rfl⟩
    rw [signed_natAbs, Nat.cast_one, div_one]
  · have parts :
        q = (signed ((q * one).num < 0) (q * one).num.natAbs : ℚ) / (q * one).den / one := by
      rw [signed_natAbs, Rat.num_div_den, mul_div_cancel_right₀ _ one_pos.ne']
    have size : ((q * one).num.natAbs : ℚ) / (q * one).den = |q| * one := by
      rw [Nat.cast_natAbs, Int.cast_abs, ← Nat.abs_cast (q * one).den, ← abs_div, Rat.num_div_den,
        abs_mul, abs_of_pos one_pos]
    refine ⟨_, _, _, (q * one).den_pos, parts, .inr ?_⟩
    rw [size, one, cast_shiftLeft, Nat.cast_one, one_mul]
    calc (2 : ℚ) ^ 52
      _ ≤ 2 ^ 1073 := pow_le_pow_right₀ one_le_two (by decide)
      _ = 1 / 2 * 2 ^ 1074 := by rw [pow_succ _ 1073, mul_comm, mul_assoc]; norm_num
      _ ≤ |q| * 2 ^ 1074 := mul_le_mul_of_nonneg_right large (by positivity)

namespace Nearest

variable {q : ℚ} {x : Binary64}

theorem abs_sub_le (nearest : Nearest q x) (fine : WholeUnits q ∨ 1 / 2 ≤ |q|) {bound : Binary64}
    (within : |q| ≤ |bound.value|) : |q - x.value| ≤ |q| / 2 ^ 53 := by
  obtain ⟨negative, num, den, positive, parts, fine⟩ := exists_ratio fine
  have size : |q| = (num : ℚ) / den / one := by
    rw [parts, abs_div, abs_div, abs_signed, Nat.abs_cast, abs_of_pos one_pos]
  have range : (num : ℚ) / den ≤ magnitudeLimit := by
    have most : (bound.units : ℚ) ≤ magnitudeLimit := by exact_mod_cast units_le bound
    rw [size, abs_value, div_le_div_iff_of_pos_right one_pos] at within
    exact within.trans most
  have close := abs_sub_units_ofRatio_le negative num positive fine range
  have distance : |q - (ofRatio negative num den).value| =
      |(num : ℚ) / den - (ofRatio negative num den).units| / one := by
    rw [parts, Binary64.value, isNegative_ofRatio, signed_eq, signed_eq, mul_div_assoc, ← sub_div,
      ← mul_sub, abs_div, abs_mul, abs_of_pos one_pos]
    cases negative <;> simp
  calc |q - x.value|
    _ ≤ |q - (ofRatio negative num den).value| := nearest.closest _ (isNan_ofRatio _ _ _)
    _ ≤ (num : ℚ) / den / 2 ^ 53 / one := by
      rw [distance]
      exact div_le_div_of_nonneg_right close one_pos.le
    _ = |q| / 2 ^ 53 := by rw [size, div_right_comm]

/-- What is rounded stays finite up to the largest number. -/
theorem isFinite (nearest : Nearest q x) {bound : Binary64} (finite : bound.isFinite = true)
    (within : |q| ≤ |bound.value|) : x.isFinite = true := by
  obtain ⟨s, m, fits, rfl⟩ := isFinite_iff.mp finite
  have le := nearest.units_le_units rfl within
  have number := nearest.number
  cases x with
  | nan signaling => cases number
  | infinity negative => exact absurd fits.lt (Nat.not_lt.mpr le)
  | finite t n fits => rfl

end Nearest

/-! Whole numbers -/

theorem representable_whole {n : Nat} (small : n ≤ 1 <<< 53) : Representable (n * one) := by
  have narrow : n < 1 <<< 54 := Nat.lt_of_le_of_lt small (by decide)
  have lt : n <<< 1074 < magnitudeLimit := lt_magnitudeLimit (shiftLeft_lt narrow 1074) (by decide)
  have shifted : ∀ shift, n * 1 <<< shift = n <<< shift := by
    intro shift
    rw [Nat.one_shiftLeft, Nat.shiftLeft_eq]
  rw [one, shifted]
  exact .shifted small lt

theorem value_whole (negative : Bool) {n : Nat} (fits : Representable (n * one)) :
    (finite negative (n * one) fits).value = signed negative n := by
  rw [value_finite, signed_eq, signed_eq, Nat.cast_mul, mul_div_assoc,
    mul_div_cancel_right₀ _ one_pos.ne']

theorem ofInt_spec {k : ℤ} (small : |k| ≤ 2 ^ 53) :
    (ofInt k).isFinite = true ∧ (ofInt k).value = k := by
  have narrow : k.natAbs ≤ 1 <<< 53 := by
    rw [abs_le] at small
    omega
  have exact : ofInt k = finite (k < 0) (k.natAbs * one) (representable_whole narrow) := by
    rw [ofInt, ← ofRatio_mul _ (representable_whole narrow) Nat.one_pos, Nat.mul_one]
  rw [exact, value_whole, signed_natAbs]
  exact ⟨rfl, rfl⟩

namespace Nearest

variable {q : ℚ} {x : Binary64}

/-- Among the whole numbers that are all represented, rounding is off by one part in `2 ^ 53`. -/
theorem abs_sub_le_of_small (nearest : Nearest q x) (fine : WholeUnits q ∨ 1 / 2 ≤ |q|)
    (small : |q| ≤ 2 ^ 53) : x.isFinite = true ∧ |q - x.value| ≤ |q| / 2 ^ 53 := by
  obtain ⟨finite, bound⟩ := ofInt_spec (k := 2 ^ 53) (by decide)
  have within : |q| ≤ |(ofInt (2 ^ 53)).value| := by
    rw [bound]
    norm_num
    linarith
  exact ⟨nearest.isFinite finite within, nearest.abs_sub_le fine within⟩

/-- Whole numbers up to `2 ^ 53` need no rounding. -/
theorem eq_intCast {k : ℤ} (nearest : Nearest k x) (small : |k| ≤ 2 ^ 53) :
    x.isFinite = true ∧ x.value = k := by
  obtain ⟨finite, same⟩ := ofInt_spec small
  have number : (ofInt k).isNan = false := isNan_ofRatio _ _ _
  have own : Nearest k (ofInt k) := same ▸ .value number
  refine ⟨nearest.isFinite finite (by rw [same]), ?_⟩
  rw [← nearest.unique own, same]

end Nearest

end LineCalc.Binary64
