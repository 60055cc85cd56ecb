import LineCalc.Proofs.Precision
import LineCalc.Proofs.Remainder

set_option autoImplicit false

/- The floored quotient. What the truncated remainder leaves of the dividend is divided, the
quotient is moved down by one where the remainder is moved by one divisor, and the nearer whole
number is settled on. Up to `2 ^ 50` the roundings on the way do not add up to a half. -/
namespace LineCalc

theorem abs_floor_div_le (a b : ℤ) : |⌊(a : ℚ) / b⌋| ≤ |a| := by
  have shrunk : |(a : ℚ) / b| ≤ |a| := by
    rcases eq_or_ne b 0 with rfl | nonzero
    · simp
    · have least : (1 : ℚ) ≤ |(b : ℚ)| := by exact_mod_cast Int.one_le_abs nonzero
      rw [abs_div, Int.cast_abs]
      exact div_le_self (abs_nonneg _) least
  rw [abs_le] at shrunk ⊢
  constructor
  · rw [Int.le_floor, Int.cast_neg]
    exact shrunk.1
  · exact_mod_cast (Int.floor_le _).trans shrunk.2

namespace Binary64

/-! Truncated quotients -/

theorem signed_add (negative : Bool) (m n : Nat) :
    signed negative (m + n) = signed negative m + signed negative n := by
  cases negative <;> simp [signed]
  omega

theorem signed_div_add_mod (s t : Bool) (m n : Nat) :
    signed t n * signed (s != t) (m / n) + signed s (m % n) = signed s m := by
  have sign : (t != (s != t)) = s := by cases s <;> cases t <;> rfl
  rw [← signed_mul, sign, ← signed_add, Nat.div_add_mod]

theorem fdiv_signed (s t : Bool) (m : Nat) {n : Nat} (positive : 0 < n) :
    (signed s m).fdiv (signed t n) =
      signed (s != t) (m / n) - if m % n ≠ 0 ∧ s ≠ t then 1 else 0 := by
  have nonzero : signed t n ≠ 0 := by
    rw [← Int.natAbs_ne_zero, natAbs_signed]
    exact positive.ne'
  have below := Nat.mod_lt m positive
  have truncated := signed_div_add_mod s t m n
  have floored := Int.mul_fdiv_add_fmod (signed s m) (signed t n)
  rw [fmod_signed s t m positive, flooredUnits] at floored
  apply Int.eq_of_mul_eq_mul_left nonzero
  rw [Int.mul_sub]
  generalize signed t n * signed (s != t) (m / n) = multiple at truncated ⊢
  generalize signed t n * (signed s m).fdiv (signed t n) = other at floored ⊢
  generalize m % n = rest at below truncated floored ⊢
  cases s <;> cases t <;> grind [signed]

theorem abs_fmod_le (a : ℤ) {b : ℤ} (nonzero : b ≠ 0) : |a.fmod b| ≤ |b| := by
  have positive := Int.natAbs_pos.mpr nonzero
  have parts := fmod_signed (a < 0) (b < 0) a.natAbs positive
  rw [signed_natAbs, signed_natAbs] at parts
  rw [parts, Int.abs_eq_natAbs, Int.abs_eq_natAbs, natAbs_signed]
  exact_mod_cast flooredUnits_le _ a.natAbs positive

/-- The quotient without its fraction. -/
def truncated (x y : Binary64) : ℤ := signed (x.isNegative != y.isNegative) (x.units / y.units)

/-- A remainder is left and has the other sign than the divisor. -/
def moves (x y : Binary64) : Bool := !(x % y).isZero && (x % y).isNegative != y.isNegative

section

variable {x y : Binary64}

theorem isZero_of_value (finite : x.isFinite = true) (none : x.value = 0) : x.isZero = true := by
  obtain ⟨s, m, fits, rfl⟩ := isFinite_iff.mp finite
  rw [← abs_eq_zero, abs_value, div_eq_zero_iff, or_iff_left one_pos.ne', Nat.cast_eq_zero] at none
  exact beq_iff_eq.mpr none

theorem abs_mul_truncated_le : |y.value * truncated x y| ≤ |x.value| := by
  have fits : (y.units : ℚ) * (x.units / y.units : Nat) ≤ x.units := by
    exact_mod_cast Nat.mul_div_le x.units y.units
  rw [abs_mul, abs_value, abs_value, truncated, abs_signed, div_mul_eq_mul_div]
  exact div_le_div_of_nonneg_right fits one_pos.le

variable (dividend : x.isFinite = true) (divisor : y.isFinite = true) (nonzero : y.isZero = false)
include divisor nonzero

theorem value_ne_zero : y.value ≠ 0 := fun none => by
  rw [isZero_of_value divisor none] at nonzero
  cases nonzero

include dividend

theorem isFinite_rem : (x % y).isFinite = true := by
  obtain ⟨s, m, first, rfl⟩ := isFinite_iff.mp dividend
  obtain ⟨t, n, second, rfl⟩ := isFinite_iff.mp divisor
  rw [rem_finite s t first second (ne_of_beq_false nonzero)]
  rfl

theorem value_sub_rem : x.value - (x % y).value = y.value * truncated x y := by
  obtain ⟨s, m, first, rfl⟩ := isFinite_iff.mp dividend
  obtain ⟨t, n, second, rfl⟩ := isFinite_iff.mp divisor
  rw [rem_finite s t first second (ne_of_beq_false nonzero), value_finite, value_finite,
    value_finite, ← sub_div, div_mul_eq_mul_div, ← Int.cast_sub, ← Int.cast_mul,
    ← signed_div_add_mod s t m n, Int.add_sub_cancel]
  rfl

theorem moves_iff :
    moves x y = true ↔ x.units % y.units ≠ 0 ∧ x.isNegative ≠ y.isNegative := by
  obtain ⟨s, m, first, rfl⟩ := isFinite_iff.mp dividend
  obtain ⟨t, n, second, rfl⟩ := isFinite_iff.mp divisor
  rw [moves, rem_finite s t first second (ne_of_beq_false nonzero)]
  simp [isZero, isNegative, units]

theorem floor_value_div :
    ⌊x.value / y.value⌋ = truncated x y - if moves x y then 1 else 0 := by
  have positive : 0 < y.units := by
    rw [← @Nat.cast_pos ℚ, ← div_pos_iff_of_pos_right one_pos, ← abs_value]
    exact abs_pos.mpr (value_ne_zero divisor nonzero)
  rw [value, value, div_div_div_cancel_right₀ one_pos.ne', floor_div, fdiv_signed _ _ _ positive]
  simp only [moves_iff dividend divisor nonzero]
  rfl

theorem truncated_nonpos (moved : moves x y = true) : truncated x y ≤ 0 := by
  have differ := ((moves_iff dividend divisor nonzero).mp moved).2
  rw [truncated, bne_iff_ne.mpr differ, signed, if_pos rfl]
  exact neg_nonpos.mpr (Int.natCast_nonneg _)

/-- The quotient is moved away from zero. -/
theorem abs_truncated_le : |truncated x y| ≤ |⌊x.value / y.value⌋| := by
  rw [floor_value_div dividend divisor nonzero]
  split
  · rename_i moved
    have le := truncated_nonpos dividend divisor nonzero moved
    rw [abs_of_nonpos le, abs_of_nonpos (by omega)]
    omega
  · rw [sub_zero]

end

/-! Settling on a whole number -/

theorem OnGrid.one_dvd_or_lt {units : Nat} (grid : OnGrid units) :
    one ∣ units ∨ units < one * 2 ^ 52 := by
  have either : ∀ shift, 1 <<< shift ∣ units ∨ units < 1 <<< shift * 2 ^ 52 := by
    intro shift
    rw [Nat.one_shiftLeft, ← Nat.pow_add, Nat.add_comm shift]
    exact (grid.dvd_or_lt shift).imp_right And.right
  exact either 1074

theorem one_ne_zero : one ≠ 0 := by exact_mod_cast one_pos.ne'

/-- The magnitude of the greatest whole number below. -/
def floorSize (negative : Bool) (units : Nat) : Nat :=
  units / one + if negative = true ∧ units % one ≠ 0 then 1 else 0

theorem floor_finite (negative : Bool) {units : Nat} (fits : Representable units) :
    (finite negative units fits).floor = ofRatio negative (floorSize negative units * one) 1 :=
  rfl

theorem floor_value_finite (negative : Bool) {units : Nat} (fits : Representable units) :
    ⌊(finite negative units fits).value⌋ = signed negative (floorSize negative units) := by
  have quotient := fdiv_signed negative false units (Nat.pos_of_ne_zero one_ne_zero)
  rw [value_finite, ← Int.cast_natCast one, floor_div]
  refine quotient.trans ?_
  rw [floorSize]
  cases negative <;> grind [signed]

/-- Rounding down needs no rounding. Numbers with a fraction are small. -/
theorem floor_spec {z : Binary64} (finite : z.isFinite = true) :
    z.floor.isFinite = true ∧ z.floor.value = ⌊z.value⌋ ∧
      (z.value = ⌊z.value⌋ ∨ |⌊z.value⌋| ≤ 2 ^ 52) := by
  obtain ⟨s, m, fits, rfl⟩ := isFinite_iff.mp finite
  rw [floor_value_finite, floor_finite]
  have grid : OnGrid m := fits.dvd
  rcases grid.one_dvd_or_lt with whole | small
  · have rest : m % one = 0 := Nat.mod_eq_zero_of_dvd whole
    have back : m / one * one = m := Nat.div_mul_cancel whole
    have same : floorSize s m = m / one := by simp [floorSize, rest]
    have exact := value_whole s (back.symm ▸ fits)
    simp only [back] at exact
    rw [same, back, ofRatio_units s fits]
    exact ⟨rfl, exact, .inl exact⟩
  · have narrow : m / one < 2 ^ 52 := Nat.div_lt_of_lt_mul small
    have bound : floorSize s m ≤ 2 ^ 52 := by
      rw [floorSize]
      split <;> omega
    have fits := representable_whole (bound.trans (by decide))
    rw [ofRatio_units s fits]
    refine ⟨rfl, value_whole s fits, .inr ?_⟩
    rw [Int.abs_eq_natAbs, natAbs_signed]
    exact_mod_cast bound

theorem value_half : (ofInt 1 / ofInt 2).value = 1 / 2 := by
  have fits : Representable (1 <<< 1073) := .shifted (by decide) (by decide +kernel)
  have computed : ofInt 1 / ofInt 2 = ofRatio false (1 <<< 1073) 1 := by decide +kernel
  have halved : ∀ shift, ((1 <<< shift : Nat) : ℚ) / (1 <<< (shift + 1) : Nat) = 1 / 2 := by
    intro shift
    rw [cast_shiftLeft, cast_shiftLeft, pow_succ]
    field_simp
  rw [computed, ofRatio_units false fits, value_finite]
  exact halved 1073

/-- The whole number next to `z`, by its distance from the one below. -/
def settle (z : Binary64) : Binary64 :=
  if (ofInt 1 / ofInt 2).less (z - z.floor) then z.floor + ofInt 1 else z.floor

theorem settle_infinity (negative : Bool) : settle (infinity negative) = infinity negative := by
  have none : infinity negative - (infinity negative).floor = nan false := by
    cases negative <;> rfl
  have less_nan : ∀ x : Binary64, x.less (nan false) = false := by
    intro x
    cases x <;> rfl
  rw [settle, none, less_nan, if_neg Bool.false_ne_true]
  rfl

theorem one_spec : (ofInt 1).isFinite = true ∧ (ofInt 1).value = 1 := by
  have exact := ofInt_spec (k := 1) (by decide)
  rwa [Int.cast_one] at exact

section

variable {z : Binary64} (finite : z.isFinite = true)
include finite

theorem nearest_fraction : Nearest (Int.fract z.value) (z - z.floor) := by
  obtain ⟨floor, value, _⟩ := floor_spec finite
  rw [Int.fract, ← value]
  exact nearest_sub finite floor

/-- Only a number with a fraction is settled upward. -/
theorem settle_spec : (settle z).isFinite = true ∧
    (settle z).value = (if 1 / 2 < (z - z.floor).value then ⌊z.value⌋ + 1 else ⌊z.value⌋ : ℤ) := by
  obtain ⟨floor, value, size⟩ := floor_spec finite
  have nearest := nearest_fraction finite
  have number : (ofInt 1 / ofInt 2).isNan = false := by decide +kernel
  rw [settle]
  simp only [less_iff number nearest.number, value_half]
  split
  · rename_i upward
    -- A number without a fraction leaves a zero, which is not above a half.
    have small : |⌊z.value⌋| ≤ 2 ^ 52 := by
      refine size.resolve_left fun whole => ?_
      have none : Int.fract z.value = (0 : ℤ) := by
        rw [Int.fract, ← whole, sub_self, Int.cast_zero]
      have zero := ((none ▸ nearest).eq_intCast (by decide)).2
      rw [zero] at upward
      norm_num at upward
    have sum := nearest_add floor one_spec.1
    rw [value, one_spec.2, ← Int.cast_one, ← Int.cast_add] at sum
    apply sum.eq_intCast
    rw [abs_le] at small ⊢
    omega
  · exact ⟨floor, value⟩

/-- What is computed within `7 / 16` of a whole number is settled on it. -/
theorem settle_near {k : ℤ} (near : |z.value - k| ≤ 7 / 16) : (settle z).value = k := by
  rw [(settle_spec finite).2, Int.cast_inj]
  have nearest := nearest_fraction finite
  have least := Int.fract_nonneg z.value
  have most := Int.fract_lt_one z.value
  have fine : WholeUnits (Int.fract z.value) := (wholeUnits_value z).sub (wholeUnits_intCast _)
  rw [← abs_of_nonneg least] at most
  have error := (nearest.abs_sub_le_of_small (.inl fine) (by linarith)).2
  rw [abs_of_nonneg least] at error most
  rw [abs_le] at near error
  have parts := Int.floor_add_fract z.value
  -- The fraction is at most `7 / 16` or at least `9 / 16`; rounding does not take it over a half.
  rcases le_or_gt (k : ℚ) z.value with above | below
  · have whole : ⌊z.value⌋ = k := by
      rw [Int.floor_eq_iff]
      constructor <;> linarith
    rw [whole] at parts
    rw [if_neg (by linarith), whole]
  · have whole : ⌊z.value⌋ = k - 1 := by
      rw [Int.floor_eq_iff]
      push_cast
      constructor <;> linarith
    rw [whole] at parts
    push_cast at parts
    rw [if_pos (by linarith), whole]
    omega

end

/-! The quotient before it is settled -/

namespace Nearest

variable {q : ℚ} {k : ℤ} {x : Binary64}

/-- A quotient that one rounding has left next to a whole number is still close to it after
another. -/
theorem near_of_abs_sub_le (nearest : Nearest q x) (near : |q - k| ≤ |(k : ℚ)| / 2 ^ 53)
    (range : |(k : ℚ)| ≤ 2 ^ 50) : x.isFinite = true ∧ |x.value - k| ≤ 9 / 32 := by
  -- Below one half, where rounding is coarser than its relative error, it can only be zero.
  have fine : WholeUnits q ∨ 1 / 2 ≤ |q| := by
    rcases eq_or_ne k 0 with rfl | other
    · rw [Int.cast_zero, sub_zero, abs_zero, zero_div, abs_nonpos_iff] at near
      rw [near]
      exact .inl (wholeUnits_intCast 0)
    · have large : (1 : ℚ) ≤ |(k : ℚ)| := by exact_mod_cast Int.one_le_abs other
      have back := abs_sub_abs_le_abs_sub (k : ℚ) q
      rw [abs_sub_comm] at back
      right
      linarith
  have size := abs_sub_abs_le_abs_sub q k
  obtain ⟨finite, error⟩ := nearest.abs_sub_le_of_small fine (by linarith)
  refine ⟨finite, ?_⟩
  have first := near.trans (by linarith : _ ≤ (1 : ℚ) / 8)
  have second := error.trans (by linarith : _ ≤ (5 : ℚ) / 32)
  rw [abs_le] at first second ⊢
  constructor <;> linarith

/-- So it is after one is taken away. -/
theorem near_sub_one {y : Binary64} (nearest : Nearest (y.value - 1) x)
    (near : |y.value - k| ≤ 9 / 32) (range : |(k : ℚ)| ≤ 2 ^ 50) :
    x.isFinite = true ∧ |x.value - (k - 1)| ≤ 7 / 16 := by
  have fine := (wholeUnits_value y).sub (wholeUnits_intCast 1)
  rw [Int.cast_one] at fine
  have size : |y.value - 1| ≤ 2 ^ 50 + 2 := by
    rw [abs_le] at near range ⊢
    constructor <;> linarith
  obtain ⟨finite, error⟩ := nearest.abs_sub_le_of_small (.inl fine) (by linarith)
  refine ⟨finite, ?_⟩
  have closer := error.trans (by linarith : _ ≤ (5 : ℚ) / 32)
  rw [abs_le] at near closer ⊢
  constructor <;> linarith

end Nearest

/-- What is divided, without the move. -/
def exactQuotient (x y : Binary64) : Binary64 := (x - x % y) / y

def roughQuotient (x y : Binary64) : Binary64 :=
  if moves x y then exactQuotient x y - ofInt 1 else exactQuotient x y

theorem flooredQuotient_eq {x y : Binary64} (nonzero : y.isZero = false) :
    flooredQuotient x y =
      if (roughQuotient x y).isZero then copySign (zero false) (x / y)
      else settle (roughQuotient x y) := by
  have rough : (if !(x % y).isZero && (y.less (zero false) != (x % y).less (zero false)) then
      (x - x % y) / y - ofInt 1 else (x - x % y) / y) = roughQuotient x y := by
    rw [roughQuotient, moves, less_zero nonzero]
    cases left : (x % y).isZero with
    | true => rfl
    | false =>
      rw [less_zero left, bne_comm]
      rfl
  rw [flooredQuotient, rough]
  rfl

section

variable {x y : Binary64} (dividend : x.isFinite = true) (divisor : y.isFinite = true)
  (nonzero : y.isZero = false)
include dividend divisor nonzero

theorem nearest_sub_rem : Nearest (y.value * truncated x y) (x - x % y) := by
  rw [← value_sub_rem dividend divisor nonzero]
  exact nearest_sub dividend (isFinite_rem dividend divisor nonzero)

theorem isFinite_sub_rem : (x - x % y).isFinite = true :=
  (nearest_sub_rem dividend divisor nonzero).isFinite dividend abs_mul_truncated_le

theorem nearest_exactQuotient :
    Nearest ((x - x % y).value / y.value) (exactQuotient x y) :=
  nearest_div (isFinite_sub_rem dividend divisor nonzero) divisor nonzero

/-- The subtraction is off by at most one part in `2 ^ 53`, and so is what it is divided to. -/
theorem abs_sub_truncated_le :
    |(x - x % y).value / y.value - truncated x y| ≤ |(truncated x y : ℚ)| / 2 ^ 53 := by
  have fine : WholeUnits (y.value * truncated x y) := by
    rw [← value_sub_rem dividend divisor nonzero]
    exact (wholeUnits_value x).sub (wholeUnits_value _)
  have error := (nearest_sub_rem dividend divisor nonzero).abs_sub_le (.inl fine)
    abs_mul_truncated_le
  have divides := value_ne_zero divisor nonzero
  have size := abs_pos.mpr divides
  rw [abs_sub_comm, abs_mul, mul_div_assoc] at error
  refine le_of_mul_le_mul_left ?_ size
  rwa [← abs_mul, mul_sub, mul_div_cancel₀ _ divides]

/-- Nothing is rounded on the way between whole numbers. -/
theorem exactQuotient_whole {a b : ℤ} (first : x.value = a) (second : y.value = b)
    (small : |a| ≤ 2 ^ 53) :
    (exactQuotient x y).isFinite = true ∧ (exactQuotient x y).value = truncated x y := by
  have divides := value_ne_zero divisor nonzero
  rw [second] at divides
  have multiple : |b * truncated x y| ≤ |a| := by
    have le := @abs_mul_truncated_le x y
    rw [first, second] at le
    exact_mod_cast le
  have single : |truncated x y| ≤ |b * truncated x y| := by
    rw [abs_mul]
    exact le_mul_of_one_le_left (abs_nonneg _) (Int.one_le_abs (Int.cast_ne_zero.mp divides))
  have difference := nearest_sub_rem dividend divisor nonzero
  rw [second, ← Int.cast_mul] at difference
  have whole := (difference.eq_intCast (multiple.trans small)).2
  have ratio := nearest_exactQuotient dividend divisor nonzero
  rw [whole, second, Int.cast_mul, mul_div_cancel_left₀ _ divides] at ratio
  exact ratio.eq_intCast (single.trans (multiple.trans small))

theorem isNan_roughQuotient : (roughQuotient x y).isNan = false := by
  have number := (nearest_exactQuotient dividend divisor nonzero).number
  rw [roughQuotient]
  split
  · cases exact : exactQuotient x y with
    | nan signaling =>
      rw [exact] at number
      cases number
    | infinity negative =>
      obtain ⟨s, m, fits, one⟩ := isFinite_iff.mp one_spec.1
      rw [one]
      rfl
    | finite negative units fits => exact (nearest_sub rfl one_spec.1).number
  · exact number

theorem roughQuotient_near (range : |⌊x.value / y.value⌋| ≤ 2 ^ 50) :
    (roughQuotient x y).isFinite = true ∧
      |(roughQuotient x y).value - ⌊x.value / y.value⌋| ≤ 7 / 16 := by
  have small : |(truncated x y : ℚ)| ≤ 2 ^ 50 := by
    exact_mod_cast (abs_truncated_le dividend divisor nonzero).trans range
  obtain ⟨finite, near⟩ := (nearest_exactQuotient dividend divisor nonzero).near_of_abs_sub_le
    (abs_sub_truncated_le dividend divisor nonzero) small
  rw [roughQuotient, floor_value_div dividend divisor nonzero]
  split
  · have nearest := nearest_sub finite one_spec.1
    rw [one_spec.2] at nearest
    rw [Int.cast_sub, Int.cast_one]
    exact nearest.near_sub_one near small
  · rw [sub_zero]
    exact ⟨finite, near.trans (by norm_num)⟩

theorem roughQuotient_whole {a b : ℤ} (first : x.value = a) (second : y.value = b)
    (small : |a| ≤ 2 ^ 53) :
    (roughQuotient x y).isFinite = true ∧ (roughQuotient x y).value = ⌊x.value / y.value⌋ := by
  obtain ⟨finite, exact⟩ := exactQuotient_whole dividend divisor nonzero first second small
  have floor := floor_value_div dividend divisor nonzero
  rw [roughQuotient]
  split
  · rename_i moved
    have within : |⌊x.value / y.value⌋| ≤ 2 ^ 53 := by
      rw [first, second]
      exact (abs_floor_div_le a b).trans small
    have nearest := nearest_sub finite one_spec.1
    rw [if_pos moved] at floor
    rw [exact, one_spec.2, ← Int.cast_one, ← Int.cast_sub, ← floor] at nearest
    exact nearest.eq_intCast within
  · rename_i moved
    rw [if_neg moved, sub_zero] at floor
    rw [floor]
    exact ⟨finite, exact⟩

/-- A zero is reached by dividing a zero. -/
theorem isZero_roughQuotient (none : ⌊x.value / y.value⌋ = 0) :
    (roughQuotient x y).isZero = true := by
  have whole : truncated x y = 0 := by
    have le := abs_truncated_le dividend divisor nonzero
    rw [none, abs_zero] at le
    exact abs_nonpos_iff.mp le
  have still : moves x y = false := by
    have floor := floor_value_div dividend divisor nonzero
    rw [none, whole] at floor
    cases moved : moves x y with
    | true =>
      rw [moved, if_pos rfl] at floor
      omega
    | false => rfl
  have difference := nearest_sub_rem dividend divisor nonzero
  rw [whole, Int.cast_zero, mul_zero, ← Int.cast_zero] at difference
  have ratio := nearest_exactQuotient dividend divisor nonzero
  rw [(difference.eq_intCast (by decide)).2, Int.cast_zero, zero_div, ← Int.cast_zero] at ratio
  obtain ⟨finite, zero⟩ := ratio.eq_intCast (by decide)
  rw [roughQuotient, still, if_neg Bool.false_ne_true]
  exact isZero_of_value finite (zero.trans Int.cast_zero)

theorem isNegative_div : (x / y).isNegative = (x.isNegative != y.isNegative) := by
  obtain ⟨s, m, first, rfl⟩ := isFinite_iff.mp dividend
  obtain ⟨t, n, second, rfl⟩ := isFinite_iff.mp divisor
  have positive : n ≠ 0 := ne_of_beq_false nonzero
  change (Binary64.div _ _).isNegative = _
  rw [Binary64.div, if_neg positive]
  exact isNegative_ofRatio ..

end

end Binary64

open Binary64

/-! The floored quotient -/

section

variable {x y : Binary64} (dividend : x.isFinite = true) (divisor : y.isFinite = true)
  (nonzero : y.isZero = false)
include dividend divisor nonzero

theorem flooredQuotient_whole :
    (flooredQuotient x y).isFinite = true ∧ (∃ k : ℤ, (flooredQuotient x y).value = k) ∨
      ∃ negative, flooredQuotient x y = infinity negative := by
  have number := isNan_roughQuotient dividend divisor nonzero
  rw [flooredQuotient_eq nonzero]
  split
  · exact .inl ⟨rfl, 0, (value_zero _).trans Int.cast_zero.symm⟩
  · cases rough : roughQuotient x y with
    | nan signaling =>
      rw [rough] at number
      cases number
    | infinity negative => exact .inr ⟨negative, settle_infinity negative⟩
    | finite negative units fits =>
      obtain ⟨finite, value⟩ := settle_spec (z := finite negative units fits) rfl
      exact .inl ⟨finite, _, value⟩

omit dividend divisor in
theorem flooredQuotient_near {k : ℤ} (finite : (roughQuotient x y).isFinite = true)
    (near : |(roughQuotient x y).value - k| ≤ 7 / 16) :
    (flooredQuotient x y).isFinite = true ∧ (flooredQuotient x y).value = k := by
  rw [flooredQuotient_eq nonzero]
  split
  · rename_i none
    obtain ⟨negative, zero⟩ := isZero_iff.mp none
    rw [zero, value_zero, zero_sub, abs_neg] at near
    have small : |(k : ℚ)| < 1 := near.trans_lt (by norm_num)
    have whole : k = 0 := Int.abs_lt_one_iff.mp (by exact_mod_cast small)
    rw [whole, Int.cast_zero]
    exact ⟨rfl, value_zero _⟩
  · exact ⟨(settle_spec finite).1, settle_near finite near⟩

theorem flooredQuotient_floor (range : |⌊x.value / y.value⌋| ≤ 2 ^ 50) :
    (flooredQuotient x y).isFinite = true ∧
      (flooredQuotient x y).value = ⌊x.value / y.value⌋ ∧
      ((flooredQuotient x y).isZero = true →
        (flooredQuotient x y).isNegative = (x.isNegative != y.isNegative)) := by
  obtain ⟨rough, near⟩ := roughQuotient_near dividend divisor nonzero range
  obtain ⟨finite, value⟩ := flooredQuotient_near nonzero rough near
  refine ⟨finite, value, fun none => ?_⟩
  obtain ⟨negative, zero⟩ := isZero_iff.mp none
  rw [zero, value_zero, eq_comm, Int.cast_eq_zero] at value
  rw [flooredQuotient_eq nonzero, if_pos (isZero_roughQuotient dividend divisor nonzero value)]
  exact isNegative_div dividend divisor nonzero

theorem flooredQuotient_int {a b : ℤ} (first : x.value = a) (second : y.value = b)
    (small : |a| ≤ 2 ^ 53) :
    (flooredQuotient x y).isFinite = true ∧ (flooredQuotient x y).value = a.fdiv b := by
  obtain ⟨rough, exact⟩ := roughQuotient_whole dividend divisor nonzero first second small
  rw [first, second, floor_div] at exact
  apply flooredQuotient_near nonzero rough
  rw [exact, sub_self, abs_zero]
  norm_num

theorem flooredRemainder_int {a b : ℤ} (first : x.value = a) (second : y.value = b)
    (small : |b| ≤ 2 ^ 53) :
    (flooredRemainder x y).isFinite = true ∧ (flooredRemainder x y).value = a.fmod b := by
  have nearest := nearest_flooredRemainder dividend divisor nonzero
  rw [first, second, sub_mul_floor_div] at nearest
  refine nearest.eq_intCast ((abs_fmod_le a ?_).trans small)
  rintro rfl
  exact value_ne_zero divisor nonzero (by rw [second, Int.cast_zero])

end

/-- The quotient by a finite divisor other than zero is a whole number or an infinity. Up to
`2 ^ 50` it is the floor of the exact quotient; a zero has the sign of the exact quotient. Of whole
numbers up to `2 ^ 53`, quotient and remainder are those of whole numbers, from which the dividend
comes back. -/
theorem apply_floorDiv {x y : Binary64} (dividend : x.isFinite = true)
    (divisor : y.isFinite = true) (nonzero : y.isZero = false) :
    ∃ q, Operator.floorDiv.apply x y = .ok q ∧ q.isNan = false ∧
      (q.isFinite = true ∧ (∃ k : ℤ, q.value = k) ∨ ∃ negative, q = .infinity negative) ∧
      (|⌊x.value / y.value⌋| ≤ 2 ^ 50 →
        q.isFinite = true ∧ q.value = ⌊x.value / y.value⌋ ∧
          (q.isZero = true → q.isNegative = (x.isNegative != y.isNegative))) ∧
      ∀ a b : ℤ, x.value = a → y.value = b → |a| ≤ 2 ^ 53 → |b| ≤ 2 ^ 53 →
        ∃ r, Operator.mod.apply x y = .ok r ∧ q.isFinite = true ∧ r.isFinite = true ∧
          q.value = a.fdiv b ∧ r.value = a.fmod b ∧ x.value = y.value * q.value + r.value := by
  have whole := flooredQuotient_whole dividend divisor nonzero
  refine ⟨flooredQuotient x y, Operator.floorDiv.apply_eq_ok x nonzero, ?_, whole,
    flooredQuotient_floor dividend divisor nonzero, ?_⟩
  · rcases whole with ⟨finite, _⟩ | ⟨negative, infinite⟩
    · exact isNan_of_isFinite finite
    · rw [infinite]
      rfl
  · intro a b first second smallDividend smallDivisor
    obtain ⟨finite, quotient⟩ :=
      flooredQuotient_int dividend divisor nonzero first second smallDividend
    obtain ⟨left, remainder⟩ :=
      flooredRemainder_int dividend divisor nonzero first second smallDivisor
    refine ⟨flooredRemainder x y, Operator.mod.apply_eq_ok x nonzero, finite, left, quotient,
      remainder, ?_⟩
    rw [first, second, quotient, remainder, ← Int.cast_mul, ← Int.cast_add, Int.mul_fdiv_add_fmod]

/-- The number nearest to one tenth is greater than it, so that it goes into 1 only nine times,
though 1 divided by it is rounded to 10. -/
theorem apply_floorDiv_tenth :
    let tenth := ofBits 0x3FB999999999999A
    ofInt 1 / tenth = ofInt 10 ∧
      ∃ q, Operator.floorDiv.apply (ofInt 1) tenth = .ok q ∧ q.isFinite = true ∧ q.value = 9 := by
  intro tenth
  have dividend : (ofInt 1).isFinite = true := by decide +kernel
  have divisor : tenth.isFinite = true := by decide +kernel
  have nonzero : tenth.isZero = false := by decide +kernel
  have nine : ⌊(ofInt 1).value / tenth.value⌋ = 9 := by
    rw [floor_value_div dividend divisor nonzero]
    decide +kernel
  obtain ⟨q, value, _, _, exact, _⟩ := apply_floorDiv dividend divisor nonzero
  obtain ⟨finite, floor, _⟩ := exact (by rw [nine]; decide)
  rw [nine] at floor
  exact ⟨by decide +kernel, q, value, finite, floor⟩

end LineCalc
