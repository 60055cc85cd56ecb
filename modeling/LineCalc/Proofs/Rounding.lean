import Mathlib.Data.Nat.Cast.Order.Field
import LineCalc.Proofs.Nearest
import LineCalc.Proofs.Order
import LineCalc.Proofs.WholeNumber

set_option autoImplicit false

/- Rounding to binary64 numbers. What is rounded comes to the nearest number, and of two equally
near ones to the one with an even significand. -/
namespace LineCalc.Binary64

/-- The number nearest to `q`. Of two equally near ones it is the one with the even code, which is
the one with the even significand. Infinity is nearest from half a step behind the finite numbers
on. -/
structure Nearest (q : ℚ) (x : Binary64) : Prop where
  number : x.isNan = false
  closest : ∀ y : Binary64, y.isNan = false → |q - x.value| ≤ |q - y.value|
  even : ∀ y : Binary64, y.isNan = false → |q - x.value| = |q - y.value| →
    y.value = x.value ∨ Even x.code

namespace Nearest

variable {q : ℚ} {x y : Binary64}

theorem neg (nearest : Nearest q x) : Nearest (-q) (-x) := by
  have mirror : ∀ z : Binary64, |-q - z.value| = |q - (-z).value| := by
    intro z
    rw [value_neg, ← abs_neg]
    ring_nf
  have own : |-q - (-x).value| = |q - x.value| := by rw [mirror, double_neg]
  constructor
  · rw [isNan_neg]
    exact nearest.number
  · intro y number
    rw [own, mirror]
    exact nearest.closest (-y) (by rwa [isNan_neg])
  · intro y number tie
    rw [own, mirror] at tie
    rw [code_neg, value_neg]
    refine (nearest.even (-y) (by rwa [isNan_neg]) tie).imp_left fun same => ?_
    rw [← same, value_neg, neg_neg]

/-- A number is nearest to its own value. -/
theorem value (number : x.isNan = false) : Nearest x.value x := by
  refine ⟨number, fun y _ => ?_, fun y _ tie => .inl ?_⟩
  · rw [sub_self, abs_zero]
    exact abs_nonneg _
  · rw [sub_self, abs_zero, eq_comm, abs_eq_zero, sub_eq_zero] at tie
    exact tie.symm

/-- A number between two nearest ones would be nearer than one of them. -/
theorem not_between {z : Binary64} (first : Nearest q x) (second : Nearest q y)
    (number : z.isNan = false) (above : x.value < z.value) : ¬z.value < y.value := by
  intro below
  have left := first.closest z number
  have right := second.closest z number
  rcases le_total q z.value with less | greater
  · rw [abs_of_nonpos (sub_nonpos.mpr less)] at right
    have far := neg_le_abs (q - y.value)
    linarith
  · rw [abs_of_nonneg (sub_nonneg.mpr greater)] at left
    have far := le_abs_self (q - x.value)
    linarith

/-- Nothing else is nearest, but for the other zero. -/
theorem unique (first : Nearest q x) (second : Nearest q y) : y.value = x.value := by
  have tie : |q - x.value| = |q - y.value| :=
    le_antisymm (first.closest y second.number) (second.closest x first.number)
  by_contra differ
  have evenFirst := (first.even y second.number tie).resolve_left differ
  have evenSecond := (second.even x first.number tie.symm).resolve_left (Ne.symm differ)
  rcases lt_or_gt_of_ne differ with less | greater
  · obtain ⟨z, number, above, below⟩ :=
      exists_value_between second.number first.number evenSecond evenFirst less
    exact second.not_between first number above below
  · obtain ⟨z, number, above, below⟩ :=
      exists_value_between first.number second.number evenFirst evenSecond greater
    exact first.not_between second number above below

/-- Rounding does not lead past a number. -/
theorem abs_value_le (nearest : Nearest q x) (number : y.isNan = false) (within : |q| ≤ |y.value|) :
    |x.value| ≤ |y.value| := by
  have either : ∀ bound, |bound| = |y.value| → |q - x.value| ≤ |q - bound| := by
    intro bound same
    rcases abs_eq_abs.mp same with rfl | rfl
    · exact nearest.closest y number
    · rw [← value_neg]
      exact nearest.closest (-y) (by rwa [isNan_neg])
  have upper := either |y.value| (abs_abs _)
  have lower := either (-|y.value|) (by rw [abs_neg, abs_abs])
  obtain ⟨least, most⟩ := abs_le.mp within
  rw [abs_of_nonpos (sub_nonpos.mpr most)] at upper
  rw [abs_of_nonneg (sub_nonneg.mpr least)] at lower
  rw [abs_le]
  obtain ⟨first, _⟩ := abs_le.mp upper
  obtain ⟨_, second⟩ := abs_le.mp lower
  constructor <;> linarith

theorem units_le_units (nearest : Nearest q x) (number : y.isNan = false)
    (within : |q| ≤ |y.value|) : x.units ≤ y.units := by
  have le := nearest.abs_value_le number within
  rw [abs_value, abs_value, div_le_div_iff_of_pos_right one_pos] at le
  exact_mod_cast le

end Nearest

/-! Magnitudes -/

/-- With nothing but zeros after the first 53 binary digits, however large. -/
def OnGrid (units : Nat) : Prop := 1 <<< (units.log2 - 52) ∣ units

theorem onGrid_shiftLeft (width : Nat) : OnGrid (1 <<< width) := by
  rw [OnGrid, Nat.one_shiftLeft, Nat.one_shiftLeft, Nat.log2_two_pow]
  exact Nat.pow_dvd_pow 2 (Nat.sub_le width 52)

theorem onGrid_units (x : Binary64) : OnGrid x.units := by
  cases x with
  | nan signaling => exact Nat.dvd_zero _
  | infinity negative => exact onGrid_shiftLeft 2098
  | finite negative units fits => exact fits.dvd

theorem units_le (x : Binary64) : x.units ≤ magnitudeLimit := by
  cases x with
  | nan signaling => exact Nat.zero_le _
  | infinity negative => exact Nat.le_refl _
  | finite negative units fits => exact Nat.le_of_lt fits.lt

/-- The code of a magnitude is even with its significand. -/
theorem even_encodeUnits {significand shift : Nat} (even : Even significand)
    (narrow : significand ≤ 1 <<< 53) (leading : shift ≠ 0 → 1 <<< 52 ≤ significand) :
    Even (encodeUnits (significand <<< shift)) := by
  rw [Nat.even_iff] at even ⊢
  rcases Nat.lt_or_ge significand (1 <<< 52) with small | large
  · have unshifted : shift = 0 := by
      by_contra shifted
      exact absurd (leading shifted) (Nat.not_le.mpr small)
    rw [unshifted, Nat.shiftLeft_zero, encodeUnits_of_lt small]
    exact even
  · rcases Nat.lt_or_eq_of_le narrow with narrow | full
    · rw [encodeUnits_shifted large narrow]
      omega
    · have whole : (1 <<< 53 : Nat) = 1 <<< 52 <<< 1 := by decide
      have carried : significand <<< shift = (1 <<< 52) <<< (1 + shift) := by
        rw [full, whole, Nat.shiftLeft_add]
      rw [carried, encodeUnits_shifted (Nat.le_refl _) (by decide)]
      omega

section

variable (num : Nat) {den : Nat}

/-- Rounding takes the nearest significand on the local grid. Where the grid is wider than a unit,
the leading digit is in place. -/
theorem exists_significand (positive : 0 < den) :
    ∃ significand shift : Nat, roundUnits num den = significand <<< shift ∧
      NearestInt ((num : ℚ) / den / 2 ^ shift) significand ∧ significand ≤ 1 <<< 53 ∧
      (shift ≠ 0 → 1 <<< 52 ≤ significand ∧ 2 ^ (52 + shift) ≤ (num : ℚ) / den) := by
  have spaced : 0 < den <<< gridShift (num / den) := by
    rw [Nat.shiftLeft_eq]
    exact Nat.mul_pos positive (Nat.two_pow_pos _)
  refine ⟨nearestEven num (den <<< gridShift (num / den)), gridShift (num / den), rfl, ?_,
    nearest_on_grid_le num den, fun shifted => ?_⟩
  · have nearest := nearestInt_nearestEven num spaced
    rwa [cast_shiftLeft, ← div_div] at nearest
  · have wide : 52 ≤ (num / den).log2 := by
      rw [gridShift] at shifted
      omega
    have nonzero : num / den ≠ 0 := by
      intro zero
      rw [zero, Nat.log2_zero] at wide
      omega
    obtain ⟨leading, digits⟩ := leading_digit_le wide nonzero
    refine ⟨digits, ?_⟩
    rw [leading]
    calc (2 : ℚ) ^ (num / den).log2
      _ ≤ (num / den : Nat) := by exact_mod_cast Nat.log2_self_le nonzero
      _ ≤ (num : ℚ) / den := Nat.cast_div_le

/-- A magnitude is a multiple of the local spacing, or lies below the numbers of that spacing. -/
theorem OnGrid.dvd_or_lt {units : Nat} (grid : OnGrid units) (shift : Nat) :
    2 ^ shift ∣ units ∨ shift ≠ 0 ∧ units < 2 ^ (52 + shift) := by
  by_cases fine : shift ≤ units.log2 - 52
  · rw [OnGrid, Nat.one_shiftLeft] at grid
    exact .inl ((Nat.pow_dvd_pow 2 fine).trans grid)
  · refine .inr ⟨by omega, ?_⟩
    refine Nat.lt_of_lt_of_le Nat.lt_log2_self (Nat.pow_le_pow_right Nat.two_pos ?_)
    omega

/-- No magnitude is nearer than the rounded one, and one as near leaves the rounded one an even
code. -/
theorem closest_roundUnits (positive : 0 < den) {other : Nat} (grid : OnGrid other) :
    |(num : ℚ) / den - roundUnits num den| ≤ |(num : ℚ) / den - other| ∧
      (|(num : ℚ) / den - roundUnits num den| = |(num : ℚ) / den - other| →
        other = roundUnits num den ∨ Even (encodeUnits (roundUnits num den))) := by
  obtain ⟨significand, shift, rounded, nearest, narrow, leading⟩ := exists_significand num positive
  rw [rounded]
  generalize (num : ℚ) / den = exact at *
  have spacing : (0 : ℚ) < 2 ^ shift := by positivity
  have scaled : ∀ n : ℤ, |exact - n * 2 ^ shift| = |exact / 2 ^ shift - n| * 2 ^ shift := by
    intro n
    rw [← abs_of_pos spacing, ← abs_mul, abs_of_pos spacing, sub_mul,
      div_mul_cancel₀ _ spacing.ne']
  have grown : ((significand <<< shift : Nat) : ℚ) = (significand : ℤ) * 2 ^ shift := by
    rw [cast_shiftLeft, Int.cast_natCast]
  have best : ∀ n : ℤ, |exact - (significand <<< shift : Nat)| ≤ |exact - n * 2 ^ shift| ∧
      (|exact - (significand <<< shift : Nat)| = |exact - n * 2 ^ shift| →
        n = significand ∨ Even (significand : ℤ)) := by
    intro n
    obtain ⟨least, even⟩ := nearest.closest n
    rw [grown, scaled, scaled]
    exact ⟨mul_le_mul_of_nonneg_right least spacing.le,
      fun tie => even (mul_right_cancel₀ spacing.ne' tie)⟩
  rcases grid.dvd_or_lt shift with ⟨multiple, rfl⟩ | ⟨shifted, below⟩
  · obtain ⟨least, even⟩ := best multiple
    have same : ((2 ^ shift * multiple : Nat) : ℚ) = (multiple : ℤ) * 2 ^ shift := by
      push_cast
      ring
    rw [same]
    refine ⟨least, fun tie => ?_⟩
    rcases even tie with equal | even
    · left
      rw [Int.natCast_inj.mp equal, Nat.shiftLeft_eq, Nat.mul_comm]
    · right
      exact even_encodeUnits (by exact_mod_cast even) narrow fun shifted => (leading shifted).1
  · -- The least number of the local spacing lies between this one and what is rounded.
    have least : (2 : ℚ) ^ (52 + shift) ≤ exact := (leading shifted).2
    have between : (other : ℚ) < 2 ^ (52 + shift) := by exact_mod_cast below
    have nearer := (best (2 ^ 52)).1
    have same : ((2 ^ 52 : ℤ) : ℚ) * 2 ^ shift = 2 ^ (52 + shift) := by
      rw [Int.cast_pow, Int.cast_ofNat, pow_add]
    rw [same, abs_of_nonneg (sub_nonneg.mpr least)] at nearer
    have far : |exact - (significand <<< shift : Nat)| < |exact - other| := by
      rw [abs_of_nonneg (by linarith : 0 ≤ exact - other)]
      linarith
    exact ⟨far.le, fun tie => absurd tie far.ne⟩

/-- Nor is one up to infinity, if infinity stands for what lies behind the finite numbers. -/
theorem closest_units_ofRatio (negative : Bool) (positive : 0 < den) {other : Nat}
    (grid : OnGrid other) (bounded : other ≤ magnitudeLimit) :
    |(num : ℚ) / den - (ofRatio negative num den).units| ≤ |(num : ℚ) / den - other| ∧
      (|(num : ℚ) / den - (ofRatio negative num den).units| = |(num : ℚ) / den - other| →
        other = (ofRatio negative num den).units ∨ Even (ofRatio negative num den).code) := by
  have closest := fun other => @closest_roundUnits num den positive other
  rw [ofRatio]
  split
  · exact closest other grid
  · rename_i beyond
    have past : (magnitudeLimit : ℚ) ≤ roundUnits num den := by
      exact_mod_cast Nat.not_lt.mp beyond
    have within : (other : ℚ) ≤ magnitudeLimit := by exact_mod_cast bounded
    have even : Even infinityCode := by decide
    refine ⟨?_, fun _ => .inr even⟩
    change |(num : ℚ) / den - magnitudeLimit| ≤ _
    have nearer := (closest _ (onGrid_shiftLeft 2098)).1
    have farther := (closest other grid).1
    change |_| ≤ |(num : ℚ) / den - magnitudeLimit| at nearer
    generalize (num : ℚ) / den = exact at *
    rcases le_total (magnitudeLimit : ℚ) exact with reached | short
    · rw [abs_of_nonneg (by linarith), abs_of_nonneg (by linarith)]
      linarith
    · have rounded : |exact - roundUnits num den| = roundUnits num den - exact := by
        rw [abs_of_nonpos (by linarith), neg_sub]
      have limited : |exact - magnitudeLimit| = magnitudeLimit - exact := by
        rw [abs_of_nonpos (by linarith), neg_sub]
      rw [rounded] at farther
      rw [limited]
      linarith

end

/-! Signs -/

theorem ofRatio_true (num den : Nat) : ofRatio true num den = -ofRatio false num den := by
  rw [ofRatio, ofRatio]
  split <;> rfl

theorem isNegative_ofRatio (negative : Bool) (num den : Nat) :
    (ofRatio negative num den).isNegative = negative := by
  rw [ofRatio]
  split <;> rfl

theorem isNan_ofRatio (negative : Bool) (num den : Nat) :
    (ofRatio negative num den).isNan = false := by
  rw [ofRatio]
  split <;> rfl

/-- Of the numbers of either sign, too, none is nearer to what is rounded without one. -/
theorem closest_ofRatio_false (num : Nat) {den : Nat} (positive : 0 < den) (negative : Bool)
    {other : Nat} (grid : OnGrid other) (bounded : other ≤ magnitudeLimit) :
    |(num : ℚ) / den - (ofRatio false num den).units| ≤
        |(num : ℚ) / den - signed negative other| ∧
      (|(num : ℚ) / den - (ofRatio false num den).units| =
          |(num : ℚ) / den - signed negative other| →
        (signed negative other : ℚ) = (ofRatio false num den).units ∨
          Even (ofRatio false num den).code) := by
  cases negative with
  | false =>
    obtain ⟨least, even⟩ := closest_units_ofRatio num false positive grid bounded
    exact ⟨least, fun tie => (even tie).imp_left (congrArg Nat.cast)⟩
  | true =>
    -- Zero lies between what is rounded and the negative numbers.
    have origin : OnGrid 0 := Nat.dvd_zero _
    obtain ⟨least, even⟩ :=
      closest_units_ofRatio num false positive origin (Nat.zero_le magnitudeLimit)
    have size : (0 : ℚ) ≤ other := Nat.cast_nonneg other
    have exact : 0 ≤ (num : ℚ) / den := div_nonneg (Nat.cast_nonneg num) (Nat.cast_nonneg den)
    have far : |(num : ℚ) / den - signed true other| = (num : ℚ) / den + other := by
      rw [signed, if_pos rfl, Int.cast_neg, sub_neg_eq_add, Int.cast_natCast,
        abs_of_nonneg (add_nonneg exact size)]
    have whole : |(num : ℚ) / den - (0 : Nat)| = (num : ℚ) / den := by
      rw [Nat.cast_zero, sub_zero, abs_of_nonneg exact]
    rw [whole] at least even
    rw [far]
    refine ⟨by linarith, fun tie => ?_⟩
    have zero : (other : ℚ) = 0 := by linarith
    have none : other = 0 := by exact_mod_cast zero
    rw [zero, add_zero] at tie
    refine (even tie).imp_left fun same => ?_
    rw [none, ← same]
    rfl

/-- A quotient of units is rounded to the nearest number. -/
theorem nearest_ofRatio (negative : Bool) (num : Nat) {den : Nat} (positive : 0 < den) :
    Nearest ((signed negative num : ℚ) / den / one) (ofRatio negative num den) := by
  have unsigned : Nearest ((num : ℚ) / den / one) (ofRatio false num den) := by
    have distance : ∀ place : ℚ,
        |(num : ℚ) / den / one - place / one| = |(num : ℚ) / den - place| / one := by
      intro place
      rw [← sub_div, abs_div, abs_of_pos one_pos]
    have own : (ofRatio false num den).value = ((ofRatio false num den).units : ℚ) / one := by
      rw [value, isNegative_ofRatio]
      rfl
    refine ⟨isNan_ofRatio _ _ _, fun y number => ?_, fun y number tie => ?_⟩
    · have closest :=
        (closest_ofRatio_false num positive y.isNegative (onGrid_units y) (units_le y)).1
      rw [own, distance, value, distance]
      exact div_le_div_of_nonneg_right closest one_pos.le
    · have even :=
        (closest_ofRatio_false num positive y.isNegative (onGrid_units y) (units_le y)).2
      rw [own, distance, value, distance, div_left_inj' one_pos.ne'] at tie
      rw [own, value, div_left_inj' one_pos.ne']
      exact even tie
  cases negative with
  | false => exact unsigned
  | true =>
    rw [ofRatio_true, signed, if_pos rfl, Int.cast_neg, neg_div, neg_div]
    exact unsigned.neg

end LineCalc.Binary64
