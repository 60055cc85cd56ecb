import LineCalc.Binary64.Basic

set_option autoImplicit false

/- Rounding an exact quotient once, to the nearest binary64 number and on a tie to the one with an
even significand. Arithmetic and the reading of decimals end here. -/
namespace LineCalc

/-- The natural number nearest to `num / den`; of two equally near, the even one. -/
def nearestEven (num den : Nat) : Nat :=
  let floor := num / den
  let rest := num % den
  if 2 * rest < den then floor
  else if den < 2 * rest then floor + 1
  else floor + floor % 2

theorem nearestEven_le_succ (num den : Nat) : nearestEven num den ≤ num / den + 1 := by
  unfold nearestEven
  dsimp only
  split <;> try omega
  split <;> omega

/-- A whole number is its own neighbour. -/
theorem nearestEven_mul (value den : Nat) (positive : 0 < den) :
    nearestEven (value * den) den = value := by
  simp [nearestEven, Nat.mul_div_cancel _ positive, positive]

namespace Binary64

/-- Numbers whose whole part is `whole` units are spaced `2 ^ gridShift whole` units apart. -/
def gridShift (whole : Nat) : Nat := whole.log2 - 52

/-- The multiple of the local spacing nearest to `num / den` units. -/
def roundUnits (num den : Nat) : Nat :=
  let shift := gridShift (num / den)
  nearestEven num (den <<< shift) <<< shift

theorem nearest_on_grid_le (num den : Nat) :
    nearestEven num (den <<< gridShift (num / den)) ≤ 1 <<< 53 := by
  refine Nat.le_trans (nearestEven_le_succ _ _) ?_
  rw [Nat.one_shiftLeft, Nat.shiftLeft_eq, ← Nat.div_div_eq_div_mul]
  refine Nat.succ_le_of_lt ((Nat.div_lt_iff_lt_mul (Nat.two_pow_pos _)).mpr ?_)
  rw [← Nat.pow_add]
  refine Nat.lt_of_lt_of_le Nat.lt_log2_self (Nat.pow_le_pow_right Nat.two_pos ?_)
  unfold gridShift
  omega

/-- A representable magnitude lies on its own grid. -/
theorem roundUnits_mul {units den : Nat} (fits : Representable units) (positive : 0 < den) :
    roundUnits (units * den) den = units := by
  obtain ⟨significand, product⟩ := fits.dvd
  rw [Nat.one_shiftLeft] at product
  have grid : units * den = significand * (den * 2 ^ gridShift units) := by
    unfold gridShift
    conv => lhs; rw [product]
    ac_rfl
  unfold roundUnits
  dsimp only
  rw [Nat.mul_div_cancel _ positive, Nat.shiftLeft_eq, Nat.shiftLeft_eq, grid,
    nearestEven_mul _ _ (Nat.mul_pos positive (Nat.two_pow_pos _)), Nat.mul_comm]
  exact product.symm

/-- `num / den` units, rounded; beyond the largest finite number, infinity. -/
def ofRatio (negative : Bool) (num den : Nat) : Binary64 :=
  if lt : roundUnits num den < magnitudeLimit then
    .finite negative (roundUnits num den) (.shifted (nearest_on_grid_le num den) lt)
  else
    .infinity negative

theorem ofRatio_mul (negative : Bool) {units den : Nat} (fits : Representable units)
    (positive : 0 < den) : ofRatio negative (units * den) den = .finite negative units fits := by
  have own := roundUnits_mul fits positive
  have lt : roundUnits (units * den) den < magnitudeLimit := by
    rw [own]
    exact fits.lt
  unfold ofRatio
  rw [dif_pos lt]
  congr 1

/-- The whole number `n`, rounded. -/
def ofInt (n : Int) : Binary64 := ofRatio (n < 0) (n.natAbs * one) 1

end Binary64

end LineCalc
