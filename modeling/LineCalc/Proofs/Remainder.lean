import Mathlib.Data.Nat.Log
import LineCalc.Expr.Semantics
import LineCalc.Proofs.Rounding

set_option autoImplicit false

/- The remainder of the floored quotient. It starts from the remainder of the truncated one, which
is exact, and is moved by one divisor where the signs differ, which is the only rounding. -/
namespace LineCalc

/-! Whole numbers -/

theorem floor_div (a b : ℤ) : ⌊(a : ℚ) / b⌋ = a.fdiv b := by
  have upward : ∀ (a : ℤ) (n : ℕ), ⌊(a : ℚ) / n⌋ = a.fdiv n := by
    intro a n
    rw [Int.fdiv_eq_ediv_of_nonneg _ (Int.natCast_nonneg n)]
    exact Rat.floor_intCast_div_natCast a n
  cases b with
  | ofNat n => exact upward a n
  | negSucc n =>
    rw [Int.negSucc_eq, ← Int.neg_fdiv_neg, ← neg_div_neg_eq, ← Int.cast_neg, ← Int.cast_neg,
      Int.neg_neg]
    exact upward (-a) (n + 1)

/-- What the floored quotient leaves over. -/
theorem sub_mul_floor_div (a b : ℤ) : (a : ℚ) - b * ⌊(a : ℚ) / b⌋ = (a.fmod b : ℤ) := by
  rw [floor_div, Int.fmod_def, Int.cast_sub, Int.cast_mul]

/-- The magnitude of the remainder that has the sign of the divisor, from the magnitudes of the
operands. -/
def flooredUnits (sameSign : Bool) (m n : Nat) : Nat :=
  if m % n = 0 then 0 else if sameSign then m % n else n - m % n

theorem flooredUnits_le (sameSign : Bool) (m : Nat) {n : Nat} (positive : 0 < n) :
    flooredUnits sameSign m n ≤ n := by
  have below := Nat.mod_lt m positive
  rw [flooredUnits]
  split
  · exact Nat.zero_le n
  · split <;> omega

namespace Binary64

theorem fmod_signed (s t : Bool) (m : Nat) {n : Nat} (positive : 0 < n) :
    (signed s m).fmod (signed t n) = signed t (flooredUnits (s == t) m n) := by
  have upward : ∀ s, (signed s m).fmod n = flooredUnits (s == false) m n := by
    intro s
    have below := Nat.mod_lt m positive
    rw [Int.fmod_eq_emod_of_nonneg _ (Int.natCast_nonneg n), flooredUnits]
    cases s with
    | false =>
      rw [signed, if_neg Bool.false_ne_true, ← Int.natCast_mod, beq_self_eq_true, if_pos rfl]
      split
      · omega
      · rfl
    | true =>
      rw [signed, if_pos rfl, Int.neg_emod, ← Int.natCast_mod, Int.natAbs_natCast]
      simp only [Int.natCast_dvd_natCast, Nat.dvd_iff_mod_eq_zero]
      split
      · rfl
      · exact (Int.ofNat_sub below.le).symm
  cases t with
  | false => exact upward s
  | true =>
    have turned := upward (!s)
    rw [signed_not] at turned
    change (signed s m).fmod (-(n : ℤ)) = -(flooredUnits _ m n : ℤ)
    rw [← Int.neg_neg (signed s m), Int.neg_fmod_neg, turned]
    cases s <;> rfl

end Binary64

namespace Representable

/-- A remainder has no digits below those of both operands, nor more in front than the divisor. -/
theorem mod {m n : Nat} (first : Representable m) (second : Representable n) :
    Representable (m % n) := by
  refine ⟨Nat.lt_of_le_of_lt (Nat.mod_le m n) first.lt, ?_⟩
  have spacing : ∀ {i j : Nat}, i ≤ j → 1 <<< (i.log2 - 52) ∣ 1 <<< (j.log2 - 52) := by
    intro i j le
    rw [Nat.one_shiftLeft, Nat.one_shiftLeft, Nat.log2_eq_log_two, Nat.log2_eq_log_two]
    exact Nat.pow_dvd_pow 2 (Nat.sub_le_sub_right (Nat.log_mono_right le) 52)
  by_cases less : m < n
  · rw [Nat.mod_eq_of_lt less]
    exact first.dvd
  · rcases Nat.eq_zero_or_pos n with rfl | positive
    · rw [Nat.mod_zero]
      exact first.dvd
    · have common := (spacing (Nat.not_lt.mp less)).trans first.dvd
      refine (spacing (Nat.mod_lt m positive).le).trans ?_
      exact (Nat.dvd_mod_iff second.dvd).mpr common

end Representable

namespace Binary64

theorem ofRatio_units (negative : Bool) {units : Nat} (fits : Representable units) :
    ofRatio negative units 1 = .finite negative units fits := by
  have exact := ofRatio_mul negative fits Nat.one_pos
  rwa [Nat.mul_one] at exact

/-- The truncated remainder needs no rounding. -/
theorem rem_finite (s t : Bool) {m n : Nat} (first : Representable m) (second : Representable n)
    (nonzero : n ≠ 0) :
    finite s m first % finite t n second = finite s (m % n) (first.mod second) := by
  change Binary64.rem _ _ = _
  rw [Binary64.rem, if_neg nonzero, ofRatio_units]

theorem less_zero {x : Binary64} (nonzero : x.isZero = false) :
    x.less (zero false) = x.isNegative := by
  cases x with
  | nan signaling => rfl
  | infinity negative => rfl
  | finite negative units fits =>
    have positive : units ≠ 0 := by
      rintro rfl
      cases nonzero
    exact decide_signed_lt_zero negative positive

end Binary64

open Binary64

/-- The comparisons with zero tell the signs, which decide on the move. -/
theorem flooredRemainder_eq {x y : Binary64} (nonzero : y.isZero = false) :
    flooredRemainder x y =
      if (x % y).isZero then zero y.isNegative
      else if (x % y).isNegative = y.isNegative then x % y
      else x % y + y := by
  rw [flooredRemainder, less_zero nonzero]
  cases whole : (x % y).isZero with
  | true => rfl
  | false =>
    rw [if_neg Bool.false_ne_true, if_neg Bool.false_ne_true, less_zero whole]
    cases (x % y).isNegative <;> cases y.isNegative <;> rfl

/-- A remainder short of the divisor is moved to the other sign. -/
theorem add_finite_of_lt (t : Bool) {m n : Nat} (first : Representable m)
    (second : Representable n) (lt : m < n) :
    finite (!t) m first + finite t n second = ofRatio t (n - m) 1 := by
  have left : n - m ≠ 0 := Nat.sub_ne_zero_of_lt lt
  have sum : signed (!t) m + signed t n = signed t (n - m) := by
    rw [signed_not]
    cases t <;> grind [signed]
  have nonzero : signed t (n - m) ≠ 0 := by
    rwa [← Int.natAbs_ne_zero, natAbs_signed]
  change Binary64.add _ _ = _
  simp only [Binary64.add, sum, if_neg nonzero, decide_signed_lt_zero t left, natAbs_signed]

/-- The remainder of finite numbers. The one rounding is that of the move. -/
theorem flooredRemainder_finite (s t : Bool) {m n : Nat} (first : Representable m)
    (second : Representable n) (nonzero : n ≠ 0) :
    flooredRemainder (finite s m first) (finite t n second) =
      ofRatio t (flooredUnits (s == t) m n) 1 := by
  have divides : (finite t n second).isZero = false := beq_false_of_ne nonzero
  rw [flooredRemainder_eq divides, rem_finite s t first second nonzero, flooredUnits]
  by_cases whole : m % n = 0
  · rw [if_pos whole, ofRatio_units t .zero]
    exact if_pos (beq_iff_eq.mpr whole)
  · have left : (finite s (m % n) (first.mod second)).isZero = false := beq_false_of_ne whole
    rw [if_neg whole, left, if_neg Bool.false_ne_true]
    change (if s = t then _ else _) = _
    by_cases same : s = t
    · rw [if_pos same, if_pos (beq_iff_eq.mpr same), same, ofRatio_units]
    · obtain rfl : s = !t := Bool.eq_not.mpr same
      rw [if_neg same, if_neg (by simp)]
      exact add_finite_of_lt t _ second (Nat.mod_lt m (Nat.pos_of_ne_zero nonzero))

/-- Where the truncated remainder has no value, neither has the floored one. -/
theorem flooredRemainder_nan {x y : Binary64} (undefined : x.isFinite = false ∨ y.isNan = true) :
    flooredRemainder x y = nan false := by
  have rem : x % y = nan false := by
    change Binary64.rem x y = _
    rcases undefined with infinite | undefined
    · cases x with
      | nan signaling => rfl
      | infinity negative => cases y <;> rfl
      | finite negative units fits => cases infinite
    · cases y with
      | nan signaling => cases x <;> rfl
      | infinity negative => cases undefined
      | finite negative units fits => cases undefined
  rw [flooredRemainder, rem]
  change (if _ then nan false + y else nan false) = _
  split <;> rfl

/-- What the floored quotient of finite numbers leaves over, exactly. -/
theorem sub_mul_floor_value (s t : Bool) {m n : Nat} (first : Representable m)
    (second : Representable n) (positive : 0 < n) :
    let x := finite s m first
    let y := finite t n second
    x.value - y.value * ⌊x.value / y.value⌋ = signed t (flooredUnits (s == t) m n) / one := by
  intro x y
  have quotient : x.value / y.value = (signed s m : ℚ) / signed t n :=
    div_div_div_cancel_right₀ one_pos.ne' ..
  rw [quotient, ← fmod_signed s t m positive, ← sub_mul_floor_div, sub_div, mul_div_right_comm]
  rfl

theorem nearest_flooredRemainder {x y : Binary64} (dividend : x.isFinite = true)
    (divisor : y.isFinite = true) (nonzero : y.isZero = false) :
    Nearest (x.value - y.value * ⌊x.value / y.value⌋) (flooredRemainder x y) := by
  obtain ⟨s, m, first, rfl⟩ := isFinite_iff.mp dividend
  obtain ⟨t, n, second, rfl⟩ := isFinite_iff.mp divisor
  have positive : n ≠ 0 := ne_of_beq_false nonzero
  have nearest := nearest_ofRatio t (flooredUnits (s == t) m n) Nat.one_pos
  rw [Nat.cast_one, div_one] at nearest
  rw [flooredRemainder_finite s t first second positive,
    sub_mul_floor_value s t first second (Nat.pos_of_ne_zero positive)]
  exact nearest

/-- The remainder of a finite number lies between zero and the divisor, be it infinite. -/
theorem flooredRemainder_within {x y : Binary64} (dividend : x.isFinite = true)
    (number : y.isNan = false) (nonzero : y.isZero = false) :
    (flooredRemainder x y).isNan = false ∧
      (flooredRemainder x y).isNegative = y.isNegative ∧
      (flooredRemainder x y).units ≤ y.units := by
  obtain ⟨s, m, first, rfl⟩ := isFinite_iff.mp dividend
  cases y with
  | nan signaling => cases number
  | infinity t =>
    have rem : finite s m first % infinity t = finite s m first := rfl
    have infinite : finite s m first + infinity t = infinity t := rfl
    rw [flooredRemainder_eq nonzero, rem, infinite]
    split
    · exact ⟨rfl, rfl, units_le _⟩
    · split
      · rename_i same
        exact ⟨rfl, same, units_le _⟩
      · exact ⟨rfl, rfl, units_le _⟩
  | finite t n second =>
    have positive : n ≠ 0 := ne_of_beq_false nonzero
    have nearest := nearest_flooredRemainder (x := finite s m first) rfl rfl nonzero
    refine ⟨nearest.number, ?_, nearest.units_le_units rfl ?_⟩
    · rw [flooredRemainder_finite s t first second positive]
      exact isNegative_ofRatio ..
    · have below := flooredUnits_le (s == t) m (Nat.pos_of_ne_zero positive)
      rw [sub_mul_floor_value s t first second (Nat.pos_of_ne_zero positive), abs_div, abs_signed,
        abs_of_pos one_pos, abs_value]
      exact div_le_div_of_nonneg_right (Nat.cast_le.mpr below) one_pos.le

/-- The remainder by a divisor other than zero. That of finite numbers is what the floored quotient
leaves over, rounded to the nearest number. That of a finite number has the sign of the divisor, a
zero too, and at most its magnitude, be the divisor infinite. Any other is "not a number". -/
theorem apply_mod {x y : Binary64} (nonzero : y.isZero = false) :
    ∃ r, Operator.mod.apply x y = .ok r ∧
      (x.isFinite = true → y.isFinite = true →
        Nearest (x.value - y.value * ⌊x.value / y.value⌋) r) ∧
      (x.isFinite = true → y.isNan = false →
        r.isNan = false ∧ r.isNegative = y.isNegative ∧ r.units ≤ y.units) ∧
      (x.isFinite = false ∨ y.isNan = true → r.isNan = true) := by
  refine ⟨flooredRemainder x y, Operator.mod.apply_eq_ok x nonzero, ?_, ?_, ?_⟩
  · intro dividend divisor
    exact nearest_flooredRemainder dividend divisor nonzero
  · intro dividend number
    exact flooredRemainder_within dividend number nonzero
  · intro undefined
    rw [flooredRemainder_nan undefined]
    rfl

/-- The least negative number leaves nearly 1 over, for which 1 itself is the nearest number. -/
theorem apply_mod_least :
    ∃ r, Operator.mod.apply (ofCode true 1) (ofInt 1) = .ok r ∧ r = ofInt 1 ∧
      Nearest ((ofCode true 1).value -
        (ofInt 1).value * ⌊(ofCode true 1).value / (ofInt 1).value⌋) r := by
  have nonzero : (ofInt 1).isZero = false := by decide +kernel
  have rounded : flooredRemainder (ofCode true 1) (ofInt 1) = ofInt 1 := by decide +kernel
  obtain ⟨r, value, nearest, _, _⟩ := apply_mod (x := ofCode true 1) nonzero
  have same : r = ofInt 1 := by
    rw [Operator.mod.apply_eq_ok _ nonzero] at value
    exact (Except.ok.inj value).symm.trans rounded
  exact ⟨r, value, same, nearest (by decide +kernel) (by decide +kernel)⟩

end LineCalc
