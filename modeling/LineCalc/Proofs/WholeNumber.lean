import Mathlib.Tactic.Linarith
import Mathlib.Tactic.Ring
import LineCalc.Calculator
import LineCalc.Proofs.Value

set_option autoImplicit false

/- Rounding to whole numbers, with a half going to the even one, and what is reported of the result
of a calculation. -/
namespace LineCalc

/-- The whole number nearest to `q`; of two equally near ones the even one. -/
structure NearestInt (q : ℚ) (n : ℤ) : Prop where
  close : |q - n| ≤ 1 / 2
  even : |q - n| = 1 / 2 → Even n

namespace NearestInt

variable {q : ℚ} {n m : ℤ}

theorem of_lt (close : |q - n| < 1 / 2) : NearestInt q n :=
  ⟨close.le, fun tie => absurd tie close.ne⟩

theorem of_tie (tie : |q - n| = 1 / 2) (even : Even n) : NearestInt q n := ⟨tie.le, fun _ => even⟩

theorem neg (nearest : NearestInt q n) : NearestInt (-q) (-n) := by
  have distance : |-q - (-n : ℤ)| = |q - n| := by
    rw [Int.cast_neg, ← abs_neg]
    ring_nf
  constructor
  · rw [distance]
    exact nearest.close
  · rw [distance]
    exact fun tie => (nearest.even tie).neg

/-- Another whole number is at least half a step away. -/
theorem half_le (nearest : NearestInt q n) (other : m ≠ n) : 1 / 2 ≤ |q - m| := by
  have apart : (1 : ℚ) ≤ |(n : ℚ) - m| := by
    have positive := abs_pos.mpr (sub_ne_zero.mpr other.symm)
    exact_mod_cast positive
  have through := abs_sub_le (n : ℚ) q m
  have close := nearest.close
  rw [abs_sub_comm] at close
  linarith

theorem unique (first : NearestInt q n) (second : NearestInt q m) : m = n := by
  by_contra other
  have tie : |q - m| = 1 / 2 := le_antisymm second.close (first.half_le other)
  have same : |q - n| = 1 / 2 := le_antisymm first.close (second.half_le (Ne.symm other))
  -- Two whole numbers half a step from the same place are neighbours, so that one of them is odd.
  have gap : |(n : ℚ) - m| ≤ 1 := by
    have through := abs_sub_le (n : ℚ) q m
    rw [abs_sub_comm (n : ℚ) q] at through
    linarith
  have near : |n - m| ≤ 1 := by exact_mod_cast gap
  obtain ⟨half, rfl⟩ := first.even same
  obtain ⟨other, rfl⟩ := second.even tie
  rw [abs_le] at near
  omega

/-- No whole number is nearer, and one as near as an odd one is the same. -/
theorem closest (nearest : NearestInt q n) (m : ℤ) :
    |q - n| ≤ |q - m| ∧ (|q - n| = |q - m| → m = n ∨ Even n) := by
  by_cases same : m = n
  · subst same
    exact ⟨le_refl _, fun _ => .inl rfl⟩
  · have far := nearest.half_le same
    refine ⟨nearest.close.trans far, fun tie => .inr (nearest.even ?_)⟩
    exact le_antisymm nearest.close (tie ▸ far)

end NearestInt

/-- The quotient of natural numbers is rounded to the nearest whole number. -/
theorem nearestInt_nearestEven (num : Nat) {den : Nat} (positive : 0 < den) :
    NearestInt ((num : ℚ) / den) (nearestEven num den) := by
  have den_pos : (0 : ℚ) < den := Nat.cast_pos.mpr positive
  have parts : (num : ℚ) / den = (num / den : Nat) + ((num % den : Nat) : ℚ) / den := by
    rw [div_eq_iff den_pos.ne', add_mul, div_mul_cancel₀ _ den_pos.ne']
    exact_mod_cast (Nat.div_add_mod' num den).symm
  have least : 0 ≤ ((num % den : Nat) : ℚ) / den := by positivity
  have most : ((num % den : Nat) : ℚ) / den < 1 := by
    rw [div_lt_one den_pos]
    exact_mod_cast Nat.mod_lt num positive
  rw [nearestEven, parts]
  rcases Nat.lt_trichotomy (2 * (num % den)) den with below | tie | above
  · have short : ((num % den : Nat) : ℚ) / den < 1 / 2 := by
      rw [div_lt_div_iff₀ den_pos two_pos]
      exact_mod_cast (by omega : num % den * 2 < 1 * den)
    rw [if_pos below]
    apply NearestInt.of_lt
    rw [abs_lt, Int.cast_natCast]
    constructor <;> linarith
  · have half : ((num % den : Nat) : ℚ) / den = 1 / 2 := by
      rw [div_eq_div_iff den_pos.ne' two_ne_zero]
      exact_mod_cast (by omega : num % den * 2 = 1 * den)
    rw [if_neg (by omega), if_neg (by omega), half]
    have even : Even (num / den + num / den % 2) := by
      rw [Nat.even_iff]
      omega
    apply NearestInt.of_tie _ (by exact_mod_cast even)
    rw [Int.cast_natCast, Nat.cast_add, add_sub_add_left_eq_sub]
    rcases Nat.mod_two_eq_zero_or_one (num / den) with rest | rest <;> rw [rest] <;> norm_num
  · have long : 1 / 2 < ((num % den : Nat) : ℚ) / den := by
      rw [div_lt_div_iff₀ two_pos den_pos]
      exact_mod_cast (by omega : 1 * den < num % den * 2)
    rw [if_neg (by omega), if_pos above]
    apply NearestInt.of_lt
    rw [abs_lt, Int.cast_natCast, Nat.cast_add, Nat.cast_one]
    constructor <;> linarith

/-! Results -/

/-- The nearest whole number within the range of 64 bits. -/
theorem toInt_ofIntClamp (n : ℤ) :
    (Int64.ofIntClamp n).toInt = max (-2 ^ 63) (min n (2 ^ 63 - 1)) := by
  have least : Int64.minValue.toInt = -2 ^ 63 := by decide
  have greatest : Int64.maxValue.toInt = 2 ^ 63 - 1 := by decide
  rw [Int64.ofIntClamp]
  split
  · split
    · rename_i lower upper
      rw [Int64.toInt_ofIntLE]
      omega
    · omega
  · omega

namespace Binary64

theorem nearestInt_value (negative : Bool) {units : Nat} (fits : Representable units) :
    NearestInt (finite negative units fits).value (signed negative (nearestEven units one)) := by
  have positive : 0 < one := by exact_mod_cast one_pos
  have nearest := nearestInt_nearestEven units positive
  rw [value_finite]
  cases negative with
  | false => exact nearest
  | true =>
    rw [signed, if_pos rfl, Int.cast_neg, neg_div]
    exact nearest.neg

end Binary64

theorem Outcome.isNan_of_result {outcome : Outcome} {result : Evaluation}
    (found : outcome.result = .ok result) : result.float.isNan = false := by
  cases outcome with
  | rejected reason => cases found
  | failed reason => cases found
  | evaluated raw =>
    cases found
    cases number : raw.isNan with
    | true =>
      simp only [Evaluation.ofValue, number]
      rfl
    | false =>
      simp only [Evaluation.ofValue, number]
      exact number

/-- What is reported of the number that an encoding stands for. The number itself is reported as it
is encoded, and zero in place of "not a number". The whole number is the nearest one, a half going
to the even one, within the range of 64 bits; an infinity is reported as the end of the range on its
side, and "not a number" as zero. So no text comes to "not a number". -/
theorem ofValue_ofBits (bits : UInt64) :
    ((Binary64.ofBits bits).isNan = true →
      (Evaluation.ofValue (Binary64.ofBits bits)).float.toBits = 0 ∧
        (Evaluation.ofValue (Binary64.ofBits bits)).int.toInt = 0) ∧
    ((Binary64.ofBits bits).isNan = false →
      (Evaluation.ofValue (Binary64.ofBits bits)).float.toBits = bits) ∧
    ((Binary64.ofBits bits).isFinite = true →
      ∃ n : ℤ, (∀ m, NearestInt (Binary64.ofBits bits).value m ↔ m = n) ∧
        (Evaluation.ofValue (Binary64.ofBits bits)).int.toInt =
          max (-2 ^ 63) (min n (2 ^ 63 - 1))) ∧
    (∀ negative, Binary64.ofBits bits = .infinity negative →
      (Evaluation.ofValue (Binary64.ofBits bits)).int.toInt =
        if negative then -2 ^ 63 else 2 ^ 63 - 1) ∧
    ∀ (calculator : Calculator) (text : List Char) (bindings : Bindings) (reported : Evaluation),
      (calculator.run text bindings).result = .ok reported → reported.float.isNan = false := by
  refine ⟨fun nan => ?_, fun number => ?_, fun finite => ?_, fun negative infinite => ?_,
    fun calculator text bindings reported => Outcome.isNan_of_result⟩
  · simp only [Evaluation.ofValue, nan, ↓reduceIte]
    decide
  · simp only [Evaluation.ofValue, number]
    exact Binary64.toBits_ofBits number
  · obtain ⟨negative, units, fits, same⟩ := Binary64.isFinite_iff.mp finite
    rw [same]
    have nearest := Binary64.nearestInt_value negative fits
    refine ⟨_, fun m => ⟨nearest.unique, fun equal => equal ▸ nearest⟩, ?_⟩
    exact toInt_ofIntClamp _
  · simp only [infinite]
    cases negative <;> decide

end LineCalc
