import Mathlib.Algebra.Order.Field.Power
import LineCalc.Proofs.Extremes
import LineCalc.Proofs.Literals

set_option autoImplicit false

/- From the text of a literal to its number. The language of literals is set out with the exact
number that each of them stands for. Scanning takes the longest literal that a text starts with, and
its value is the number nearest to the exact one. -/
namespace LineCalc

/-! The language of literals -/

namespace Literal

/-- At least one digit. -/
structure Digits (text : List Char) : Prop where
  inside : ∀ c ∈ text, c.isDigit = true
  nonempty : text ≠ []

/-- The number that digits count. -/
def count (digits : List Char) : ℕ := Nat.ofDigitChars 10 digits 0

/-- The text of an exponent, and the exponent. -/
inductive Exponent : List Char → ℤ → Prop where
  | unsigned {marker : Char} {digits : List Char} (marked : marker = 'e' ∨ marker = 'E')
      (run : Digits digits) : Exponent (marker :: digits) (count digits)
  | positive {marker : Char} {digits : List Char} (marked : marker = 'e' ∨ marker = 'E')
      (run : Digits digits) : Exponent (marker :: '+' :: digits) (count digits)
  | negative {marker : Char} {digits : List Char} (marked : marker = 'e' ∨ marker = 'E')
      (run : Digits digits) : Exponent (marker :: '-' :: digits) (-count digits)

/-- Digits, which a point may stand among or around. Those after it count as parts of one. -/
inductive Mantissa : List Char → ℚ → Prop where
  | whole {digits : List Char} (run : Digits digits) : Mantissa digits (count digits)
  | pointed {digits places : List Char} (run : Digits digits)
      (inside : ∀ c ∈ places, c.isDigit = true) :
      Mantissa (digits ++ '.' :: places) (count digits + count places / 10 ^ places.length)
  | fraction {places : List Char} (run : Digits places) :
      Mantissa ('.' :: places) (count places / 10 ^ places.length)

end Literal

/-- The text of a literal, and the exact number that it stands for. -/
inductive Literal : List Char → ℚ → Prop where
  | mantissa {text : List Char} {q : ℚ} (front : Literal.Mantissa text q) : Literal text q
  | scaled {text scale : List Char} {q : ℚ} {exponent : ℤ} (front : Literal.Mantissa text q)
      (back : Literal.Exponent scale exponent) : Literal (text ++ scale) (q * 10 ^ exponent)

/-- A text is split behind the longest literal that it starts with. -/
structure Literal.IsLongest (text lead rest : List Char) : Prop where
  parts : text = lead ++ rest
  literal : ∃ q, Literal lead q
  longest : ∀ longer q, Literal longer q → longer <+: text → longer.length ≤ lead.length

/-! Exact values -/

namespace Decimal

/-- The exact number. -/
def value (d : Decimal) : ℚ := d.coefficient * 10 ^ d.exponent

theorem ratio_pos (d : Decimal) : 0 < d.ratio.2 := by
  obtain ⟨coefficient, exponent⟩ := d
  cases exponent with
  | ofNat up => exact Nat.one_pos
  | negSucc down => exact Nat.pow_pos (by decide)

theorem ratio_eq_value (d : Decimal) : (d.ratio.1 : ℚ) / d.ratio.2 / Binary64.one = d.value := by
  have unit := Binary64.one_pos.ne'
  obtain ⟨coefficient, exponent⟩ := d
  cases exponent with
  | ofNat up =>
    simp only [ratio, value, Int.ofNat_eq_natCast, zpow_natCast, Nat.pow_eq, Nat.cast_mul,
      Nat.cast_pow, Nat.cast_ofNat, Nat.cast_one, div_one]
    exact mul_div_cancel_right₀ _ unit
  | negSucc down =>
    simp only [ratio, value, zpow_negSucc, Nat.pow_eq, Nat.cast_mul, Nat.cast_pow, Nat.cast_ofNat]
    rw [div_right_comm, mul_div_cancel_right₀ _ unit, div_eq_mul_inv]

/-- A decimal is rounded once, from its exact value. -/
theorem nearest_toBinary64 (d : Decimal) : Binary64.Nearest d.value d.toBinary64 := by
  rw [toBinary64_eq_nearest, ← ratio_eq_value]
  exact Binary64.nearest_ofRatio false d.ratio.1 d.ratio_pos

theorem isNegative_toBinary64 (d : Decimal) : d.toBinary64.isNegative = false := by
  rw [toBinary64_eq_nearest]
  exact Binary64.isNegative_ofRatio false _ _

end Decimal

namespace Numeral

/-- The digits after the point belong to the coefficient, and are taken off the exponent. -/
theorem value_mantissa (whole places : List Char) (point : Bool) :
    (decimal ⟨whole, point, places, none⟩).value =
      Literal.count whole + Literal.count places / 10 ^ places.length := by
  simp only [Decimal.value, decimal, Option.map_none, Option.getD_none, zero_sub, zpow_neg,
    zpow_natCast]
  rw [Nat.ofDigitChars_append, Nat.ofDigitChars_eq_ofDigitChars_zero]
  simp only [Literal.count]
  push_cast
  field_simp

/-- An exponent comes behind the mantissa and scales it. -/
theorem spelling_scaled (whole places : List Char) (point : Bool) (e : Exponent) :
    spelling ⟨whole, point, places, some e⟩ =
      spelling ⟨whole, point, places, none⟩ ++ e.spelling := by
  simp [spelling]

theorem value_scaled (whole places : List Char) (point : Bool) (e : Exponent) :
    (decimal ⟨whole, point, places, some e⟩).value =
      (decimal ⟨whole, point, places, none⟩).value * 10 ^ e.value := by
  simp only [Decimal.value, decimal, Option.map_some, Option.map_none, Option.getD_some,
    Option.getD_none]
  rw [mul_assoc, ← zpow_add₀ (by norm_num)]
  congr 2
  ring

end Numeral

/-! Literals and numerals -/

namespace Literal

theorem exponent_iff {text : List Char} {k : ℤ} :
    Exponent text k ↔ ∃ e : Numeral.Exponent, e.WellFormed ∧ e.spelling = text ∧ e.value = k := by
  constructor
  · rintro (⟨marked, run⟩ | ⟨marked, run⟩ | ⟨marked, run⟩)
    · exact ⟨⟨_, none, _⟩, ⟨marked, by simp, run.inside, run.nonempty⟩, rfl, rfl⟩
    · exact ⟨⟨_, some '+', _⟩, ⟨marked, by simp, run.inside, run.nonempty⟩, rfl, rfl⟩
    · exact ⟨⟨_, some '-', _⟩, ⟨marked, by simp, run.inside, run.nonempty⟩, rfl, rfl⟩
  · rintro ⟨⟨marker, sign, digits⟩, ⟨marked, signed, inside, nonempty⟩, rfl, rfl⟩
    cases sign with
    | none => exact .unsigned marked ⟨inside, nonempty⟩
    | some mark =>
      rcases signed mark rfl with rfl | rfl
      · exact .positive marked ⟨inside, nonempty⟩
      · exact .negative marked ⟨inside, nonempty⟩

theorem mantissa_iff {text : List Char} {q : ℚ} :
    Mantissa text q ↔ ∃ whole point places,
      (Numeral.mk whole point places none).WellFormed ∧
      (Numeral.mk whole point places none).spelling = text ∧
      (Numeral.mk whole point places none).decimal.value = q := by
  constructor
  · rintro (⟨run⟩ | ⟨run, inside⟩ | ⟨run⟩)
    · refine ⟨text, false, [], ⟨run.inside, by simp, .inl run.nonempty, by simp, by simp⟩, ?_, ?_⟩
      · simp [Numeral.spelling]
      · simp [Numeral.value_mantissa, count]
    · refine ⟨_, true, _, ⟨run.inside, inside, .inl run.nonempty, by simp, by simp⟩, ?_, ?_⟩
      · simp [Numeral.spelling]
      · exact Numeral.value_mantissa _ _ _
    · refine ⟨[], true, _, ⟨by simp, run.inside, .inr run.nonempty, by simp, by simp⟩, ?_, ?_⟩
      · simp [Numeral.spelling]
      · simp [Numeral.value_mantissa, count]
  · rintro ⟨whole, point, places, ⟨before, after, nonempty, pointless, -⟩, rfl, rfl⟩
    rw [Numeral.value_mantissa]
    cases point with
    | false =>
      obtain rfl : places = [] := pointless rfl
      have started : whole ≠ [] := nonempty.resolve_right (not_not_intro rfl)
      simpa [Numeral.spelling, count] using Mantissa.whole ⟨before, started⟩
    | true =>
      by_cases started : whole = []
      · subst started
        have ended : places ≠ [] := nonempty.resolve_left (not_not_intro rfl)
        simpa [Numeral.spelling, count] using Mantissa.fraction ⟨after, ended⟩
      · simpa [Numeral.spelling] using Mantissa.pointed ⟨before, started⟩ after

/-- The literals are the numerals, and stand for what these do. -/
theorem iff_numeral {text : List Char} {q : ℚ} :
    Literal text q ↔ ∃ n : Numeral, n.WellFormed ∧ n.spelling = text ∧ n.decimal.value = q := by
  constructor
  · rintro (front | ⟨front, back⟩)
    · obtain ⟨whole, point, places, valid, spelling, value⟩ := mantissa_iff.mp front
      exact ⟨_, valid, spelling, value⟩
    · obtain ⟨whole, point, places, valid, rfl, rfl⟩ := mantissa_iff.mp front
      obtain ⟨e, scale, rfl, rfl⟩ := exponent_iff.mp back
      have only : ∀ f ∈ some e, f.WellFormed := by
        rintro f ⟨⟩
        exact scale
      exact ⟨⟨whole, point, places, some e⟩,
        ⟨valid.whole, valid.fraction, valid.nonempty, valid.pointless, only⟩,
        Numeral.spelling_scaled _ _ _ _, Numeral.value_scaled _ _ _ _⟩
  · rintro ⟨⟨whole, point, places, exponent⟩, valid, rfl, rfl⟩
    have plain : (Numeral.mk whole point places none).WellFormed :=
      ⟨valid.whole, valid.fraction, valid.nonempty, valid.pointless, by simp⟩
    have front := mantissa_iff.mpr ⟨whole, point, places, plain, rfl, rfl⟩
    cases exponent with
    | none => exact .mantissa front
    | some e =>
      rw [Numeral.spelling_scaled, Numeral.value_scaled]
      exact .scaled front (exponent_iff.mpr ⟨e, valid.exponent e rfl, rfl, rfl⟩)

theorem ne_nil {text : List Char} {q : ℚ} (literal : Literal text q) : text ≠ [] := by
  obtain ⟨n, valid, rfl, -⟩ := iff_numeral.mp literal
  obtain ⟨d, more, -, start | start⟩ := valid.exists_start
  · simp [start]
  · simp [start]

/-- A text stands for one number at most. -/
theorem spelling_iff {n : Numeral} (valid : n.WellFormed) {q : ℚ} :
    Literal n.spelling q ↔ q = n.decimal.value := by
  rw [iff_numeral]
  constructor
  · rintro ⟨m, other, same, rfl⟩
    have own := Numeral.ofText?_spelling other
    rw [same, Numeral.ofText?_spelling valid] at own
    cases own
    rfl
  · rintro rfl
    exact ⟨n, valid, rfl, rfl⟩

end Literal

/-! Scanning -/

namespace Numeral

/-- Scanning takes the longest literal. -/
theorem scan_eq_some_iff {text rest : List Char} {n : Numeral} :
    scan text = some (n, rest) ↔
      Literal.IsLongest text n.spelling rest ∧ ofText? n.spelling = some n := by
  constructor
  · intro success
    obtain ⟨valid, parts⟩ := scan_eq_some success
    refine ⟨⟨parts, ⟨_, (Literal.spelling_iff valid).mpr rfl⟩, ?_⟩, ofText?_spelling valid⟩
    rintro longer q literal ⟨after, starts⟩
    obtain ⟨m, other, rfl, -⟩ := Literal.iff_numeral.mp literal
    obtain ⟨found, beyond, scanned, long⟩ := scan_longest other after
    rw [starts, success] at scanned
    cases scanned
    exact long
  · rintro ⟨⟨parts, ⟨q, literal⟩, longest⟩, own⟩
    obtain ⟨m, valid, same, -⟩ := Literal.iff_numeral.mp literal
    obtain ⟨found, after, scanned, long⟩ := scan_longest valid rest
    rw [same, ← parts] at scanned
    rw [same] at long
    obtain ⟨other, split⟩ := scan_eq_some scanned
    -- What is scanned is as long as the longest literal, so it is the same text.
    have short := longest found.spelling _ ((Literal.spelling_iff other).mpr rfl)
      ⟨after, split.symm⟩
    obtain ⟨equal, rfl⟩ := List.append_inj (split.symm.trans parts) (le_antisymm short long)
    rw [← equal, ofText?_spelling other] at own
    cases own
    exact scanned

/-- Scanning succeeds where a literal begins. -/
theorem isSome_scan_iff {text : List Char} :
    (scan text).isSome = true ↔ ∃ lead q, lead ≠ [] ∧ lead <+: text ∧ Literal lead q := by
  rw [Option.isSome_iff_exists]
  constructor
  · rintro ⟨⟨n, rest⟩, success⟩
    obtain ⟨⟨parts, ⟨q, literal⟩, -⟩, -⟩ := scan_eq_some_iff.mp success
    exact ⟨n.spelling, q, literal.ne_nil, ⟨rest, parts.symm⟩, literal⟩
  · rintro ⟨lead, q, -, ⟨rest, rfl⟩, literal⟩
    obtain ⟨n, valid, rfl, -⟩ := Literal.iff_numeral.mp literal
    obtain ⟨found, after, scanned, -⟩ := scan_longest valid rest
    exact ⟨_, scanned⟩

/-- Scanning succeeds exactly where a literal begins. It takes the longest literal and leaves the
rest, and what it takes reads as that numeral to its end. The literal stands for one exact number,
and its value is the nearest binary64 number, of two equally near ones the one with the even
significand: infinity from half a step beyond the largest number on, and zero up to half of the
least positive one, both without a sign. -/
theorem scan_correctly_rounded (text : List Char) :
    ((scan text).isSome = true ↔ ∃ lead q, lead ≠ [] ∧ lead <+: text ∧ Literal lead q) ∧
      ∀ n rest, scan text = some (n, rest) ↔
        Literal.IsLongest text n.spelling rest ∧ ofText? n.spelling = some n ∧
          ∃ q, (∀ other, Literal n.spelling other ↔ other = q) ∧
            Binary64.Nearest q n.value ∧ n.value.isNegative = false ∧
            (n.value = .infinity false ↔ 2 ^ 1024 - 2 ^ 970 ≤ q) ∧
            (n.value = .zero false ↔ q ≤ 1 / 2 ^ 1075) := by
  refine ⟨isSome_scan_iff, fun n rest => ⟨fun success => ?_, ?_⟩⟩
  · obtain ⟨longest, own⟩ := scan_eq_some_iff.mp success
    have valid := (scan_eq_some success).1
    have nearest := n.decimal.nearest_toBinary64
    have positive := n.decimal.isNegative_toBinary64
    exact ⟨longest, own, n.decimal.value, fun other => Literal.spelling_iff valid, nearest,
      positive, nearest.eq_infinity_iff positive, nearest.eq_zero_iff positive⟩
  · rintro ⟨longest, own, -⟩
    exact scan_eq_some_iff.mpr ⟨longest, own⟩

/-- A marker without digits behind it belongs to no exponent. -/
example : scan "1.5e+".toList = some (⟨['1'], true, ['5'], none⟩, ['e', '+']) := by decide

end Numeral

end LineCalc
