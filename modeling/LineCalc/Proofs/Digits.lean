import LineCalc.Decimal.Layout
import LineCalc.Proofs.Nearest
import LineCalc.Proofs.Numeral

set_option autoImplicit false

/- Numbers that are written out are numerals, and each is the numeral of the number it was written
for, whatever the layout. -/
namespace LineCalc

/-! Digits that read back -/

namespace Decimal

theorem isDigit_of_mem_toDigits {n : Nat} {c : Char} (member : c ∈ Nat.toDigits 10 n) :
    c.isDigit = true := Nat.isDigit_of_mem_toDigits (by decide) (by decide) member

/-- What a decimal reads back as is the number it is nearest to. -/
theorem ReadsBack.nearest_eq {d : Decimal} {units : Nat} (back : d.ReadsBack units)
    (fits : Representable units) : d.nearest = .finite false units fits := by
  unfold ReadsBack at back
  split at back
  · rename_i read range found
    subst back
    rw [← toBinary64_eq_nearest, found]
  · cases back

theorem readsBack_of_nearest_eq {d : Decimal} {units : Nat} {fits : Representable units}
    (same : d.nearest = .finite false units fits) : d.ReadsBack units := by
  rw [← toBinary64_eq_nearest] at same
  unfold ReadsBack
  rw [same]

theorem neighbour?_readsBack {tie : Tie} {units : Nat} {exponent : Int} {d : Decimal}
    (found : neighbour? tie units exponent = some d) : d.ReadsBack units := by
  unfold neighbour? at found
  split at found
  dsimp only at found
  split at found
  · split at found <;> cases found
    · rename_i above
      exact above.2
    · assumption
  · split at found <;> cases found
    assumption

theorem nearest_exact {units : Nat} (fits : Representable units) :
    (exact units).nearest = .finite false units fits := by
  -- The power of five is kept from being worked out.
  obtain ⟨places, same⟩ : ∃ places, places = 1074 := ⟨1074, rfl⟩
  rw [exact, ← same]
  have unit : Binary64.one = 1 <<< places := by
    rw [same]
    rfl
  have exponent : (-1074 : Int) = -places := by omega
  obtain ⟨before, rfl⟩ : ∃ before, places = before + 1 := ⟨places - 1, by omega⟩
  have product : units * Nat.pow 5 (before + 1) * Binary64.one =
      units * Nat.pow 10 (before + 1) := by
    rw [unit, Nat.one_shiftLeft, Nat.pow_eq, Nat.pow_eq, Nat.mul_assoc, ← Nat.mul_pow]
  have positive : 0 < Nat.pow 10 (before + 1) := Nat.pow_pos (by decide)
  rw [exponent]
  change Binary64.ofRatio false (units * Nat.pow 5 (before + 1) * Binary64.one)
    (Nat.pow 10 (before + 1)) = _
  rw [product]
  exact Binary64.ofRatio_mul false fits positive

/-- The fewest digits that single a number out read back as it. -/
theorem shortest_readsBack (tie : Tie) {units : Nat} (fits : Representable units) :
    (shortest tie units).ReadsBack units := by
  have expansion := nearest_exact fits
  unfold shortest
  -- Unless it is closed off, Lean tries to work the expansion out.
  generalize exact units = last at expansion
  dsimp only
  cases found : (List.range 17).findSome? fun further : Nat =>
      neighbour? tie units (place units - 1 - further) with
  | none => exact readsBack_of_nearest_eq expansion
  | some d =>
    obtain ⟨further, _, neighbour⟩ := List.exists_of_findSome?_eq_some found
    exact neighbour?_readsBack neighbour

/-- Only zero has no digits. -/
theorem ReadsBack.coefficient_ne_zero {d : Decimal} {units : Nat} (back : d.ReadsBack units)
    (fits : Representable units) (positive : units ≠ 0) : d.coefficient ≠ 0 := by
  intro zero
  have read := back.nearest_eq fits
  rw [nearest_of_tiny (.inl zero), Binary64.zero] at read
  cases read
  exact positive rfl

end Decimal

/-! Digits in place -/

namespace Numeral

/-- The text is a numeral, and its value is that of the decimal. -/
def Writes (text : List Char) (d : Decimal) : Prop :=
  ∃ n : Numeral, n.WellFormed ∧ n.spelling = text ∧ n.value = d.nearest

theorem WellFormed.writes {n : Numeral} (valid : n.WellFormed) {text : List Char} {d : Decimal}
    (spelling : n.spelling = text) (decimal : n.decimal = d) : Writes text d := by
  subst spelling decimal
  exact ⟨n, valid, rfl, Decimal.toBinary64_eq_nearest n.decimal⟩

/-- Zeros may move from the end of a coefficient into the exponent. -/
theorem Writes.shifted {text : List Char} {coefficient zeros : Nat} {exponent : Int}
    (written : Writes text ⟨coefficient * Nat.pow 10 zeros, exponent⟩) :
    Writes text ⟨coefficient, exponent + zeros⟩ := by
  obtain ⟨n, valid, spelling, value⟩ := written
  exact ⟨n, valid, spelling, value.trans (Decimal.nearest_shifted coefficient zeros exponent)⟩

namespace Exponent

/-- An exponent with as many digits as it needs. -/
def shown (plus : Bool) (exponent : Int) : Exponent where
  marker := 'e'
  sign := if exponent < 0 then some '-' else if plus then some '+' else none
  digits := Nat.toDigits 10 exponent.natAbs

theorem wellFormed_shown (plus : Bool) (exponent : Int) : (shown plus exponent).WellFormed where
  marker := .inl rfl
  sign := by
    intro c member
    simp only [shown] at member
    split at member
    · cases member
      exact .inr rfl
    · split at member <;> cases member
      exact .inl rfl
  digits := fun _ => Decimal.isDigit_of_mem_toDigits
  nonempty := Nat.toDigits_ne_nil

theorem value_shown (plus : Bool) (exponent : Int) : (shown plus exponent).value = exponent := by
  simp only [shown, value, Nat.ofDigitChars_ten_toDigits]
  split
  · rw [if_pos rfl]
    omega
  · rw [if_neg (by cases plus <;> simp)]
    omega

end Exponent

end Numeral

namespace Layout

open Numeral

theorem ofDigitChars_zeros_append (zeros : Nat) (digits : List Char) :
    Nat.ofDigitChars 10 (List.replicate zeros '0' ++ digits) 0 = Nat.ofDigitChars 10 digits 0 := by
  rw [Nat.ofDigitChars_append, Nat.ofDigitChars_replicate_zero, Nat.mul_zero]

theorem ofDigitChars_append_zeros (digits : List Char) (zeros : Nat) :
    Nat.ofDigitChars 10 (digits ++ List.replicate zeros '0') 0 =
      Nat.ofDigitChars 10 digits 0 * Nat.pow 10 zeros := by
  rw [Nat.ofDigitChars_append, Nat.ofDigitChars_replicate_zero, Nat.mul_comm, Nat.pow_eq]

theorem isDigit_of_mem_zeros {zeros : Nat} {c : Char} (member : c ∈ List.replicate zeros '0') :
    c.isDigit = true := by
  rw [List.eq_of_mem_replicate member]
  rfl

theorem wellFormed_pointed {whole fraction : List Char} (before : ∀ c ∈ whole, c.isDigit = true)
    (after : ∀ c ∈ fraction, c.isDigit = true) (started : whole ≠ []) :
    WellFormed ⟨whole, true, fraction, none⟩ :=
  ⟨before, after, .inl started, by simp, by simp⟩

section Digits

variable {digits : List Char} (inside : ∀ c ∈ digits, c.isDigit = true)
include inside

/-- Nothing but zeros stands before the point. -/
theorem writes_fraction (zeros : Nat) :
    Writes ('0' :: '.' :: (List.replicate zeros '0' ++ digits))
      ⟨Nat.ofDigitChars 10 digits 0, -zeros - digits.length⟩ := by
  have places : ∀ c ∈ List.replicate zeros '0' ++ digits, c.isDigit = true := by
    intro c member
    rcases List.mem_append.mp member with zero | digit
    · exact isDigit_of_mem_zeros zero
    · exact inside c digit
  have valid : WellFormed ⟨['0'], true, List.replicate zeros '0' ++ digits, none⟩ :=
    wellFormed_pointed (by simp) places (by simp)
  apply valid.writes
  · simp [spelling]
  · have coefficient := ofDigitChars_zeros_append (zeros + 1) digits
    rw [List.replicate_succ, List.cons_append] at coefficient
    simp only [decimal, List.singleton_append, coefficient, List.length_append,
      List.length_replicate, Option.map_none, Option.getD_none, Decimal.mk.injEq, true_and]
    omega

variable (nonempty : digits ≠ [])
include nonempty

/-- The point stands among the digits. -/
theorem writes_among {whole : Nat} (positive : 0 < whole) :
    Writes (digits.take whole ++ '.' :: digits.drop whole)
      ⟨Nat.ofDigitChars 10 digits 0, -(digits.drop whole).length⟩ := by
  have front : digits.take whole ≠ [] := by
    rw [ne_eq, List.take_eq_nil_iff, not_or]
    exact ⟨Nat.ne_of_gt positive, nonempty⟩
  have valid : WellFormed ⟨digits.take whole, true, digits.drop whole, none⟩ :=
    wellFormed_pointed (fun c member => inside c (List.mem_of_mem_take member))
      (fun c member => inside c (List.mem_of_mem_drop member)) front
  apply valid.writes
  · simp [spelling]
  · simp only [decimal, List.take_append_drop, Option.map_none, Option.getD_none, Int.zero_sub]

/-- The point stands behind the digits and zeros after them, or it is left out. -/
theorem writes_whole (zeros : Nat) (pointed : Bool) :
    Writes (digits ++ List.replicate zeros '0' ++ if pointed then ['.', '0'] else [])
      ⟨Nat.ofDigitChars 10 digits 0, zeros⟩ := by
  have whole : ∀ c ∈ digits ++ List.replicate zeros '0', c.isDigit = true := by
    intro c member
    rcases List.mem_append.mp member with digit | zero
    · exact inside c digit
    · exact isDigit_of_mem_zeros zero
  have started : digits ++ List.replicate zeros '0' ≠ [] := by simp [nonempty]
  cases pointed with
  | true =>
    have valid : WellFormed ⟨digits ++ List.replicate zeros '0', true, ['0'], none⟩ :=
      wellFormed_pointed whole (by simp) started
    have written : Writes (digits ++ List.replicate zeros '0' ++ ['.', '0'])
        ⟨Nat.ofDigitChars 10 digits 0 * Nat.pow 10 (zeros + 1), -1⟩ := by
      apply valid.writes
      · simp [spelling]
      · have coefficient := ofDigitChars_append_zeros digits (zeros + 1)
        rw [List.replicate_succ', ← List.append_assoc] at coefficient
        simp only [decimal, coefficient]
        rfl
    have shifted := written.shifted
    rwa [show (-1 : Int) + ((zeros + 1 : Nat) : Int) = zeros by omega] at shifted
  | false =>
    have valid : WellFormed ⟨digits ++ List.replicate zeros '0', false, [], none⟩ :=
      ⟨whole, by simp, .inl started, fun _ => rfl, by simp⟩
    have written : Writes (digits ++ List.replicate zeros '0' ++ [])
        ⟨Nat.ofDigitChars 10 digits 0 * Nat.pow 10 zeros, 0⟩ := by
      apply valid.writes
      · simp [spelling]
      · simp only [decimal, List.append_nil, ofDigitChars_append_zeros]
        rfl
    have shifted := written.shifted
    rwa [Int.zero_add] at shifted

/-- The digits after the point are taken off the exponent. -/
theorem writes_positionalText (layout : Layout) (place : Int) :
    Writes (layout.positionalText digits place)
      ⟨Nat.ofDigitChars 10 digits 0, place - digits.length⟩ := by
  unfold positionalText
  split
  · exact writes_fraction inside 0
  · rename_i zeros
    exact writes_fraction inside (zeros + 1)
  · rename_i whole positive
    split
    · rename_i among
      have written := writes_among inside nonempty (Nat.pos_of_ne_zero positive)
      rw [List.length_drop] at written
      rwa [show -((digits.length - whole : Nat) : Int) = Int.ofNat whole - digits.length by
        simp only [Int.ofNat_eq_natCast]; omega] at written
    · rename_i beyond
      have written := writes_whole inside nonempty (whole - digits.length) layout.wholePoint
      rwa [show ((whole - digits.length : Nat) : Int) = Int.ofNat whole - digits.length by
        simp only [Int.ofNat_eq_natCast]; omega] at written

/-- So are the digits after the leading one. -/
theorem writes_exponentText (layout : Layout) (exponent : Int) :
    Writes (layout.exponentText digits exponent)
      ⟨Nat.ofDigitChars 10 digits 0, exponent + 1 - digits.length⟩ := by
  have shown := Exponent.wellFormed_shown layout.exponentPlus exponent
  have value := Exponent.value_shown layout.exponentPlus exponent
  have only : ∀ e ∈ some (Exponent.shown layout.exponentPlus exponent), e.WellFormed := by
    intro e member
    cases member
    exact shown
  have signed : (if exponent < 0 then ['-'] else if layout.exponentPlus then ['+'] else []) =
      (Exponent.shown layout.exponentPlus exponent).sign.toList := by
    simp only [Exponent.shown]
    split
    · rfl
    · split <;> rfl
  obtain ⟨first, rest, rfl⟩ := List.exists_cons_of_ne_nil nonempty
  have leading : ∀ c ∈ [first], c.isDigit = true := by
    intro c member
    exact inside c (List.mem_cons.mpr (.inl (List.mem_singleton.mp member)))
  unfold exponentText
  dsimp only
  rw [signed]
  cases rest with
  | nil =>
    have valid : WellFormed ⟨[first], false, [], some (.shown layout.exponentPlus exponent)⟩ :=
      ⟨leading, by simp, .inl (by simp), fun _ => rfl, only⟩
    apply valid.writes
    · simp [spelling, Exponent.spelling, Exponent.shown]
    · simp [decimal, value]
  | cons second rest =>
    have valid :
        WellFormed ⟨[first], true, second :: rest, some (.shown layout.exponentPlus exponent)⟩ :=
      ⟨leading, fun c member => inside c (List.mem_cons_of_mem _ member), .inl (by simp), by simp,
        only⟩
    apply valid.writes
    · simp [spelling, Exponent.spelling, Exponent.shown]
    · simp only [decimal, List.singleton_append, Option.map_some, Option.getD_some, value,
        List.length_cons, Decimal.mk.injEq, true_and]
      omega

end Digits

/-! Numbers -/

/-- Only zeros are cut off an end. -/
theorem exists_significant_append (digits : List Char) :
    ∃ zeros, digits = significant digits ++ List.replicate zeros '0' := by
  have cut : ∀ c ∈ digits.reverse.takeWhile (· == '0'), c = '0' :=
    fun c member => eq_of_beq (Text.mem_takeWhile c member)
  have zeros := List.eq_replicate_of_mem cut
  refine ⟨(digits.reverse.takeWhile (· == '0')).length, ?_⟩
  calc digits
    _ = (digits.reverse.takeWhile (· == '0') ++ digits.reverse.dropWhile (· == '0')).reverse := by
      rw [List.takeWhile_append_dropWhile, List.reverse_reverse]
    _ = significant digits ++ (digits.reverse.takeWhile (· == '0')).reverse := List.reverse_append
    _ = _ := by rw [zeros, List.reverse_replicate, List.length_replicate]

/-- The significant digits of a coefficient, with the exponent that they go with. -/
theorem nearest_significant {coefficient : Nat} (positive : coefficient ≠ 0) (exponent : Int) :
    let digits := Nat.toDigits 10 coefficient
    significant digits ≠ [] ∧ (∀ c ∈ significant digits, c.isDigit = true) ∧
      Decimal.nearest ⟨Nat.ofDigitChars 10 (significant digits) 0,
        exponent + digits.length - (significant digits).length⟩ =
        Decimal.nearest ⟨coefficient, exponent⟩ := by
  intro digits
  have value : Nat.ofDigitChars 10 digits 0 = coefficient := Nat.ofDigitChars_ten_toDigits
  have inside : ∀ c ∈ digits, c.isDigit = true := fun _ => Decimal.isDigit_of_mem_toDigits
  clear_value digits
  obtain ⟨zeros, parts⟩ := exists_significant_append digits
  generalize significant digits = front at parts
  subst parts
  rw [ofDigitChars_append_zeros] at value
  refine ⟨?_, fun c member => inside c (List.mem_append_left _ member), ?_⟩
  · rintro rfl
    rw [Nat.ofDigitChars_nil, Nat.zero_mul] at value
    exact positive value.symm
  · rw [← value, Decimal.nearest_shifted, List.length_append, List.length_replicate]
    congr 2
    omega

theorem exists_magnitude_numeral (layout : Layout) {units : Nat} (fits : Representable units) :
    ∃ n : Numeral, n.WellFormed ∧ n.spelling = layout.magnitudeText units ∧
      n.value = .finite false units fits := by
  by_cases zero : units = 0
  · subst zero
    have digit : ∀ c ∈ ['0'], c.isDigit = true := by simp
    have written := writes_whole digit (by simp) 0 layout.wholePoint
    obtain ⟨n, valid, spelling, value⟩ := written
    refine ⟨n, valid, ?_, value.trans (Decimal.nearest_of_tiny (.inl rfl))⟩
    rw [spelling, magnitudeText, if_pos rfl]
    cases layout.wholePoint <;> rfl
  · have back := Decimal.shortest_readsBack layout.tie fits
    have positive := back.coefficient_ne_zero fits zero
    have nearest := back.nearest_eq fits
    rw [magnitudeText, if_neg zero]
    generalize Decimal.shortest layout.tie units = d at positive nearest
    obtain ⟨coefficient, exponent⟩ := d
    obtain ⟨nonempty, inside, same⟩ := nearest_significant positive exponent
    dsimp only
    split
    · obtain ⟨n, valid, spelling, value⟩ := writes_positionalText inside nonempty layout
        (exponent + (Nat.toDigits 10 coefficient).length)
      exact ⟨n, valid, spelling, by rw [value, same, nearest]⟩
    · obtain ⟨n, valid, spelling, value⟩ := writes_exponentText inside nonempty layout
        (exponent + (Nat.toDigits 10 coefficient).length - 1)
      refine ⟨n, valid, spelling, ?_⟩
      rw [value, Int.sub_add_cancel, same, nearest]

end Layout

end LineCalc
