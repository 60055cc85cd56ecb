import Mathlib.Data.List.TakeWhile
import LineCalc.Proofs.Acceptance
import LineCalc.Proofs.Nearest
import LineCalc.Settings.Extraction

set_option autoImplicit false

/- Literals as settings. The text of a variable is read as a number by rules of its own: only one
with a point may have an exponent, and a whole number has to fit into 64 bits. What those rules let
through is the number that the literal is in an expression. -/
namespace LineCalc

open LineCalc.Settings

/-! Literals in expressions -/

/-- A whole number of decimal digits is rounded as one that is counted. -/
theorem Decimal.toBinary64_whole (coefficient : Nat) :
    (Decimal.mk coefficient 0).toBinary64 = .ofInt coefficient := by
  rw [toBinary64_eq_nearest]
  have same : coefficient * Nat.pow 10 0 * Binary64.one = coefficient * Binary64.one := by
    rw [Nat.pow_eq, Nat.pow_zero, Nat.mul_one]
  have unsigned : decide ((coefficient : Int) < 0) = false :=
    decide_eq_false (Int.not_lt.mpr (Int.natCast_nonneg coefficient))
  change Binary64.ofRatio false (coefficient * Nat.pow 10 0 * Binary64.one) 1 = _
  rw [same, Binary64.ofInt, unsigned, Int.natAbs_natCast]

namespace Numeral

variable {n : Numeral}

/-- The number that the digits before a point count. -/
def size (n : Numeral) : Nat := Nat.ofDigitChars 10 n.whole 0

/-- A numeral has a point, or it is nothing but digits that count less than `2 ^ 64`. -/
def Settable (n : Numeral) : Prop :=
  n.point = true ∨ n.exponent = none ∧ n.size < 1 <<< 64

theorem WellFormed.ne_of_mem (valid : n.WellFormed) {c d : Char} (member : c ∈ n.spelling)
    (other : d.isDigit = false) (mark : d ∉ ['.', 'e', 'E', '+', '-']) : c ≠ d := by
  rintro rfl
  rcases valid.mem_spelling c member with inside | inside
  · rw [other] at inside
    cases inside
  · exact mark inside

theorem ofText?_spelling (valid : n.WellFormed) : ofText? n.spelling = some n := by
  have ends : Ends [] := by simp [Ends]
  have scanned := scan_append valid (fun _ => ends) ends.halts
  rw [List.append_nil] at scanned
  rw [ofText?, scanned]

theorem parse_spelling (valid : n.WellFormed) (limit : Nat) :
    parse limit n.spelling = .ok (.literal n.value) :=
  parse_of_spelled (.single (.number valid))
    (.sumOfUnary (.unaryOfAtom (.literal n.value))) (Nat.zero_le limit)

theorem trim_spelling (valid : n.WellFormed) : Text.trim n.spelling = n.spelling :=
  have reached : Standing.start.after? [.number n.value] = some ⟨false, 0⟩ := rfl
  Spelled.trim_eq (.single (.number valid)) reached

theorem spelling_plain (pointless : n.point = false) (plain : n.exponent = none)
    (valid : n.WellFormed) : n.spelling = n.whole := by
  simp [spelling, pointless, plain, valid.pointless pointless]

/-- Digits alone make a whole number. -/
theorem value_plain (pointless : n.point = false) (plain : n.exponent = none)
    (valid : n.WellFormed) : n.value = .ofInt n.size := by
  rw [value, decimal, valid.pointless pointless, plain, List.append_nil]
  exact Decimal.toBinary64_whole _

theorem Exponent.WellFormed.point_not_mem {e : Exponent} (valid : e.WellFormed) :
    '.' ∉ e.spelling := by
  intro member
  simp only [spelling, List.cons_append, List.mem_cons, List.mem_append, Option.mem_toList]
    at member
  rcases member with marked | signed | digit
  · rcases valid.marker with small | large
    · simp [small] at marked
    · simp [large] at marked
  · have sign := valid.sign '.' signed
    simp at sign
  · have digit := valid.digits '.' digit
    cases digit

theorem WellFormed.point_mem_spelling (valid : n.WellFormed) :
    '.' ∈ n.spelling ↔ n.point = true := by
  constructor
  · intro member
    by_contra missing
    rw [Bool.not_eq_true] at missing
    simp only [spelling, missing, valid.pointless missing, List.append_nil, Bool.false_eq_true,
      if_false, List.mem_append] at member
    rcases member with whole | exponent
    · have digit := valid.whole '.' whole
      cases digit
    · cases found : n.exponent with
      | none => simp [found] at exponent
      | some e =>
        rw [found] at exponent
        exact (valid.exponent e found).point_not_mem exponent
  · intro point
    simp [spelling, point]

theorem WellFormed.whole_ne_nil (valid : n.WellFormed) (pointless : n.point = false) :
    n.whole ≠ [] :=
  valid.nonempty.resolve_right fun fraction => fraction (valid.pointless pointless)

end Numeral

/-! Literals as the texts of variables -/

namespace Settings

namespace Value

variable {n : Numeral}

theorem splitSign_spelling (valid : n.WellFormed) : splitSign n.spelling = (false, n.spelling) := by
  obtain ⟨d, more, digit, start | start⟩ := valid.exists_start
  · rw [start]
    have negative : d ≠ '-' := by rintro rfl; cases digit
    have positive : d ≠ '+' := by rintro rfl; cases digit
    rw [splitSign]
    · simpa using negative
    · simpa using positive
  · rw [start]
    rfl

/-- A numeral with a point is a fraction. -/
theorem ofBareText_pointed (valid : n.WellFormed) (point : n.point = true) :
    ofBareText n.spelling = .float n.value := by
  have pointed : n.spelling.contains '.' = true :=
    List.contains_iff_mem.mpr (valid.point_mem_spelling.mpr point)
  rw [ofBareText, ofFraction?, if_pos pointed, splitSign_spelling valid]
  simp only [Numeral.ofText?_spelling valid]
  rfl

theorem ofBareText_pointless (valid : n.WellFormed) (pointless : n.point = false) :
    ofBareText n.spelling = (ofInteger? n.spelling).getD (.string n.spelling) := by
  have missing : n.spelling.contains '.' = false := by
    rw [← Bool.not_eq_true, List.contains_iff_mem, valid.point_mem_spelling, pointless]
    exact Bool.false_ne_true
  rw [ofBareText, ofFraction?, if_neg (Bool.eq_false_iff.mp missing), Option.none_or]

theorem wholeNumber?_plain (valid : n.WellFormed) (pointless : n.point = false)
    (plain : n.exponent = none) : wholeNumber? n.spelling = some n.size := by
  rw [Numeral.spelling_plain pointless plain valid, wholeNumber?,
    if_pos ⟨valid.whole_ne_nil pointless, List.all_eq_true.mpr valid.whole⟩]
  rfl

/-- The marker of an exponent is no digit. -/
theorem wholeNumber?_exponent {e : Numeral.Exponent} (valid : n.WellFormed)
    (found : n.exponent = some e) : wholeNumber? n.spelling = none := by
  have marker : e.marker ∈ n.spelling := by
    simp [Numeral.spelling, found, Numeral.Exponent.spelling]
  have other : e.marker.isDigit = false := by
    rcases (valid.exponent e found).marker with small | large
    · rw [small]; rfl
    · rw [large]; rfl
  have digits : ¬ (n.spelling ≠ [] ∧ n.spelling.all Char.isDigit) := by
    rintro ⟨-, all⟩
    have digit := List.all_eq_true.mp all _ marker
    rw [other] at digit
    cases digit
  rw [wholeNumber?, if_neg digits]

theorem number_of_settable (valid : n.WellFormed) (settable : n.Settable) :
    Reader.number (ofBareText n.spelling) = .ok n.value := by
  by_cases point : n.point = true
  · rw [ofBareText_pointed valid point]
    rfl
  · have pointless : n.point = false := Bool.not_eq_true _ |>.mp point
    obtain ⟨plain, small⟩ := settable.resolve_left point
    rw [ofBareText_pointless valid pointless, ofInteger?, splitSign_spelling valid]
    simp only [wholeNumber?_plain valid pointless plain, Bool.false_eq_true, if_false, if_pos small]
    rw [Numeral.value_plain pointless plain valid]
    rfl

/-- A numeral that is neither a fraction nor a whole number of 64 bits is taken for a string. -/
theorem ofBareText_of_not_settable (valid : n.WellFormed) (unsettable : ¬ n.Settable) :
    ofBareText n.spelling = .string n.spelling := by
  rw [Numeral.Settable, not_or, Bool.not_eq_true] at unsettable
  obtain ⟨pointless, large⟩ := unsettable
  rw [ofBareText_pointless valid pointless, ofInteger?, splitSign_spelling valid]
  cases found : n.exponent with
  | some e => simp [wholeNumber?_exponent valid found]
  | none =>
    have wide : ¬ n.size < 1 <<< 64 := fun small => large ⟨found, small⟩
    simp only [wholeNumber?_plain valid pointless found, Bool.false_eq_true, if_false, if_neg wide]
    rfl

/-- A text without blanks, separators and quotes is a bare text to its end. -/
theorem read_spelling (valid : n.WellFormed) (budget : Nat) :
    read (budget + 1) n.spelling = .ok (ofBareText n.spelling, []) := by
  have inside : ∀ c ∈ n.spelling, (!isSeparator c) = true := by
    intro c member
    simp [isSeparator, valid.ne_of_mem member]
  obtain ⟨c, more, start⟩ : ∃ c more, n.spelling = c :: more := by
    obtain ⟨d, more, -, start | start⟩ := valid.exists_start
    · exact ⟨d, more, start⟩
    · exact ⟨'.', d :: more, start⟩
  have first : ∀ d : Char, d.isDigit = false → d ∉ ['.', 'e', 'E', '+', '-'] → c ≠ d :=
    fun d => valid.ne_of_mem (by simp [start])
  have solid : isSpace c = false := by simp [isSpace, first]
  have trimmed := Numeral.trim_spelling valid
  rw [start] at inside trimmed ⊢
  have bare : (c :: more).takeWhile (!isSeparator ·) = c :: more :=
    List.takeWhile_eq_self_iff.mpr inside
  have ended : (c :: more).dropWhile (!isSeparator ·) = [] :=
    List.dropWhile_eq_nil_iff.mpr inside
  have skipped : skipSpace (c :: more) = c :: more := by simp [skipSpace, solid]
  have truth : afterWord? ['t', 'r', 'u', 'e'] (c :: more) = none := by
    simp [afterWord?, (first 't' (by decide) (by decide)).symm]
  have falsity : afterWord? ['f', 'a', 'l', 's', 'e'] (c :: more) = none := by
    simp [afterWord?, (first 'f' (by decide) (by decide)).symm]
  rw [read]
  simp only [skipped, truth, falsity, bind, Except.bind]
  split
  case h_1 | h_2 => contradiction
  case h_3 | h_4 | h_5 | h_6 | h_7 =>
    have same := List.head_eq_of_cons_eq ‹c :: more = _›
    exact absurd same (first _ (by decide) (by decide))
  case h_8 =>
    rw [bare, ended, trimmed]
    rfl

theorem ofText?_spelling (valid : n.WellFormed) :
    ofText? n.spelling = some (ofBareText n.spelling) := by
  rw [ofText?, read_spelling valid]

end Value

/-! A literal as the only setting -/

theorem path?_first (text : String) : (Assignment.mk "APP_A" text).path? = some ["a"] := by
  have named : (Assignment.mk "APP_A" "").path? = some ["a"] := by decide +kernel
  exact named

/-- The settings of an environment that sets nothing but the first variable. -/
theorem load_first {text : String} {value : Value} (read : Value.ofText? text.toList = some value) :
    load [⟨"APP_A", text⟩] =
      ((Reader.under "a" Reader.number value).map fun a => { a }).mapError .unfit := by
  have whole : Environment.value [⟨"APP_A", text⟩] = .ok (.map [("a", value)]) := by
    simp only [Environment.value, List.foldlM_cons, List.foldlM_nil, path?_first, read]
    rfl
  rw [load, whole]
  cases taken : Reader.under "a" Reader.number value with
  | error error => simp [ofEntries, Reader.field, List.lookup_cons, taken]; rfl
  | ok a => simp [ofEntries, Reader.field, List.lookup_cons, taken]; rfl

/-- The name of the first variable stands for its setting. -/
theorem run_first (a : Binary64) :
    let settings : Settings := { a }
    settings.calculator.run ['a'] settings.bindings = .evaluated a := by
  have named : parse defaultLimit ['a'] = .ok (.var "a") := by decide +kernel
  simp only [Calculator.run, Settings.calculator, named]
  rfl

/-- A numeral is one literal, whatever the limit. It can be set if it has a point or is a whole
number of 64 bits, and then it is set to the value of the literal, bit for bit: the name it is set
for calculates as the numeral itself. Another numeral cannot be set, as it is taken for a string. -/
theorem load_numeral {n : Numeral} (valid : n.WellFormed) :
    let environment : Environment := [⟨"APP_A", String.ofList n.spelling⟩]
    let settings : Settings := { a := n.value }
    (∀ limit, parse limit n.spelling = .ok (.literal n.value)) ∧
      (n.Settable → load environment = .ok settings ∧
        ∀ bindings, (settings.calculator.run ['a'] settings.bindings).result =
          (settings.calculator.run n.spelling bindings).result) ∧
      (¬ n.Settable → load environment =
        .error (.unfit ⟨["a"], .kind (Value.string n.spelling).description "f64"⟩)) := by
  intro environment settings
  have loaded : load environment = _ :=
    load_first (by rw [String.toList_ofList]; exact Value.ofText?_spelling valid)
  refine ⟨Numeral.parse_spelling valid, fun settable => ⟨?_, fun bindings => ?_⟩, fun other => ?_⟩
  · rw [loaded, Reader.under, Value.number_of_settable valid settable]
    rfl
  · rw [run_first, Calculator.run, Numeral.parse_spelling valid]
    rfl
  · rw [loaded, Reader.under, Value.ofBareText_of_not_settable valid other]
    rfl

/-- A numeral that starts with its point, and has an exponent behind its fraction. -/
theorem load_fraction :
    let n : Numeral := ⟨[], true, ['5'], some ⟨'e', some '+', ['1']⟩⟩
    n.WellFormed ∧ n.Settable ∧
      load [⟨"APP_A", ".5e+1"⟩] = .ok { a := .ofInt 5 } := by
  intro n
  have valid : n.WellFormed := by
    refine ⟨by simp [n], by simp [n], .inr (List.cons_ne_nil _ _), by simp [n], ?_⟩
    rintro e ⟨⟩
    exact ⟨.inl rfl, by simp, by simp, List.cons_ne_nil _ _⟩
  have settable : n.Settable := .inl rfl
  have spelled : String.ofList n.spelling = ".5e+1" := by decide
  have value : n.value = .ofInt 5 := by decide +kernel
  obtain ⟨-, able, -⟩ := load_numeral valid
  have loads := (able settable).1
  rw [spelled, value] at loads
  exact ⟨valid, settable, loads⟩

/-- An exponent without a point belongs to a literal, but to no setting. -/
theorem load_exponent_error :
    let n : Numeral := ⟨['1'], false, [], some ⟨'e', none, ['5']⟩⟩
    n.WellFormed ∧ parse defaultLimit "1e5".toList = .ok (.literal n.value) ∧
      n.value = .ofInt 100000 ∧
      load [⟨"APP_A", "1e5"⟩] = .error (.unfit ⟨["a"], .kind "string \"1e5\"" "f64"⟩) := by
  intro n
  have valid : n.WellFormed := by
    refine ⟨by simp [n], by simp [n], .inl (List.cons_ne_nil _ _), fun _ => rfl, ?_⟩
    rintro e ⟨⟩
    exact ⟨.inl rfl, by simp, by simp, List.cons_ne_nil _ _⟩
  have unsettable : ¬ n.Settable := by
    rintro (point | ⟨plain, -⟩)
    · cases point
    · cases plain
  have spelled : n.spelling = "1e5".toList := by decide
  have read := Value.ofText?_spelling valid
  rw [Value.ofBareText_of_not_settable valid unsettable, spelled] at read
  refine ⟨valid, spelled ▸ Numeral.parse_spelling valid _, by decide +kernel, ?_⟩
  rw [load_first read, Reader.under]
  have described : (Value.string "1e5".toList).description = "string \"1e5\"" := by decide +kernel
  simp only [Reader.number, Reader.mismatch, described]
  rfl

end Settings

end LineCalc
