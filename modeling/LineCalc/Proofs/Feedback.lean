import LineCalc.Proofs.Acceptance
import LineCalc.Proofs.Digits
import LineCalc.Proofs.FullOutput

set_option autoImplicit false

/- Results that are written in again. The number of a record, whichever format it comes in, is an
expression for the number that was calculated. -/
namespace LineCalc

/-- How a format lays out its numbers. -/
def OutputFormat.layout : OutputFormat → Layout
  | .text => .pointed
  | .json => .json

namespace RecordStyle

/-- What stands before the number of a record. -/
def front (style : RecordStyle) (int : Int64) : List Char :=
  match style.format with
  | .text => "\x1b[96m".toList ++ style.lead.toList ++ ' ' :: (toString int.toInt).toList ++ [' ']
  | .json => "\x7b\"int\":".toList ++ (toString int.toInt).toList ++ ",\"float\":".toList

/-- What stands after it. -/
def back (style : RecordStyle) : List Char :=
  match style.format with
  | .text => "\x1b[0m\n".toList
  | .json => "\x7d\n".toList

theorem textLine_eq (lead : String) (result : Evaluation) :
    textLine lead result =
      front ⟨.text, lead⟩ result.int ++ Layout.pointed.text result.float ++ back ⟨.text, lead⟩ := by
  unfold textLine front back
  dsimp only
  rw [List.append_assoc _ [' ']]
  rfl

theorem jsonObject_eq (lead : String) (result : Evaluation) :
    jsonObject result ++ ['\n'] =
      front ⟨.json, lead⟩ result.int ++ Layout.json.text result.float ++ back ⟨.json, lead⟩ := by
  unfold jsonObject front back
  dsimp only
  rw [List.append_assoc _ ['}']]
  rfl

theorem record_eq (style : RecordStyle) (result : Evaluation) :
    style.record result =
      Text.encode (style.front result.int ++ style.format.layout.text result.float ++
        style.back) := by
  obtain ⟨format, lead⟩ := style
  cases format with
  | text => exact (List.append_nil _).trans (congrArg Text.encode (textLine_eq lead result))
  | json =>
    rw [record_json rfl]
    exact List.flatMap_append.symm.trans (congrArg Text.encode (jsonObject_eq lead result))

end RecordStyle

namespace Layout

/-- The text of a finite number is an expression with that value. A minus sign is no part of its
literal, and makes one level of nesting and a tree of two levels. -/
theorem exists_derivation (layout : Layout) {x : Binary64} (finite : x.isFinite = true) :
    ∃ tokens e, ∃ d : Derivation .sum tokens e, Spelled tokens (layout.text x) ∧
      max d.nesting e.limitedHeight ≤ 2 ∧ ∀ bindings, evaluate bindings e = .ok x := by
  cases x with
  | nan signaling => cases finite
  | infinity negative => cases finite
  | finite negative units fits =>
    obtain ⟨n, valid, spelling, value⟩ := exists_magnitude_numeral layout fits
    have spelled : Spelled [.number n.value] n.spelling := .single (.number valid)
    cases negative with
    | false =>
      refine ⟨_, _, .sumOfUnary (.unaryOfAtom (.literal n.value)), ?_, Nat.zero_le 2,
        fun _ => congrArg Except.ok value⟩
      rw [text, if_neg Bool.false_ne_true, ← spelling]
      exact spelled
    | true =>
      refine ⟨_, _, .sumOfUnary (.negation (.unaryOfAtom (.literal n.value))), ?_,
        Nat.le_refl 2, fun _ => ?_⟩
      · rw [text, if_pos rfl, ← spelling]
        exact .touching (.operator .sub) spelled
      · rw [evaluate, value]
        rfl

/-- The text of a finite number reads back as an expression for it. -/
theorem exists_parse_text (layout : Layout) {x : Binary64} (finite : x.isFinite = true) :
    ∃ e, parse defaultLimit (layout.text x) = .ok e ∧ ∀ bindings, evaluate bindings e = .ok x := by
  obtain ⟨tokens, e, d, spelled, enough, value⟩ := layout.exists_derivation finite
  exact ⟨e, parse_of_spelled spelled d (Nat.le_trans enough (by decide)), value⟩

end Layout

theorem Evaluation.float_ofValue {x : Binary64} (number : x.isNan = false) :
    (Evaluation.ofValue x).float = x := by
  simp [ofValue, number]

/-- The number in a record is laid out so that it evaluates to itself, bit for bit, whatever the
variables stand for. -/
theorem run_printed {x : Binary64} (finite : x.isFinite = true) (style : RecordStyle)
    (bindings : Bindings) :
    let printed := style.format.layout.text x
    (∀ int, (writeRecord style none ⟨int, x⟩).taken =
      Text.encode (style.front int ++ printed ++ style.back)) ∧
    ∃ result, (({} : Calculator).run printed bindings).result = .ok result ∧ result.float = x ∧
      result.float.toBits = x.toBits ∧ result.int = (Evaluation.ofValue x).int := by
  intro printed
  constructor
  · intro int
    rw [writeRecord_none]
    exact style.record_eq ⟨int, x⟩
  · obtain ⟨e, read, value⟩ := style.format.layout.exists_parse_text finite
    have outcome : ({} : Calculator).run printed bindings = .evaluated x := by
      simp only [Calculator.run, printed, read, value]
    have same := Evaluation.float_ofValue (Binary64.isNan_of_isFinite finite)
    exact ⟨.ofValue x, by rw [outcome, Outcome.result], same, by rw [same], rfl⟩

/-- The least negative number, in the words of JSON. -/
theorem run_printed_least : (Binary64.ofBits 0x8000000000000001).isFinite = true ∧
    Layout.json.text (.ofBits 0x8000000000000001) = "-5e-324".toList ∧
    ∃ result, (({} : Calculator).run (Layout.json.text (.ofBits 0x8000000000000001))
        ⟨.zero false, .zero false⟩).result = .ok result ∧
      result.float.toBits = 0x8000000000000001 := by
  have finite : (Binary64.ofBits 0x8000000000000001).isFinite = true := by decide
  obtain ⟨_, result, value, _, bits, _⟩ :=
    run_printed finite ⟨.json, ""⟩ ⟨.zero false, .zero false⟩
  exact ⟨finite, by decide +kernel, result, value, bits⟩

end LineCalc
