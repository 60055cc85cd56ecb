import LineCalc.Proofs.Munching
import LineCalc.Proofs.Utf8
import LineCalc.Proofs.Viability

set_option autoImplicit false

/- Where a text is rejected: at the first token that no expression has there, or at its end. -/
namespace LineCalc

open LineCalc.Standing LineCalc.Parser

/-- The offset that a rejection names, if it is not the limit that was in the way. -/
def Rejection.position? : Rejection → Option Nat
  | .malformed position _ => some position
  | .unsupported position _ _ => some position
  | .tooComplex _ => none

/-- The position is where the first of the lexemes starts, or where the text ends. -/
def Marks (text : List Char) (position : Nat) : List Lexeme → Prop
  | [] => position = Text.byteLength text
  | lexeme :: _ => ∃ front, text = front ++ lexeme.start ∧ position = Text.byteLength front

/-- What was expected depends on the standing alone. -/
theorem Expectation.Fits.label_iff {expected : Expectation} {standing : Standing}
    (fits : expected.Fits standing) :
    (expected.label = "operand" ↔ standing.due = true) ∧
      (expected.label = "')'" ↔ standing.due = false ∧ 0 < standing.opened) ∧
      (expected.label = "operator or end of input" ↔ standing = ⟨false, 0⟩) := by
  obtain ⟨due, opened⟩ := standing
  cases expected with
  | operand =>
    obtain rfl : due = true := fits
    simp [Expectation.label]
  | closing =>
    obtain ⟨rfl, positive⟩ : due = false ∧ 0 < opened := fits
    simp [Expectation.label]
    omega
  | continuation =>
    cases fits
    simp [Expectation.label]
  | token => exact fits.elim

/-- There are three phrases for what the standing of the tokens tells. -/
theorem Expectation.label_of_ne_token {expected : Expectation} (told : expected ≠ .token) :
    expected.label = "operand" ∨ expected.label = "')'" ∨
      expected.label = "operator or end of input" := by
  cases expected with
  | operand => exact .inl rfl
  | closing => exact .inr (.inl rfl)
  | continuation => exact .inr (.inr rfl)
  | token => exact absurd rfl told

namespace Parser

theorem reject_unexpected (limit : Nat) (text : List Char) (lexemes : List Lexeme)
    (rest : List Token) (expected : Expectation) :
    (reject limit text lexemes (.unexpected rest expected)).position? =
        some (Text.byteLength text - Text.byteLength (textFrom lexemes rest)) ∧
      ∀ position complaint,
        reject limit text lexemes (.unexpected rest expected) = .malformed position complaint →
          ∃ found, complaint = .unexpected found expected := by
  rw [reject]
  split
  · exact ⟨rfl, nofun⟩
  · refine ⟨rfl, fun position complaint same => ?_⟩
    cases same
    exact ⟨_, rfl⟩

/-- A text that is not accepted without a limit is blocked after some of its tokens. -/
theorem verdict_eq_error {text : List Char} {need : Nat} {finding : Finding}
    {rejection : Rejection}
    (reading : Reading 0 (.read (.binary 0)) ((Token.lex text).map Lexeme.token) need finding)
    (rejected : verdict text finding = .error rejection) :
    ∃ taken rest standing expected, (Token.lex text).map Lexeme.token = taken ++ rest ∧
      start.after? taken = some standing ∧ Blocked standing rest expected ∧
      rejection = reject 0 text (Token.lex text) (.unexpected rest expected) := by
  cases finding with
  | stuck rest expected =>
    obtain ⟨taken, standing, split, reached, _, blocked⟩ := reading.blocks trivial 0
    exact ⟨taken, rest, standing, expected, split, reached, blocked,
      (Except.error.inj rejected).symm⟩
  | taken branch rest =>
    obtain ⟨taken, split, derives, loose⟩ := reading.derived
    rw [verdict] at rejected
    split at rejected
    · cases rejected
    · refine ⟨taken, rest, ⟨false, 0⟩, .continuation, split, derives.after? 0, ⟨?_, rfl⟩,
        (Except.error.inj rejected).symm⟩
      exact fun token head => next?_of_loose loose head fun _ => rfl

theorem textFrom_of_append {text : List Char} {before after : List Lexeme}
    (lexed : Token.lex text = before ++ after) :
    textFrom (Token.lex text) (after.map Lexeme.token) =
      (after.head?.map Lexeme.start).getD [] := by
  have left : (before ++ after).length - after.length = before.length := by
    rw [List.length_append]
    omega
  rw [textFrom, lexed, List.length_map, left, List.drop_left]
  cases after <;> rfl

theorem textFrom_cons {text : List Char} {before later : List Lexeme} {lexeme : Lexeme}
    (lexed : Token.lex text = before ++ lexeme :: later) :
    textFrom (Token.lex text) ((lexeme :: later).map Lexeme.token) = lexeme.start :=
  textFrom_of_append lexed

end Parser

/-- The bytes before what is left mark the first lexeme that is left. -/
theorem marks_textFrom {text : List Char} {before after : List Lexeme}
    (lexed : Token.lex text = before ++ after) :
    Marks text (Text.byteLength text -
      Text.byteLength (textFrom (Token.lex text) (after.map Lexeme.token))) after := by
  rw [textFrom_of_append lexed]
  cases after with
  | nil => rfl
  | cons lexeme later =>
    have munched := Token.munched_lexFrom (Text.trimStart text)
    obtain ⟨front, parts⟩ := Token.exists_append_start munched lexeme (by
      rw [← Token.lex, lexed]
      simp)
    have whole := List.takeWhile_append_dropWhile (p := Text.isBlank) (l := text)
    rw [← Text.trimStart, parts, ← List.append_assoc] at whole
    generalize text.takeWhile Text.isBlank ++ front = passed at whole
    refine ⟨passed, whole.symm, ?_⟩
    rw [← whole, Text.byteLength_append]
    exact Nat.add_sub_cancel _ _

/-- A rejection names the place of the first token with which no expression begins so, and says
what the tokens before it leave to be expected, in one of three phrases. -/
theorem parse_rejection {text : List Char} {limit position : Nat} {rejection : Rejection}
    (rejected : parse limit text = .error rejection)
    (named : rejection.position? = some position) :
    ∃ before after, Token.Munched (Text.trimStart text) (before ++ after) ∧
      Marks text position after ∧
      (∀ front later, before = front ++ later → Viable (front.map Lexeme.token)) ∧
      (∀ lexeme ∈ after.head?, ¬Viable ((before ++ [lexeme]).map Lexeme.token)) ∧
      ∀ complaint, rejection = .malformed position complaint →
        ∃ found expected, complaint = .unexpected found expected ∧
          (expected.label = "operand" ↔ OperandDue (before.map Lexeme.token)) ∧
          (expected.label = "')'" ↔
            EndsOperand (before.map Lexeme.token) ∧ Unclosed (before.map Lexeme.token)) ∧
          (expected.label = "operator or end of input" ↔
            ∃ e, Derives .sum (before.map Lexeme.token) e) ∧
          (expected.label = "operand" ∨ expected.label = "')'" ∨
            expected.label = "operator or end of input") := by
  obtain ⟨need, finding, reading⟩ :=
    Reading.exists (.read (.binary 0)) 0 ((Token.lex text).map Lexeme.token)
  rw [parse_eq reading] at rejected
  split at rejected
  · obtain ⟨taken, rest, standing, expected, split, reached, blocked, rfl⟩ :=
      verdict_eq_error reading rejected
    obtain ⟨before, after, lexed, rfl, rfl⟩ := List.map_eq_append_iff.mp split
    obtain ⟨place, worded⟩ :=
      reject_unexpected 0 text (Token.lex text) (after.map Lexeme.token) expected
    rw [named] at place
    obtain rfl := Option.some.inj place
    refine ⟨before, after, ?_, marks_textFrom lexed, ?_, ?_, ?_⟩
    · rw [← lexed]
      exact Token.munched_lexFrom _
    · rintro front later rfl
      have viable := (viable_iff_after? _).mpr ⟨standing, reached⟩
      rw [List.map_append] at viable
      exact viable.of_append
    · intro lexeme head viable
      obtain ⟨last, taken⟩ := (viable_iff_after? _).mp viable
      rw [List.map_append, after?_append_of_eq reached, List.map_singleton, after?_singleton,
        blocked.stops lexeme.token (by rw [List.head?_map, head]; rfl)] at taken
      cases taken
    · intro complaint same
      obtain ⟨found, rfl⟩ := worded _ _ same
      obtain ⟨operand, closing, whole⟩ := blocked.fits.label_iff
      refine ⟨found, expected, rfl, ?_, ?_, ?_,
        Expectation.label_of_ne_token blocked.fits.ne_token⟩
      · rw [operand, operandDue_iff reached]
      · rw [closing, endsOperand_iff reached, unclosed_iff reached]
      · rw [whole, derives_iff_after?, reached, Option.some.injEq]
  · cases rejected
    cases named

theorem parenthesis_unclosed : parse 9 "(1 2".toList =
      .error (.malformed 3 (.unexpected (some '2') .closing)) ∧
    ∃ before after, Token.Munched (Text.trimStart "(1 2".toList) (before ++ after) ∧
      Marks "(1 2".toList 3 after ∧ EndsOperand (before.map Lexeme.token) ∧
      Unclosed (before.map Lexeme.token) := by
  have rejected : parse 9 "(1 2".toList =
    .error (.malformed 3 (.unexpected (some '2') .closing)) := rfl
  obtain ⟨before, after, munched, marks, _, _, worded⟩ := parse_rejection rejected rfl
  obtain ⟨found, expected, same, _, closing, _⟩ := worded _ rfl
  cases same
  exact ⟨rejected, before, after, munched, marks, closing.mp rfl⟩

end LineCalc
