import LineCalc.Proofs.Threshold
import LineCalc.Proofs.Trailing

set_option autoImplicit false

/- An operator and a sign of equality behind a text that is accepted. An operator of expressions is
taken, so that the sign is what stops the text; any other stops it itself. -/
namespace LineCalc

open LineCalc.Parser LineCalc.Standing

/-! Where tokens stop -/

/-- Tokens that can be taken end before the one that cannot. -/
theorem Standing.exists_before_stop {first standing other : Standing}
    {before taken later rest : List Token} {token : Token}
    (reached : first.after? before = some standing) (stops : standing.next? token = none)
    (passed : first.after? taken = some other) (split : before ++ token :: later = taken ++ rest) :
    ∃ more, before = taken ++ more ∧ rest = more ++ token :: later := by
  rcases List.append_eq_append_iff.mp split with ⟨more, rfl, parts⟩ | ⟨more, rfl, rfl⟩
  · cases more with
    | nil => exact ⟨[], by simp, by simp [parts]⟩
    | cons next more =>
      obtain ⟨rfl, _⟩ := List.cons.inj parts
      rw [after?_append_of_eq reached, Standing.after?, stops] at passed
      cases passed
  · exact ⟨more, rfl, rfl⟩

namespace Parser

section

variable {text : List Char} {before later : List Lexeme} {lexeme : Lexeme} {standing : Standing}

/-- A text is not accepted whose tokens come to one that cannot be taken. If no limit is in the
way, it is rejected at that token. -/
theorem parse_stops (lexed : Token.lex text = before ++ lexeme :: later)
    (reached : start.after? (before.map Lexeme.token) = some standing)
    (stops : standing.next? lexeme.token = none) (solid : lexeme.token.isBlank = false)
    (limit : Nat) :
    parse limit text = .error (.tooComplex limit) ∨ ∃ expected,
      parse limit text = .error (reject 0 text (Token.lex text)
        (.unexpected ((lexeme :: later).map Lexeme.token) expected)) := by
  obtain ⟨need, finding, reading⟩ :=
    Reading.exists (.read (.binary 0)) 0 ((Token.lex text).map Lexeme.token)
  have tokens : (Token.lex text).map Lexeme.token =
      before.map Lexeme.token ++ lexeme.token :: later.map Lexeme.token := by
    rw [lexed, List.map_append, List.map_cons]
  rw [parse_eq reading]
  by_cases enough : need ≤ limit
  · right
    rw [if_pos enough]
    cases found : verdict text finding with
    | ok e =>
      obtain ⟨branch, rest, rfl, blank, _⟩ := verdict_eq_ok found
      obtain ⟨taken, split, derives, _⟩ := reading.derived
      obtain ⟨more, _, rfl⟩ :=
        exists_before_stop reached stops (derives.after? 0) (tokens.symm.trans split)
      rw [List.all_append, List.all_cons, solid, Bool.false_and, Bool.and_false] at blank
      cases blank
    | error rejection =>
      obtain ⟨taken, rest, other, expected, split, passed, blocked, rfl⟩ :=
        verdict_eq_error reading found
      obtain ⟨more, parts, rfl⟩ :=
        exists_before_stop reached stops passed (tokens.symm.trans split)
      -- Were more tokens taken than the parser took, it could have gone on.
      cases more with
      | nil => exact ⟨expected, rfl⟩
      | cons next more =>
        rw [parts, after?_append_of_eq passed, Standing.after?, blocked.stops next rfl] at reached
        cases reached
  · left
    rw [if_neg enough]

/-- Where a text stops, what is found there is reported. -/
theorem reject_of_start {front fragment : List Char} {construct : Construct}
    (lexed : Token.lex text = before ++ lexeme :: later) (split : text = front ++ lexeme.start)
    (found : Construct.ofText? lexeme.start = some (construct, fragment)) (limit : Nat)
    (expected : Expectation) :
    reject limit text (Token.lex text)
        (.unexpected ((lexeme :: later).map Lexeme.token) expected) =
      .unsupported (Text.byteLength front) construct (String.ofList fragment) := by
  have place : Text.byteLength text - Text.byteLength lexeme.start = Text.byteLength front := by
    rw [split, Text.byteLength_append, Nat.add_sub_cancel]
  simp only [reject, textFrom_cons lexed, place, found]

end

end Parser

/-! Behind an accepted text -/

/-- The white space at the end of the text is such as may stand between tokens. -/
def Text.EndsInGaps (text : List Char) : Prop :=
  ∀ c ∈ text.reverse.takeWhile isBlank, Token.isGap c = true

theorem Text.EndsInGaps.exists_gap {text : List Char} (ends : EndsInGaps text) :
    ∃ gap, trimStart text = trim text ++ gap ∧ ∀ c ∈ gap, Token.isGap c = true := by
  obtain ⟨gap, parts, blank⟩ := exists_trimEnd_append (trimStart text)
  refine ⟨gap, parts, fun c member => ends c ?_⟩
  have whole := List.takeWhile_append_dropWhile (p := isBlank) (l := text)
  have inside : ∀ d ∈ gap.reverse, isBlank d = true := by
    simpa using List.all_eq_true.mp blank
  rw [← whole, ← trimStart, parts, ← List.append_assoc, List.reverse_append,
    List.takeWhile_append_of_pos inside]
  exact List.mem_append_left _ (List.mem_reverse.mpr member)

section

variable {text rest : List Char} {tokens : List Token} {e : Expr} {limit : Nat}

/-- Behind an expression, what does not touch it is lexed by itself. -/
theorem lex_append_of_spelled (spelled : Spelled tokens (Text.trim text))
    (d : Derivation .sum tokens e) (ends : Text.EndsInGaps text)
    (clear : (Standing.mk false 0).Clear rest) :
    ∃ lexemes, Token.lex (text ++ rest) = lexemes ++ Token.lexFrom 0 rest ∧
      lexemes.map Lexeme.token = tokens := by
  obtain ⟨gap, parts, gaps⟩ := ends.exists_gap
  have apart : (Standing.mk false 0).Clear (gap ++ rest) := by
    cases gap with
    | nil => exact clear
    | cons c gap =>
      exact clear_of_isBlank _ (Token.isBlank_of_isGap (gaps c List.mem_cons_self))
  have solid : ∃ c ∈ text, Text.isBlank c = false := by
    obtain ⟨c, more, written⟩ := List.exists_cons_of_ne_nil spelled.ne_nil
    refine ⟨c, ?_, spelled.solid_start (d.after? 0) c (by rw [written]; rfl)⟩
    apply (List.dropWhile_sublist Text.isBlank).subset
    rw [← Text.trimStart, parts, written]
    exact List.mem_cons_self
  obtain ⟨lexemes, lexed, same⟩ := spelled.exists_lexemes (d.after? 0) apart
  rw [Spelled.lexFrom_gaps gaps] at lexed
  refine ⟨lexemes, ?_, same⟩
  rw [Token.lex, Text.trimStart_append_of_solid solid, parts, List.append_assoc, lexed]

/-- An accepted text stops before what has no place in an expression. -/
theorem parse_append_other (accepted : parse limit text = .ok e) (ends : Text.EndsInGaps text)
    (clear : (Standing.mk false 0).Clear rest) {lexeme : Lexeme} {later : List Lexeme} {c : Char}
    (lexed : Token.lexFrom 0 rest = lexeme :: later) (other : lexeme.token = .other c)
    (solid : Text.isBlank c = false) :
    ∃ before, Token.lex (text ++ rest) = before ++ lexeme :: later ∧
      parse limit (text ++ rest) = .error (reject 0 (text ++ rest) (Token.lex (text ++ rest))
        (.unexpected ((lexeme :: later).map Lexeme.token) .continuation)) := by
  obtain ⟨tokens, d, spelled, enough⟩ := accepted_iff.mp accepted
  obtain ⟨before, whole, rfl⟩ := lex_append_of_spelled spelled d ends clear
  rw [lexed] at whole
  have loose : Loose 0 ((lexeme :: later).map Lexeme.token) := by
    intro op head
    rw [List.map_cons, List.head?_cons, other] at head
    cases head
  have reading := (found_of_derivation d).whole (by omega) (by omega) loose (d.level_le 0)
  rw [← List.map_append, ← whole] at reading
  have blank : ((lexeme :: later).map Lexeme.token).all Token.isBlank = false := by
    rw [List.map_cons, List.all_cons, other, Token.isBlank, solid, Bool.false_and]
  refine ⟨before, whole, ?_⟩
  rw [parse_eq reading, Derivation.demand, Nat.zero_add, if_pos enough, verdict, blank,
    if_neg Bool.false_ne_true]

end

/-! Operators before a sign of equality -/

/-- Operators of a larger language that no expression has. -/
def Construct.operators : List (List Char × Construct) :=
  [(['&'], .bitwiseOperator), (['|'], .bitwiseOperator), (['<', '<'], .bitwiseOperator),
    (['>', '>'], .bitwiseOperator), (['@'], .matrixMultiply)]

theorem Construct.ofText?_of_operators {spelling : List Char} {construct : Construct}
    (listed : (spelling, construct) ∈ operators) (rest : List Char) :
    ofText? (spelling ++ rest) = some (construct, spelling) := by
  simp only [operators, List.mem_cons, List.not_mem_nil, or_false, Prod.mk.injEq] at listed
  rcases listed with ⟨rfl, rfl⟩ | ⟨rfl, rfl⟩ | ⟨rfl, rfl⟩ | ⟨rfl, rfl⟩ | ⟨rfl, rfl⟩ <;> rfl

/-- A single sign of equality is an assignment. -/
theorem Construct.ofText?_equals {rest : List Char} (single : rest.head? ≠ some '=') :
    ofText? ('=' :: rest) = some (.assignment, ['=']) := by
  have word : Token.isWordStart '=' = false := by decide
  rw [ofText?, word, if_neg Bool.false_ne_true]
  unfold ofSymbol?
  split <;> simp_all

theorem Token.isOther_of_operators {spelling : List Char} {construct : Construct}
    (listed : (spelling, construct) ∈ Construct.operators) :
    ∃ c more, spelling = c :: more ∧ IsOther c ∧ Text.isBlank c = false ∧
      isWordPart c = false ∧ c ≠ '.' := by
  simp only [Construct.operators, List.mem_cons, List.not_mem_nil, or_false,
    Prod.mk.injEq] at listed
  rcases listed with ⟨rfl, _⟩ | ⟨rfl, _⟩ | ⟨rfl, _⟩ | ⟨rfl, _⟩ | ⟨rfl, _⟩ <;>
    exact ⟨_, _, rfl, ⟨by decide, by decide, by decide, by decide⟩, by decide⟩

theorem Token.lexFrom_equals (rest : List Char) :
    ∃ later, lexFrom 0 ('=' :: rest) = ⟨.other '=', '=' :: rest⟩ :: later := by
  have alone : IsOther '=' := ⟨by decide, by decide, by decide, by decide⟩
  exact ⟨_, lexFrom_append (.other alone) nofun⟩

/-- An operator and a single sign of equality behind an accepted text. An operator of expressions
is taken, and the sign reported as an assignment, if the limit allows the operator; an operator
that no expression has is reported itself. -/
theorem augmented_assignment {limit : Nat} {text rest : List Char} {e : Expr}
    (accepted : parse limit text = .ok e) (ends : Text.EndsInGaps text)
    (single : rest.head? ≠ some '=') :
    (∀ op spelling, Token.Spells (.operator op) spelling →
      parse limit (text ++ (spelling ++ '=' :: rest)) = .error (.tooComplex limit) ∨
      parse limit (text ++ (spelling ++ '=' :: rest)) =
        .error (.unsupported (Text.byteLength (text ++ spelling)) .assignment "=")) ∧
    ∀ spelling construct, (spelling, construct) ∈ Construct.operators →
      parse limit (text ++ (spelling ++ '=' :: rest)) =
        .error (.unsupported (Text.byteLength text) construct (String.ofList spelling)) := by
  constructor
  · intro op spelling spells
    obtain ⟨tokens, d, spelled, enough⟩ := accepted_iff.mp accepted
    have taken : (Standing.mk false 0).next? (.operator op) = some ⟨true, 0⟩ := rfl
    have apart : Token.Apart (.operator op) ('=' :: rest) := by cases op <;> simp [Token.Apart]
    obtain ⟨before, lexed, rfl⟩ :=
      lex_append_of_spelled spelled d ends (clear_of_spells spells taken ('=' :: rest))
    obtain ⟨later, equals⟩ := Token.lexFrom_equals rest
    have whole : Token.lex (text ++ (spelling ++ '=' :: rest)) =
        (before ++ [Lexeme.mk (.operator op) (spelling ++ '=' :: rest)]) ++
          ⟨.other '=', '=' :: rest⟩ :: later := by
      rw [lexed, Token.lexFrom_append spells apart, equals, List.append_assoc]
      rfl
    have reached : start.after? ((before ++ [Lexeme.mk (.operator op)
        (spelling ++ '=' :: rest)]).map Lexeme.token) = some ⟨true, 0⟩ := by
      rw [List.map_append]
      exact after?_append_of_eq (d.after? 0) _
    have found := Construct.ofText?_equals single
    refine (parse_stops whole reached rfl rfl limit).imp_right ?_
    rintro ⟨expected, stopped⟩
    rw [stopped, reject_of_start whole (List.append_assoc _ _ _).symm found]
  · intro spelling construct listed
    obtain ⟨c, more, parts, alone, solid, outside, point⟩ := Token.isOther_of_operators listed
    have lexed : Token.lexFrom 0 (spelling ++ '=' :: rest) =
        ⟨.other c, spelling ++ '=' :: rest⟩ :: Token.lexFrom 0 (more ++ '=' :: rest) := by
      rw [parts]
      exact Token.lexFrom_append (.other alone) fun same => absurd same point
    have clear : (Standing.mk false 0).Clear (spelling ++ '=' :: rest) := by
      rw [parts]
      rintro d ⟨rfl⟩
      exact ⟨outside, point⟩
    obtain ⟨before, whole, stopped⟩ :=
      parse_append_other accepted ends clear lexed rfl solid
    have found := Construct.ofText?_of_operators listed ('=' :: rest)
    rw [stopped, reject_of_start whole rfl found]

/-- Before a sign of equality, an operator that no expression has is not taken for a part of it. -/
theorem conjunction_assigned : parse 256 "a".toList = .ok (.var "a") ∧
    parse 256 "a&=1".toList = .error (.unsupported 1 .bitwiseOperator "&") :=
  ⟨rfl, rfl⟩

theorem power_assigned : parse 1 "-b ".toList = .error (.tooComplex 1) ∧
    parse 2 "-b ".toList = .ok (.neg (.var "b")) ∧
    parse 2 "-b **=a".toList = .error (.unsupported 5 .assignment "=") ∧
    parse 2 "-b >>=a".toList = .error (.unsupported 3 .bitwiseOperator ">>") := by
  have accepted : parse 2 "-b ".toList = .ok (.neg (.var "b")) := rfl
  have ends : Text.EndsInGaps "-b ".toList := List.all_eq_true.mp (by decide)
  have single : "a".toList.head? ≠ some '=' := by decide
  obtain ⟨taken, reported⟩ := augmented_assignment accepted ends single
  refine ⟨rfl, accepted, ?_, reported ['>', '>'] .bitwiseOperator (by decide)⟩
  exact (taken .pow ['*', '*'] .power).resolve_left nofun

end LineCalc
