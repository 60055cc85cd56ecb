import LineCalc.Proofs.Trailing

set_option autoImplicit false

/- What a text is rejected as, told from the tokens around the place where it stops. A word there is
reported by what it is alone, so that even a variable counts as a name where no operand is due. -/
namespace LineCalc

open LineCalc.Parser LineCalc.Standing

/-! Words and numbers where a text stops -/

namespace Token

theorem munch_of_isWordStart {c : Char} (start : isWordStart c = true) (rest : List Char) :
    (munch c rest).1 = .word (String.ofList (c :: rest.takeWhile isWordPart)) := by
  simp only [munch, scan_eq_none_of_isWordStart start, start, ↓reduceIte]

/-- A token is spelled where it is cut off. -/
theorem exists_spells_munch {c : Char} (solid : isGap c = false) (rest : List Char) :
    ∃ spelling after, (munch c rest).1.Spells spelling ∧ c :: rest = spelling ++ after := by
  rcases cut : munch c rest with ⟨token, more⟩
  exact ⟨_, rest.drop more, munch_spells solid cut, by simp⟩

theorem isWordStart_of_munch {c : Char} {rest : List Char} {name : String}
    (solid : isGap c = false) (cut : (munch c rest).1 = .word name) : isWordStart c = true := by
  obtain ⟨spelling, after, spells, parts⟩ := exists_spells_munch solid rest
  rw [cut] at spells
  cases spells with
  | word start inside =>
    obtain ⟨rfl, _⟩ := List.cons.inj parts
    exact start

end Token

namespace Construct

/-- Words with a meaning of their own in a larger language. -/
def reserved : List String := ["and", "or", "not", "is", "in"] ++ keywords

theorem ofWord_eq_name_iff (word : List Char) :
    ofWord word = .name ↔ String.ofList word ∉ reserved := by
  simp only [ofWord, reserved, List.mem_append, List.mem_cons, List.not_mem_nil, or_false]
  grind

/-- Only words are names. -/
theorem Shows.word_of_name {fragment : List Char} (shows : Shows .name fragment) :
    ∃ c parts, fragment = c :: parts ∧ Token.isWordStart c = true ∧
      (∀ d ∈ parts, Token.isWordPart d = true) ∧ ofWord fragment = .name := by
  have nameless : ∀ entry ∈ pairs ++ marks, entry.2 ≠ .name := by decide
  generalize same : Construct.name = construct at shows ⊢
  cases shows with
  | word start inside => exact ⟨_, _, rfl, start, inside, rfl⟩
  | access start inside => cases same
  | pair listed => exact absurd same.symm (nameless _ (List.mem_append_left _ listed))
  | mark listed => exact absurd same.symm (nameless _ (List.mem_append_right _ listed))

theorem ofText?_of_isWordStart {c : Char} (start : Token.isWordStart c = true)
    (rest : List Char) :
    ofText? (c :: rest) = some (ofWord (c :: rest.takeWhile Token.isWordPart),
      c :: rest.takeWhile Token.isWordPart) := by
  rw [ofText?, if_pos start]

/-- Nothing foreign begins with a number. -/
theorem not_begins_numeral {n : Numeral} (valid : n.WellFormed) (rest : List Char) :
    ¬Begins (n.spelling ++ rest) := by
  intro begins
  have digitless : signs.any Char.isDigit = false := by decide
  have pointless : '.' ∉ signs := by decide
  have point : Token.isWordStart '.' = false := by decide
  obtain ⟨d, more, digit, start | start⟩ := valid.exists_start
  · rw [start, List.cons_append] at begins
    generalize more ++ rest = after at begins
    cases begins with
    | word word => exact absurd (Token.isDigit_of_isWordStart word) (by simp [digit])
    | access => cases digit
    | unequal => cases digit
    | sign listed =>
      rw [List.any_eq_true.mpr ⟨d, listed, digit⟩] at digitless
      cases digitless
  · rw [start, List.cons_append, List.cons_append] at begins
    generalize more ++ rest = after at begins
    cases begins with
    | word word => exact absurd point (by simp [word])
    | access word => exact absurd (Token.isDigit_of_isWordStart word) (by simp [digit])
    | sign listed => exact absurd listed pointless

end Construct

namespace Parser

section

variable {text : List Char} {before later : List Lexeme} {lexeme : Lexeme}

/-- A word is reported as what it is by itself. -/
theorem reject_word (lexed : Token.lex text = before ++ lexeme :: later) {name : String}
    (word : lexeme.token = .word name) (limit : Nat) (expected : Expectation) :
    ∃ position, reject limit text (Token.lex text)
        (.unexpected ((lexeme :: later).map Lexeme.token) expected) =
      .unsupported position (Construct.ofWord name.toList) name := by
  obtain ⟨c, rest, started, solid, token⟩ := start_of_lexed lexed
  have first := Token.isWordStart_of_munch solid (token.symm.trans word)
  rw [Token.munch_of_isWordStart first, word] at token
  obtain rfl := Token.word.inj token
  rw [reject, textFrom_cons lexed, started, Construct.ofText?_of_isWordStart first,
    String.toList_ofList]
  exact ⟨_, rfl⟩

/-- A number is reported as the character that it starts with. -/
theorem reject_number (lexed : Token.lex text = before ++ lexeme :: later) {value : Binary64}
    (number : lexeme.token = .number value) (limit : Nat) (expected : Expectation) :
    ∃ position, reject limit text (Token.lex text)
        (.unexpected ((lexeme :: later).map Lexeme.token) expected) =
      .malformed position (.unexpected lexeme.start.head? expected) := by
  obtain ⟨c, rest, started, solid, token⟩ := start_of_lexed lexed
  obtain ⟨spelling, after, spells, split⟩ := Token.exists_spells_munch solid rest
  rw [← token, number] at spells
  have nothing : Construct.ofText? lexeme.start = none := by
    cases found : Construct.ofText? lexeme.start with
    | none => rfl
    | some shown =>
      have begins := (Construct.isLongest_of_ofText? found).begins
      rw [started, split] at begins
      cases spells with
      | number valid => exact absurd begins (Construct.not_begins_numeral valid after)
  rw [reject, textFrom_cons lexed, nothing]
  exact ⟨_, rfl⟩

end

/-- Only a word that is not reserved is reported as a name. -/
theorem word_of_reject_name {text : List Char} {before after : List Lexeme} {limit position : Nat}
    {expected : Expectation} {name : String} (lexed : Token.lex text = before ++ after)
    (reported : reject limit text (Token.lex text)
      (.unexpected (after.map Lexeme.token) expected) = .unsupported position .name name) :
    (∃ lexeme ∈ after.head?, lexeme.token = .word name) ∧
      Token.Spells (.word name) name.toList ∧ name ∉ Construct.reserved := by
  rw [reject, textFrom_of_append lexed] at reported
  split at reported
  · rename_i construct fragment found
    cases reported
    cases after with
    | nil => cases found
    | cons lexeme later =>
      obtain ⟨shows, _⟩ := Construct.ofText?_eq_some found
      obtain ⟨d, parts, rfl, first, inside, named⟩ := shows.word_of_name
      obtain ⟨c, rest, started, _, token⟩ := start_of_lexed lexed
      rw [List.head?_cons, Option.map_some, Option.getD_some, started] at found
      obtain ⟨more, split⟩ := Construct.fragment_prefix found
      obtain ⟨rfl, _⟩ := List.cons.inj split
      rw [Construct.ofText?_of_isWordStart first] at found
      rw [Token.munch_of_isWordStart first] at token
      simp only [Option.some.injEq, Prod.mk.injEq] at found
      rw [found.2] at token
      refine ⟨⟨lexeme, rfl, token⟩, ?_, (Construct.ofWord_eq_name_iff _).mp named⟩
      rw [String.toList_ofList]
      exact .word first inside
  · cases reported

end Parser

/-- Operands that are complete by themselves are turned down only behind another. -/
theorem Standing.due_of_operand {standing : Standing} {token : Token}
    (operand : startsAtom token = true) (stops : standing.next? token = none) :
    standing.due = false := by
  obtain ⟨due, opened⟩ := standing
  cases due with
  | false => rfl
  | true =>
    cases token with
    | word name =>
      have bound : name = "a" ∨ name = "b" := by simpa [startsAtom] using operand
      simp only [next?, if_pos bound] at stops
      cases stops
    | number | opening => cases stops
    | _ => cases operand

/-- What is reported as a name is a word and not a reserved one. It is no variable, but for one
place: right behind a complete operand a variable is reported as a name, although a number there is
reported as nothing but the character that it starts with. -/
theorem misplaced_operand {text : List Char} {limit position : Nat} {rejection : Rejection}
    (rejected : parse limit text = .error rejection)
    (named : rejection.position? = some position) :
    ∃ before after, Token.Munched (Text.trimStart text) (before ++ after) ∧
      Marks text position after ∧
      (∀ name, rejection = .unsupported position .name name →
        (∃ lexeme ∈ after.head?, lexeme.token = .word name) ∧
          Token.Spells (.word name) name.toList ∧ name ∉ Construct.reserved ∧
          (name = "a" ∨ name = "b" → EndsOperand (before.map Lexeme.token))) ∧
      (∀ lexeme ∈ after.head?, ∀ name, lexeme.token = .word name → name = "a" ∨ name = "b" →
        EndsOperand (before.map Lexeme.token) ∧ rejection = .unsupported position .name name) ∧
      ∀ lexeme ∈ after.head?, ∀ value, lexeme.token = .number value →
        EndsOperand (before.map Lexeme.token) ∧ ∃ expected,
          rejection = .malformed position (.unexpected lexeme.start.head? expected) := by
  obtain ⟨before, after, standing, expected, lexed, reached, blocked, rfl⟩ :=
    exists_standing rejected named
  have place := (reject_unexpected 0 text (Token.lex text) (after.map Lexeme.token) expected).1
  rw [named] at place
  have marks := marks_textFrom lexed
  rw [← Option.some.inj place] at marks
  have munched := Token.munched_lexFrom (Text.trimStart text)
  rw [← Token.lex, lexed] at munched
  have behind : ∀ lexeme ∈ after.head?, startsAtom lexeme.token = true →
      EndsOperand (before.map Lexeme.token) := by
    intro lexeme head operand
    have stops := blocked.stops lexeme.token (by rw [List.head?_map, head]; rfl)
    exact (endsOperand_iff reached).mpr (due_of_operand operand stops)
  refine ⟨before, after, munched, marks, ?_, ?_, ?_⟩
  · intro name reported
    obtain ⟨⟨lexeme, head, word⟩, spells, free⟩ := word_of_reject_name lexed reported
    refine ⟨⟨lexeme, head, word⟩, spells, free, fun bound => behind lexeme head ?_⟩
    rw [word]
    simpa [startsAtom] using bound
  · intro lexeme head name word bound
    obtain ⟨later, rfl⟩ := List.head?_eq_some_iff.mp head
    obtain ⟨other, same⟩ := reject_word lexed word 0 expected
    have meaning : Construct.ofWord name.toList = .name := by
      rcases bound with rfl | rfl <;> decide
    rw [same, meaning] at named ⊢
    obtain rfl := Option.some.inj named
    refine ⟨behind lexeme head ?_, rfl⟩
    rw [word]
    simpa [startsAtom] using bound
  · intro lexeme head value number
    obtain ⟨later, rfl⟩ := List.head?_eq_some_iff.mp head
    obtain ⟨other, same⟩ := reject_number lexed number 0 expected
    rw [same] at named ⊢
    obtain rfl := Option.some.inj named
    refine ⟨behind lexeme head ?_, expected, rfl⟩
    rw [number]
    rfl

/-- A variable behind an operand is reported as a name, a number there as unexpected. -/
theorem variable_behind_operand :
    parse 256 "a b".toList = .error (.unsupported 2 .name "b") ∧
      parse 256 "a 1".toList = .error (.malformed 2 (.unexpected (some '1') .continuation)) :=
  ⟨rfl, rfl⟩

theorem variable_unclosed : parse 9 "(1 b".toList = .error (.unsupported 3 .name "b") ∧
    ∃ before after, Token.Munched (Text.trimStart "(1 b".toList) (before ++ after) ∧
      Marks "(1 b".toList 3 after ∧ (∃ lexeme ∈ after.head?, lexeme.token = .word "b") ∧
      EndsOperand (before.map Lexeme.token) := by
  have rejected : parse 9 "(1 b".toList = .error (.unsupported 3 .name "b") := rfl
  obtain ⟨before, after, munched, marks, reported, _⟩ := misplaced_operand rejected rfl
  obtain ⟨word, _, _, behind⟩ := reported "b" rfl
  exact ⟨rejected, before, after, munched, marks, word, behind (.inr rfl)⟩

end LineCalc
