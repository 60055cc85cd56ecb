import LineCalc.Proofs.Fragments
import LineCalc.Proofs.Writing

set_option autoImplicit false

/- White space after a text that is rejected. The rejection stays as it is, unless the text stops
amid an expression: then the white space is what stands where the expression should go on. -/
namespace LineCalc

open LineCalc.Parser

/-! Lexemes of a text that goes on -/

/-- The lexeme in a text that goes on with some white space. -/
def Lexeme.extend (white : List Char) (lexeme : Lexeme) : Lexeme :=
  ⟨lexeme.token, lexeme.start ++ white⟩

theorem Lexeme.map_token_extend (white : List Char) (lexemes : List Lexeme) :
    (lexemes.map (extend white)).map token = lexemes.map token := by
  rw [List.map_map]
  rfl

/-- What is before a text is trimmed as it is without what follows. -/
theorem Text.trimStart_append_of_solid {text : List Char} (solid : ∃ c ∈ text, isBlank c = false)
    (rest : List Char) : trimStart (text ++ rest) = trimStart text ++ rest := by
  have started : ¬(text.dropWhile isBlank).isEmpty = true := by
    rw [List.isEmpty_iff]
    intro empty
    have parts := List.takeWhile_append_dropWhile (p := isBlank) (l := text)
    rw [empty, List.append_nil] at parts
    obtain ⟨c, member, solid⟩ := solid
    rw [← parts] at member
    rw [mem_takeWhile c member] at solid
    cases solid
  rw [trimStart, List.dropWhile_append, if_neg started, trimStart]

namespace Token

/-- No token goes on into white space. -/
theorem length_le_of_append_blank {token : Token} {text white longer after : List Char}
    (nonempty : text ≠ []) (blank : ∀ c ∈ white, Text.isBlank c = true)
    (spells : token.Spells longer) (split : text ++ white = longer ++ after) :
    longer.length ≤ text.length := by
  rcases List.append_eq_append_iff.mp split with ⟨more, rfl, parts⟩ | ⟨more, parts, _⟩
  · cases more with
    | nil => simp
    | cons c more =>
      have inside : c ∈ text ++ c :: more := List.mem_append_right _ List.mem_cons_self
      have member : c ∈ white := by
        rw [parts]
        exact List.mem_cons_self
      obtain ⟨rfl, _⟩ := spells.eq_other_of_isBlank inside (blank c member)
      have positive := List.length_pos_iff.mpr nonempty
      generalize whole : text ++ c :: more = longer at spells
      cases spells
      have length := congrArg List.length whole
      rw [List.length_append, List.length_cons, List.length_singleton] at length
      omega
  · rw [parts, List.length_append]
    omega

/-- White space after a text leaves its lexemes as they are. -/
theorem Munched.append_blank {text white : List Char} {lexemes rest : List Lexeme}
    (munched : Munched text lexemes) (blank : ∀ c ∈ white, Text.isBlank c = true)
    (last : Munched white rest) :
    Munched (text ++ white) (lexemes.map (Lexeme.extend white) ++ rest) := by
  induction munched with
  | nil => exact last
  | gap gap later ih => exact .gap gap ih
  | @token token spelling after lexemes spells longest later ih =>
    have furthest : ∀ other longer tail, Spells other longer →
        spelling ++ (after ++ white) = longer ++ tail → longer.length ≤ spelling.length := by
      intro other longer tail otherSpells split
      rw [← List.append_assoc] at split
      have started : spelling ++ after ≠ [] := by simp [spells.ne_nil]
      have short := length_le_of_append_blank started blank otherSpells split
      obtain ⟨more, inside⟩ : longer <+: spelling ++ after :=
        List.prefix_of_prefix_length_le ⟨tail, split.symm⟩ (List.prefix_append _ _) short
      exact longest other longer more otherSpells inside.symm
    have munched := Munched.token spells furthest ih
    rw [List.map_cons, List.cons_append, Lexeme.extend, List.append_assoc]
    exact munched

theorem lex_append {text white : List Char} (solid : ∃ c ∈ text, Text.isBlank c = false)
    (blank : ∀ c ∈ white, Text.isBlank c = true) :
    lex (text ++ white) = (lex text).map (Lexeme.extend white) ++ lexFrom 0 white := by
  have munched := (munched_lexFrom (Text.trimStart text)).append_blank blank (munched_lexFrom white)
  rw [lex, lex, Text.trimStart_append_of_solid solid]
  exact (munched_iff.mp munched).symm

/-- The first lexeme starts behind the gaps. -/
theorem start_head?_lexFrom (text : List Char) :
    ((lexFrom 0 text).head?.map Lexeme.start).getD [] = text.dropWhile isGap := by
  induction text with
  | nil => rfl
  | cons c rest ih =>
    by_cases gap : isGap c = true
    · rw [lexFrom_gap gap, ih, List.dropWhile_cons_of_pos gap]
    · obtain ⟨_, _, _, _, _, cut, _⟩ := lexFrom_cons rest (Bool.not_eq_true _ ▸ gap)
      rw [cut, List.dropWhile_cons_of_neg gap]
      rfl

end Token

/-! Tokens behind the tokens of a text -/

/-- What comes first, if anything, has no place in an expression. -/
def Inert (tokens : List Token) : Prop := ∀ token ∈ tokens.head?, ∃ c, token = .other c

theorem Inert.mem_head?_append {tokens more : List Token} {token : Token} (inert : Inert more)
    (head : token ∈ (tokens ++ more).head?) :
    token ∈ tokens.head? ∨ ∃ c, token = .other c := by
  cases tokens with
  | nil => exact .inr (inert token head)
  | cons first rest => exact .inl head

theorem Inert.loose {floor : Nat} {tokens more : List Token} (inert : Inert more)
    (loose : Loose floor tokens) : Loose floor (tokens ++ more) := by
  intro op head
  rcases inert.mem_head?_append head with inside | ⟨c, other⟩
  · exact loose op inside
  · cases other

theorem inert_of_isBlank {tokens : List Token} (blank : tokens.all Token.isBlank = true) :
    Inert tokens := by
  intro token head
  have meaning := List.all_eq_true.mp blank token (List.mem_of_mem_head? head)
  cases token with
  | other c => exact ⟨c, rfl⟩
  | _ => cases meaning

namespace Parser

/-- What a task leaves. -/
def Finding.rest : Finding → List Token
  | .taken _ rest => rest
  | .stuck rest _ => rest

/-- The same, with more tokens left. -/
def Finding.append (more : List Token) : Finding → Finding
  | .taken branch rest => .taken branch (rest ++ more)
  | .stuck rest expected => .stuck (rest ++ more) expected

/-- What no expression goes on with is left over like the end of the tokens. -/
theorem Reading.append {level need : Nat} {task : Task} {tokens more : List Token}
    {finding : Finding} (reading : Reading level task tokens need finding) (inert : Inert more) :
    Reading level task (tokens ++ more) need (finding.append more) := by
  induction reading with
  | literal => exact .literal
  | var bound => exact .var bound
  | operandMissing missing =>
    apply Reading.operandMissing
    intro token head
    rcases inert.mem_head?_append head with inside | ⟨c, rfl⟩
    · exact missing token inside
    · rfl
  | parentheses inner ih => exact .parentheses ih
  | closingMissing inner missing ih =>
    apply Reading.closingMissing ih
    intro head
    rcases inert.mem_head?_append head with inside | ⟨c, other⟩
    · exact missing inside
    · cases other
  | parenthesesStuck inner ih => exact .parenthesesStuck ih
  | unsigned plain inner ih =>
    refine .unsigned (fun head => ?_) ih
    rcases inert.mem_head?_append head with inside | ⟨c, other⟩
    · exact plain inside
    · cases other
  | negation inner ih => exact .negation ih
  | negationStuck inner ih => exact .negationStuck ih
  | binary start loop startIh loopIh => exact .binary startIh loopIh
  | binaryStuck start ih => exact .binaryStuck ih
  | done loose => exact .done (inert.loose loose)
  | step tight operand loop operandIh loopIh => exact .step tight operandIh loopIh
  | stepStuck tight operand ih => exact .stepStuck tight ih

theorem Reading.exists_taken {need : Nat} {tokens : List Token} {finding : Finding}
    (reading : Reading 0 (.read (.binary 0)) tokens need finding) :
    ∃ taken, tokens = taken ++ finding.rest := by
  cases finding with
  | taken branch rest =>
    obtain ⟨taken, split, _⟩ := reading.derived
    exact ⟨taken, split⟩
  | stuck rest expected =>
    obtain ⟨taken, _, split, _⟩ := reading.blocks trivial 0
    exact ⟨taken, split⟩

theorem verdict_append {text : List Char} {finding : Finding} {rejection : Rejection}
    {more : List Token} (rejected : verdict text finding = .error rejection)
    (blank : more.all Token.isBlank = true) (longer : List Char) :
    ∃ expected,
      rejection = reject 0 text (Token.lex text) (.unexpected finding.rest expected) ∧
      verdict longer (finding.append more) = .error
        (reject 0 longer (Token.lex longer) (.unexpected (finding.rest ++ more) expected)) := by
  cases finding with
  | stuck rest expected => exact ⟨expected, (Except.error.inj rejected).symm, rfl⟩
  | taken branch rest =>
    rw [verdict] at rejected
    split at rejected
    · cases rejected
    · rename_i solid
      refine ⟨.continuation, (Except.error.inj rejected).symm, ?_⟩
      rw [Finding.append, verdict, List.all_append, blank, Bool.and_true, if_neg solid]
      rfl

/-- A text with white space after it is rejected where it was without, or behind its end. -/
theorem parse_append_blank {text white : List Char} {limit : Nat} {rejection : Rejection}
    (solid : ∃ c ∈ text, Text.isBlank c = false) (blank : ∀ c ∈ white, Text.isBlank c = true)
    (rejected : parse limit text = .error rejection) :
    rejection = .tooComplex limit ∧ parse limit (text ++ white) = .error (.tooComplex limit) ∨
    ∃ before after expected, Token.lex text = before ++ after ∧
      rejection =
        reject 0 text (Token.lex text) (.unexpected (after.map Lexeme.token) expected) ∧
      parse limit (text ++ white) = .error (reject 0 (text ++ white) (Token.lex (text ++ white))
        (.unexpected ((after.map (Lexeme.extend white) ++ Token.lexFrom 0 white).map Lexeme.token)
          expected)) := by
  obtain ⟨need, finding, reading⟩ :=
    Reading.exists (.read (.binary 0)) 0 ((Token.lex text).map Lexeme.token)
  have blanks : ((Token.lexFrom 0 white).map Lexeme.token).all Token.isBlank = true := by
    rw [Token.all_isBlank_lexFrom, List.all_eq_true]
    exact blank
  have longer := reading.append (inert_of_isBlank blanks)
  have lexed : (Token.lex (text ++ white)).map Lexeme.token =
      (Token.lex text).map Lexeme.token ++ (Token.lexFrom 0 white).map Lexeme.token := by
    rw [Token.lex_append solid blank, List.map_append, Lexeme.map_token_extend]
  rw [← lexed] at longer
  rw [parse_eq reading] at rejected
  rw [parse_eq longer]
  by_cases enough : need ≤ limit
  · right
    rw [if_pos enough] at rejected ⊢
    obtain ⟨expected, same, found⟩ := verdict_append rejected blanks (text ++ white)
    obtain ⟨taken, split⟩ := reading.exists_taken
    obtain ⟨before, after, parts, _, left⟩ := List.map_eq_append_iff.mp split
    rw [← left] at same found
    refine ⟨before, after, expected, parts, same, ?_⟩
    rw [List.map_append, Lexeme.map_token_extend]
    exact found
  · left
    rw [if_neg enough] at rejected ⊢
    exact ⟨(Except.error.inj rejected).symm, rfl⟩

end Parser

/-! Fragments before white space -/

namespace Construct

/-- White space is part of no fragment but the one character that it is. -/
theorem Shows.length_of_isBlank {construct : Construct} {fragment : List Char} {c : Char}
    (shows : Shows construct fragment) (member : c ∈ fragment) (blank : Text.isBlank c = true) :
    fragment.length = 1 := by
  have outside := (Token.isBlank_outside blank).1
  cases shows with
  | word start inside =>
    rw [Token.isWordPart_of_mem_word start inside member] at outside
    cases outside
  | access start inside =>
    rcases List.mem_cons.mp member with rfl | member
    · cases blank
    · rw [Token.isWordPart_of_mem_word start inside member] at outside
      cases outside
  | pair listed =>
    have solid : ∀ entry ∈ pairs, entry.1.any Text.isBlank = false := by decide
    have found := List.any_eq_true.mpr ⟨c, member, blank⟩
    rw [solid _ listed] at found
    cases found
  | mark listed =>
    have single : ∀ entry ∈ marks, entry.1.length = 1 := by decide
    exact single _ listed

theorem isWordStart_of_isBlank {c : Char} (blank : Text.isBlank c = true) :
    Token.isWordStart c = false :=
  (Bool.or_eq_false_iff.mp (Token.isBlank_outside blank).1).1

theorem Begins.of_append {c : Char} {rest white : List Char}
    (begins : Begins (c :: rest ++ white)) (blank : ∀ c ∈ white, Text.isBlank c = true) :
    Begins (c :: rest) := by
  generalize whole : c :: rest ++ white = text at begins
  cases begins with
  | word start =>
    cases whole
    exact .word start
  | sign listed =>
    cases whole
    exact .sign listed
  | @access d after start =>
    cases rest with
    | cons first rest =>
      cases whole
      exact .access start
    | nil =>
      obtain ⟨rfl, rfl⟩ := List.cons.inj whole
      rw [isWordStart_of_isBlank (blank d List.mem_cons_self)] at start
      cases start
  | @unequal after =>
    cases rest with
    | cons first rest =>
      cases whole
      exact .unequal
    | nil =>
      obtain ⟨rfl, rfl⟩ := List.cons.inj whole
      cases blank '=' List.mem_cons_self

/-- The fragment at the start of a text is the same with white space after the text. -/
theorem ofText?_append {text white : List Char} (nonempty : text ≠ [])
    (blank : ∀ c ∈ white, Text.isBlank c = true) : ofText? (text ++ white) = ofText? text := by
  obtain ⟨c, rest, rfl⟩ := List.exists_cons_of_ne_nil nonempty
  cases found : ofText? (c :: rest) with
  | none =>
    have nothing := ofText?_eq_none found
    cases again : ofText? (c :: rest ++ white) with
    | none => rfl
    | some shown => exact absurd ((isLongest_of_ofText? again).begins.of_append blank) nothing
  | some shown =>
    obtain ⟨construct, fragment⟩ := shown
    obtain ⟨shows, starts⟩ := ofText?_eq_some found
    cases again : ofText? (c :: rest ++ white) with
    | none =>
      obtain ⟨more, parts⟩ := starts
      rw [← parts, List.append_assoc] at again
      exact absurd (shows.begins _) (ofText?_eq_none again)
    | some shown =>
      obtain ⟨other, longer⟩ := shown
      obtain ⟨otherShows, otherStarts⟩ := ofText?_eq_some again
      have long := length_le_of_ofText? again shows (starts.trans (List.prefix_append _ _))
      have inside : longer <+: c :: rest := by
        obtain ⟨tail, split⟩ := otherStarts
        rcases List.append_eq_append_iff.mp split with ⟨more, parts, _⟩ | ⟨more, rfl, parts⟩
        · exact ⟨more, parts.symm⟩
        · cases more with
          | nil => exact (List.append_nil _).symm ▸ List.prefix_refl _
          | cons d more =>
            have member : d ∈ white := by
              rw [parts]
              exact List.mem_cons_self
            have single := otherShows.length_of_isBlank
              (List.mem_append_right _ List.mem_cons_self) (blank d member)
            rw [List.length_append, List.length_cons, List.length_cons] at single
            omega
      have short := length_le_of_ofText? found otherShows inside
      obtain rfl : longer = fragment :=
        (List.prefix_of_prefix_length_le inside starts short).eq_of_length (by omega)
      rw [shows.unique otherShows]

/-- Of all white space, only a line break means something by itself. -/
theorem ofText?_of_isBlank {c : Char} (rest : List Char) (blank : Text.isBlank c = true) :
    ofText? (c :: rest) =
      if c = '\n' ∨ c = '\r' then some (.multipleStatements, [c]) else none := by
  split
  · rename_i breaks
    rcases breaks with rfl | rfl <;> rfl
  · rename_i unbroken
    cases found : ofText? (c :: rest) with
    | none => rfl
    | some shown =>
      have begins := (isLongest_of_ofText? found).begins
      cases begins with
      | word start =>
        rw [isWordStart_of_isBlank blank] at start
        cases start
      | access start => cases blank
      | unequal => cases blank
      | sign listed =>
        have breaks : signs.filter Text.isBlank = ['\n', '\r'] := by decide
        have member := List.mem_filter.mpr ⟨listed, blank⟩
        rw [breaks] at member
        exact absurd (by simpa using member) unbroken

end Construct

/-! Rejections before white space -/

namespace Parser

section

variable {text white : List Char} {before after : List Lexeme}

theorem textFrom_append_blank (solid : ∃ c ∈ text, Text.isBlank c = false)
    (blank : ∀ c ∈ white, Text.isBlank c = true) (lexed : Token.lex text = before ++ after) :
    textFrom (Token.lex (text ++ white))
        ((after.map (Lexeme.extend white) ++ Token.lexFrom 0 white).map Lexeme.token) =
      ((after.map (Lexeme.extend white) ++
        Token.lexFrom 0 white).head?.map Lexeme.start).getD [] := by
  have whole : Token.lex (text ++ white) = before.map (Lexeme.extend white) ++
      (after.map (Lexeme.extend white) ++ Token.lexFrom 0 white) := by
    rw [Token.lex_append solid blank, lexed, List.map_append, List.append_assoc]
  exact textFrom_of_append whole

/-- What is left of a text from a lexeme on is not empty. -/
theorem textFrom_ne_nil (lexed : Token.lex text = before ++ after) (nonempty : after ≠ []) :
    textFrom (Token.lex text) (after.map Lexeme.token) ≠ [] := by
  obtain ⟨lexeme, later, rfl⟩ := List.exists_cons_of_ne_nil nonempty
  obtain ⟨c, rest, start, _⟩ := start_of_lexed lexed
  rw [textFrom_of_append lexed]
  simp [start]

/-- A text is rejected at its end only where nothing is left of it. -/
theorem position?_reject_ne (lexed : Token.lex text = before ++ after) (nonempty : after ≠ [])
    (limit : Nat) (expected : Expectation) :
    (reject limit text (Token.lex text) (.unexpected (after.map Lexeme.token) expected)).position? ≠
      some (Text.byteLength text) := by
  rw [(reject_unexpected limit text _ _ expected).1]
  obtain ⟨front, parts⟩ := textFrom_suffix text (after.map Lexeme.token)
  have left := List.length_pos_iff.mpr (textFrom_ne_nil lexed nonempty)
  generalize textFrom (Token.lex text) (after.map Lexeme.token) = remaining at parts left
  have bytes := Text.length_le_byteLength remaining
  have whole := congrArg Text.byteLength parts
  rw [Text.byteLength_append] at whole
  intro same
  have := Option.some.inj same
  omega

theorem reject_inside (solid : ∃ c ∈ text, Text.isBlank c = false)
    (blank : ∀ c ∈ white, Text.isBlank c = true) (lexed : Token.lex text = before ++ after)
    (nonempty : after ≠ []) (limit : Nat) (expected : Expectation) :
    reject limit (text ++ white) (Token.lex (text ++ white))
        (.unexpected ((after.map (Lexeme.extend white) ++
          Token.lexFrom 0 white).map Lexeme.token) expected) =
      reject limit text (Token.lex text) (.unexpected (after.map Lexeme.token) expected) := by
  have remaining : textFrom (Token.lex (text ++ white))
      ((after.map (Lexeme.extend white) ++ Token.lexFrom 0 white).map Lexeme.token) =
        textFrom (Token.lex text) (after.map Lexeme.token) ++ white := by
    obtain ⟨lexeme, later, rfl⟩ := List.exists_cons_of_ne_nil nonempty
    rw [textFrom_append_blank solid blank lexed, textFrom_of_append lexed]
    rfl
  have started := textFrom_ne_nil lexed nonempty
  rw [reject, reject, remaining, Construct.ofText?_append started blank]
  generalize textFrom (Token.lex text) (after.map Lexeme.token) = rest at started
  obtain ⟨c, rest, rfl⟩ := List.exists_cons_of_ne_nil started
  rw [Text.byteLength_append, Text.byteLength_append, Nat.add_sub_add_right]
  rfl

theorem reject_end (limit : Nat) (text : List Char) (expected : Expectation) :
    reject limit text (Token.lex text) (.unexpected [] expected) =
      .malformed (Text.byteLength text) (.unexpected none expected) := by
  have left : textFrom (Token.lex text) [] = [] :=
    textFrom_of_append (List.append_nil (Token.lex text)).symm
  rw [reject, left]
  rfl

/-- Behind the end of a text, the first white space that is no gap is found. -/
theorem reject_behind (solid : ∃ c ∈ text, Text.isBlank c = false)
    (blank : ∀ c ∈ white, Text.isBlank c = true) (limit : Nat) (expected : Expectation) :
    reject limit (text ++ white) (Token.lex (text ++ white))
        (.unexpected ((Token.lexFrom 0 white).map Lexeme.token) expected) =
      match white.dropWhile Token.isGap with
      | [] => .malformed (Text.byteLength (text ++ white)) (.unexpected none expected)
      | c :: _ =>
        if c = '\n' ∨ c = '\r' then
          .unsupported (Text.byteLength (text ++ white.takeWhile Token.isGap)) .multipleStatements
            (String.ofList [c])
        else .malformed (Text.byteLength (text ++ white.takeWhile Token.isGap))
          (.unexpected (some c) expected) := by
  have remaining : textFrom (Token.lex (text ++ white))
      ((Token.lexFrom 0 white).map Lexeme.token) = white.dropWhile Token.isGap :=
    (textFrom_append_blank solid blank (List.append_nil (Token.lex text)).symm).trans
      (Token.start_head?_lexFrom white)
  have parts := List.takeWhile_append_dropWhile (p := Token.isGap) (l := white)
  rw [reject, remaining]
  generalize white.takeWhile Token.isGap = gap at parts
  cases left : white.dropWhile Token.isGap with
  | nil => rfl
  | cons c rest =>
    rw [left] at parts
    have position : Text.byteLength (text ++ white) - Text.byteLength (c :: rest) =
        Text.byteLength (text ++ gap) := by
      rw [← parts, ← List.append_assoc, Text.byteLength_append, Nat.add_sub_cancel]
    have member : c ∈ white := by
      rw [← parts]
      simp
    rw [position, Construct.ofText?_of_isBlank rest (blank c member)]
    by_cases breaks : c = '\n' ∨ c = '\r'
    · simp only [if_pos breaks]
    · simp only [if_neg breaks]
      rfl

theorem parse_of_blank (blank : ∀ c ∈ text, Text.isBlank c = true) (limit : Nat) :
    parse limit text = .error (.malformed (Text.byteLength text) (.unexpected none .operand)) := by
  have lexed : Token.lex text = [] := by
    have trimmed : Text.trimStart (text ++ []) = [] :=
      Text.dropWhile_append_of_halts blank nofun
    rw [List.append_nil] at trimmed
    rw [Token.lex, trimmed]
    rfl
  have stopped := reject_end limit text .operand
  rw [lexed] at stopped
  simp only [parse, lexed]
  exact congrArg Except.error stopped

end

end Parser

/-- What a rejection is for, wherever and in whatever words. -/
inductive Rejection.Cause where
  | malformed
  | unsupported (construct : Construct)
  | tooComplex
  deriving DecidableEq

def Rejection.cause : Rejection → Rejection.Cause
  | .malformed _ _ => .malformed
  | .unsupported _ construct _ => .unsupported construct
  | .tooComplex _ => .tooComplex

/-- The text stops amid an expression: it is not blank, and what is wrong is its end. -/
def StopsShort (text : List Char) (rejection : Rejection) : Prop :=
  (∃ c ∈ text, Text.isBlank c = false) ∧ rejection.position? = some (Text.byteLength text)

/-- Behind the gaps a line breaks. -/
def BreaksLine (white : List Char) : Prop :=
  ∃ c ∈ (white.dropWhile Token.isGap).head?, c = '\n' ∨ c = '\r'

/-- White space after a rejected text leaves the cause of the rejection as it is, but for one case:
where the text stops amid an expression and a line breaks next, that line break is taken for the end
of a statement. What is rejected before its end is rejected just as without the white space. -/
theorem rejection_append_blank {text white : List Char} {limit : Nat} {rejection : Rejection}
    (rejected : parse limit text = .error rejection)
    (blank : ∀ c ∈ white, Text.isBlank c = true) :
    ∃ later, parse limit (text ++ white) = .error later ∧
      (later.cause = rejection.cause ↔ ¬(StopsShort text rejection ∧ BreaksLine white)) ∧
      (rejection.position? ≠ some (Text.byteLength text) → later = rejection) ∧
      (StopsShort text rejection →
        ∀ c ∈ (white.dropWhile Token.isGap).head?, c = '\n' ∨ c = '\r' →
          later = .unsupported (Text.byteLength (text ++ white.takeWhile Token.isGap))
            .multipleStatements (String.ofList [c])) := by
  by_cases solid : ∃ c ∈ text, Text.isBlank c = false
  · rcases parse_append_blank solid blank rejected with
      ⟨rfl, stopped⟩ | ⟨before, after, expected, lexed, rfl, stopped⟩
    · exact ⟨_, stopped, iff_of_true rfl nofun, fun _ => rfl, nofun⟩
    · by_cases ended : after = []
      · subst ended
        rw [List.map_nil, List.nil_append, reject_behind solid blank] at stopped
        rw [List.map_nil, reject_end]
        have short : StopsShort text (.malformed (Text.byteLength text)
          (.unexpected none expected)) := ⟨solid, rfl⟩
        refine ⟨_, stopped, ?_, fun inside => absurd rfl inside, fun _ c head breaks => ?_⟩
        · rw [BreaksLine]
          cases left : white.dropWhile Token.isGap with
          | nil => simp [Rejection.cause]
          | cons c rest => by_cases breaks : c = '\n' ∨ c = '\r' <;>
              simp [breaks, short, Rejection.cause]
        · obtain ⟨rest, left⟩ := List.head?_eq_some_iff.mp head
          simp only [left, if_pos breaks]
      · have inside := position?_reject_ne lexed ended 0 expected
        rw [reject_inside solid blank lexed ended] at stopped
        exact ⟨_, stopped, iff_of_true rfl fun short => inside short.1.2, fun _ => rfl,
          fun short => absurd short.2 inside⟩
  · have blankText : ∀ c ∈ text, Text.isBlank c = true := by simpa using solid
    have whole : ∀ c ∈ text ++ white, Text.isBlank c = true := by
      intro c member
      rcases List.mem_append.mp member with inside | inside
      · exact blankText c inside
      · exact blank c inside
    rw [parse_of_blank blankText] at rejected
    obtain rfl := Except.error.inj rejected
    exact ⟨_, parse_of_blank whole limit, iff_of_true rfl fun short => solid short.1.1,
      fun inside => absurd rfl inside, fun short => absurd short.1 solid⟩

/-- A line break behind an operator ends a statement that has not come to its end. -/
theorem line_break_after_operator :
    parse 256 "1+".toList = .error (.malformed 2 (.unexpected none .operand)) ∧
      parse 256 "1+\n".toList = .error (.unsupported 2 .multipleStatements "\n") :=
  ⟨rfl, rfl⟩

/-- Other white space than a line break leaves the cause alone. -/
theorem parenthesis_unclosed_append_blank :
    parse 9 "(1".toList = .error (.malformed 2 (.unexpected none .closing)) ∧
    StopsShort "(1".toList (.malformed 2 (.unexpected none .closing)) ∧
    ¬BreaksLine "\t\u00a0\n".toList ∧ ∃ later,
      parse 9 ("(1".toList ++ "\t\u00a0\n".toList) = .error later ∧ later.cause = .malformed := by
  have rejected : parse 9 "(1".toList = .error (.malformed 2 (.unexpected none .closing)) := rfl
  have same : ¬BreaksLine "\t\u00a0\n".toList := by
    rintro ⟨c, ⟨rfl⟩, breaks⟩
    exact absurd breaks (by decide)
  have blank : ∀ c ∈ "\t\u00a0\n".toList, Text.isBlank c = true :=
    List.all_eq_true.mp (by decide)
  obtain ⟨later, stopped, cause, _⟩ := rejection_append_blank rejected blank
  exact ⟨rejected, ⟨⟨'1', by decide, by decide⟩, rfl⟩, same, later, stopped,
    cause.mpr fun both => same both.2⟩

end LineCalc
