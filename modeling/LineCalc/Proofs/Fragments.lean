import LineCalc.Proofs.OneLine
import LineCalc.Proofs.Position

set_option autoImplicit false

/- What a rejection reports of the text from its position on: the longest fragment there that means
something in a larger language, or else the one character there, or the end. -/
namespace LineCalc

open LineCalc.Parser

namespace Construct

/-! Fragments -/

/-- Fragments of two characters that are no word. -/
def pairs : List (List Char × Construct) :=
  [(['=', '='], .comparison), (['!', '='], .comparison), (['<', '='], .comparison),
    (['>', '='], .comparison), ([':', '='], .assignment), (['<', '<'], .bitwiseOperator),
    (['>', '>'], .bitwiseOperator)]

/-- Fragments of one. -/
def marks : List (List Char × Construct) :=
  [(['\x27'], .stringLiteral), (['\x22'], .stringLiteral), (['='], .assignment),
    (['<'], .comparison), (['>'], .comparison), ([':'], .sliceOrAscription),
    (['&'], .bitwiseOperator), (['|'], .bitwiseOperator), (['~'], .bitwiseOperator),
    (['['], .subscript), (['('], .call), (['{'], .collection), ([','], .collection),
    ([';'], .multipleStatements), (['\n'], .multipleStatements), (['\r'], .multipleStatements),
    (['@'], .matrixMultiply), (['+'], .unaryPlus)]

/-- The fragment is one of the construct, wherever it stands. -/
inductive Shows : Construct → List Char → Prop where
  | word {c : Char} {parts : List Char} (start : Token.isWordStart c = true)
      (inside : ∀ d ∈ parts, Token.isWordPart d = true) : Shows (ofWord (c :: parts)) (c :: parts)
  | access {c : Char} {parts : List Char} (start : Token.isWordStart c = true)
      (inside : ∀ d ∈ parts, Token.isWordPart d = true) :
      Shows .attributeAccess ('.' :: c :: parts)
  | pair {construct : Construct} {fragment : List Char} (listed : (fragment, construct) ∈ pairs) :
      Shows construct fragment
  | mark {construct : Construct} {fragment : List Char} (listed : (fragment, construct) ∈ marks) :
      Shows construct fragment

/-- Characters that are foreign whatever follows them. -/
def signs : List Char :=
  ['\x27', '\x22', '=', '<', '>', ':', '&', '|', '~', '[', '(', '{', ',', ';', '@', '+', '\n', '\r']

/-- The text starts with what an expression has no use for, but a larger language might. -/
inductive Begins : List Char → Prop where
  | word {c : Char} {rest : List Char} (start : Token.isWordStart c = true) : Begins (c :: rest)
  | access {c : Char} {rest : List Char} (start : Token.isWordStart c = true) :
      Begins ('.' :: c :: rest)
  | unequal {rest : List Char} : Begins ('!' :: '=' :: rest)
  | sign {c : Char} {rest : List Char} (listed : c ∈ signs) : Begins (c :: rest)

theorem ofSymbol?_eq_some {c : Char} {rest fragment : List Char} {construct : Construct}
    (found : ofSymbol? c rest = some (construct, fragment)) : Shows construct fragment := by
  unfold ofSymbol? at found
  split at found
  case h_3 d after =>
    split at found
    · rename_i start
      cases found
      exact .access start Text.mem_takeWhile
    · cases found
  all_goals cases found
  all_goals first
    | exact .pair (by decide)
    | exact .mark (by decide)

/-- Where no symbol is found, nothing foreign begins. -/
theorem ofSymbol?_eq_none {c : Char} {rest : List Char} (absent : ofSymbol? c rest = none)
    (word : Token.isWordStart c = false) : ¬Begins (c :: rest) := by
  unfold ofSymbol? at absent
  intro begins
  -- A point before no word is left without a fragment, and so is what matches no pattern at all.
  split at absent
  case h_3 d after =>
    split at absent
    · cases absent
    · rename_i startless
      cases begins with
      | word start => cases word.symm.trans start
      | access start => exact startless start
      | sign listed => exact absurd listed (by decide)
  case h_27 =>
    cases begins with
    | word start => cases word.symm.trans start
    | access start => simp_all
    | unequal => simp_all
    | sign listed => simp_all [signs]
  all_goals cases absent

theorem Shows.ne_nil {construct : Construct} {fragment : List Char}
    (shows : Shows construct fragment) : fragment ≠ [] := by
  have nonempty : ∀ entry ∈ pairs ++ marks, entry.1 ≠ [] := by decide
  cases shows with
  | word start inside => simp
  | access start inside => simp
  | pair listed => exact nonempty _ (List.mem_append_left _ listed)
  | mark listed => exact nonempty _ (List.mem_append_right _ listed)

/-- The fragment that is found is shown where it is found. -/
theorem ofText?_eq_some {text fragment : List Char} {construct : Construct}
    (found : ofText? text = some (construct, fragment)) :
    Shows construct fragment ∧ fragment <+: text := by
  refine ⟨?_, fragment_prefix found⟩
  cases text with
  | nil => cases found
  | cons c rest =>
    rw [ofText?] at found
    split at found
    · rename_i start
      cases found
      exact .word start Text.mem_takeWhile
    · exact ofSymbol?_eq_some found

theorem ofText?_eq_none {text : List Char} (absent : ofText? text = none) : ¬Begins text := by
  cases text with
  | nil =>
    intro begins
    cases begins
  | cons c rest =>
    rw [ofText?] at absent
    split at absent
    · cases absent
    · rename_i word
      exact ofSymbol?_eq_none absent (Bool.not_eq_true _ ▸ word)

theorem Shows.begins {construct : Construct} {fragment : List Char}
    (shows : Shows construct fragment) (rest : List Char) : Begins (fragment ++ rest) := by
  cases shows with
  | word start inside => exact .word start
  | access start inside => exact .access start
  | pair listed =>
    simp only [pairs, List.mem_cons, List.not_mem_nil, or_false, Prod.mk.injEq] at listed
    rcases listed with ⟨rfl, _⟩ | ⟨rfl, _⟩ | ⟨rfl, _⟩ | ⟨rfl, _⟩ | ⟨rfl, _⟩ | ⟨rfl, _⟩ | ⟨rfl, _⟩
    case inr.inl => exact .unequal
    all_goals exact .sign (by decide)
  | mark listed =>
    have single : ∀ entry ∈ marks, ∃ c, entry.1 = [c] ∧ c ∈ signs := by simp [marks, signs]
    obtain ⟨c, same, member⟩ := single _ listed
    dsimp only at same
    rw [same]
    exact .sign member

/-- Any fragment that the text starts with is no longer than the one that is found. -/
theorem length_le_of_ofText? {text fragment longer : List Char} {construct other : Construct}
    (found : ofText? text = some (construct, fragment)) (shows : Shows other longer)
    (starts : longer <+: text) : longer.length ≤ fragment.length := by
  obtain ⟨rest, rfl⟩ := starts
  cases shows with
  | @word c parts start inside =>
    simp only [List.cons_append, ofText?, start, ↓reduceIte] at found
    cases found
    rw [List.takeWhile_append_of_pos inside]
    simp
  | @access c parts start inside =>
    have point : Token.isWordStart '.' = false := by decide
    simp only [List.cons_append, ofText?, point, Bool.false_eq_true, ↓reduceIte, ofSymbol?,
      start] at found
    cases found
    rw [List.takeWhile_append_of_pos inside]
    simp
  | pair listed =>
    simp only [pairs, List.mem_cons, List.not_mem_nil, or_false, Prod.mk.injEq] at listed
    rcases listed with ⟨rfl, _⟩ | ⟨rfl, _⟩ | ⟨rfl, _⟩ | ⟨rfl, _⟩ | ⟨rfl, _⟩ | ⟨rfl, _⟩ | ⟨rfl, _⟩
    all_goals
      cases found
      exact Nat.le_refl 2
  | mark listed =>
    have single : ∀ entry ∈ marks, entry.1.length = 1 := by decide
    have length : longer.length = 1 := single _ listed
    rw [length]
    exact List.length_pos_iff.mpr (ofText?_eq_some found).1.ne_nil

/-- A fragment by itself is found whole. -/
theorem Shows.ofText?_eq {construct : Construct} {fragment : List Char}
    (shows : Shows construct fragment) : ofText? fragment = some (construct, fragment) := by
  have alone : ∀ entry ∈ pairs ++ marks, ofText? entry.1 = some (entry.2, entry.1) := by decide
  have whole : ∀ {parts : List Char}, (∀ d ∈ parts, Token.isWordPart d = true) →
      parts.takeWhile Token.isWordPart = parts := by
    intro parts inside
    simpa using @List.takeWhile_append_of_pos _ Token.isWordPart parts [] inside
  cases shows with
  | word start inside => simp only [ofText?, if_pos start, whole inside]
  | access start inside =>
    have point : ¬Token.isWordStart '.' = true := by decide
    simp only [ofText?, if_neg point, ofSymbol?, if_pos start, whole inside]
  | pair listed => exact alone _ (List.mem_append_left _ listed)
  | mark listed => exact alone _ (List.mem_append_right _ listed)

theorem Shows.unique {construct other : Construct} {fragment : List Char}
    (first : Shows construct fragment) (second : Shows other fragment) : construct = other := by
  have same := first.ofText?_eq
  rw [second.ofText?_eq] at same
  cases same
  rfl

/-- Of all fragments that a text starts with, the longest one and its construct. -/
structure IsLongest (text : List Char) (construct : Construct) (fragment : List Char) : Prop where
  shows : Shows construct fragment
  only : ∀ other, Shows other fragment → other = construct
  nonempty : fragment ≠ []
  starts : fragment <+: text
  longest : ∀ other longer, Shows other longer → longer <+: text →
    longer.length ≤ fragment.length

theorem IsLongest.begins {text fragment : List Char} {construct : Construct}
    (longest : IsLongest text construct fragment) : Begins text := by
  obtain ⟨rest, rfl⟩ := longest.starts
  exact longest.shows.begins rest

theorem isLongest_of_ofText? {text fragment : List Char} {construct : Construct}
    (found : ofText? text = some (construct, fragment)) : IsLongest text construct fragment := by
  obtain ⟨shows, starts⟩ := ofText?_eq_some found
  exact ⟨shows, fun other second => second.unique shows, shows.ne_nil, starts,
    fun other longer => length_le_of_ofText? found⟩

end Construct

/-! The rest of a text -/

namespace Token

theorem munch_minus (rest : List Char) : munch '-' rest = (.operator .sub, 0) := by
  obtain ⟨scanned, start⟩ := mark_starts_nothing (c := '-') (by decide) rest
  simp [munch, scanned, start]

/-- A lexeme starts with no gap, and its token is the one that is cut off there. -/
theorem start_of_mem_lexFrom {skip : Nat} {text : List Char} {lexeme : Lexeme}
    (member : lexeme ∈ lexFrom skip text) :
    ∃ c rest, lexeme.start = c :: rest ∧ isGap c = false ∧ lexeme.token = (munch c rest).1 := by
  induction text generalizing skip with
  | nil => cases member
  | cons c rest ih =>
    cases skip with
    | succ skip => exact ih member
    | zero =>
      rw [lexFrom] at member
      split at member
      · exact ih member
      · rename_i solid
        rcases List.mem_cons.mp member with rfl | later
        · exact ⟨c, rest, rfl, Bool.not_eq_true _ ▸ solid, rfl⟩
        · exact ih later

end Token

namespace Parser

theorem start_of_lexed {text : List Char} {before later : List Lexeme} {lexeme : Lexeme}
    (lexed : Token.lex text = before ++ lexeme :: later) :
    ∃ c rest, lexeme.start = c :: rest ∧ Token.isGap c = false ∧
      lexeme.token = (Token.munch c rest).1 := by
  have member : lexeme ∈ Token.lexFrom 0 (Text.trimStart text) := by
    rw [← Token.lex, lexed]
    simp
  exact Token.start_of_mem_lexFrom member

/-- A text that is rejected for what it says is blocked behind some of its lexemes, which an
expression can begin with. -/
theorem exists_standing {text : List Char} {limit position : Nat} {rejection : Rejection}
    (rejected : parse limit text = .error rejection)
    (named : rejection.position? = some position) :
    ∃ before after standing expected, Token.lex text = before ++ after ∧
      Standing.start.after? (before.map Lexeme.token) = some standing ∧
      Blocked standing (after.map Lexeme.token) expected ∧
      rejection =
        reject 0 text (Token.lex text) (.unexpected (after.map Lexeme.token) expected) := by
  obtain ⟨need, finding, reading⟩ :=
    Reading.exists (.read (.binary 0)) 0 ((Token.lex text).map Lexeme.token)
  rw [parse_eq reading] at rejected
  split at rejected
  · obtain ⟨taken, rest, standing, expected, split, reached, blocked, same⟩ :=
      verdict_eq_error reading rejected
    obtain ⟨before, after, lexed, rfl, rfl⟩ := List.map_eq_append_iff.mp split
    exact ⟨before, after, standing, expected, lexed, reached, blocked, same⟩
  · cases rejected
    cases named

theorem exists_blocked {text : List Char} {limit position : Nat} {rejection : Rejection}
    (rejected : parse limit text = .error rejection)
    (named : rejection.position? = some position) :
    ∃ before after standing expected, Token.lex text = before ++ after ∧
      Blocked standing (after.map Lexeme.token) expected ∧
      rejection =
        reject 0 text (Token.lex text) (.unexpected (after.map Lexeme.token) expected) := by
  obtain ⟨before, after, standing, expected, lexed, _, blocked, same⟩ :=
    exists_standing rejected named
  exact ⟨before, after, standing, expected, lexed, blocked, same⟩

/-- What is left from the first of some lexemes on is the end of the text, and the bytes before it
are counted. -/
theorem exists_front {text : List Char} {before after : List Lexeme}
    (lexed : Token.lex text = before ++ after) :
    ∃ front, text = front ++ textFrom (Token.lex text) (after.map Lexeme.token) ∧
      Text.byteLength text - Text.byteLength
        (textFrom (Token.lex text) (after.map Lexeme.token)) = Text.byteLength front := by
  have marks := marks_textFrom lexed
  have left := textFrom_of_append lexed
  generalize textFrom (Token.lex text) (after.map Lexeme.token) = rest at marks left
  cases after with
  | nil =>
    subst left
    exact ⟨text, (List.append_nil text).symm, rfl⟩
  | cons lexeme later =>
    obtain ⟨front, parts, position⟩ := marks
    subst left
    exact ⟨front, parts, position⟩

/-- Where nothing can go on, there is no gap, and no minus sign, which can stand anywhere. -/
theorem head_of_blocked {text : List Char} {before after : List Lexeme} {standing : Standing}
    {expected : Expectation} (lexed : Token.lex text = before ++ after)
    (blocked : Blocked standing (after.map Lexeme.token) expected) :
    ∀ c ∈ (textFrom (Token.lex text) (after.map Lexeme.token)).head?,
      Token.isGap c = false ∧ c ≠ '-' := by
  intro c head
  rw [textFrom_of_append lexed] at head
  cases after with
  | nil => cases head
  | cons lexeme later =>
    obtain ⟨first, rest, start, solid, token⟩ := start_of_lexed lexed
    have same : first = c := by simpa [start] using head
    subst same
    refine ⟨solid, ?_⟩
    rintro rfl
    rw [Token.munch_minus] at token
    have stops := blocked.stops lexeme.token rfl
    rw [token] at stops
    obtain ⟨due, opened⟩ := standing
    cases due <;> cases stops

end Parser

/-- What is said of a place tells the end of the text from a character. -/
theorem Complaint.message_unexpected (found : Option Char) (expected : Expectation) :
    ("Unexpected end of input".toList <+:
        (Complaint.unexpected found expected).message.toList ↔ found = none) ∧
      ∀ c ∈ found, (Complaint.unexpected found expected).message =
        "Unexpected token " ++ String.ofList (Text.quotedChar c) ++ ", expected " ++
          expected.label := by
  have last : "Unexpected end of input".toList =
      "Unexpected ".toList ++ 'e' :: "nd of input".toList := by decide
  have token : "Unexpected token ".toList = "Unexpected ".toList ++ 't' :: "oken ".toList := by
    decide
  have ending : "Unexpected end of input, expected ".toList =
      "Unexpected end of input".toList ++ ", expected ".toList := by decide
  cases found with
  | none =>
    have text : (Complaint.unexpected none expected).message =
        "Unexpected end of input, expected " ++ expected.label := rfl
    rw [text, String.toList_append, ending, List.append_assoc]
    exact ⟨iff_of_true (List.prefix_append _ _) rfl,
      fun c member => absurd member (Option.not_mem_none c)⟩
  | some c =>
    have text : (Complaint.unexpected (some c) expected).message =
        "Unexpected token " ++ String.ofList (Text.quotedChar c) ++ ", expected " ++
          expected.label := rfl
    constructor
    · refine iff_of_false ?_ (Option.some_ne_none c)
      rw [text, String.toList_append, String.toList_append, String.toList_append, token, last,
        List.append_assoc, List.append_assoc, List.append_assoc, List.prefix_append_right_inj,
        List.cons_append, List.cons_prefix_cons]
      exact fun same => absurd same.1 (by decide)
    · rintro d ⟨rfl⟩
      rfl

/-- A rejection names a character of the text, or its end. If what is left of the text from there
begins with something foreign, the longest such fragment is reported as what it is by itself; if
not, the character is reported, or the end. -/
theorem rejection_report {text : List Char} {limit position : Nat} {rejection : Rejection}
    (rejected : parse limit text = .error rejection)
    (named : rejection.position? = some position) :
    ∃ front rest, text = front ++ rest ∧ position = Text.byteLength front ∧
      position ≤ Text.byteLength text ∧ (∀ c ∈ rest.head?, c ≠ ' ' ∧ c ≠ '\t' ∧ c ≠ '-') ∧
      ((∃ construct fragment, rejection = .unsupported position construct fragment) ↔
        Construct.Begins rest) ∧
      (∀ construct fragment, rejection = .unsupported position construct fragment →
        Construct.IsLongest rest construct fragment.toList) ∧
      ((∃ complaint, rejection = .malformed position complaint) ↔ ¬Construct.Begins rest) ∧
      ∀ complaint, rejection = .malformed position complaint →
        ("Unexpected end of input".toList <+: complaint.message.toList ↔
          position = Text.byteLength text) ∧
        ∀ c ∈ rest.head?, ∃ expected : Expectation, complaint.message =
          "Unexpected token " ++ String.ofList (Text.quotedChar c) ++ ", expected " ++
            expected.label := by
  obtain ⟨before, after, standing, expected, lexed, blocked, rfl⟩ :=
    exists_blocked rejected named
  obtain ⟨front, parts, place⟩ := exists_front lexed
  have free := head_of_blocked lexed blocked
  rw [reject, place] at named ⊢
  generalize textFrom (Token.lex text) (after.map Lexeme.token) = rest at parts free named ⊢
  have bytes : Text.byteLength text = Text.byteLength front + Text.byteLength rest := by
    rw [parts, Text.byteLength_append]
  have inside : Text.byteLength front ≤ Text.byteLength text := by omega
  have solid : ∀ c ∈ rest.head?, c ≠ ' ' ∧ c ≠ '\t' ∧ c ≠ '-' := by
    intro c head
    obtain ⟨gap, minus⟩ := free c head
    refine ⟨?_, ?_, minus⟩ <;> rintro rfl <;> cases gap
  cases found : Construct.ofText? rest with
  | some shown =>
    obtain ⟨construct, fragment⟩ := shown
    rw [found] at named
    obtain rfl := Option.some.inj named
    have longest := Construct.isLongest_of_ofText? found
    refine ⟨front, rest, parts, rfl, inside, solid, iff_of_true ⟨_, _, rfl⟩ longest.begins, ?_,
      iff_of_false (by simp) (not_not_intro longest.begins), by simp⟩
    intro other reported same
    cases same
    rwa [String.toList_ofList]
  | none =>
    rw [found] at named
    obtain rfl := Option.some.inj named
    have nothing := Construct.ofText?_eq_none found
    obtain ⟨last, character⟩ := Complaint.message_unexpected rest.head? expected
    refine ⟨front, rest, parts, rfl, inside, solid, iff_of_false (by simp) nothing, by simp,
      iff_of_true ⟨_, rfl⟩ nothing, ?_⟩
    rintro complaint ⟨rfl⟩
    refine ⟨last.trans ?_, fun c head => ⟨expected, character c head⟩⟩
    rw [List.head?_eq_none_iff]
    constructor
    · rintro rfl
      exact bytes.symm
    · intro whole
      have length := Text.length_le_byteLength rest
      exact List.length_eq_zero_iff.mp (by omega)

/-- Of two operators that start the same, the longer one is reported. -/
theorem shift_rejected : parse 9 "1 <<= 2".toList =
      .error (.unsupported 2 .bitwiseOperator "<<") ∧
    ∃ front rest, "1 <<= 2".toList = front ++ rest ∧ 2 = Text.byteLength front ∧
      Construct.IsLongest rest .bitwiseOperator ['<', '<'] := by
  have rejected : parse 9 "1 <<= 2".toList =
    .error (.unsupported 2 .bitwiseOperator "<<") := rfl
  obtain ⟨front, rest, parts, position, _, _, _, longest, _⟩ := rejection_report rejected rfl
  exact ⟨rejected, front, rest, parts, position, longest _ _ rfl⟩

end LineCalc
