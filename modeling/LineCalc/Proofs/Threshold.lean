import LineCalc.Proofs.Acceptance

set_option autoImplicit false

/- What a limit does to a text: below a number that is the text's own it turns it down, and from
there on it makes no difference. -/
namespace LineCalc

open LineCalc.Parser

theorem reject_unexpected_ne_tooComplex {text : List Char} {lexemes : List Lexeme}
    {rest : List Token} {expected : Expectation} (limit other : Nat) :
    reject limit text lexemes (.unexpected rest expected) ≠ .tooComplex other := by
  rw [reject]
  split <;> nofun

/-- Where no limit is in the way, none is blamed. -/
theorem verdict_ne_tooComplex (text : List Char) (finding : Finding) (limit : Nat) :
    verdict text finding ≠ .error (.tooComplex limit) := by
  intro blamed
  cases finding with
  | stuck rest expected => exact reject_unexpected_ne_tooComplex _ _ (Except.error.inj blamed)
  | taken branch rest =>
    rw [verdict] at blamed
    split at blamed
    · cases blamed
    · exact reject_unexpected_ne_tooComplex _ _ (Except.error.inj blamed)

/-- All readings of a text need the same of a limit. -/
theorem need_unique {text : List Char} {need other : Nat} {finding found : Finding}
    (first : Reading 0 (.read (.binary 0)) ((Token.lex text).map Lexeme.token) need finding)
    (second : Reading 0 (.read (.binary 0)) ((Token.lex text).map Lexeme.token) other found) :
    need = other := by
  have least : ∀ {need other finding found},
      Reading 0 (.read (.binary 0)) ((Token.lex text).map Lexeme.token) need finding →
      Reading 0 (.read (.binary 0)) ((Token.lex text).map Lexeme.token) other found →
      need ≤ other := by
    intro need other finding found first second
    by_cases fits : need ≤ other
    · exact fits
    · have stopped := parse_eq first other
      rw [if_neg fits, parse_eq second, if_pos (Nat.le_refl other)] at stopped
      exact absurd stopped (verdict_ne_tooComplex text found other)
  exact Nat.le_antisymm (least first second) (least second first)

/-- A text is accepted as a tree where the tokens within its ends derive the tree and the limit
allows what their derivation asks for. -/
theorem accepted_iff {text : List Char} {limit : Nat} {e : Expr} :
    parse limit text = .ok e ↔ ∃ tokens, ∃ d : Derivation .sum tokens e,
      Spelled tokens (Text.trim text) ∧ max d.nesting e.limitedHeight ≤ limit := by
  constructor
  · intro accepted
    obtain ⟨need, finding, reading⟩ :=
      Reading.exists (.read (.binary 0)) 0 ((Token.lex text).map Lexeme.token)
    rw [parse_eq reading] at accepted
    split at accepted
    · rename_i enough
      obtain ⟨branch, rest, rfl, blank, rfl⟩ := verdict_eq_ok accepted
      obtain ⟨tokens, spelled, ⟨d⟩⟩ := denotes_of_reading reading blank
      obtain ⟨_, _, found⟩ := reading_of_spelled spelled d
      exact ⟨tokens, d, spelled, need_unique reading found ▸ enough⟩
    · cases accepted
  · rintro ⟨tokens, d, spelled, enough⟩
    obtain ⟨rest, blank, found⟩ := reading_of_spelled spelled d
    rw [parse_eq found, if_pos enough, verdict, if_pos blank]
    rfl

/-- Each text needs a limit of its own. Any lower one is reported as exceeded; any other one leads
to the same outcome. For an expression it is how deep its derivation nests or how high its tree
is, whichever is more. -/
theorem parse_threshold (text : List Char) : ∃ need outcome, need ≤ Text.byteLength text ∧
    (∀ limit < need, parse limit text = .error (.tooComplex limit)) ∧
    (∀ limit, need ≤ limit → parse limit text = outcome) ∧
    (∀ limit, outcome ≠ .error (.tooComplex limit)) ∧
    ∀ e, outcome = .ok e → Denotes (Text.trim text) e ∧
      ∀ tokens (d : Derivation .sum tokens e), Spelled tokens (Text.trim text) →
        need = max d.nesting e.limitedHeight := by
  obtain ⟨need, finding, reading⟩ :=
    Reading.exists (.read (.binary 0)) 0 ((Token.lex text).map Lexeme.token)
  refine ⟨need, verdict text finding, need_le_byteLength reading, ?_, ?_,
    verdict_ne_tooComplex text finding, ?_⟩
  · intro limit short
    rw [parse_eq reading, if_neg (Nat.not_le.mpr short)]
  · intro limit enough
    rw [parse_eq reading, if_pos enough]
  · intro e accepted
    obtain ⟨branch, rest, rfl, blank, rfl⟩ := verdict_eq_ok accepted
    refine ⟨denotes_of_reading reading blank, fun tokens d spelled => ?_⟩
    obtain ⟨_, _, found⟩ := reading_of_spelled spelled d
    exact need_unique reading found

/-- An exponent in two pairs of parentheses: the nesting of three levels counts for more than the
height of two. -/
theorem parse_threshold_exponent :
    (∀ limit < 3, parse limit "a^((b))".toList = .error (.tooComplex limit)) ∧
    ∀ limit, 3 ≤ limit →
      parse limit "a^((b))".toList = .ok (.binary .pow (.var "a") (.var "b")) := by
  have letters : Token.isWordStart 'a' = true ∧ Token.isWordStart 'b' = true := by decide
  have a : (Token.word "a").Spells ['a'] := .word letters.1 (by simp)
  have b : (Token.word "b").Spells ['b'] := .word letters.2 (by simp)
  have spelled : Spelled _ (Text.trim "a^((b))".toList) :=
    .touching a <| .touching (.operator .pow) <| .touching .opening <| .touching .opening <|
    .touching b <| .touching .closing <| .single .closing
  let inner := Derivation.parentheses (.sumOfUnary (.unaryOfAtom (.var (.inr rfl))))
  let exponent := Derivation.parentheses (.sumOfUnary (.unaryOfAtom inner))
  let d : Derivation .sum _ (.binary .pow (.var "a") (.var "b")) :=
    .sumOfProduct (.productOfPower (.power (.unaryOfAtom (.var (.inl rfl)))
      (.powerOfUnary (.unaryOfAtom exponent))))
  have nesting : d.nesting = 3 := by decide
  have accepted : parse 7 "a^((b))".toList = .ok (.binary .pow (.var "a") (.var "b")) := rfl
  have size : Text.byteLength "a^((b))".toList = 7 := by decide
  obtain ⟨need, outcome, low, below, above, _, tree⟩ := parse_threshold "a^((b))".toList
  have same : outcome = .ok (.binary .pow (.var "a") (.var "b")) := by
    rw [← accepted, above 7 (size ▸ low)]
  have sharp := (tree _ same).2 _ d spelled
  rw [nesting] at sharp
  obtain rfl : need = 3 := sharp
  subst same
  exact ⟨below, above⟩

/-- A number or a variable alone is accepted under every limit. -/
example : parse 0 "(1)".toList = .error (.tooComplex 0) ∧
    parse 0 "a".toList = .ok (.var "a") := ⟨rfl, rfl⟩

end LineCalc
