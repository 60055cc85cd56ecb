import LineCalc.Proofs.Digits
import LineCalc.Proofs.Whitelist

set_option autoImplicit false

/- Trees that are written out, with parentheses only where an operator would take an operand apart.
Precedence and associativity alone say where that is, and what is written is read as the tree. -/
namespace LineCalc

namespace Operator

/-- On the left of an operator, a tree has to be kept together if its own operator is looser, or as
loose where operators gather from the right. -/
def splitsLeft (op inner : Operator) : Bool :=
  inner.precedence < op.precedence ||
    (inner.precedence == op.precedence && op.isRightAssociative)

/-- On the right, also if it is as loose where operators gather from the left. -/
def splitsRight (op inner : Operator) : Bool :=
  inner.precedence < op.precedence ||
    (inner.precedence == op.precedence && !op.isRightAssociative)

end Operator

namespace Expr

/-- Only a tree with an operator at its root can be taken apart by what stands beside it. -/
def isSplit (splits : Operator → Bool) : Expr → Bool
  | .binary op _ _ => splits op
  | _ => false

def enclose (needed : Bool) (tokens : List Token) : List Token :=
  if needed then .opening :: (tokens ++ [.closing]) else tokens

/-- The tokens of a tree, with no parentheses that are not needed. A sign takes no operator. -/
def written : Expr → List Token
  | .literal value => [.number value]
  | .var name => [.word name]
  | .neg operand =>
    .operator .sub :: enclose (operand.isSplit fun _ => true) operand.written
  | .binary op left right =>
    enclose (left.isSplit op.splitsLeft) left.written ++
      .operator op :: enclose (right.isSplit op.splitsRight) right.written

/-- The tightest phrase that a tree makes without parentheses around it. -/
def phrase : Expr → Phrase
  | .literal _ => .atom
  | .var _ => .atom
  | .neg _ => .unary
  | .binary op _ _ => op.phrase

end Expr

open LineCalc.Expr

/-! What is written derives -/

theorem Derives.sum {phrase : Phrase} {tokens : List Token} {e : Expr}
    (derives : Derives phrase tokens e) : Derives .sum tokens e :=
  derives.loosen (Nat.zero_le phrase.rank)

/-- Parentheses make an atom of any phrase. -/
theorem Derives.parentheses {phrase : Phrase} {tokens : List Token} {e : Expr}
    (derives : Derives phrase tokens e) :
    Derives .atom (.opening :: (tokens ++ [.closing])) e := by
  obtain ⟨d⟩ := derives.sum
  exact ⟨.parentheses d⟩

/-- An operand makes the phrase that its place asks for, with parentheses where its operator is too
loose and without them elsewhere. -/
theorem Derives.enclose {e : Expr} {loose : Phrase} {splits : Operator → Bool}
    (derives : Derives e.phrase e.written e) (sign : loose.rank ≤ Phrase.unary.rank)
    (tight : ∀ op, splits op = false → loose.rank ≤ op.phrase.rank) :
    Derives loose (enclose (e.isSplit splits) e.written) e := by
  cases split : e.isSplit splits with
  | true => exact derives.parentheses.loosen loose.rank_le_atom
  | false =>
    apply derives.loosen
    cases e with
    | literal value => exact loose.rank_le_atom
    | var name => exact loose.rank_le_atom
    | neg operand => exact sign
    | binary op left right => exact tight op split

theorem Operator.rank_leftPhrase_le (op inner : Operator) (whole : op.splitsLeft inner = false) :
    op.leftPhrase.rank ≤ inner.phrase.rank := by
  revert whole
  cases op <;> cases inner <;> decide

theorem Operator.rank_operandFloor_le (op inner : Operator)
    (whole : op.splitsRight inner = false) :
    (Phrase.ofFloor (Parser.operandFloor op)).rank ≤ inner.phrase.rank := by
  revert whole
  cases op <;> cases inner <;> decide

/-- A tree over the two variables is derived by what is written for it. -/
theorem derives_written (e : Expr) (bound : ∀ name ∈ e.names, name = "a" ∨ name = "b") :
    Derives e.phrase e.written e := by
  induction e with
  | literal value => exact ⟨.literal value⟩
  | var name => exact ⟨.var (bound name (List.mem_singleton.mpr rfl))⟩
  | neg operand ih =>
    have inner : Derives .unary (enclose (operand.isSplit fun _ => true) operand.written)
      operand := (ih bound).enclose (Nat.le_refl _) (by simp)
    obtain ⟨d⟩ := inner
    exact ⟨.negation d⟩
  | binary op left right leftIh rightIh =>
    have before := leftIh fun name member => bound name (List.mem_append_left _ member)
    have after := rightIh fun name member => bound name (List.mem_append_right _ member)
    apply Derives.operator
    · exact before.enclose (by cases op <;> decide) op.rank_leftPhrase_le
    · exact after.enclose (by cases op <;> decide) op.rank_operandFloor_le

/-! What is written has a spelling -/

/-- Every number without a sign has a literal: if need be the digits that read back, and for
infinity a literal beyond all finite numbers. -/
theorem Binary64.Unsigned.exists_spells {value : Binary64} (unsigned : value.Unsigned) :
    ∃ spelling, (Token.number value).Spells spelling := by
  obtain ⟨number, positive⟩ := unsigned
  cases value with
  | nan signaling => cases number
  | infinity negative =>
    cases positive
    let n : Numeral := ⟨['1'], false, [], some ⟨'e', none, ['3', '4', '2']⟩⟩
    have exponent : ∀ e ∈ n.exponent, e.WellFormed := by
      rintro e ⟨rfl⟩
      exact ⟨.inl rfl, by simp, by simp, by simp⟩
    have valid : n.WellFormed :=
      ⟨by simp [n], by simp [n], .inl (by simp [n]), fun _ => rfl, exponent⟩
    have value : n.value = .infinity false := by decide
    exact ⟨n.spelling, value ▸ .number valid⟩
  | finite negative units fits =>
    cases positive
    obtain ⟨n, valid, _, value⟩ := Layout.exists_magnitude_numeral .pointed fits
    exact ⟨n.spelling, value ▸ .number valid⟩

theorem Spelled.exists {tokens : List Token} (nonempty : tokens ≠ [])
    (each : ∀ token ∈ tokens, ∃ spelling, token.Spells spelling) :
    ∃ text, Spelled tokens text := by
  induction tokens with
  | nil => exact absurd rfl nonempty
  | cons token tokens ih =>
    obtain ⟨spelling, spells⟩ := each token List.mem_cons_self
    cases tokens with
    | nil => exact ⟨spelling, .single spells⟩
    | cons next tokens =>
      obtain ⟨text, later⟩ := ih (by simp) fun token member =>
        each token (List.mem_cons_of_mem _ member)
      exact ⟨spelling ++ text, .touching spells later⟩

theorem mem_enclose {needed : Bool} {tokens : List Token} {token : Token}
    (member : token ∈ enclose needed tokens) :
    token = .opening ∨ token = .closing ∨ token ∈ tokens := by
  cases needed with
  | false => exact .inr (.inr member)
  | true =>
    simp only [enclose, ↓reduceIte, List.mem_cons, List.mem_append, List.not_mem_nil,
      or_false] at member
    rcases member with rfl | inside | rfl
    · exact .inl rfl
    · exact .inr (.inr inside)
    · exact .inr (.inl rfl)

theorem exists_spells_enclose {needed : Bool} {tokens : List Token}
    (each : ∀ token ∈ tokens, ∃ spelling, token.Spells spelling) :
    ∀ token ∈ enclose needed tokens, ∃ spelling, token.Spells spelling := by
  intro token member
  rcases mem_enclose member with rfl | rfl | inside
  · exact ⟨_, .opening⟩
  · exact ⟨_, .closing⟩
  · exact each token inside

theorem exists_spells_written (e : Expr) (bound : ∀ name ∈ e.names, name = "a" ∨ name = "b")
    (unsigned : ∀ value ∈ e.literals, value.Unsigned) :
    ∀ token ∈ e.written, ∃ spelling, token.Spells spelling := by
  induction e with
  | literal value =>
    intro token member
    cases List.mem_singleton.mp member
    exact (unsigned value (List.mem_singleton.mpr rfl)).exists_spells
  | var name =>
    intro token member
    cases List.mem_singleton.mp member
    have letters : Token.isWordStart 'a' = true ∧ Token.isWordStart 'b' = true := by decide
    rcases bound name (List.mem_singleton.mpr rfl) with rfl | rfl
    · exact ⟨['a'], .word letters.1 (by simp)⟩
    · exact ⟨['b'], .word letters.2 (by simp)⟩
  | neg operand ih =>
    intro token member
    rcases List.mem_cons.mp member with rfl | inside
    · exact ⟨_, .operator .sub⟩
    · exact exists_spells_enclose (ih bound unsigned) token inside
  | binary op left right leftIh rightIh =>
    have before := leftIh (fun name member => bound name (List.mem_append_left _ member))
      fun value member => unsigned value (List.mem_append_left _ member)
    have after := rightIh (fun name member => bound name (List.mem_append_right _ member))
      fun value member => unsigned value (List.mem_append_right _ member)
    intro token member
    rcases List.mem_append.mp member with first | second
    · exact exists_spells_enclose before token first
    · rcases List.mem_cons.mp second with rfl | second
      · exact ⟨_, .operator op⟩
      · exact exists_spells_enclose after token second

/-- A tree over the two variables and numbers without a sign can be written out, and whichever
literals, gaps and spellings of a power it is written with, the text is read as the tree. -/
theorem parse_written (e : Expr) (bound : ∀ name ∈ e.names, name = "a" ∨ name = "b")
    (unsigned : ∀ value ∈ e.literals, value.isNan = false ∧ value.isNegative = false) :
    (∃ text, Spelled e.written text) ∧
      ∀ text limit, Spelled e.written text → Text.byteLength text ≤ limit →
        parse limit text = .ok e := by
  have derives := (derives_written e bound).sum
  constructor
  · have nonempty : e.written ≠ [] := by
      obtain ⟨d⟩ := derives
      exact d.tokens_ne_nil
    apply Spelled.exists nonempty
    apply exists_spells_written e bound
    intro value member
    obtain ⟨number, positive⟩ := unsigned value member
    exact ⟨number, positive⟩
  · intro text limit spelled enough
    exact parse_of_derives spelled derives enough

theorem parse_written_nested :
    Text.byteLength "a -(b--(2 ^a))".toList ≤ 14 ∧
      parse 14 "a -(b--(2 ^a))".toList =
        .ok (.binary .sub (.var "a") (.binary .sub (.var "b")
          (.neg (.binary .pow (.literal (.ofInt 2)) (.var "a"))))) := by
  let n : Numeral := ⟨['2'], false, [], none⟩
  have valid : n.WellFormed :=
    ⟨by simp [n], by simp [n], .inl (by simp [n]), fun _ => rfl, by simp [n]⟩
  have value : n.value = .ofInt 2 := by decide +kernel
  have two : (Token.number (.ofInt 2)).Spells ['2'] := value ▸ .number valid
  have letters : Token.isWordStart 'a' = true ∧ Token.isWordStart 'b' = true := by decide
  have a : (Token.word "a").Spells ['a'] := .word letters.1 (by simp)
  have b : (Token.word "b").Spells ['b'] := .word letters.2 (by simp)
  have sub : (Token.operator .sub).Spells ['-'] := .operator .sub
  have space : ∀ c ∈ [' '], Token.isGap c = true := by simp [Token.isGap]
  have spelled : Spelled _ _ :=
    .cons a space <| .touching sub <| .touching .opening <| .touching b <| .touching sub <|
    .touching sub <| .touching .opening <| .cons two space <| .touching (.operator .pow) <|
    .touching a <| .touching .closing <| .single .closing
  have enough : Text.byteLength "a -(b--(2 ^a))".toList ≤ 14 := by decide
  refine ⟨enough, (parse_written _ ?_ ?_).2 _ 14 spelled enough⟩
  · simp [names]
  · intro value member
    have same : value = .ofInt 2 := by simpa [literals] using member
    rw [same]
    decide +kernel

end LineCalc
