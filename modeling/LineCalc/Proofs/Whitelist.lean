import LineCalc.Calculator
import LineCalc.Proofs.Acceptance
import LineCalc.Proofs.Tallying

set_option autoImplicit false

/- What a text can bring about. Its tree names the two bound variables alone and holds unsigned
numbers alone, so that a calculation fails only by a rejection or by a division by zero. -/
namespace LineCalc

/-! Numbers that are read -/

/-- A number that is written without a sign. -/
structure Binary64.Unsigned (x : Binary64) : Prop where
  number : x.isNan = false
  positive : x.isNegative = false

theorem Binary64.unsigned_ofRatio (num den : Nat) : (ofRatio false num den).Unsigned := by
  rw [ofRatio]
  split
  · exact ⟨rfl, rfl⟩
  · exact ⟨rfl, rfl⟩

theorem Decimal.unsigned_toBinary64 (d : Decimal) : d.toBinary64.Unsigned := by
  rw [toBinary64]
  split
  · exact ⟨rfl, rfl⟩
  · split
    · exact ⟨rfl, rfl⟩
    · exact Binary64.unsigned_ofRatio _ _

/-- A number that is spelled out is the value of a numeral. -/
theorem Token.Spells.unsigned {token : Token} {spelling : List Char} {value : Binary64}
    (spells : token.Spells spelling) (number : token = .number value) : value.Unsigned := by
  cases spells with
  | number valid =>
    cases number
    exact Decimal.unsigned_toBinary64 _
  | _ => cases number

theorem Spelled.unsigned {tokens : List Token} {text : List Char} (spelled : Spelled tokens text)
    {value : Binary64} (member : .number value ∈ tokens) : value.Unsigned := by
  induction spelled with
  | single spells => exact spells.unsigned (List.mem_singleton.mp member).symm
  | cons spells gaps later ih =>
    rcases List.mem_cons.mp member with same | member
    · exact spells.unsigned same.symm
    · exact ih member

/-! Trees that are read -/

namespace Expr

/-- The names of the variables in a tree, from left to right. -/
def names : Expr → List String
  | .literal _ => []
  | .var name => [name]
  | .neg operand => operand.names
  | .binary _ left right => left.names ++ right.names

/-- The numbers in a tree, from left to right. -/
def literals : Expr → List Binary64
  | .literal value => [value]
  | .var _ => []
  | .neg operand => operand.literals
  | .binary _ left right => left.literals ++ right.literals

end Expr

namespace Derivation

variable {phrase : Phrase} {tokens : List Token} {e : Expr}

/-- The grammar has no variables but two. -/
theorem bound_of_mem_names (d : Derivation phrase tokens e) :
    ∀ name ∈ e.names, name = "a" ∨ name = "b" := by
  induction d with
  | sum _ before after beforeIh afterIh
  | product _ before after beforeIh afterIh
  | power before after beforeIh afterIh =>
    intro name member
    rcases List.mem_append.mp member with first | second
    · exact beforeIh name first
    · exact afterIh name second
  | literal value =>
    intro name member
    cases member
  | var bound =>
    intro name member
    cases List.mem_singleton.mp member
    exact bound
  | _ inner ih => exact ih

/-- The numbers of a tree are those of its tokens. -/
theorem number_mem_of_mem_literals (d : Derivation phrase tokens e) :
    ∀ value ∈ e.literals, .number value ∈ tokens := by
  induction d with
  | sum _ before after beforeIh afterIh
  | product _ before after beforeIh afterIh
  | power before after beforeIh afterIh =>
    intro value member
    rcases List.mem_append.mp member with first | second
    · exact List.mem_append_left _ (beforeIh value first)
    · exact List.mem_append_right _ (List.mem_cons_of_mem _ (afterIh value second))
  | negation inner ih =>
    intro value member
    exact List.mem_cons_of_mem _ (ih value member)
  | parentheses inner ih =>
    intro value member
    exact List.mem_cons_of_mem _ (List.mem_append_left _ (ih value member))
  | literal value =>
    intro other member
    cases List.mem_singleton.mp member
    exact List.mem_cons_self
  | var bound =>
    intro value member
    cases member
  | _ inner ih => exact ih

end Derivation

/-- Under any limit, a text is accepted as a tree that it denotes. -/
theorem denotes_of_parse {limit : Nat} {text : List Char} {e : Expr}
    (accepted : parse limit text = .ok e) : Denotes (Text.trim text) e := by
  obtain ⟨need, finding, reading⟩ :=
    Parser.Reading.exists (.read (.binary 0)) 0 ((Token.lex text).map Lexeme.token)
  rw [Parser.parse_eq reading] at accepted
  split at accepted
  · obtain ⟨branch, rest, rfl, blank, rfl⟩ := verdict_eq_ok accepted
    exact denotes_of_reading reading blank
  · cases accepted

theorem Denotes.bound {text : List Char} {e : Expr} (denotes : Denotes text e) :
    ∀ name ∈ e.names, name = "a" ∨ name = "b" := by
  obtain ⟨tokens, spelled, ⟨d⟩⟩ := denotes
  exact d.bound_of_mem_names

theorem Denotes.unsigned {text : List Char} {e : Expr} (denotes : Denotes text e) :
    ∀ value ∈ e.literals, value.Unsigned := by
  obtain ⟨tokens, spelled, ⟨d⟩⟩ := denotes
  intro value member
  exact spelled.unsigned (d.number_mem_of_mem_literals value member)

/-! Failures -/

/-- An evaluation fails at a name without a value, or at a division by zero. -/
theorem evaluate_eq_error {bindings : Bindings} {e : Expr} {reason : Failure}
    (failed : evaluate bindings e = .error reason) :
    (∃ name ∈ e.names, bindings.get? name = none ∧ reason = .unbound name) ∨
      ∃ op : Operator, op.divides = true ∧ reason = .divisionByZero op := by
  induction e with
  | literal value => cases failed
  | var name =>
    rw [evaluate] at failed
    split at failed
    · cases failed
    · rename_i unbound
      exact .inl ⟨name, List.mem_cons_self, unbound, (Except.error.inj failed).symm⟩
  | neg operand ih =>
    cases value : evaluate bindings operand with
    | error first =>
      simp only [evaluate, value, bind, Except.bind] at failed
      cases failed
      exact ih value
    | ok x =>
      simp only [evaluate, value, bind, Except.bind] at failed
      cases failed
  | binary op left right leftIh rightIh =>
    cases leftValue : evaluate bindings left with
    | error first =>
      simp only [evaluate, leftValue, bind, Except.bind] at failed
      cases failed
      refine (leftIh leftValue).imp_left ?_
      rintro ⟨name, member, unbound⟩
      exact ⟨name, List.mem_append_left _ member, unbound⟩
    | ok x =>
      cases rightValue : evaluate bindings right with
      | error second =>
        simp only [evaluate, leftValue, rightValue, bind, Except.bind] at failed
        cases failed
        refine (rightIh rightValue).imp_left ?_
        rintro ⟨name, member, unbound⟩
        exact ⟨name, List.mem_append_right _ member, unbound⟩
      | ok y =>
        simp only [evaluate, leftValue, rightValue, bind, Except.bind] at failed
        obtain ⟨divides, _, same⟩ := Operator.apply_eq_error_iff.mp failed
        exact .inr ⟨op, divides, same⟩

namespace Calculator

/-- A text that is an expression fails at nothing but a division. -/
theorem run_eq_failed {calculator : Calculator} {text : List Char} {bindings : Bindings}
    {reason : Failure} (failed : calculator.run text bindings = .failed reason) :
    ∃ op : Operator, op.divides = true ∧ reason = .divisionByZero op := by
  rw [run] at failed
  split at failed
  · cases failed
  · rename_i e accepted
    split at failed
    · rename_i other refused
      cases failed
      rcases evaluate_eq_error refused with ⟨name, member, unbound, _⟩ | division
      · have bound := (denotes_of_parse accepted).bound name member
        exact absurd (by simpa using bound) (Bindings.get?_eq_none_iff.mp unbound)
      · exact division
    · cases failed

/-- A calculation fails because its text is turned down, or at a division by zero. -/
theorem result_eq_error {calculator : Calculator} {text : List Char} {bindings : Bindings}
    {error : ExprError} (failed : (calculator.run text bindings).result = .error error) :
    (∃ reason, parse calculator.limit text = .error reason ∧ error = .rejected reason) ∨
      ∃ op : Operator, op.divides = true ∧ error = .failed (.divisionByZero op) := by
  cases outcome : calculator.run text bindings with
  | rejected reason =>
    rw [outcome] at failed
    cases failed
    rw [run] at outcome
    split at outcome
    · rename_i rejected
      cases outcome
      exact .inl ⟨reason, rejected, rfl⟩
    · split at outcome <;> cases outcome
  | failed reason =>
    rw [outcome] at failed
    cases failed
    obtain ⟨op, divides, rfl⟩ := run_eq_failed outcome
    exact .inr ⟨op, divides, rfl⟩
  | evaluated raw =>
    rw [outcome] at failed
    cases failed

theorem isFault_of_run {calculator : Calculator} {text : List Char} {bindings : Bindings}
    {error : ExprError} (failed : (calculator.run text bindings).result = .error error) :
    error.isFault = false := by
  rcases result_eq_error failed with ⟨reason, _, rfl⟩ | ⟨op, _, rfl⟩
  · rfl
  · rfl

/-- A calculation is never a call that failed. -/
theorem call_run (calculator : Calculator) (text : List Char) (bindings : Bindings)
    (labels : Labels) :
    Call.of labels (calculator.run text bindings).result = ⟨labels, false⟩ := by
  cases result : (calculator.run text bindings).result with
  | ok value => rfl
  | error error =>
    have blameless := isFault_of_run result
    rw [Call.of]
    exact congrArg (Call.mk labels) blameless

end Calculator

/-- What is read names no variable but `a` and `b`, and no number that is signed or none. A
calculation therefore gives a result, or turns the text down, or finds a division by zero. None of
this is a fault, so that measuring a calculation adds to no function's failures. -/
theorem run_blameless (limit : Nat) (text : List Char) :
    (∀ e, parse limit text = .ok e →
      (∀ name ∈ e.names, name = "a" ∨ name = "b") ∧
        ∀ value ∈ e.literals, value.isNan = false ∧ value.isNegative = false) ∧
      ∀ bindings,
        (∀ error, ((Calculator.mk limit).run text bindings).result = .error error →
          ((∃ position complaint, error = .rejected (.malformed position complaint)) ∨
            (∃ position construct fragment,
              error = .rejected (.unsupported position construct fragment)) ∨
            (∃ limit, error = .rejected (.tooComplex limit)) ∨
            ∃ op : Operator, op.symbol ∈ ["/", "//", "%"] ∧
              error = .failed (.divisionByZero op)) ∧
          Blame.isFault error = false) ∧
        ∀ steps labels other,
          (((Tally.after steps).measure labels
              ((Calculator.mk limit).run text bindings).result).2.counts other).failures =
            ((Tally.after steps).counts other).failures := by
  refine ⟨fun e accepted => ?_, fun bindings => ⟨fun error failed => ?_, ?_⟩⟩
  · have denotes := denotes_of_parse accepted
    refine ⟨denotes.bound, fun value member => ?_⟩
    have unsigned := denotes.unsigned value member
    exact ⟨unsigned.number, unsigned.positive⟩
  · refine ⟨?_, Calculator.isFault_of_run failed⟩
    rcases Calculator.result_eq_error failed with ⟨reason, _, rfl⟩ | ⟨op, divides, rfl⟩
    · cases reason with
      | malformed position complaint => exact .inl ⟨position, complaint, rfl⟩
      | unsupported position construct fragment =>
        exact .inr (.inl ⟨position, construct, fragment, rfl⟩)
      | tooComplex limit => exact .inr (.inr (.inl ⟨limit, rfl⟩))
    · exact .inr (.inr (.inr ⟨op, Operator.divides_iff.mp divides, rfl⟩))
  · intro steps labels other
    rw [Tally.measure, Tally.record, Calculator.call_run,
      Tally.counts_update (Tally.ordered_after steps)]
    split
    · rename_i same
      rw [same]
      rfl
    · rfl

end LineCalc
