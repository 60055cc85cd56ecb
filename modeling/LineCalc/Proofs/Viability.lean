import LineCalc.Proofs.Standing

set_option autoImplicit false

/- What the tokens before a position say about it, in terms of the grammar alone: whether an
expression can begin with them, and whether they leave an operand due or a parenthesis open. Their
standing decides all of it. -/
namespace LineCalc

open LineCalc.Standing

/-- Some expression begins with the tokens. -/
def Viable (tokens : List Token) : Prop := ∃ more e, Derives .sum (tokens ++ more) e

/-- An expression that begins with the tokens can go on with an operand. -/
def OperandDue (tokens : List Token) : Prop := ∃ value, Viable (tokens ++ [.number value])

/-- The tokens end with a complete operand. -/
def EndsOperand (tokens : List Token) : Prop :=
  ∃ front operand e, tokens = front ++ operand ∧ Derives .atom operand e

/-- Fewer parentheses are closed than were opened. -/
def Unclosed (tokens : List Token) : Prop := tokens.count .closing < tokens.count .opening

namespace Standing

/-- The shortest end of an expression. -/
def completion : Standing → List Token
  | ⟨true, opened⟩ => .word "a" :: List.replicate opened .closing
  | ⟨false, opened⟩ => List.replicate opened .closing

theorem after?_completion (standing : Standing) :
    standing.after? standing.completion = some ⟨false, 0⟩ := by
  obtain ⟨due, opened⟩ := standing
  have closed := after?_closings 0 opened
  rw [Nat.zero_add] at closed
  cases due with
  | true => exact closed
  | false => exact closed

theorem next?_number (standing : Standing) (value : Binary64) :
    (∃ reached, standing.next? (.number value) = some reached) ↔ standing.due = true := by
  obtain ⟨due, opened⟩ := standing
  cases due <;> simp [next?]

theorem next?_opened {standing reached : Standing} {token : Token}
    (taken : standing.next? token = some reached) :
    reached.opened + [token].count .closing = standing.opened + [token].count .opening := by
  unfold next? at taken
  split at taken
  case h_2 =>
    split at taken <;> cases taken
    rfl
  case h_7 => cases taken
  all_goals
    cases taken
    rfl

/-- Open parentheses are those that were not closed. -/
theorem opened_add_count {standing reached : Standing} {tokens : List Token}
    (taken : standing.after? tokens = some reached) :
    reached.opened + tokens.count .closing = standing.opened + tokens.count .opening := by
  induction tokens generalizing standing with
  | nil =>
    cases taken
    rfl
  | cons token rest ih =>
    obtain ⟨middle, step, taken⟩ := Option.bind_eq_some_iff.mp taken
    have first := next?_opened step
    have later := ih taken
    rw [← List.singleton_append, List.count_append, List.count_append]
    omega

end Standing

theorem viable_iff_after? (tokens : List Token) :
    Viable tokens ↔ ∃ standing, start.after? tokens = some standing := by
  constructor
  · rintro ⟨more, e, derives⟩
    obtain ⟨standing, reached, _⟩ := exists_of_after?_append (derives.after? 0)
    exact ⟨standing, reached⟩
  · rintro ⟨standing, reached⟩
    have whole : start.after? (tokens ++ standing.completion) = some ⟨false, 0⟩ := by
      rw [after?_append_of_eq reached, after?_completion]
    obtain ⟨e, derives⟩ := (derives_iff_after? _).mpr whole
    exact ⟨standing.completion, e, derives⟩

/-- What an expression can begin with is begun by anything shorter. -/
theorem Viable.of_append {first second : List Token} (viable : Viable (first ++ second)) :
    Viable first := by
  obtain ⟨more, e, derives⟩ := viable
  exact ⟨second ++ more, e, by rwa [← List.append_assoc]⟩

theorem EndsOperand.append {tokens : List Token} (ends : EndsOperand tokens)
    (front : List Token) : EndsOperand (front ++ tokens) := by
  obtain ⟨before, operand, e, rfl, derives⟩ := ends
  exact ⟨front ++ before, operand, e, by rw [List.append_assoc], derives⟩

/-- Cut off after an operand, the tokens end with an operand that is complete. -/
def CutAfterOperands (tokens : List Token) : Prop :=
  ∀ front more opened left, tokens = front ++ more →
    (Standing.mk true opened).after? front = some ⟨false, left⟩ → EndsOperand front

theorem cutAfterOperands_operator {phrase : Phrase} {first second : List Token} {op : Operator}
    {left : Expr} (before : Derivation phrase first left) (firstCut : CutAfterOperands first)
    (secondCut : CutAfterOperands second) : CutAfterOperands (first ++ .operator op :: second) := by
  intro front more opened left split reached
  -- The cut lies behind the left operand or in it.
  rcases List.append_eq_append_iff.mp split with ⟨later, rfl, rest⟩ | ⟨later, rfl, _⟩
  · rw [after?_append_of_eq (before.after? opened)] at reached
    cases later with
    | nil =>
      rw [List.append_nil]
      exact firstCut first [] opened opened (List.append_nil first).symm (before.after? opened)
    | cons token later =>
      obtain ⟨rfl, rfl⟩ := List.cons.inj rest
      have ends := secondCut later more opened left rfl reached
      exact (ends.append [.operator op]).append first
  · exact firstCut front later opened left rfl reached

theorem cutAfterOperands_atom {token : Token} {e : Expr} (d : Derivation .atom [token] e) :
    CutAfterOperands [token] := by
  intro front more opened left split reached
  cases front with
  | nil => cases reached
  | cons first front =>
    obtain ⟨rfl, rest⟩ := List.cons.inj split
    obtain ⟨rfl, rfl⟩ := List.append_eq_nil_iff.mp rest.symm
    exact ⟨[], [token], e, rfl, ⟨d⟩⟩

theorem cutAfterOperands {phrase : Phrase} {tokens : List Token} {e : Expr}
    (d : Derivation phrase tokens e) : CutAfterOperands tokens := by
  induction d with
  | sum _ before after beforeIh afterIh | product _ before after beforeIh afterIh
  | power before after beforeIh afterIh =>
    exact cutAfterOperands_operator before beforeIh afterIh
  | negation inner ih =>
    intro front more opened left split reached
    cases front with
    | nil => cases reached
    | cons token front =>
      obtain ⟨rfl, rfl⟩ := List.cons.inj split
      exact (ih front more opened left rfl reached).append [.operator .sub]
  | @parentheses tokens e inner ih =>
    intro front more opened left split reached
    cases front with
    | nil => cases reached
    | cons token front =>
      obtain ⟨rfl, inside⟩ := List.cons.inj split
      rcases List.append_eq_append_iff.mp inside with ⟨later, rfl, rest⟩ | ⟨later, rfl, _⟩
      · cases later with
        | nil =>
          rw [List.append_nil] at reached ⊢
          have ends := ih tokens [] (opened + 1) left (List.append_nil tokens).symm reached
          exact ends.append [.opening]
        | cons token later =>
          obtain ⟨rfl, last⟩ := List.cons.inj rest
          obtain ⟨rfl, rfl⟩ := List.append_eq_nil_iff.mp last.symm
          exact ⟨[], _, e, rfl, ⟨.parentheses inner⟩⟩
      · exact (ih front later (opened + 1) left rfl reached).append [.opening]
  | literal value => exact cutAfterOperands_atom (.literal value)
  | var bound => exact cutAfterOperands_atom (.var bound)
  | _ inner ih => exact ih

section Standings

variable {tokens : List Token} {standing : Standing}

theorem operandDue_iff (reached : start.after? tokens = some standing) :
    OperandDue tokens ↔ standing.due = true := by
  constructor
  · rintro ⟨value, viable⟩
    obtain ⟨last, taken⟩ := (viable_iff_after? _).mp viable
    rw [after?_append_of_eq reached, after?_singleton] at taken
    exact (next?_number standing value).mp ⟨last, taken⟩
  · intro due
    obtain ⟨last, taken⟩ := (next?_number standing (.zero false)).mpr due
    refine ⟨.zero false, (viable_iff_after? _).mpr ⟨last, ?_⟩⟩
    rw [after?_append_of_eq reached, after?_singleton, taken]

theorem endsOperand_iff (reached : start.after? tokens = some standing) :
    EndsOperand tokens ↔ standing.due = false := by
  constructor
  · rintro ⟨front, operand, e, rfl, ⟨d⟩⟩
    obtain ⟨⟨due, opened⟩, _, taken⟩ := exists_of_after?_append reached
    cases due with
    | true =>
      rw [d.after? opened] at taken
      cases taken
      rfl
    | false => cases d <;> cases taken
  · intro ended
    obtain ⟨more, e, ⟨d⟩⟩ := (viable_iff_after? tokens).mpr ⟨standing, reached⟩
    obtain ⟨due, opened⟩ := standing
    subst ended
    exact cutAfterOperands d tokens more 0 opened rfl reached

theorem unclosed_iff (reached : start.after? tokens = some standing) :
    Unclosed tokens ↔ 0 < standing.opened := by
  have count := opened_add_count reached
  simp only [start] at count
  rw [Unclosed]
  omega

end Standings

end LineCalc
