import LineCalc.Expr.Program
import LineCalc.Expr.Semantics

set_option autoImplicit false

/- Programs that are run on a stack of values. The program of a tree comes to the value of the tree,
or stops where the evaluation of the tree fails: at the first instruction that cannot be carried
out. -/
namespace LineCalc

/-- Why a run stops: an instruction fails, or finds too few values. -/
inductive Trap where
  | failed (reason : Failure)
  | starved
  deriving DecidableEq

namespace Instruction

/-- What an instruction makes of a stack. The right operand is on top of the left one. -/
def execute (bindings : Bindings) (stack : List Binary64) :
    Instruction → Except Trap (List Binary64)
  | .push value => .ok (value :: stack)
  | .load name =>
    match bindings.get? name with
    | some value => .ok (value :: stack)
    | none => .error (.failed (.unbound name))
  | .negate =>
    match stack with
    | operand :: rest => .ok (-operand :: rest)
    | [] => .error .starved
  | .operate op =>
    match stack with
    | right :: left :: rest =>
      match op.apply left right with
      | .ok value => .ok (value :: rest)
      | .error reason => .error (.failed reason)
    | _ => .error .starved

/-- An instruction fails at a variable without a value, and at an operator that divides by the zero
on top of the stack. -/
inductive Fails : List Binary64 → Instruction → Failure → Prop where
  | unbound {stack : List Binary64} {name : String} (free : name ∉ ["a", "b"]) :
      Fails stack (.load name) (.unbound name)
  | zeroDivisor {negative : Bool} {left : Binary64} {rest : List Binary64} {op : Operator}
      (divides : op.symbol ∈ ["/", "//", "%"]) :
      Fails (.zero negative :: left :: rest) (.operate op) (.divisionByZero op)

theorem apply_eq_error_iff_symbol {op : Operator} {left right : Binary64} {reason : Failure} :
    op.apply left right = .error reason ↔
      op.symbol ∈ ["/", "//", "%"] ∧ (∃ negative, right = .zero negative) ∧
        reason = .divisionByZero op := by
  rw [Operator.apply_eq_error_iff, Operator.divides_iff, Binary64.isZero_iff]

theorem execute_eq_failed_iff {bindings : Bindings} {stack : List Binary64}
    {instruction : Instruction} {reason : Failure} :
    instruction.execute bindings stack = .error (.failed reason) ↔
      Fails stack instruction reason := by
  constructor
  · intro failed
    cases instruction with
    | push value => cases failed
    | load name =>
      rw [execute] at failed
      split at failed
      · cases failed
      · rename_i unbound
        cases failed
        exact .unbound (Bindings.get?_eq_none_iff.mp unbound)
    | negate => cases stack <;> cases failed
    | operate op =>
      match stack with
      | [] => cases failed
      | [_] => cases failed
      | right :: left :: rest =>
        rw [execute] at failed
        split at failed
        · cases failed
        · rename_i refused
          cases failed
          obtain ⟨divides, ⟨negative, rfl⟩, rfl⟩ := apply_eq_error_iff_symbol.mp refused
          exact .zeroDivisor divides
  · intro fails
    cases fails with
    | unbound free => simp only [execute, Bindings.get?_eq_none_iff.mpr free]
    | @zeroDivisor negative left rest op divides =>
      have refused : op.apply left (.zero negative) = .error (.divisionByZero op) :=
        apply_eq_error_iff_symbol.mpr ⟨divides, ⟨negative, rfl⟩, rfl⟩
      simp only [execute, refused]

end Instruction

open LineCalc.Instruction

/-- Instructions one after the other, up to the first that cannot be carried out. -/
def runProgram (bindings : Bindings) (stack : List Binary64) (program : List Instruction) :
    Except Trap (List Binary64) := program.foldlM (execute bindings) stack

theorem runProgram_cons (bindings : Bindings) (stack : List Binary64) (instruction : Instruction)
    (rest : List Instruction) :
    runProgram bindings stack (instruction :: rest) =
      (instruction.execute bindings stack).bind (runProgram bindings · rest) := rfl

/-- A run stops where the instructions before one can be carried out and that one cannot. -/
theorem runProgram_eq_error_iff {bindings : Bindings} {stack : List Binary64}
    {program : List Instruction} {trap : Trap} :
    runProgram bindings stack program = .error trap ↔
      ∃ before instruction after reached, program = before ++ instruction :: after ∧
        runProgram bindings stack before = .ok reached ∧
        instruction.execute bindings reached = .error trap := by
  induction program generalizing stack with
  | nil => simp [runProgram, pure, Except.pure]
  | cons first rest ih =>
    rw [runProgram_cons]
    constructor
    · intro stopped
      cases step : first.execute bindings stack with
      | error other =>
        rw [step] at stopped
        cases stopped
        exact ⟨[], first, rest, stack, rfl, rfl, step⟩
      | ok next =>
        rw [step] at stopped
        obtain ⟨before, instruction, after, reached, rfl, passed, stops⟩ := ih.mp stopped
        refine ⟨first :: before, instruction, after, reached, rfl, ?_, stops⟩
        rwa [runProgram_cons, step]
    · rintro ⟨before, instruction, after, reached, split, passed, stops⟩
      cases before with
      | nil =>
        cases split
        cases passed
        rw [stops]
        rfl
      | cons other before =>
        cases split
        rw [runProgram_cons] at passed
        cases step : first.execute bindings stack with
        | error trap =>
          rw [step] at passed
          cases passed
        | ok next =>
          rw [step] at passed
          exact ih.mpr ⟨before, instruction, after, reached, rfl, passed, stops⟩

/-- Whatever is on the stack and whatever follows, the program of a tree puts the value of the tree
on top, or stops as its evaluation fails. -/
theorem runProgram_program_append (bindings : Bindings) (e : Expr) (stack : List Binary64)
    (rest : List Instruction) :
    runProgram bindings stack (e.program ++ rest) =
      match evaluate bindings e with
      | .ok value => runProgram bindings (value :: stack) rest
      | .error reason => .error (.failed reason) := by
  induction e generalizing stack rest with
  | literal value => rfl
  | var name =>
    rw [Expr.program, List.singleton_append, runProgram_cons, execute, evaluate]
    cases bindings.get? name <;> rfl
  | neg operand ih =>
    rw [Expr.program, List.append_assoc, ih, evaluate]
    cases evaluate bindings operand with
    | error reason => rfl
    | ok value => rfl
  | binary op left right leftIh rightIh =>
    rw [Expr.program, List.append_assoc, List.append_assoc, leftIh, evaluate]
    cases evaluate bindings left with
    | error reason => rfl
    | ok x =>
      simp only [bind, Except.bind, rightIh]
      cases evaluate bindings right with
      | error reason => rfl
      | ok y =>
        simp only [List.singleton_append, runProgram_cons, execute]
        cases op.apply x y <;> rfl

/-- A tree is evaluated as its program is run on an empty stack. The evaluation fails just where an
instruction fails after all before it have been carried out, and for the reason of that one: it
loads a variable other than `a` and `b`, or it divides by the zero, of either sign, on top of the
stack. -/
theorem evaluate_by_stack (bindings : Bindings) (e : Expr) :
    (runProgram bindings [] e.program =
      match evaluate bindings e with
      | .ok value => .ok [value]
      | .error reason => .error (.failed reason)) ∧
    ∀ reason, evaluate bindings e = .error reason ↔
      ∃ before instruction after stack, e.program = before ++ instruction :: after ∧
        runProgram bindings [] before = .ok stack ∧ Fails stack instruction reason := by
  have whole := runProgram_program_append bindings e [] []
  rw [List.append_nil] at whole
  refine ⟨whole, fun reason => ?_⟩
  have stops : evaluate bindings e = .error reason ↔
      runProgram bindings [] e.program = .error (.failed reason) := by
    rw [whole]
    cases evaluate bindings e with
    | error other => simp
    | ok value => simp [runProgram, pure, Except.pure]
  simp only [stops, runProgram_eq_error_iff, execute_eq_failed_iff]

end LineCalc
