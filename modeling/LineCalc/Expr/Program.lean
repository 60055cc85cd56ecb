import LineCalc.Expr.Basic

set_option autoImplicit false

/- Expressions as programs for a stack, each operator after its operands. -/
namespace LineCalc

inductive Instruction where
  | push (value : Binary64)
  | load (name : String)
  | negate
  | operate (op : Operator)
  deriving DecidableEq

namespace Expr

def program : Expr → List Instruction
  | .literal value => [.push value]
  | .var name => [.load name]
  | .neg operand => operand.program ++ [.negate]
  | .binary op left right => left.program ++ right.program ++ [.operate op]

/-- Builds trees instead of running: the right operand is on top of the left one. -/
def build (stack : List Expr) (instruction : Instruction) : Option (List Expr) :=
  match instruction, stack with
  | .push value, stack => some (.literal value :: stack)
  | .load name, stack => some (.var name :: stack)
  | .negate, operand :: stack => some (.neg operand :: stack)
  | .operate op, right :: left :: stack => some (.binary op left right :: stack)
  | _, _ => none

/-- The expression that a program stands for, if it leaves exactly one. -/
def ofProgram? (program : List Instruction) : Option Expr :=
  match program.foldlM build [] with
  | some [e] => some e
  | _ => none

theorem foldlM_build_program (e : Expr) (stack : List Expr) :
    e.program.foldlM build stack = some (e :: stack) := by
  induction e generalizing stack with
  | literal value => rfl
  | var name => rfl
  | neg operand ih => simp [program, List.foldlM_append, ih, build]
  | binary op left right leftIh rightIh =>
    simp [program, List.foldlM_append, leftIh, rightIh, build]

theorem ofProgram?_program (e : Expr) : ofProgram? e.program = some e := by
  simp [ofProgram?, foldlM_build_program]

end Expr

end LineCalc
