import LineCalc.Binary64.Basic

set_option autoImplicit false

/- Arithmetic expressions over named variables. -/
namespace LineCalc

inductive Operator where
  | add
  | sub
  | mul
  | div
  | floorDiv
  | mod
  | pow
  deriving DecidableEq, Repr

namespace Operator

def all : List Operator := [.add, .sub, .mul, .div, .floorDiv, .mod, .pow]

def symbol : Operator → String
  | .add => "+"
  | .sub => "-"
  | .mul => "*"
  | .div => "/"
  | .floorDiv => "//"
  | .mod => "%"
  | .pow => "^"

def ofSymbol? (symbol : String) : Option Operator := all.find? (·.symbol == symbol)

def name : Operator → String
  | .add => "Add"
  | .sub => "Sub"
  | .mul => "Mul"
  | .div => "Div"
  | .floorDiv => "FloorDiv"
  | .mod => "Mod"
  | .pow => "Pow"

/-- A higher one binds tighter. -/
def precedence : Operator → Nat
  | .add | .sub => 1
  | .mul | .div | .floorDiv | .mod => 2
  | .pow => 3

def isRightAssociative : Operator → Bool
  | .pow => true
  | _ => false

theorem ofSymbol?_symbol (op : Operator) : ofSymbol? op.symbol = some op := by
  cases op <;> decide

end Operator

/-- Reading gives only the variables `a` and `b`; other names come from trees built by hand. -/
inductive Expr where
  | literal (value : Binary64)
  | var (name : String)
  | neg (operand : Expr)
  | binary (op : Operator) (left right : Expr)
  deriving DecidableEq

/-- Levels of the tree, a leaf being one. -/
def Expr.height : Expr → Nat
  | .literal _ => 1
  | .var _ => 1
  | .neg operand => operand.height + 1
  | .binary _ left right => max left.height right.height + 1

end LineCalc
