import LineCalc.Expr.Rejection
import LineCalc.Expr.Semantics
import LineCalc.Tally.Basic

set_option autoImplicit false

/- Why a text gives no result, and which of the reasons are not the fault of whoever wrote it. -/
namespace LineCalc

/-- A text can be no expression, or an expression without a value. -/
inductive ExprError where
  | rejected (reason : Rejection)
  | failed (reason : Failure)
  deriving DecidableEq, Repr

namespace ExprError

def message : ExprError → String
  | .rejected reason => reason.message
  | .failed reason => reason.message

/-- Only an unbound variable is a fault of the program, as no text leads to one. -/
def isFault : ExprError → Bool
  | .failed (.unbound _) => true
  | _ => false

end ExprError

instance : Blame ExprError := ⟨ExprError.isFault⟩

instance : Blame Failure := ⟨fun reason => ExprError.isFault (.failed reason)⟩

end LineCalc
