import LineCalc.Expr.Parser
import LineCalc.Log

set_option autoImplicit false

/- From a text to its result. How a calculation ends decides both the result and what is logged. -/
namespace LineCalc

/-- How a calculation ends. -/
inductive Outcome where
  | rejected (reason : Rejection)
  | failed (reason : Failure)
  | evaluated (raw : Binary64)
  deriving DecidableEq

/-- Only a tree built by hand can hold a variable without a value; evaluation notes its name. -/
def Failure.log : Failure → List LogRecord
  | .unbound name => [.unbound name]
  | .divisionByZero _ => []

namespace Outcome

def result : Outcome → Except ExprError Evaluation
  | .rejected reason => .error (.rejected reason)
  | .failed reason => .error (.failed reason)
  | .evaluated raw => .ok (.ofValue raw)

def log (text : List Char) (bindings : Bindings) : Outcome → List LogRecord
  | .rejected reason => [.rejected text reason]
  | .failed reason => reason.log ++ [.failed text reason]
  | .evaluated raw =>
    (if raw.isNan then [.sanitized] else []) ++ [.evaluated text bindings (.ofValue raw)]

end Outcome

/-- Calculators differ in the nesting they accept. -/
structure Calculator where
  limit : Nat := defaultLimit

def Calculator.run (calculator : Calculator) (text : List Char) (bindings : Bindings) : Outcome :=
  match parse calculator.limit text with
  | .error reason => .rejected reason
  | .ok expr =>
    match evaluate bindings expr with
    | .error reason => .failed reason
    | .ok raw => .evaluated raw

end LineCalc
