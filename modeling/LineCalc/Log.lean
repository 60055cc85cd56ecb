import LineCalc.Decimal.Layout
import LineCalc.Evaluation
import LineCalc.Expr.Error

set_option autoImplicit false

/- What is logged, as data; the wording is in one place. -/
namespace LineCalc

inductive LogLevel where
  | debug
  | trace
  | warn
  deriving DecidableEq, Repr

def LogLevel.label : LogLevel → String
  | .debug => "DEBUG"
  | .trace => "TRACE"
  | .warn => "WARN"

/-- Lines are numbered from one. -/
inductive LogRecord where
  | rejected (text : List Char) (reason : Rejection)
  | failed (text : List Char) (reason : Failure)
  | unbound (name : String)
  | sanitized
  | evaluated (text : List Char) (bindings : Bindings) (result : Evaluation)
  | lineFailed (line : Nat) (text : List Char) (error : ExprError)
  | lineMalformed (line : Nat) (fault : Text.Malformed)
  deriving DecidableEq

namespace LogRecord

def level : LogRecord → LogLevel
  | .rejected .. | .failed .. | .unbound _ | .sanitized => .debug
  | .evaluated .. => .trace
  | .lineFailed .. | .lineMalformed .. => .warn

private def quotedText (text : List Char) : String := String.ofList (Text.quoted text)

private def plainText (x : Binary64) : String := String.ofList (Layout.plain.text x)

def message : LogRecord → String
  | .rejected text reason => "Rejected expression " ++ quotedText text ++ ": " ++ reason.message
  | .failed text reason => "Failed to evaluate " ++ quotedText text ++ ": " ++ reason.message
  | .unbound name => "Unbound variable " ++ quotedText name.toList ++ " in expression tree"
  | .sanitized => "Sanitizing NaN result to 0.0"
  | .evaluated text bindings result =>
    quotedText text ++ " with a=" ++ plainText bindings.a ++ " b=" ++ plainText bindings.b ++
      " = Evaluation \x7b int: " ++ toString result.int.toInt ++ ", float: " ++
      String.ofList (Layout.pointed.text result.float) ++ " \x7d"
  | .lineFailed line text error =>
    s!"Line {line}: " ++ quotedText text ++ " failed: " ++ error.message
  | .lineMalformed line fault => s!"Line {line}: invalid UTF-8: " ++ fault.message

def text (record : LogRecord) : String := record.level.label ++ " " ++ record.message

end LogRecord

end LineCalc
