import LineCalc.Binary64.Arithmetic

set_option autoImplicit false

/- What is reported of a value: a number, never "not a number", and the nearest 64-bit integer. -/
namespace LineCalc

structure Evaluation where
  int : Int64
  float : Binary64
  deriving DecidableEq

/-- "Not a number" counts as zero. -/
def Evaluation.ofValue (raw : Binary64) : Evaluation :=
  let float := if raw.isNan then .zero false else raw
  ⟨float.toInt64, float⟩

end LineCalc
