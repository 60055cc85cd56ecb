import LineCalc.Calculator
import LineCalc.Record

set_option autoImplicit false

/- What can be set before a session. -/
namespace LineCalc

structure Settings where
  a : Binary64 := .zero false
  b : Binary64 := .zero false
  style : RecordStyle := {}
  metrics : Bool := false
  limit : Nat := defaultLimit
  deriving DecidableEq

namespace Settings

def bindings (settings : Settings) : Bindings := ⟨settings.a, settings.b⟩

def calculator (settings : Settings) : Calculator := ⟨settings.limit⟩

end Settings

end LineCalc
