import LineCalc.Session
import LineCalc.Settings.Extraction
import LineCalc.Tally.Exposition

set_option autoImplicit false

/- The calculator as a command: settings from the environment, expressions from standard input. -/
namespace LineCalc.Command

/-- What a finished command leaves behind. -/
structure Completion where
  status : Nat
  output : Text.Bytes
  errors : List String
  deriving DecidableEq, Repr

/-- What is written for the errors: each is a line of its own. -/
def Completion.errorBytes (completion : Completion) : Text.Bytes :=
  completion.errors.flatMap fun line => Text.encode (line.toList ++ ['\n'])

/-- The status is one if a line failed. Counts follow the diagnostics if they are asked for. -/
def run (settings : Settings) (input : Text.Bytes) : Completion :=
  let report := Session.run settings none input
  let tally := report.calls.foldl Tally.record Tally.empty
  { status := if report.failures > 0 then 1 else 0
    output := report.output
    errors := report.diagnostics.map Diagnostic.text ++
      (if settings.metrics then Exposition.lines (Exposition.families tally) else []) }

/-- The command that an environment sets up, unless its settings are wrong. -/
def ofEnvironment (environment : Settings.Environment) :
    Except Settings.LoadError (Text.Bytes → Completion) :=
  (Settings.load environment).map run

end LineCalc.Command
