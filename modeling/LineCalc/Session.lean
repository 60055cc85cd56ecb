import LineCalc.Settings.Basic

set_option autoImplicit false

/- One expression per line: what is printed, logged, diagnosed and counted, line by line. -/
namespace LineCalc

/-- Why a line gave no result. -/
inductive LineFault where
  | malformed (fault : Text.Malformed)
  | failed (error : ExprError)
  deriving DecidableEq

def LineFault.message : LineFault → String
  | .malformed fault => fault.message
  | .failed error => error.message

structure Diagnostic where
  line : Nat
  fault : LineFault
  deriving DecidableEq

def Diagnostic.text (diagnostic : Diagnostic) : String :=
  s!"line {diagnostic.line}: " ++ diagnostic.fault.message

/-- All that some lines bring about. When the session stops, nothing follows. -/
structure Report where
  output : Text.Bytes := []
  log : List LogRecord := []
  diagnostics : List Diagnostic := []
  failures : Nat := 0
  calls : List Call := []
  stopped : Option ServiceError := none
  deriving DecidableEq

/-- A report and what came after it. -/
def Report.append (first later : Report) : Report where
  output := first.output ++ later.output
  log := first.log ++ later.log
  diagnostics := first.diagnostics ++ later.diagnostics
  failures := first.failures + later.failures
  calls := first.calls ++ later.calls
  stopped := later.stopped

namespace Session

def lineFeed : UInt8 := 10

def carriageReturn : UInt8 := 13

/-- Lines that a line feed ends, and the bytes after the last of them. The line under way and the
lines before it are held in reverse. -/
def splitFrom (held : Text.Bytes) (done : List Text.Bytes) :
    Text.Bytes → List Text.Bytes × Text.Bytes
  | [] => (done.reverse, held.reverse)
  | b :: rest =>
    if b = lineFeed then splitFrom [] (held.reverse :: done) rest
    else splitFrom (b :: held) done rest

def split (input : Text.Bytes) : List Text.Bytes × Text.Bytes := splitFrom [] [] input

/-- A line without the one carriage return that may end it. -/
def dropReturn (line : Text.Bytes) : Text.Bytes :=
  if line.getLast? = some carriageReturn then line.dropLast else line

/-- The function that is measured. -/
def measured : Labels := ⟨"service", "evaluate_math"⟩

/-- A line's text that is not blank. -/
def runText (settings : Settings) (room : Room) (number : Nat) (text : List Char) : Report :=
  let outcome := settings.calculator.run text settings.bindings
  let log := outcome.log text settings.bindings
  let calls := [Call.of measured outcome.result]
  match outcome.result with
  | .ok result =>
    let written := writeRecord settings.style room result
    { output := written.taken, log, calls, stopped := written.failure }
  | .error error =>
    { log := log ++ [.lineFailed number text error]
      diagnostics := [⟨number, .failed error⟩]
      failures := 1
      calls }

def runLine (settings : Settings) (room : Room) (number : Nat) (line : Text.Bytes) : Report :=
  match Text.decode (dropReturn line) with
  | .error fault =>
    { log := [.lineMalformed number fault]
      diagnostics := [⟨number, .malformed fault⟩]
      failures := 1 }
  | .ok text =>
    if text.all Text.isBlank then {}
    else runText settings room number text

/-- Lines numbered from `number` on, until the output fails. -/
def runLines (settings : Settings) (room : Room) (number : Nat) : List Text.Bytes → Report
  | [] => {}
  | line :: rest =>
    let first := runLine settings room number line
    match first.stopped with
    | some _ => first
    | none => first.append
        (runLines settings (Room.after room first.output.length) (number + 1) rest)

/-- An input that ends. Its last line need not end in a line feed. -/
def run (settings : Settings) (room : Room) (input : Text.Bytes) : Report :=
  let (lines, last) := split input
  runLines settings room 1 (if last.isEmpty then lines else lines ++ [last])

/-- An input that breaks off: what follows the last line feed never becomes a line. -/
def runBroken (settings : Settings) (room : Room) (input : Text.Bytes) : Report :=
  let report := runLines settings room 1 (split input).1
  match report.stopped with
  | some _ => report
  | none => { report with stopped := some (.io .inputBroken) }

end Session

end LineCalc
