import LineCalc.Settings.Basic
import LineCalc.Settings.Environment

set_option autoImplicit false

/- From setting values to settings: each field wants a value of its own kind. Fields are taken in
the order of their names, and the first that is wrong is reported. -/
namespace LineCalc.Settings

inductive Mismatch where
  | kind (found expected : String)
  | range (found expected : String)
  | variant (found : List Char)
  deriving DecidableEq, Repr

/-- A wrong value, and where it was set. -/
structure SettingsError where
  path : List String
  mismatch : Mismatch
  deriving DecidableEq, Repr

def Mismatch.message : Mismatch → String
  | .kind found expected => "invalid type: found " ++ found ++ ", expected " ++ expected
  | .range found expected => "invalid value " ++ found ++ ", expected " ++ expected
  | .variant found =>
    "unknown variant: found \x60" ++ String.ofList found ++
      "\x60, expected \x60\x60text\x60 or \x60json\x60\x60"

/-- Why an environment gives no settings. -/
inductive LoadError where
  | unreadable (assignment : Assignment)
  | unfit (error : SettingsError)
  deriving DecidableEq, Repr

def SettingsError.message (error : SettingsError) : String :=
  let key := ".".intercalate (error.path.map fun key => String.ofList (key.toList.map Char.toUpper))
  error.mismatch.message ++ " for key " ++ String.ofList (Text.quoted key.toList) ++
    " in \x60APP_\x60 environment variable(s)"

def LoadError.message : LoadError → String
  | .unreadable assignment => "unreadable text of " ++ assignment.name
  | .unfit error => error.message

/-- A value in the words of a message. A character is described as the string that holds it
alone. -/
def Value.description : Value → String
  | .bool value => "bool " ++ toString value
  | .unsigned value => "unsigned int \x60" ++ toString value ++ "\x60"
  | .signed value => "signed int \x60" ++ toString value ++ "\x60"
  | .float value => "float \x60" ++ String.ofList (Layout.plain.text value) ++ "\x60"
  | .char value => "string " ++ String.ofList (Text.quoted [value])
  | .string value => "string " ++ String.ofList (Text.quoted value)
  | .sequence _ => "sequence"
  | .map _ => "map"

/-- Takes a field out of a value; an error names where in the value it arose. -/
abbrev Reader (α : Type) := Value → Except SettingsError α

namespace Reader

def mismatch {α : Type} (value : Value) (expected : String) : Except SettingsError α :=
  .error ⟨[], .kind value.description expected⟩

def number : Reader Binary64
  | .unsigned value => .ok (.ofInt value)
  | .signed value => .ok (.ofInt value)
  | .float value => .ok value
  | value => mismatch value "f64"

def count : Reader Nat
  | .unsigned value => .ok value
  | .signed value =>
    if value < 0 then .error ⟨[], .range (Value.signed value).description "usize"⟩
    else .ok value.toNat
  | value => mismatch value "usize"

def flag : Reader Bool
  | .bool value => .ok value
  | value => mismatch value "a boolean"

def text : Reader String
  | .char value => .ok (String.ofList [value])
  | .string value => .ok (String.ofList value)
  | value => mismatch value "a string"

/-- Places an error under a key. -/
def under {α : Type} (key : String) (reader : Reader α) : Reader α := fun value =>
  (reader value).mapError fun error => { error with path := key :: error.path }

def variant (name : List Char) : Except SettingsError OutputFormat :=
  if name = "text".toList then .ok .text
  else if name = "json".toList then .ok .json
  else .error ⟨[], .variant name⟩

/-- A format is named. In a map the name is a key, but no format takes a value. -/
def format : Reader OutputFormat
  | .string name => variant name
  | .map [] => .error ⟨[], .kind "map" "enum"⟩
  | .map ((name, value) :: _) =>
    under name (fun value => do let _ ← variant name.toList; mismatch value "unit") value
  | value => mismatch value "enum OutputFormat"

/-- A field of some entries, with its default where nothing sets it. -/
def field {α : Type} (entries : Entries) (key : String) (reader : Reader α) (default : α) :
    Except SettingsError α :=
  match entries.lookup key with
  | some value => under key reader value
  | none => .ok default

/-- The limit of the evaluator, by name or as the first of a sequence. -/
def evaluator (default : Nat) : Reader Nat
  | .map entries => field entries "max_depth" count default
  | .sequence [] => .ok default
  | .sequence (first :: _) => under "0" count first
  | value => mismatch value "struct EvaluatorConfig"

end Reader

open Reader in
def ofEntries (entries : Entries) : Except SettingsError Settings := do
  let base : Settings := {}
  let a ← field entries "a" number base.a
  let b ← field entries "b" number base.b
  let limit ← field entries "evaluator" (evaluator base.limit) base.limit
  let format ← field entries "format" format base.style.format
  let metrics ← field entries "metrics" flag base.metrics
  let lead ← field entries "prefix" text base.style.lead
  return { a, b, style := { format, lead }, metrics, limit }

/-- The settings of an environment. -/
def load (environment : Environment) : Except LoadError Settings :=
  match environment.value with
  | .error assignment => .error (.unreadable assignment)
  | .ok (.map entries) => (ofEntries entries).mapError .unfit
  | .ok _ => (ofEntries []).mapError .unfit

end LineCalc.Settings
