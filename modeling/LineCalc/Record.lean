import LineCalc.Decimal.Layout
import LineCalc.Evaluation
import LineCalc.Text.Utf8

set_option autoImplicit false

/- Results as they are printed, one to a line, and what becomes of a line when its output fills
up. -/
namespace LineCalc

inductive OutputFormat where
  | text
  | json
  deriving DecidableEq, Repr

def OutputFormat.name : OutputFormat → String
  | .text => "text"
  | .json => "json"

inductive StreamFault where
  | outputFull
  | inputBroken
  deriving DecidableEq, Repr

def StreamFault.message : StreamFault → String
  | .outputFull => "output full"
  | .inputBroken => "input broken"

/-- Why reading or writing ended early, and whether that was amid a serialized value. -/
inductive ServiceError where
  | io (fault : StreamFault)
  | serialize (fault : StreamFault)
  deriving DecidableEq, Repr

def ServiceError.message : ServiceError → String
  | .io fault => "IO Error: " ++ fault.message
  | .serialize fault => "Serialization Error: " ++ fault.message

/-- Bytes written together, and how a failure among them is reported. -/
structure Segment where
  bytes : Text.Bytes
  failure : ServiceError
  deriving DecidableEq

/-- What a result looks like: its format, and the words before it in the text format. -/
structure RecordStyle where
  format : OutputFormat := .text
  lead : String := "Value:"
  deriving DecidableEq, Repr

namespace RecordStyle

/-- A line in cyan for a terminal. -/
def textLine (lead : String) (result : Evaluation) : List Char :=
  "\x1b[96m".toList ++ lead.toList ++ ' ' :: (toString result.int.toInt).toList ++
    ' ' :: Layout.pointed.text result.float ++ "\x1b[0m\n".toList

def jsonObject (result : Evaluation) : List Char :=
  "\x7b\"int\":".toList ++ (toString result.int.toInt).toList ++ ",\"float\":".toList ++
    Layout.json.text result.float ++ ['}']

/-- A text line is one segment; a JSON object is serialized by itself, without its line feed. -/
def segments (style : RecordStyle) (result : Evaluation) : List Segment :=
  match style.format with
  | .text => [⟨Text.encode (textLine style.lead result), .io .outputFull⟩]
  | .json => [⟨Text.encode (jsonObject result), .serialize .outputFull⟩,
      ⟨Text.encode ['\n'], .io .outputFull⟩]

end RecordStyle

/-- How many bytes an output still takes, or that it takes any number. -/
abbrev Room := Option Nat

def Room.takes (room : Room) (size : Nat) : Bool := room.all (size ≤ ·)

def Room.after (room : Room) (size : Nat) : Room := room.map (· - size)

/-- What came of writing: the bytes that the output took, and the failure that cut them short. -/
structure Written where
  taken : Text.Bytes
  failure : Option ServiceError
  deriving DecidableEq

/-- Segments are written in turn; one that does not fit is cut where the output is full. -/
def writeSegments (room : Room) : List Segment → Written
  | [] => ⟨[], none⟩
  | segment :: rest =>
    if Room.takes room segment.bytes.length then
      let later := writeSegments (Room.after room segment.bytes.length) rest
      ⟨segment.bytes ++ later.taken, later.failure⟩
    else ⟨segment.bytes.take (room.getD 0), some segment.failure⟩

def writeRecord (style : RecordStyle) (room : Room) (result : Evaluation) : Written :=
  writeSegments room (style.segments result)

end LineCalc
