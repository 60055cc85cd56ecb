import LineCalc.Text.Utf8

set_option autoImplicit false

/- Strings in quotes: where they end, and what their escapes stand for. -/
namespace LineCalc.Settings

/-- Why a text is not read. -/
inductive Fault where
  /-- It is not written as what was to be read. -/
  | malformed
  /-- A string would keep a part of a character. -/
  | severed
  deriving DecidableEq, Repr

namespace Escaped

def hexValue? (c : Char) : Option Nat :=
  if c.isDigit then some (c.toNat - '0'.toNat)
  else if 'a' ≤ c ∧ c ≤ 'f' then some (c.toNat - 'a'.toNat + 10)
  else if 'A' ≤ c ∧ c ≤ 'F' then some (c.toNat - 'A'.toNat + 10)
  else none

def charOfCode? (code : Nat) : Option Char :=
  if valid : code.isValidChar then some (Char.ofNatAux code valid) else none

/-- The character that some hexadecimal digits encode. -/
def codeEscape? (digits : List Char) (width : Nat) : Option Char :=
  if digits.length = width then do
    let values ← digits.mapM hexValue?
    charOfCode? (values.foldl (fun code value => code * 16 + value) 0)
  else none

def shortEscape? : Char → Option Char
  | '\x22' => some '\x22'
  | '\\' => some '\\'
  | 'b' => some '\x08'
  | 'f' => some '\x0c'
  | 'n' => some '\n'
  | 'r' => some '\r'
  | 't' => some '\t'
  | _ => none

/-- A tab or any character that is no ASCII control may stand for itself. -/
def isPlain (c : Char) : Bool := c == '\t' || (' ' ≤ c && c != '\x7f')

/-- The text before the closing quote and the text after it. A backslash takes the character after
it along, so that a quote there closes nothing. -/
def splitQuote? : List Char → Option (List Char × List Char)
  | [] => none
  | '\x22' :: rest => some ([], rest)
  | '\\' :: c :: rest => (splitQuote? rest).map fun (inner, rest) => ('\\' :: c :: inner, rest)
  | c :: rest => (splitQuote? rest).map fun (inner, rest) => (c :: inner, rest)

/-- What a text with escapes stands for. Of its characters, the first `skip` belong to an escape
already read. -/
def decode? : Nat → List Char → Option (List Char)
  | _, [] => some []
  | skip + 1, _ :: rest => decode? skip rest
  | 0, '\\' :: rest =>
    match rest with
    | [] => none
    | marker :: digits =>
      let width := if marker = 'u' then 4 else if marker = 'U' then 8 else 0
      let decoded :=
        if width = 0 then shortEscape? marker else codeEscape? (digits.take width) width
      decoded.bind fun c => (decode? (width + 1) rest).map (c :: ·)
  | 0, c :: rest => if isPlain c then (decode? 0 rest).map (c :: ·) else none

/-- What stands between the quotes, in its own characters. Without an escape that is all of it. The
text before the first escape is kept up to as many bytes as it has characters, which is all of it if
it is ASCII. -/
def unescape (inner : List Char) : Except Fault (List Char) :=
  let plain := inner.takeWhile (· != '\\')
  if plain.all isPlain then
    match inner.dropWhile (· != '\\') with
    | [] => .ok plain
    | escaped =>
      match Text.takeBytes? plain.length plain, decode? 0 escaped with
      | none, _ => .error .severed
      | some _, none => .error .malformed
      | some kept, some decoded => .ok (kept ++ decoded)
  else .error .malformed

/-- What a string holds, and the text after its closing quote. Its opening quote is already read. -/
def read (text : List Char) : Except Fault (List Char × List Char) :=
  match splitQuote? text with
  | some (inner, rest) => (unescape inner).map fun value => (value, rest)
  | none => .error .malformed

end Escaped

end LineCalc.Settings
