import LineCalc.Binary64.Arithmetic
import LineCalc.Decimal.Numeral
import LineCalc.Settings.Escaped
import LineCalc.Settings.Value
import LineCalc.Text.Blank

set_option autoImplicit false

/- How setting values are written: words for truth values, quotes, brackets, braces, and for all
else a bare text that is a number if it can be one. A text that does not fit is a string as it
is. -/
namespace LineCalc.Settings

namespace Value

/-- White space between values; blanks beyond ASCII belong to a value. -/
def isSpace (c : Char) : Bool :=
  c == ' ' || c == '\t' || c == '\n' || c == '\x0c' || c == '\r'

def skipSpace (text : List Char) : List Char := text.dropWhile isSpace

/-- What ends a bare text. -/
def isSeparator (c : Char) : Bool :=
  c == ',' || c == '{' || c == '}' || c == '[' || c == ']'

def isKeyPart (c : Char) : Bool := c.isAlphanum || c == '_' || c == '-'

/-- The sign at the start of a number, if there is one, and the text after it. -/
def splitSign : List Char → Bool × List Char
  | '-' :: rest => (true, rest)
  | '+' :: rest => (false, rest)
  | text => (false, text)

def wholeNumber? (digits : List Char) : Option Nat :=
  if digits ≠ [] ∧ digits.all Char.isDigit then some (Nat.ofDigitChars 10 digits 0) else none

/-- A whole number below `2 ^ 64`, or a negative one from `-2 ^ 63` on. -/
def ofInteger? (text : List Char) : Option Value :=
  let (negative, digits) := splitSign text
  match wholeNumber? digits with
  | some n =>
    if negative then if n ≤ 1 <<< 63 then some (.signed (-n)) else none
    else if n < 1 <<< 64 then some (.unsigned n) else none
  | none => none

/-- Only a numeral with a point is a fraction. -/
def ofFraction? (text : List Char) : Option Value :=
  if text.contains '.' then
    let (negative, digits) := splitSign text
    (Numeral.ofText? digits).map fun numeral =>
      .float (if negative then numeral.value.neg else numeral.value)
  else none

def ofBareText (text : List Char) : Value :=
  ((ofFraction? text).or (ofInteger? text)).getD (.string text)

/-- A key: a string in quotes or a word. -/
def readKey : List Char → Except Fault (String × List Char)
  | '\x22' :: rest => (Escaped.read rest).map fun (key, rest) => (String.ofList key, rest)
  | text =>
    match text.takeWhile isKeyPart with
    | [] => .error .malformed
    | key => .ok (String.ofList key, text.dropWhile isKeyPart)

/-- The text after a word that it starts with. -/
def afterWord? (word text : List Char) : Option (List Char) :=
  if word.isPrefixOf text then some (text.drop word.length) else none

mutual

/-- A value between white space. Every call is paid for from the budget, as reading takes at least
one character for two calls. -/
def read (budget : Nat) (text : List Char) : Except Fault (Value × List Char) :=
  match budget with
  | 0 => .error .malformed
  | budget + 1 => do
    let text := skipSpace text
    let (value, rest) ←
      match afterWord? ['t', 'r', 'u', 'e'] text, afterWord? ['f', 'a', 'l', 's', 'e'] text,
        text with
      | some rest, _, _ => .ok (.bool true, rest)
      | _, some rest, _ => .ok (.bool false, rest)
      | _, _, '{' :: rest =>
        (readEntries budget [] rest).map fun (entries, rest) => (.map entries, rest)
      | _, _, '[' :: rest =>
        (readItems budget rest).map fun (items, rest) => (.sequence items, rest)
      | _, _, '\x22' :: rest =>
        (Escaped.read rest).map fun (value, rest) => (.string value, rest)
      | _, _, '\x27' :: c :: '\x27' :: rest => .ok (.char c, rest)
      | _, _, '\x27' :: _ => .error .malformed
      | _, _, text =>
        .ok (ofBareText (Text.trim (text.takeWhile (!isSeparator ·))),
          text.dropWhile (!isSeparator ·))
    return (value, skipSpace rest)

/-- Items up to the closing bracket, which may follow a comma. -/
def readItems (budget : Nat) (text : List Char) : Except Fault (List Value × List Char) :=
  match budget, text with
  | 0, _ => .error .malformed
  | _ + 1, ']' :: rest => .ok ([], rest)
  | budget + 1, text => do
    let (item, rest) ← read budget text
    match rest with
    | ',' :: rest =>
      let (items, rest) ← readItems budget rest
      return (item :: items, rest)
    | ']' :: rest => return ([item], rest)
    | _ => .error .malformed

/-- Keys with their values up to the closing brace, added to the ones before; a later value of a
key takes the place of an earlier one. -/
def readEntries (budget : Nat) (entries : Entries) (text : List Char) :
    Except Fault (Entries × List Char) :=
  match budget, text with
  | 0, _ => .error .malformed
  | _ + 1, '}' :: rest => .ok (entries, rest)
  | budget + 1, text => do
    let (key, rest) ← readKey (skipSpace text)
    match skipSpace rest with
    | '=' :: rest =>
      let (value, rest) ← read budget rest
      match rest with
      | ',' :: rest => readEntries budget (put key value entries) rest
      | '}' :: rest => return (put key value entries, rest)
      | _ => .error .malformed
    | _ => .error .malformed

end

/-- The value that a text means, if it means any; the text itself if it is no other value to its
end. -/
def ofText? (text : List Char) : Option Value :=
  match read (2 * text.length + 1) text with
  | .ok (value, []) => some value
  | .error .severed => none
  | _ => some (.string text)

end Value

end LineCalc.Settings
