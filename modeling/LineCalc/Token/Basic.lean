import LineCalc.Decimal.Numeral
import LineCalc.Expr.Basic
import LineCalc.Text.Alphabetic
import LineCalc.Text.Blank
import LineCalc.Text.Numeric

set_option autoImplicit false

/- What the text of an expression is made of. Both spellings of a power are one token, and whatever
has no place in an expression is a token by itself. -/
namespace LineCalc

inductive Token where
  | number (value : Binary64)
  | word (name : String)
  | operator (op : Operator)
  | opening
  | closing
  | other (c : Char)
  deriving DecidableEq

/-- A token and the text from its first character on. -/
structure Lexeme where
  token : Token
  start : List Char

namespace Token

def isWordStart (c : Char) : Bool := c == '_' || Text.isAlphabetic c

def isWordPart (c : Char) : Bool := isWordStart c || Text.isNumeric c

/-- The longest token that starts with `c`, and how many characters after `c` belong to it. -/
def munch (c : Char) (rest : List Char) : Token × Nat :=
  match Numeral.scan (c :: rest) with
  | some (numeral, _) => (.number numeral.value, numeral.spelling.length - 1)
  | none =>
    if isWordStart c then
      let parts := rest.takeWhile isWordPart
      (.word (String.ofList (c :: parts)), parts.length)
    else
      match c, rest with
      | '*', '*' :: _ => (.operator .pow, 1)
      | '/', '/' :: _ => (.operator .floorDiv, 1)
      | '+', _ => (.operator .add, 0)
      | '-', _ => (.operator .sub, 0)
      | '*', _ => (.operator .mul, 0)
      | '/', _ => (.operator .div, 0)
      | '%', _ => (.operator .mod, 0)
      | '^', _ => (.operator .pow, 0)
      | '(', _ => (.opening, 0)
      | ')', _ => (.closing, 0)
      | c, _ => (.other c, 0)

/-- Blanks that may stand between tokens. -/
def isGap (c : Char) : Bool := c == ' ' || c == '\t'

/-- Lexemes of a text of which the first `skip` characters belong to a token already read. -/
def lexFrom : Nat → List Char → List Lexeme
  | _, [] => []
  | skip + 1, _ :: rest => lexFrom skip rest
  | 0, c :: rest =>
    if isGap c then lexFrom 0 rest
    else
      let (token, more) := munch c rest
      ⟨token, c :: rest⟩ :: lexFrom more rest

def lex (text : List Char) : List Lexeme := lexFrom 0 (Text.trimStart text)

def number? : Token → Option Binary64
  | .number value => some value
  | _ => none

def word? : Token → Option String
  | .word name => some name
  | _ => none

def operator? : Token → Option Operator
  | .operator op => some op
  | _ => none

/-- White space that is no gap is a token of its own; it may only end a text. -/
def isBlank : Token → Bool
  | .other c => Text.isBlank c
  | _ => false

end Token

end LineCalc
