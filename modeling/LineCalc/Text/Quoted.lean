import LineCalc.Text.Extending
import LineCalc.Text.Hidden

set_option autoImplicit false

/- Quoted text for messages: one line whatever is quoted, and every character visible. -/
namespace LineCalc.Text

def codeEscape (c : Char) : List Char :=
  ['\\', 'u', '{'] ++ Nat.toDigits 16 c.toNat ++ ['}']

/-- A character as it stands between quotes. Only the quote that encloses it needs an escape. -/
def escape (quote c : Char) : List Char :=
  if c = '\x00' then ['\\', '0']
  else if c = '\t' then ['\\', 't']
  else if c = '\r' then ['\\', 'r']
  else if c = '\n' then ['\\', 'n']
  else if c = '\\' ∨ c = quote then ['\\', c]
  else if isExtending c || isHidden c then codeEscape c
  else [c]

def quotedChar (c : Char) : List Char := '\x27' :: escape '\x27' c ++ ['\x27']

def quoted (text : List Char) : List Char := '\x22' :: text.flatMap (escape '\x22') ++ ['\x22']

end LineCalc.Text
