import LineCalc.Decimal.Basic

set_option autoImplicit false

/- Unsigned numerals: digits with an optional point among or around them, then an optional
exponent. Only ASCII digits count. -/
namespace LineCalc

/-- `e` or `E`, a sign or none, and at least one digit. -/
structure Numeral.Exponent where
  marker : Char
  sign : Option Char
  digits : List Char
  deriving DecidableEq, Repr

/-- A numeral as it was written. Without a point the fraction is empty. -/
structure Numeral where
  whole : List Char
  point : Bool
  fraction : List Char
  exponent : Option Numeral.Exponent
  deriving DecidableEq, Repr

namespace Numeral

namespace Exponent

def spelling (e : Exponent) : List Char := e.marker :: e.sign.toList ++ e.digits

def value (e : Exponent) : Int :=
  let size : Int := Nat.ofDigitChars 10 e.digits 0
  if e.sign = some '-' then -size else size

/-- What comes after the marker of an exponent, if it completes one. -/
def afterMarker (marker : Char) (sign : Option Char) (text : List Char) :
    Option (Exponent × List Char) :=
  match text.takeWhile Char.isDigit with
  | [] => none
  | digits => some (⟨marker, sign, digits⟩, text.dropWhile Char.isDigit)

/-- The exponent at the start of a text; a marker without digits is none. -/
def scan : List Char → Option (Exponent × List Char)
  | marker :: rest =>
    if marker = 'e' ∨ marker = 'E' then
      match rest with
      | '+' :: rest => afterMarker marker (some '+') rest
      | '-' :: rest => afterMarker marker (some '-') rest
      | rest => afterMarker marker none rest
    else none
  | [] => none

end Exponent

def spelling (n : Numeral) : List Char :=
  n.whole ++ (if n.point then ['.'] else []) ++ n.fraction ++
    (n.exponent.map Exponent.spelling).getD []

def decimal (n : Numeral) : Decimal where
  coefficient := Nat.ofDigitChars 10 (n.whole ++ n.fraction) 0
  exponent := (n.exponent.map Exponent.value).getD 0 - n.fraction.length

def value (n : Numeral) : Binary64 := n.decimal.toBinary64

/-- Completes a mantissa with the exponent that follows it, if one does. -/
def withExponent (whole : List Char) (point : Bool) (fraction rest : List Char) :
    Numeral × List Char :=
  match Exponent.scan rest with
  | some (exponent, rest) => (⟨whole, point, fraction, some exponent⟩, rest)
  | none => (⟨whole, point, fraction, none⟩, rest)

/-- The longest numeral at the start of a text, and the text after it. -/
def scan (text : List Char) : Option (Numeral × List Char) :=
  let whole := text.takeWhile Char.isDigit
  match text.dropWhile Char.isDigit with
  | '.' :: rest =>
    let fraction := rest.takeWhile Char.isDigit
    if whole = [] ∧ fraction = [] then none
    else some (withExponent whole true fraction (rest.dropWhile Char.isDigit))
  | rest => if whole = [] then none else some (withExponent whole false [] rest)

/-- The numeral that a whole text is. -/
def ofText? (text : List Char) : Option Numeral :=
  match scan text with
  | some (numeral, []) => some numeral
  | _ => none

end Numeral

end LineCalc
