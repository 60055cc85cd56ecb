import LineCalc.Decimal.Shortest

set_option autoImplicit false

/- How a format writes binary64 numbers: the fewest digits that read back, laid out by the
decisions that a format makes for itself. -/
namespace LineCalc

/-- A format's decisions. The exponent in `positional` is that of the leading digit. -/
structure Layout where
  positional : Int → Bool
  wholePoint : Bool
  exponentPlus : Bool
  tie : Decimal.Tie
  nan : List Char
  infinity : List Char
  negativeInfinity : List Char

namespace Layout

/-- Digits around a point that stands after the first `place` of them. -/
def positionalText (layout : Layout) (digits : List Char) (place : Int) : List Char :=
  match place with
  | .ofNat 0 => '0' :: '.' :: digits
  | .negSucc zeros => '0' :: '.' :: List.replicate (zeros + 1) '0' ++ digits
  | .ofNat whole =>
    if whole < digits.length then digits.take whole ++ '.' :: digits.drop whole
    else digits ++ List.replicate (whole - digits.length) '0' ++
      (if layout.wholePoint then ['.', '0'] else [])

/-- One digit before the point, and the exponent that puts it in its place. -/
def exponentText (layout : Layout) (digits : List Char) (exponent : Int) : List Char :=
  let mantissa := match digits with
    | [] => []
    | [digit] => [digit]
    | digit :: rest => digit :: '.' :: rest
  let sign := if exponent < 0 then ['-'] else if layout.exponentPlus then ['+'] else []
  mantissa ++ 'e' :: sign ++ Nat.toDigits 10 exponent.natAbs

/-- Zeros at the end of a coefficient say nothing about where its leading digit stands. -/
def significant (digits : List Char) : List Char :=
  (digits.reverse.dropWhile (· == '0')).reverse

def magnitudeText (layout : Layout) (units : Nat) : List Char :=
  if units = 0 then
    if layout.wholePoint then ['0', '.', '0'] else ['0']
  else
    let d := Decimal.shortest layout.tie units
    let digits := Nat.toDigits 10 d.coefficient
    let place := d.exponent + digits.length
    if layout.positional (place - 1) then layout.positionalText (significant digits) place
    else layout.exponentText (significant digits) (place - 1)

def text (layout : Layout) : Binary64 → List Char
  | .nan _ => layout.nan
  | .infinity negative => if negative then layout.negativeInfinity else layout.infinity
  | .finite negative units _ =>
    if negative then '-' :: layout.magnitudeText units else layout.magnitudeText units

/-- Positional at every size, without a point in whole numbers. -/
def plain : Layout where
  positional _ := true
  wholePoint := false
  exponentPlus := false
  tie := .up
  nan := "NaN".toList
  infinity := "inf".toList
  negativeInfinity := "-inf".toList

/-- Positional from `1e-4` up to `1e16`, always with a digit after the point. -/
def pointed : Layout where
  positional exponent := -4 ≤ exponent ∧ exponent < 16
  wholePoint := true
  exponentPlus := false
  tie := .up
  nan := "NaN".toList
  infinity := "inf".toList
  negativeInfinity := "-inf".toList

/-- A JSON number: positional from `1e-5` up to `1e16`, the sign of an exponent always written,
and `null` where JSON has no number. -/
def json : Layout where
  positional exponent := -5 ≤ exponent ∧ exponent < 16
  wholePoint := true
  exponentPlus := true
  tie := .even
  nan := "null".toList
  infinity := "null".toList
  negativeInfinity := "null".toList

end Layout

end LineCalc
