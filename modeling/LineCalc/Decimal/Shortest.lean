import LineCalc.Decimal.Basic

set_option autoImplicit false

/- The decimal that names a binary64 number with the fewest digits: on the grid of 1, 2, … digits,
one of the number's two neighbours that reads back as the number itself. -/
namespace LineCalc.Decimal

/-- Which of two neighbours equally near is taken. -/
inductive Tie where
  | up
  | even
  deriving DecidableEq, Repr

def Tie.roundsUp (tie : Tie) (lower : Nat) : Bool :=
  match tie with
  | .up => true
  | .even => lower % 2 == 1

/-- How many zeros follow the point of a number below one before its leading digit. -/
def leadingZeros : Nat → Nat → Nat
  | 0, _ => 0
  | fuel + 1, units =>
    if Binary64.one ≤ units * 10 then 0 else leadingZeros fuel (units * 10) + 1

/-- The number of digits before the point, or less the zeros after it: `units` lie between
`10 ^ (place - 1)` and `10 ^ place` ones. The least positive number has 323 zeros. -/
def place (units : Nat) : Int :=
  if Binary64.one ≤ units then (Nat.toDigits 10 (units / Binary64.one)).length
  else -leadingZeros 323 units

/-- `units` as a quotient in multiples of `10 ^ exponent`. -/
def gridRatio (units : Nat) (exponent : Int) : Nat × Nat :=
  match exponent with
  | .ofNat up => (units, Binary64.one * Nat.pow 10 up)
  | .negSucc down => (units * Nat.pow 10 (down + 1), Binary64.one)

def ReadsBack (d : Decimal) (units : Nat) : Prop :=
  match d.toBinary64 with
  | .finite false read _ => read = units
  | _ => False

instance (d : Decimal) (units : Nat) : Decidable (d.ReadsBack units) := by
  unfold ReadsBack
  split <;> infer_instance

/-- The nearer of the two neighbours on a grid that read back. -/
def neighbour? (tie : Tie) (units : Nat) (exponent : Int) : Option Decimal :=
  let (num, den) := gridRatio units exponent
  let lower := num / den
  let rest := num % den
  let below : Decimal := ⟨lower, exponent⟩
  let above : Decimal := ⟨lower + 1, exponent⟩
  let nearAbove := den < 2 * rest ∨ (2 * rest = den ∧ tie.roundsUp lower)
  if below.ReadsBack units then
    if nearAbove ∧ above.ReadsBack units then some above else some below
  else if above.ReadsBack units then some above
  else none

/-- The finite decimal expansion of `units`, of which every binary64 number has one. -/
def exact (units : Nat) : Decimal := ⟨units * Nat.pow 5 1074, -1074⟩

/-- Seventeen digits always single out a number; the exact expansion stands behind them, so that
the result reads back whatever the grids hold. -/
def shortest (tie : Tie) (units : Nat) : Decimal :=
  let leading := place units - 1
  ((List.range 17).findSome? fun further : Nat => neighbour? tie units (leading - further)).getD
    (exact units)

end LineCalc.Decimal
