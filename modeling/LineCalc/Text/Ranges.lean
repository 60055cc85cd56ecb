set_option autoImplicit false

/- Classes of characters as ascending lists of code point ranges, both ends included. -/
namespace LineCalc.Text

def inRanges (ranges : List (Nat × Nat)) (c : Char) : Bool :=
  ranges.any fun (first, last) => first ≤ c.toNat && c.toNat ≤ last

def inAnyOf (tables : List (List (Nat × Nat))) (c : Char) : Bool :=
  tables.any fun ranges => inRanges ranges c

end LineCalc.Text
