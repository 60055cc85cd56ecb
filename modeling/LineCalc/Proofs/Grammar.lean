import LineCalc.Token.Basic

set_option autoImplicit false

/- The grammar of expressions, over tokens: which of them make a phrase, which tree they make, and
how deep each of them lies inside it. -/
namespace LineCalc

/-- The parts of an expression, from the loosest operators inwards. -/
inductive Phrase where
  | sum
  | product
  | power
  | unary
  | atom
  deriving DecidableEq, Repr

/-- Sums and products gather from the left, powers from the right, and a sign binds tighter than
any of them. Parentheses make no node. -/
inductive Derivation : Phrase → List Token → Expr → Type where
  | sum {first second : List Token} {left right : Expr} {op : Operator}
      (additive : op = .add ∨ op = .sub) (before : Derivation .sum first left)
      (after : Derivation .product second right) :
      Derivation .sum (first ++ .operator op :: second) (.binary op left right)
  | sumOfProduct {tokens : List Token} {e : Expr} (inner : Derivation .product tokens e) :
      Derivation .sum tokens e
  | product {first second : List Token} {left right : Expr} {op : Operator}
      (multiplicative : op = .mul ∨ op = .div ∨ op = .floorDiv ∨ op = .mod)
      (before : Derivation .product first left) (after : Derivation .power second right) :
      Derivation .product (first ++ .operator op :: second) (.binary op left right)
  | productOfPower {tokens : List Token} {e : Expr} (inner : Derivation .power tokens e) :
      Derivation .product tokens e
  | power {first second : List Token} {base exponent : Expr}
      (before : Derivation .unary first base) (after : Derivation .power second exponent) :
      Derivation .power (first ++ .operator .pow :: second) (.binary .pow base exponent)
  | powerOfUnary {tokens : List Token} {e : Expr} (inner : Derivation .unary tokens e) :
      Derivation .power tokens e
  | negation {tokens : List Token} {operand : Expr} (inner : Derivation .unary tokens operand) :
      Derivation .unary (.operator .sub :: tokens) (.neg operand)
  | unaryOfAtom {tokens : List Token} {e : Expr} (inner : Derivation .atom tokens e) :
      Derivation .unary tokens e
  | literal (value : Binary64) : Derivation .atom [.number value] (.literal value)
  | var {name : String} (bound : name = "a" ∨ name = "b") :
      Derivation .atom [.word name] (.var name)
  | parentheses {tokens : List Token} {e : Expr} (inner : Derivation .sum tokens e) :
      Derivation .atom (.opening :: (tokens ++ [.closing])) e

namespace Derivation

/-- An operand by itself is an expression. -/
def sumOfUnary {tokens : List Token} {e : Expr} (inner : Derivation .unary tokens e) :
    Derivation .sum tokens e := .sumOfProduct (.productOfPower (.powerOfUnary inner))

/-- For each token, how many parentheses, minus signs and exponents it lies in. An operand that a
power takes on its right is its exponent; a parenthesis or a sign lies in what it introduces. -/
def depths : {phrase : Phrase} → {tokens : List Token} → {e : Expr} →
    Derivation phrase tokens e → List Nat
  | _, _, _, .sum _ before after => before.depths ++ 0 :: after.depths
  | _, _, _, .sumOfProduct inner => inner.depths
  | _, _, _, .product _ before after => before.depths ++ 0 :: after.depths
  | _, _, _, .productOfPower inner => inner.depths
  | _, _, _, .power before after => before.depths ++ 0 :: after.depths.map (· + 1)
  | _, _, _, .powerOfUnary inner => inner.depths
  | _, _, _, .negation inner => (0 :: inner.depths).map (· + 1)
  | _, _, _, .unaryOfAtom inner => inner.depths
  | _, _, _, .literal _ => [0]
  | _, _, _, .var _ => [0]
  | _, _, _, .parentheses inner => (0 :: inner.depths ++ [0]).map (· + 1)

/-- The depth of the deepest token. -/
def nesting {phrase : Phrase} {tokens : List Token} {e : Expr}
    (d : Derivation phrase tokens e) : Nat := d.depths.foldr max 0

theorem tokens_ne_nil {phrase : Phrase} {tokens : List Token} {e : Expr}
    (d : Derivation phrase tokens e) : tokens ≠ [] := by
  induction d with
  | sum _ before after => simp
  | product _ before after => simp
  | power before after => simp
  | negation inner => simp
  | parentheses inner => simp
  | literal value => simp
  | var bound => simp
  | _ inner ih => exact ih

/-- There is one depth for each token. -/
theorem length_depths {phrase : Phrase} {tokens : List Token} {e : Expr}
    (d : Derivation phrase tokens e) : d.depths.length = tokens.length := by
  induction d with
  | sum _ before after beforeIh afterIh => simp [depths, beforeIh, afterIh]
  | product _ before after beforeIh afterIh => simp [depths, beforeIh, afterIh]
  | power before after beforeIh afterIh => simp [depths, beforeIh, afterIh]
  | negation inner ih => simp [depths, ih]
  | parentheses inner ih => simp [depths, ih]
  | literal value => rfl
  | var bound => rfl
  | _ inner ih => exact ih

theorem deepest_append (first second : List Nat) :
    (first ++ second).foldr max 0 = max (first.foldr max 0) (second.foldr max 0) := by
  induction first with
  | nil => simp
  | cons depth rest ih => simp only [List.cons_append, List.foldr_cons, ih, Nat.max_assoc]

theorem deepest_succ {depths : List Nat} (nonempty : depths ≠ []) :
    (depths.map (· + 1)).foldr max 0 = depths.foldr max 0 + 1 := by
  induction depths with
  | nil => exact absurd rfl nonempty
  | cons depth rest ih =>
    cases rest with
    | nil => simp
    | cons next rest =>
      have deeper := ih (by simp)
      simp only [List.map_cons, List.foldr_cons] at deeper ⊢
      omega

theorem nesting_sum {first second : List Token} {left right : Expr} {op : Operator}
    (additive : op = .add ∨ op = .sub) (before : Derivation .sum first left)
    (after : Derivation .product second right) :
    (Derivation.sum additive before after).nesting = max before.nesting after.nesting := by
  rw [nesting, depths, deepest_append, List.foldr_cons, Nat.zero_max]
  rfl

theorem nesting_product {first second : List Token} {left right : Expr} {op : Operator}
    (multiplicative : op = .mul ∨ op = .div ∨ op = .floorDiv ∨ op = .mod)
    (before : Derivation .product first left) (after : Derivation .power second right) :
    (Derivation.product multiplicative before after).nesting =
      max before.nesting after.nesting := by
  rw [nesting, depths, deepest_append, List.foldr_cons, Nat.zero_max]
  rfl

theorem nesting_power {first second : List Token} {base exponent : Expr}
    (before : Derivation .unary first base) (after : Derivation .power second exponent) :
    (Derivation.power before after).nesting = max before.nesting (after.nesting + 1) := by
  have nonempty : after.depths ≠ [] := by
    rw [← List.length_pos_iff, length_depths]
    exact List.length_pos_iff.mpr after.tokens_ne_nil
  rw [nesting, depths, deepest_append, List.foldr_cons, Nat.zero_max, deepest_succ nonempty]
  rfl

theorem nesting_negation {tokens : List Token} {operand : Expr}
    (inner : Derivation .unary tokens operand) :
    (Derivation.negation inner).nesting = inner.nesting + 1 := by
  rw [nesting, depths, deepest_succ (by simp)]
  simp [nesting]

theorem nesting_parentheses {tokens : List Token} {e : Expr} (inner : Derivation .sum tokens e) :
    (Derivation.parentheses inner).nesting = inner.nesting + 1 := by
  rw [nesting, depths, deepest_succ (by simp), deepest_append]
  simp [nesting]

end Derivation

/-- The tokens make a phrase, and the phrase makes the tree. -/
def Derives (phrase : Phrase) (tokens : List Token) (e : Expr) : Prop :=
  Nonempty (Derivation phrase tokens e)

end LineCalc
