import LineCalc.Expr.Rejection

set_option autoImplicit false

/- Reading expressions. Binary operators are gathered by precedence, powers from the right. A limit
bounds how deep parentheses, minus signs and exponents enclose each other, and how high the tree
grows; every call is paid for from a budget, so reading ends by construction. -/
namespace LineCalc

/-- A tree that carries its height. -/
structure Branch where
  expr : Expr
  height : Nat
  height_eq : height = expr.height

namespace Branch

def leaf (expr : Expr) (height_eq : 1 = expr.height) : Branch := ⟨expr, 1, height_eq⟩

def neg (operand : Branch) : Branch where
  expr := .neg operand.expr
  height := operand.height + 1
  height_eq := by rw [operand.height_eq, Expr.height]

def binary (op : Operator) (left right : Branch) : Branch where
  expr := .binary op left.expr right.expr
  height := max left.height right.height + 1
  height_eq := by rw [left.height_eq, right.height_eq, Expr.height]

end Branch

/-- Why reading stopped: at a token that does not continue what is read, for want of more text,
beyond the limit, or with the budget spent. -/
inductive Stop where
  | unexpected (rest : List Token) (expected : Expectation)
  | incomplete
  | tooComplex
  | exhausted
  deriving DecidableEq

namespace Parser

/-- A branch and the tokens after it. -/
abbrev Result := Except Stop (Branch × List Token)

/-- What is to be read: operators from a precedence on, an operand with its signs, or one
without. -/
inductive Goal where
  | binary (floor : Nat)
  | unary
  | atom
  deriving DecidableEq, Repr

/-- Takes the first token, if `select` has a value for it. -/
def accept {α : Type} (select : Token → Option α) : List Token → Except Stop (α × List Token)
  | [] => .error (.unexpected [] .token)
  | token :: rest =>
    match select token with
    | some value => .ok (value, rest)
    | none => .error (.unexpected (token :: rest) .token)

/-- Takes the token that is wanted. -/
def expect (wanted : Token) : List Token → Except Stop (Unit × List Token) :=
  accept fun token => if token = wanted then some () else none

/-- One level further inside, if the limit allows it. -/
def enter (limit level : Nat) : Except Stop Nat :=
  if limit ≤ level then .error .tooComplex else .ok (level + 1)

/-- A branch that is no leaf, if the limit allows its height. -/
def node (limit : Nat) (branch : Branch) : Except Stop Branch :=
  if limit < branch.height then .error .tooComplex else .ok branch

/-- Takes operators of at least precedence `floor` with their right operands, which `operand`
reads from a given precedence at a given level. Each step takes a token, so `steps` need not exceed
the number of tokens. -/
def climb (operand : Nat → Nat → List Token → Result) (limit floor level : Nat) :
    Nat → Branch → List Token → Result
  | 0, left, tokens => .ok (left, tokens)
  | steps + 1, left, tokens =>
    match accept Token.operator? tokens with
    | .ok (op, rest) =>
      if op.precedence < floor then .ok (left, tokens)
      else do
        let (right, rest) ←
          if op.isRightAssociative then do
            let level ← enter limit level
            operand op.precedence level rest
          else operand (op.precedence + 1) level rest
        let left ← node limit (Branch.binary op left right)
        climb operand limit floor level steps left rest
    | .error (.unexpected _ _) => .ok (left, tokens)
    | .error stop => .error stop

/-- Reads a goal at the start of the tokens, with `budget` calls active at most. -/
def read (limit : Nat) : Nat → Goal → Nat → List Token → Result
  | 0, _, _, _ => .error .exhausted
  | budget + 1, .binary floor, level, tokens => do
    let (left, rest) ← read limit budget .unary level tokens
    climb (fun floor => read limit budget (.binary floor)) limit floor level rest.length left rest
  | budget + 1, .unary, level, tokens =>
    match expect (.operator .sub) tokens with
    | .ok (_, rest) => do
      let level ← enter limit level
      let (operand, rest) ← read limit budget .unary level rest
      let negated ← node limit operand.neg
      .ok (negated, rest)
    | .error _ => read limit budget .atom level tokens
  | budget + 1, .atom, level, tokens =>
    match accept Token.number? tokens with
    | .ok (value, rest) => .ok (.leaf (.literal value) rfl, rest)
    | .error _ =>
      match accept Token.word? tokens with
      | .ok (name, rest) =>
        if name = "a" ∨ name = "b" then .ok (.leaf (.var name) rfl, rest)
        else .error (.unexpected tokens .operand)
      | .error _ =>
        match expect .opening tokens with
        | .ok (_, rest) => do
          let level ← enter limit level
          let (inner, rest) ← read limit budget (.binary 0) level rest
          match expect .closing rest with
          | .ok (_, rest) => .ok (inner, rest)
          | .error _ => .error (.unexpected rest .closing)
        | .error _ => .error (.unexpected tokens .operand)

/-- Reads all tokens; white space may be left over. -/
def readAll (limit budget : Nat) (tokens : List Token) : Except Stop Expr := do
  let (tree, rest) ← read limit budget (.binary 0) 0 tokens
  if rest.all Token.isBlank then .ok tree.expr
  else .error (.unexpected rest .continuation)

/-- Between two tokens taken, no more than three calls become active. -/
def sufficientBudget (tokens : List Token) : Nat := 3 * (tokens.length + 1)

/-- The text from the first of the remaining tokens on. -/
def textFrom (lexemes : List Lexeme) (rest : List Token) : List Char :=
  match lexemes.drop (lexemes.length - rest.length) with
  | [] => []
  | lexeme :: _ => lexeme.start

/-- Names what stopped the reading of a text. -/
def reject (limit : Nat) (text : List Char) (lexemes : List Lexeme) : Stop → Rejection
  | .unexpected rest expected =>
    let remaining := textFrom lexemes rest
    let position := Text.byteLength text - Text.byteLength remaining
    match Construct.ofText? remaining with
    | some (construct, fragment) => .unsupported position construct (String.ofList fragment)
    | none => .malformed position (.unexpected remaining.head? expected)
  | .incomplete => .malformed (Text.byteLength text) (.worded "Incomplete input")
  | .tooComplex => .tooComplex limit
  | .exhausted => .tooComplex limit

end Parser

/-- The expression that a text is. -/
def parse (limit : Nat) (text : List Char) : Except Rejection Expr :=
  let lexemes := Token.lex text
  let tokens := lexemes.map Lexeme.token
  (Parser.readAll limit (Parser.sufficientBudget tokens) tokens).mapError
    (Parser.reject limit text lexemes)

def defaultLimit : Nat := 256

end LineCalc
