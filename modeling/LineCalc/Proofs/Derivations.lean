import LineCalc.Proofs.Grammar
import LineCalc.Proofs.Reading

set_option autoImplicit false

/- Reading finds the derivations of the grammar, each with the limit that its shape asks for. -/
namespace LineCalc

/-- The phrase that is read from a precedence on. -/
def Phrase.ofFloor : Nat → Phrase
  | 0 | 1 => .sum
  | 2 => .product
  | _ => .power

/-- The phrase that an operator makes. -/
def Operator.phrase (op : Operator) : Phrase := .ofFloor op.precedence

/-- The phrase on the left of an operator. -/
def Operator.leftPhrase : Operator → Phrase
  | .pow => .unary
  | op => op.phrase

/-- A tighter phrase has a higher rank. -/
def Phrase.rank : Phrase → Nat
  | .sum => 0
  | .product => 1
  | .power => 2
  | .unary => 3
  | .atom => 4

theorem Phrase.rank_le_atom (phrase : Phrase) : phrase.rank ≤ Phrase.atom.rank := by
  cases phrase <;> decide

theorem Phrase.rank_ofFloor (floor : Nat) : (Phrase.ofFloor floor).rank = min (floor - 1) 2 := by
  match floor with
  | 0 | 1 | 2 => rfl
  | floor + 3 =>
    simp only [ofFloor, rank]
    omega

namespace Derives

variable {tokens first second : List Token} {e left right : Expr}

theorem loosen {tight loose : Phrase} (order : loose.rank ≤ tight.rank)
    (derives : Derives tight tokens e) : Derives loose tokens e := by
  obtain ⟨d⟩ := derives
  match tight, loose with
  | .sum, .sum => exact ⟨d⟩
  | .product, .product => exact ⟨d⟩
  | .product, .sum => exact ⟨.sumOfProduct d⟩
  | .power, .power => exact ⟨d⟩
  | .power, .product => exact ⟨.productOfPower d⟩
  | .power, .sum => exact ⟨.sumOfProduct (.productOfPower d)⟩
  | .unary, .unary => exact ⟨d⟩
  | .unary, .power => exact ⟨.powerOfUnary d⟩
  | .unary, .product => exact ⟨.productOfPower (.powerOfUnary d)⟩
  | .unary, .sum => exact ⟨.sumOfProduct (.productOfPower (.powerOfUnary d))⟩
  | .atom, .atom => exact ⟨d⟩
  | .atom, .unary => exact ⟨.unaryOfAtom d⟩
  | .atom, .power => exact ⟨.powerOfUnary (.unaryOfAtom d)⟩
  | .atom, .product => exact ⟨.productOfPower (.powerOfUnary (.unaryOfAtom d))⟩
  | .atom, .sum => exact ⟨.sumOfProduct (.productOfPower (.powerOfUnary (.unaryOfAtom d)))⟩

/-- An operator joins the phrases beside it. -/
theorem operator {op : Operator} (before : Derives op.leftPhrase first left)
    (after : Derives (.ofFloor (Parser.operandFloor op)) second right) :
    Derives op.phrase (first ++ .operator op :: second) (.binary op left right) := by
  obtain ⟨before⟩ := before
  obtain ⟨after⟩ := after
  cases op with
  | add => exact ⟨.sum (.inl rfl) before after⟩
  | sub => exact ⟨.sum (.inr rfl) before after⟩
  | mul => exact ⟨.product (by simp) before after⟩
  | div => exact ⟨.product (by simp) before after⟩
  | floorDiv => exact ⟨.product (by simp) before after⟩
  | mod => exact ⟨.product (by simp) before after⟩
  | pow => exact ⟨.power before after⟩

end Derives

namespace Parser

/-! What is read derives -/

/-- The phrase that a goal reads. -/
def Goal.phrase : Goal → Phrase
  | .binary floor => .ofFloor floor
  | .unary => .unary
  | .atom => .atom

/-- What follows a goal is not what the goal goes on with. -/
def Goal.Leaves : Goal → List Token → Prop
  | .binary floor, rest => Loose floor rest
  | _, _ => True

/-- The tokens of a tree are the left operand of any operator that may follow them. -/
structure Ready (floor : Nat) (front : List Token) (left : Branch) (tokens : List Token) :
    Prop where
  whole : Derives (.ofFloor floor) front left.expr
  operand : ∀ op, tokens.head? = some (.operator op) → floor ≤ op.precedence →
    Derives op.leftPhrase front left.expr

/-- The tokens that a task takes derive its tree. -/
def Task.Derived (tokens : List Token) : Task → Finding → Prop
  | .read goal, .taken branch rest =>
    ∃ taken, tokens = taken ++ rest ∧ Derives goal.phrase taken branch.expr ∧ goal.Leaves rest
  | .climb floor left, .taken branch rest => ∀ front, Ready floor front left tokens →
    ∃ taken, tokens = taken ++ rest ∧ Derives (.ofFloor floor) (front ++ taken) branch.expr ∧
      Loose floor rest
  | _, .stuck _ _ => True

/-- A sign or an atom is the left operand of every operator. -/
theorem ready_of_unary {floor : Nat} {front tokens : List Token} {left : Branch}
    (unary : Derives .unary front left.expr) : Ready floor front left tokens := by
  refine ⟨unary.loosen ?_, fun op _ _ => unary.loosen ?_⟩
  · rw [Phrase.rank_ofFloor, Phrase.rank]
    omega
  · cases op <;> decide

/-- After an operator and its right operand only looser operators follow, and what the operator
makes is a left operand of those. -/
theorem ready_of_operator {floor : Nat} {op : Operator} {front tokens : List Token}
    {branch : Branch} (tight : floor ≤ op.precedence)
    (derives : Derives op.phrase front branch.expr) (loose : Loose (operandFloor op) tokens) :
    Ready floor front branch tokens := by
  refine ⟨derives.loosen ?_, fun next head tight => derives.loosen ?_⟩
  · rw [Operator.phrase, Phrase.rank_ofFloor, Phrase.rank_ofFloor]
    omega
  · have looser := loose next head
    cases op <;> cases next <;> first | decide | exact absurd looser (by decide)

theorem Reading.derived {level need : Nat} {task : Task} {tokens : List Token} {finding : Finding}
    (reading : Reading level task tokens need finding) : task.Derived tokens finding := by
  induction reading with
  | @literal level value rest => exact ⟨[.number value], rfl, ⟨.literal value⟩, trivial⟩
  | @var level name rest bound => exact ⟨[.word name], rfl, ⟨.var bound⟩, trivial⟩
  | @parentheses level need branch rest after inner ih =>
    obtain ⟨taken, rfl, ⟨d⟩, _⟩ := ih
    have closed : Derives .atom (.opening :: (taken ++ [.closing])) branch.expr := ⟨.parentheses d⟩
    exact ⟨_, by simp, closed, trivial⟩
  | @unsigned level need tokens finding plain inner ih =>
    cases finding with
    | stuck after expected => trivial
    | taken branch rest =>
      obtain ⟨taken, same, derives, _⟩ := ih
      exact ⟨taken, same, derives.loosen (by decide), trivial⟩
  | @negation level need operand rest after inner ih =>
    obtain ⟨taken, rfl, ⟨d⟩, _⟩ := ih
    exact ⟨.operator .sub :: taken, rfl, ⟨.negation d⟩, trivial⟩
  | @binary level floor first later left tokens rest finding start loop startIh loopIh =>
    cases finding with
    | stuck after expected => trivial
    | taken branch after =>
      obtain ⟨front, rfl, unary, _⟩ := startIh
      obtain ⟨taken, rfl, derives, loose⟩ := loopIh front (ready_of_unary unary)
      exact ⟨front ++ taken, by simp, derives, loose⟩
  | @done level floor left tokens loose =>
    intro front ready
    exact ⟨[], rfl, by simpa using ready.whole, loose⟩
  | @step level floor first later op left right rest after finding tight operand loop operandIh
      loopIh =>
    cases finding with
    | stuck after expected => trivial
    | taken branch last =>
      intro front ready
      obtain ⟨second, rfl, derives, loose⟩ := operandIh
      have joined := Derives.operator (ready.operand op rfl tight) derives
      obtain ⟨taken, rfl, whole, loosened⟩ := loopIh _ (ready_of_operator tight joined loose)
      exact ⟨.operator op :: (second ++ taken), by simp, by simpa using whole, loosened⟩
  | _ => trivial

/-! What derives is read -/

end Parser

/-- A tree with its own height. -/
def Branch.ofExpr (e : Expr) : Branch := ⟨e, e.height, rfl⟩

/-- The height that a limit has to allow. A leaf is never too high. -/
def Expr.limitedHeight : Expr → Nat
  | .literal _ => 0
  | .var _ => 0
  | e => e.height

theorem Expr.limitedHeight_neg (operand : Expr) :
    (Expr.neg operand).limitedHeight = operand.height + 1 := rfl

theorem Expr.limitedHeight_binary (op : Operator) (left right : Expr) :
    (Expr.binary op left right).limitedHeight = max left.height right.height + 1 := rfl

theorem Expr.limitedHeight_le (e : Expr) : e.limitedHeight ≤ e.height := by
  cases e <;> simp [limitedHeight]

/-- The least limit that lets a derivation through from a level on. -/
def Derivation.demand {phrase : Phrase} {tokens : List Token} {e : Expr}
    (d : Derivation phrase tokens e) (level : Nat) : Nat :=
  max (level + d.nesting) e.limitedHeight

theorem Derivation.level_le {phrase : Phrase} {tokens : List Token} {e : Expr}
    (d : Derivation phrase tokens e) (level : Nat) : level ≤ d.demand level := by
  rw [Derivation.demand]
  omega

namespace Parser

theorem Reading.of_eq {level need other : Nat} {task : Task} {tokens : List Token}
    {finding : Finding} (reading : Reading level task tokens need finding) (same : need = other) :
    Reading level task tokens other finding := same ▸ reading

/-- A phrase is found at the start of any tokens that do not go on with it. A sum, product or power
is found as the left operand of whatever operators follow it. -/
def Found (tokens : List Token) (e : Expr) (demand : Nat → Nat) : Phrase → Prop
  | .atom => ∀ level rest,
    Reading level (.read .atom) (tokens ++ rest) (demand level) (.taken (.ofExpr e) rest)
  | .unary => ∀ level rest,
    Reading level (.read .unary) (tokens ++ rest) (demand level) (.taken (.ofExpr e) rest)
  | .sum => Gathered 1 2
  | .product => Gathered 2 3
  | .power => Gathered 3 3
where
  Gathered (tightest bound : Nat) : Prop := ∀ level floor rest later finding, floor ≤ tightest →
    Loose bound rest → Reading level (.climb floor (.ofExpr e)) rest later finding →
    Reading level (.read (.binary floor)) (tokens ++ rest) (max (demand level) later) finding

/-- A phrase of operators is found whole before a token that it does not go on with. -/
theorem Found.Gathered.whole {tightest bound level floor : Nat} {tokens rest : List Token}
    {e : Expr} {demand : Nat → Nat} (gathered : Found.Gathered tokens e demand tightest bound)
    (order : floor ≤ tightest) (narrow : floor ≤ bound) (loose : Loose floor rest)
    (least : level ≤ demand level) :
    Reading level (.read (.binary floor)) (tokens ++ rest) (demand level)
      (.taken (.ofExpr e) rest) := by
  have follows : Loose bound rest := by
    intro op head
    have below := loose op head
    omega
  have found := gathered level floor rest level _ order follows (.done loose)
  apply found.of_eq
  omega

/-- An operator needs what its operands need and the height of what it makes, which is more than
either operand has by itself. -/
theorem joined_need {first second low high height later : Nat} (leftFits : low ≤ height)
    (rightFits : high ≤ height) :
    max (max first low) (max (max (max second high) height) later) =
      max (max (max first second) height) later := by
  have highest : max low (max high height) = height := by omega
  calc max (max first low) (max (max (max second high) height) later)
    _ = max (max (max first second) (max low (max high height))) later := by ac_rfl
    _ = max (max (max first second) height) later := by rw [highest]

theorem loose_operator {bound : Nat} {op : Operator} {rest : List Token}
    (below : op.precedence < bound) : Loose bound (.operator op :: rest) := by
  intro next head
  cases head
  exact below

/-- An operator that gathers from the left is found behind its left operand. -/
theorem gathered_operator {tightest : Nat} {loose tight phrase : Phrase}
    {first second : List Token} {op : Operator} {left right : Expr}
    {before : Derivation loose first left} {after : Derivation tight second right}
    {d : Derivation phrase (first ++ .operator op :: second) (.binary op left right)}
    (leftFound : Found.Gathered first left before.demand tightest (tightest + 1))
    (rightFound : Found.Gathered second right after.demand (tightest + 1) 3)
    (binds : op.precedence = tightest ∧ op.isRightAssociative = false ∧ tightest ≤ 2)
    (nesting : d.nesting = max before.nesting after.nesting) :
    Found.Gathered (first ++ .operator op :: second) (.binary op left right) d.demand tightest
      (tightest + 1) := by
  intro level floor rest later finding order follows loop
  obtain ⟨precedence, fromLeft, low⟩ := binds
  have sameFloor : operandFloor op = tightest + 1 := by simp [operandFloor, fromLeft, precedence]
  have sameLevel : operandLevel op level = level := by simp [operandLevel, fromLeft]
  have operand := rightFound.whole (Nat.le_refl _) (by omega) follows (after.level_le level)
  rw [← sameFloor, ← sameLevel] at operand
  have step : Reading level (.climb floor (.ofExpr left)) (.operator op :: (second ++ rest)) _
      finding := .step (by omega) operand loop
  have looser : Loose (tightest + 1) (.operator op :: (second ++ rest)) := by
    apply loose_operator
    omega
  have found := leftFound level floor _ _ finding order looser step
  rw [List.append_assoc]
  apply found.of_eq
  have leftLow := left.limitedHeight_le
  have rightLow := right.limitedHeight_le
  simp only [Derivation.demand, nesting, sameLevel, Expr.limitedHeight_binary, Branch.binary,
    Branch.ofExpr, ← Nat.add_max_add_left]
  apply joined_need
  · omega
  · omega

theorem Reading.unsigned_head {level need : Nat} {tokens rest : List Token} {branch : Branch}
    (reading : Reading level (.read .atom) tokens need (.taken branch rest)) :
    tokens.head? ≠ some (.operator .sub) := by
  cases reading <;> simp

/-- What derives is found, and needs the limit that its derivation asks for. -/
theorem found_of_derivation {phrase : Phrase} {tokens : List Token} {e : Expr}
    (d : Derivation phrase tokens e) : Found tokens e d.demand phrase := by
  -- The derivation of a sum has its last operator at the root, while the loop starts at the first.
  -- Found before any loop that goes on from it, the left operand takes the rest as one more step.
  induction d with
  | literal value =>
    intro level rest
    exact Reading.literal.of_eq (Nat.max_zero level).symm
  | var bound =>
    intro level rest
    exact (Reading.var bound).of_eq (Nat.max_zero level).symm
  | @parentheses tokens e inner ih =>
    intro level rest
    have loose : Loose 0 (.closing :: rest) := by
      intro op head
      cases head
    have found := ih.whole (by omega) (by omega) loose (inner.level_le (level + 1))
    have closed := Reading.parentheses found
    rw [List.cons_append, List.append_assoc]
    apply closed.of_eq
    simp only [Derivation.demand, Derivation.nesting_parentheses]
    omega
  | unaryOfAtom inner ih =>
    intro level rest
    have found := ih level rest
    exact .unsigned found.unsigned_head found
  | @negation tokens operand inner ih =>
    intro level rest
    have found := ih (level + 1) rest
    have signed := Reading.negation found
    apply signed.of_eq
    have low := operand.limitedHeight_le
    simp only [Derivation.demand, Derivation.nesting_negation, Expr.limitedHeight_neg,
      Branch.neg, Branch.ofExpr]
    omega
  | @powerOfUnary tokens e inner ih =>
    intro level floor rest later finding order loose loop
    exact .binary (ih level rest) loop
  | @power first second base exponent before after beforeIh afterIh =>
    intro level floor rest later finding order loose loop
    have operand := afterIh.whole (by omega) (by omega) loose (after.level_le (level + 1))
    have step : Reading level (.climb floor (.ofExpr base)) (.operator .pow :: (second ++ rest)) _
        finding := .step order operand loop
    have found := Reading.binary (beforeIh level _) step
    rw [List.append_assoc]
    apply found.of_eq
    have baseLow := base.limitedHeight_le
    have exponentLow := exponent.limitedHeight_le
    simp only [Derivation.demand, Derivation.nesting_power, Expr.limitedHeight_binary,
      Branch.binary, Branch.ofExpr, ← Nat.add_max_add_left, Nat.add_right_comm level 1]
    apply joined_need
    · omega
    · omega
  | @productOfPower tokens e inner ih =>
    intro level floor rest later finding order loose loop
    exact ih level floor rest later finding (by omega) loose loop
  | product multiplicative before after beforeIh afterIh =>
    have nesting := Derivation.nesting_product multiplicative before after
    apply gathered_operator beforeIh afterIh _ nesting
    rcases multiplicative with rfl | rfl | rfl | rfl <;> decide
  | @sumOfProduct tokens e inner ih =>
    intro level floor rest later finding order loose loop
    have looser : Loose 3 rest := by
      intro op head
      have below := loose op head
      omega
    exact ih level floor rest later finding (by omega) looser loop
  | sum additive before after beforeIh afterIh =>
    have nesting := Derivation.nesting_sum additive before after
    apply gathered_operator beforeIh afterIh _ nesting
    rcases additive with rfl | rfl <;> decide

end Parser

end LineCalc
