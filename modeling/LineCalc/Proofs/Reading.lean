import LineCalc.Expr.Parser

set_option autoImplicit false

/- Reading without a limit, as a relation: what it comes to, and the least limit that lets it
through. Reading under a limit differs only in that it stops below that one. -/
namespace LineCalc

theorem Branch.height_pos (branch : Branch) : 0 < branch.height := by
  rw [branch.height_eq]
  cases branch.expr <;> simp [Expr.height]

namespace Parser

/-- A goal to read, or operators to gather behind a tree. -/
inductive Task where
  | read (goal : Goal)
  | climb (floor : Nat) (left : Branch)

inductive Finding where
  | taken (branch : Branch) (rest : List Token)
  | stuck (rest : List Token) (expected : Expectation)

def Finding.result : Finding → Result
  | .taken branch rest => .ok (branch, rest)
  | .stuck rest expected => .error (.unexpected rest expected)

/-- What is left of a finding by a limit. -/
def Finding.within (finding : Finding) (need limit : Nat) : Result :=
  if need ≤ limit then finding.result else .error .tooComplex

/-- No operator of at least precedence `floor` comes first. -/
def Loose (floor : Nat) (tokens : List Token) : Prop :=
  ∀ op, tokens.head? = some (.operator op) → op.precedence < floor

def startsAtom : Token → Bool
  | .number _ => true
  | .word name => name == "a" || name == "b"
  | .opening => true
  | _ => false

/-- The precedence from which the right operand of an operator takes operators. -/
def operandFloor (op : Operator) : Nat :=
  if op.isRightAssociative then op.precedence else op.precedence + 1

/-- The level of the right operand of an operator. -/
def operandLevel (op : Operator) (level : Nat) : Nat :=
  if op.isRightAssociative then level + 1 else level

/-- From a level, a task at the start of the tokens needs a limit and comes to a finding. -/
inductive Reading : Nat → Task → List Token → Nat → Finding → Prop where
  | literal {level : Nat} {value : Binary64} {rest : List Token} :
      Reading level (.read .atom) (.number value :: rest) level
        (.taken (.leaf (.literal value) rfl) rest)
  | var {level : Nat} {name : String} {rest : List Token} (bound : name = "a" ∨ name = "b") :
      Reading level (.read .atom) (.word name :: rest) level (.taken (.leaf (.var name) rfl) rest)
  | operandMissing {level : Nat} {tokens : List Token}
      (missing : ∀ token ∈ tokens.head?, startsAtom token = false) :
      Reading level (.read .atom) tokens level (.stuck tokens .operand)
  | parentheses {level need : Nat} {branch : Branch} {rest after : List Token}
      (inner : Reading (level + 1) (.read (.binary 0)) rest need
        (.taken branch (.closing :: after))) :
      Reading level (.read .atom) (.opening :: rest) need (.taken branch after)
  | closingMissing {level need : Nat} {branch : Branch} {rest after : List Token}
      (inner : Reading (level + 1) (.read (.binary 0)) rest need (.taken branch after))
      (missing : after.head? ≠ some .closing) :
      Reading level (.read .atom) (.opening :: rest) need (.stuck after .closing)
  | parenthesesStuck {level need : Nat} {rest after : List Token} {expected : Expectation}
      (inner : Reading (level + 1) (.read (.binary 0)) rest need (.stuck after expected)) :
      Reading level (.read .atom) (.opening :: rest) need (.stuck after expected)
  | unsigned {level need : Nat} {tokens : List Token} {finding : Finding}
      (plain : tokens.head? ≠ some (.operator .sub))
      (inner : Reading level (.read .atom) tokens need finding) :
      Reading level (.read .unary) tokens need finding
  | negation {level need : Nat} {operand : Branch} {rest after : List Token}
      (inner : Reading (level + 1) (.read .unary) rest need (.taken operand after)) :
      Reading level (.read .unary) (.operator .sub :: rest) (max need operand.neg.height)
        (.taken operand.neg after)
  | negationStuck {level need : Nat} {rest after : List Token} {expected : Expectation}
      (inner : Reading (level + 1) (.read .unary) rest need (.stuck after expected)) :
      Reading level (.read .unary) (.operator .sub :: rest) need (.stuck after expected)
  | binary {level floor first later : Nat} {left : Branch} {tokens rest : List Token}
      {finding : Finding}
      (start : Reading level (.read .unary) tokens first (.taken left rest))
      (loop : Reading level (.climb floor left) rest later finding) :
      Reading level (.read (.binary floor)) tokens (max first later) finding
  | binaryStuck {level floor need : Nat} {tokens after : List Token} {expected : Expectation}
      (start : Reading level (.read .unary) tokens need (.stuck after expected)) :
      Reading level (.read (.binary floor)) tokens need (.stuck after expected)
  | done {level floor : Nat} {left : Branch} {tokens : List Token} (loose : Loose floor tokens) :
      Reading level (.climb floor left) tokens level (.taken left tokens)
  | step {level floor first later : Nat} {op : Operator} {left right : Branch}
      {rest after : List Token} {finding : Finding} (tight : floor ≤ op.precedence)
      (operand : Reading (operandLevel op level) (.read (.binary (operandFloor op))) rest first
        (.taken right after))
      (loop : Reading level (.climb floor (.binary op left right)) after later finding) :
      Reading level (.climb floor left) (.operator op :: rest)
        (max (max first (Branch.binary op left right).height) later) finding
  | stepStuck {level floor need : Nat} {op : Operator} {left : Branch} {rest after : List Token}
      {expected : Expectation} (tight : floor ≤ op.precedence)
      (operand : Reading (operandLevel op level) (.read (.binary (operandFloor op))) rest need
        (.stuck after expected)) :
      Reading level (.climb floor left) (.operator op :: rest) need (.stuck after expected)

/-! What a task takes -/

/-- How high a tree stands before a task. -/
def Task.height : Task → Nat
  | .read _ => 0
  | .climb _ left => left.height

/-- The height of what was taken and the number of tokens left. -/
def Finding.extent : Finding → Nat
  | .taken branch rest => branch.height + rest.length
  | .stuck rest _ => rest.length

theorem operandLevel_le (op : Operator) (level : Nat) :
    level ≤ operandLevel op level ∧ operandLevel op level ≤ level + 1 := by
  unfold operandLevel
  split <;> omega

theorem Reading.level_le {level need : Nat} {task : Task} {tokens : List Token} {finding : Finding}
    (reading : Reading level task tokens need finding) : level ≤ need := by
  induction reading with
  | literal | var | operandMissing | done => exact Nat.le_refl _
  | parentheses | closingMissing | parenthesesStuck | negation | negationStuck => omega
  | unsigned _ _ ih | binaryStuck _ ih => exact ih
  | binary | step => omega
  | @stepStuck level _ _ op _ _ _ _ _ _ ih =>
    have := operandLevel_le op level
    omega

/-- Each token adds at most one to the height of a tree and to the limit that is needed. -/
theorem Reading.extent_le {level need : Nat} {task : Task} {tokens : List Token}
    {finding : Finding} (reading : Reading level task tokens need finding) :
    finding.extent ≤ task.height + tokens.length ∧
      need ≤ level + task.height + tokens.length := by
  induction reading with
  | literal | var => simp only [Finding.extent, Task.height, Branch.leaf, List.length_cons]; omega
  | operandMissing => simp only [Finding.extent, Task.height]; omega
  | parentheses _ ih | closingMissing _ _ ih | parenthesesStuck _ ih | negationStuck _ ih =>
    simp only [Finding.extent, Task.height, List.length_cons] at ih ⊢
    omega
  | unsigned _ _ ih | binaryStuck _ ih => exact ih
  | negation _ ih =>
    simp only [Finding.extent, Task.height, List.length_cons, Branch.neg] at ih ⊢
    omega
  | binary _ _ startIh loopIh =>
    simp only [Finding.extent, Task.height] at startIh loopIh ⊢
    omega
  | done => simp only [Finding.extent, Task.height]; omega
  | @step level _ _ _ op _ _ _ _ _ _ _ _ operandIh loopIh =>
    have deeper := operandLevel_le op level
    simp only [Finding.extent, Task.height, List.length_cons, Branch.binary]
      at operandIh loopIh ⊢
    omega
  | @stepStuck level _ _ op _ _ _ _ _ _ ih =>
    have deeper := operandLevel_le op level
    simp only [Finding.extent, Task.height, List.length_cons] at ih ⊢
    omega

/-- A goal that is read takes a token at least. -/
theorem Reading.length_lt {level need : Nat} {goal : Goal} {tokens rest : List Token}
    {branch : Branch} (reading : Reading level (.read goal) tokens need (.taken branch rest)) :
    rest.length < tokens.length := by
  have bound := reading.extent_le.1
  have positive := Branch.height_pos branch
  simp only [Finding.extent, Task.height] at bound
  omega

/-! Reading comes to a finding -/

/-- Calls before the next token is taken. -/
def Task.rank : Task → Nat
  | .read (.binary _) => 3
  | .read .unary => 2
  | .read .atom => 1
  | .climb _ _ => 1

theorem Reading.exists_atom {level : Nat} {tokens : List Token}
    (inner : ∀ rest : List Token, rest.length < tokens.length →
      ∃ need finding, Reading (level + 1) (.read (.binary 0)) rest need finding) :
    ∃ need finding, Reading level (.read .atom) tokens need finding := by
  cases tokens with
  | nil => exact ⟨level, _, .operandMissing (by simp)⟩
  | cons token rest =>
    cases token with
    | number value => exact ⟨level, _, .literal⟩
    | word name =>
      by_cases bound : name = "a" ∨ name = "b"
      · exact ⟨level, _, .var bound⟩
      · exact ⟨level, _, .operandMissing (by simpa [startsAtom] using bound)⟩
    | opening =>
      obtain ⟨need, finding, reading⟩ := inner rest (by simp)
      cases finding with
      | stuck after expected => exact ⟨need, _, .parenthesesStuck reading⟩
      | taken branch after =>
        by_cases closed : after.head? = some .closing
        · obtain ⟨after, rfl⟩ := List.head?_eq_some_iff.mp closed
          exact ⟨need, _, .parentheses reading⟩
        · exact ⟨need, _, .closingMissing reading closed⟩
    | _ => exact ⟨level, _, .operandMissing (by simp [startsAtom])⟩

theorem Reading.exists_climb {level floor : Nat} {left : Branch} {tokens : List Token}
    (operand : ∀ level floor (rest : List Token), rest.length < tokens.length →
      ∃ need finding, Reading level (.read (.binary floor)) rest need finding)
    (loop : ∀ left (rest : List Token), rest.length < tokens.length →
      ∃ need finding, Reading level (.climb floor left) rest need finding) :
    ∃ need finding, Reading level (.climb floor left) tokens need finding := by
  by_cases loose : Loose floor tokens
  · exact ⟨level, _, .done loose⟩
  · simp only [Loose, Classical.not_forall, Nat.not_lt] at loose
    obtain ⟨op, head, tight⟩ := loose
    obtain ⟨rest, rfl⟩ := List.head?_eq_some_iff.mp head
    obtain ⟨first, finding, reading⟩ :=
      operand (operandLevel op level) (operandFloor op) rest (by simp)
    cases finding with
    | stuck after expected => exact ⟨first, _, .stepStuck tight reading⟩
    | taken right after =>
      have shorter := reading.length_lt
      obtain ⟨later, finding, looping⟩ :=
        loop (.binary op left right) after (by rw [List.length_cons]; omega)
      exact ⟨_, finding, .step tight reading looping⟩

theorem Reading.exists (task : Task) (level : Nat) (tokens : List Token) :
    ∃ need finding, Reading level task tokens need finding := by
  -- Three calls at most pass before a token is taken; the rank counts them down.
  induction size : 3 * tokens.length + task.rank using Nat.strongRecOn
    generalizing task level tokens with
  | ind size ih =>
    subst size
    cases task with
    | climb floor left =>
      apply Reading.exists_climb
      · intro level floor rest shorter
        exact ih _ (by simp only [Task.rank]; omega) (.read (.binary floor)) level rest rfl
      · intro left rest shorter
        exact ih _ (by simp only [Task.rank]; omega) (.climb floor left) level rest rfl
    | read goal =>
      cases goal with
      | atom =>
        apply Reading.exists_atom
        intro rest shorter
        exact ih _ (by simp only [Task.rank]; omega) (.read (.binary 0)) (level + 1) rest rfl
      | unary =>
        by_cases signed : tokens.head? = some (.operator .sub)
        · obtain ⟨rest, rfl⟩ := List.head?_eq_some_iff.mp signed
          obtain ⟨need, finding, reading⟩ := ih _
            (by simp only [Task.rank, List.length_cons]; omega) (.read .unary) (level + 1) rest rfl
          cases finding with
          | taken operand after => exact ⟨_, _, .negation reading⟩
          | stuck after expected => exact ⟨_, _, .negationStuck reading⟩
        · obtain ⟨need, finding, reading⟩ := ih _ (by simp only [Task.rank]; omega)
            (.read .atom) level tokens rfl
          exact ⟨need, finding, .unsigned signed reading⟩
      | binary floor =>
        obtain ⟨first, finding, reading⟩ := ih _ (by simp only [Task.rank]; omega)
          (.read .unary) level tokens rfl
        cases finding with
        | stuck after expected => exact ⟨_, _, .binaryStuck reading⟩
        | taken left rest =>
          have shorter := reading.length_lt
          obtain ⟨later, finding, looping⟩ := ih _ (by simp only [Task.rank]; omega)
            (.climb floor left) level rest rfl
          exact ⟨_, finding, .binary reading looping⟩

/-! Reading under a limit -/

/-- The functions of the parser give a result for a task. -/
def Task.Gives (limit budget level : Nat) (tokens : List Token) (result : Result) : Task → Prop
  | .read goal => Parser.read limit budget goal level tokens = result
  | .climb floor left => ∀ steps, tokens.length ≤ steps →
      Parser.climb (fun floor => Parser.read limit budget (.binary floor)) limit floor level steps
        left tokens = result

theorem Task.exists_succ {task : Task} {size budget : Nat} (enough : size + task.rank ≤ budget) :
    ∃ more, budget = more + 1 := by
  have positive : 0 < task.rank := by
    unfold rank
    split <;> omega
  exact ⟨budget - 1, by omega⟩

theorem Finding.within_of_le {finding : Finding} {need limit : Nat} (enough : need ≤ limit) :
    finding.within need limit = finding.result := by
  rw [within, if_pos enough]

theorem Finding.within_of_lt {finding : Finding} {need limit : Nat} (short : limit < need) :
    finding.within need limit = .error .tooComplex := by
  rw [within, if_neg (Nat.not_le.mpr short)]

theorem Finding.stuck_within (after : List Token) (expected : Expectation) (need limit : Nat) :
    ∃ stop, (Finding.stuck after expected).within need limit = .error stop := by
  unfold within
  split
  · exact ⟨_, rfl⟩
  · exact ⟨_, rfl⟩

theorem enter_of_lt {limit level : Nat} (room : level < limit) :
    enter limit level = .ok (level + 1) := by
  rw [enter, if_neg (Nat.not_le.mpr room)]

theorem enter_of_le {limit level : Nat} (full : limit ≤ level) :
    enter limit level = .error .tooComplex := by
  rw [enter, if_pos full]

theorem accept_operator (op : Operator) (rest : List Token) :
    accept Token.operator? (.operator op :: rest) = .ok (op, rest) := rfl

theorem climb_of_loose {operand : Nat → Nat → List Token → Result} {limit floor level steps : Nat}
    {left : Branch} {tokens : List Token} (loose : Loose floor tokens) :
    climb operand limit floor level steps left tokens = .ok (left, tokens) := by
  cases steps with
  | zero => rfl
  | succ steps =>
    cases tokens with
    | nil => rfl
    | cons token rest =>
      cases token with
      | operator op => simp only [climb, accept_operator, if_pos (loose op rfl)]
      | _ => rfl

/-- The right operand is read if the limit allows its level. -/
def rightOperand (operand : Nat → Nat → List Token → Result) (limit level : Nat) (op : Operator)
    (rest : List Token) : Result :=
  if operandLevel op level ≤ limit then operand (operandFloor op) (operandLevel op level) rest
  else .error .tooComplex

theorem climb_operator {operand : Nat → Nat → List Token → Result} {limit floor level steps : Nat}
    {op : Operator} {left : Branch} {rest : List Token} (tight : floor ≤ op.precedence)
    (inside : level ≤ limit) :
    climb operand limit floor level (steps + 1) left (.operator op :: rest) = (do
      let (right, after) ← rightOperand operand limit level op rest
      let left ← node limit (.binary op left right)
      climb operand limit floor level steps left after) := by
  simp only [climb, accept_operator, if_neg (Nat.not_lt.mpr tight), rightOperand]
  by_cases fromRight : op.isRightAssociative = true
  · simp only [operandLevel, operandFloor, fromRight, ↓reduceIte]
    by_cases room : level < limit
    · rw [enter_of_lt room, if_pos (show level + 1 ≤ limit by omega)]
      rfl
    · rw [enter_of_le (Nat.not_lt.mp room), if_neg (show ¬level + 1 ≤ limit by omega)]
      rfl
  · simp only [operandLevel, operandFloor, fromRight, Bool.false_eq_true, ↓reduceIte, inside]

/-! What a call does with the first of the tokens -/

theorem read_sign (limit budget level : Nat) (rest : List Token) :
    read limit (budget + 1) .unary level (.operator .sub :: rest) = (do
      let level ← enter limit level
      let (operand, rest) ← read limit budget .unary level rest
      let negated ← node limit operand.neg
      return (negated, rest)) := rfl

theorem read_word (limit budget level : Nat) (name : String) (rest : List Token) :
    read limit (budget + 1) .atom level (.word name :: rest) =
      if name = "a" ∨ name = "b" then .ok (.leaf (.var name) rfl, rest)
      else .error (.unexpected (.word name :: rest) .operand) := rfl

theorem read_parenthesis (limit budget level : Nat) (rest : List Token) :
    read limit (budget + 1) .atom level (.opening :: rest) = (do
      let level ← enter limit level
      let (inner, rest) ← read limit budget (.binary 0) level rest
      match expect .closing rest with
      | .ok (_, rest) => return (inner, rest)
      | .error _ => .error (.unexpected rest .closing)) := rfl

/-- What comes of a parenthesis, from what comes of the tokens after it. -/
def Finding.closed : Finding → Finding
  | .taken branch (.closing :: after) => .taken branch after
  | .taken _ after => .stuck after .closing
  | .stuck after expected => .stuck after expected

theorem Finding.closed_of_ne {branch : Branch} {after : List Token}
    (missing : after.head? ≠ some .closing) :
    (Finding.taken branch after).closed = .stuck after .closing := by
  cases after with
  | nil => rfl
  | cons token after =>
    cases token with
    | closing => exact absurd rfl missing
    | _ => rfl

theorem read_opening {limit budget level need : Nat} {rest : List Token} {finding : Finding}
    (deeper : level < need)
    (inner : level < limit → read limit budget (.binary 0) (level + 1) rest =
      finding.within need limit) :
    read limit (budget + 1) .atom level (.opening :: rest) = finding.closed.within need limit := by
  rw [read_parenthesis]
  by_cases room : level < limit
  · simp only [enter_of_lt room, bind, Except.bind, inner room]
    by_cases fits : need ≤ limit
    · simp only [Finding.within_of_le fits]
      cases finding with
      | stuck after expected => rfl
      | taken branch after =>
        cases after with
        | nil => rfl
        | cons token after => cases token <;> rfl
    · simp only [Finding.within_of_lt (Nat.not_le.mp fits)]
  · simp only [enter_of_le (Nat.not_lt.mp room), bind, Except.bind]
    rw [Finding.within_of_lt (by omega)]

/-- What comes of an atom that starts with none of the tokens of one. -/
theorem read_of_not_startsAtom {limit budget level : Nat} {tokens : List Token}
    (missing : ∀ token ∈ tokens.head?, startsAtom token = false) :
    read limit (budget + 1) .atom level tokens = .error (.unexpected tokens .operand) := by
  cases tokens with
  | nil => rfl
  | cons token rest =>
    have missing := missing token rfl
    cases token with
    | word name =>
      have unbound : ¬(name = "a" ∨ name = "b") := by simpa [startsAtom] using missing
      rw [read_word, if_neg unbound]
    | number | opening => cases missing
    | _ => rfl

theorem read_of_unsigned {limit budget level : Nat} {tokens : List Token}
    (plain : tokens.head? ≠ some (.operator .sub)) :
    read limit (budget + 1) .unary level tokens = read limit budget .atom level tokens := by
  cases tokens with
  | nil => rfl
  | cons token rest =>
    cases token with
    | operator op =>
      cases op with
      | sub => exact absurd rfl plain
      | _ => rfl
    | _ => rfl

/-- What comes of a sign, from what comes of the tokens after it. -/
theorem read_sub {limit budget level need : Nat} {rest : List Token} {finding : Finding}
    (deeper : level < need)
    (inner : level < limit → read limit budget .unary (level + 1) rest =
      finding.within need limit) :
    read limit (budget + 1) .unary level (.operator .sub :: rest) =
      match finding with
      | .taken operand after =>
        (Finding.taken operand.neg after).within (max need operand.neg.height) limit
      | .stuck after expected => (Finding.stuck after expected).within need limit := by
  rw [read_sign]
  by_cases room : level < limit
  · simp only [enter_of_lt room, bind, Except.bind, inner room]
    by_cases fits : need ≤ limit
    · simp only [Finding.within_of_le fits]
      cases finding with
      | stuck after expected => rfl
      | taken operand after =>
        by_cases low : operand.neg.height ≤ limit
        · simp only [Finding.result, node, if_neg (Nat.not_lt.mpr low)]
          rw [Finding.within_of_le (by omega)]
          rfl
        · simp only [Finding.result, node, if_pos (Nat.not_le.mp low)]
          rw [Finding.within_of_lt (by omega)]
    · simp only [Finding.within_of_lt (Nat.not_le.mp fits)]
      cases finding with
      | stuck after expected => rfl
      | taken operand after => exact (Finding.within_of_lt (by omega)).symm
  · simp only [enter_of_le (Nat.not_lt.mp room), bind, Except.bind]
    cases finding with
    | stuck after expected => exact (Finding.within_of_lt (by omega)).symm
    | taken operand after => exact (Finding.within_of_lt (by omega)).symm

theorem read_binary {limit budget level floor first later : Nat} {left : Branch}
    {tokens rest : List Token} {finding : Finding}
    (start : read limit budget .unary level tokens = (Finding.taken left rest).within first limit)
    (loop : climb (fun floor => read limit budget (.binary floor)) limit floor level rest.length
      left rest = finding.within later limit) :
    read limit (budget + 1) (.binary floor) level tokens =
      finding.within (max first later) limit := by
  simp only [read, start, bind, Except.bind]
  by_cases fits : first ≤ limit
  · simp only [Finding.within_of_le fits, Finding.result, loop]
    by_cases enough : later ≤ limit
    · rw [Finding.within_of_le enough, Finding.within_of_le (by omega)]
    · rw [Finding.within_of_lt (by omega), Finding.within_of_lt (by omega)]
  · rw [Finding.within_of_lt (by omega), Finding.within_of_lt (by omega)]

/-- What comes of an operator and what follows, from what comes of its right operand. -/
theorem bind_rightOperand {operand : Nat → Nat → List Token → Result}
    {next : Branch → List Token → Result} {limit level first later : Nat} {op : Operator}
    {left right : Branch} {rest after : List Token} {finding : Finding}
    (deeper : operandLevel op level ≤ first)
    (read : operandLevel op level ≤ limit → operand (operandFloor op) (operandLevel op level) rest =
      (Finding.taken right after).within first limit)
    (loop : next (.binary op left right) after = finding.within later limit) :
    (do
      let (right, after) ← rightOperand operand limit level op rest
      let left ← node limit (.binary op left right)
      next left after) =
      finding.within (max (max first (Branch.binary op left right).height) later) limit := by
  by_cases fits : first ≤ limit
  · have found : rightOperand operand limit level op rest = .ok (right, after) := by
      rw [rightOperand, if_pos (show operandLevel op level ≤ limit by omega),
        read (by omega), Finding.within_of_le fits]
      rfl
    simp only [found, bind, Except.bind]
    by_cases low : (Branch.binary op left right).height ≤ limit
    · simp only [node, if_neg (Nat.not_lt.mpr low), loop]
      by_cases enough : later ≤ limit
      · rw [Finding.within_of_le enough, Finding.within_of_le (by omega)]
      · rw [Finding.within_of_lt (by omega), Finding.within_of_lt (by omega)]
    · simp only [node, if_pos (Nat.not_le.mp low)]
      rw [Finding.within_of_lt (by omega)]
  · have stopped : rightOperand operand limit level op rest = .error .tooComplex := by
      rw [rightOperand]
      split
      · rename_i room
        rw [read room, Finding.within_of_lt (by omega)]
      · rfl
    simp only [stopped, bind, Except.bind]
    rw [Finding.within_of_lt (by omega)]

/-- Under any limit, the parser finds what is found without one, or stops at the limit. -/
theorem Reading.gives {level need : Nat} {task : Task} {tokens : List Token} {finding : Finding}
    (reading : Reading level task tokens need finding) :
    ∀ limit budget, level ≤ limit → 3 * tokens.length + task.rank ≤ budget →
      task.Gives limit budget level tokens (finding.within need limit) := by
  -- A call within a task has the budget that the active calls leave it. The limit shows only where
  -- a level is entered or a tree is made, so each case is the law of one function under it.
  induction reading with
  | literal =>
    intro limit budget inside enough
    obtain ⟨budget, rfl⟩ := Task.exists_succ enough
    rw [Finding.within_of_le inside]
    rfl
  | var bound =>
    intro limit budget inside enough
    obtain ⟨budget, rfl⟩ := Task.exists_succ enough
    rw [Finding.within_of_le inside]
    rw [Task.Gives, read_word, if_pos bound]
    rfl
  | operandMissing missing =>
    intro limit budget inside enough
    obtain ⟨budget, rfl⟩ := Task.exists_succ enough
    rw [Finding.within_of_le inside]
    exact read_of_not_startsAtom missing
  | parentheses inner ih =>
    intro limit budget inside enough
    obtain ⟨budget, rfl⟩ := Task.exists_succ enough
    simp only [Task.rank, List.length_cons] at enough ih
    have found := fun room => ih limit budget room (by omega)
    exact read_opening inner.level_le found
  | closingMissing inner missing ih =>
    intro limit budget inside enough
    obtain ⟨budget, rfl⟩ := Task.exists_succ enough
    simp only [Task.rank, List.length_cons] at enough ih
    rw [← Finding.closed_of_ne missing]
    have found := fun room => ih limit budget room (by omega)
    exact read_opening inner.level_le found
  | parenthesesStuck inner ih =>
    intro limit budget inside enough
    obtain ⟨budget, rfl⟩ := Task.exists_succ enough
    simp only [Task.rank, List.length_cons] at enough ih
    have found := fun room => ih limit budget room (by omega)
    exact read_opening inner.level_le found
  | unsigned plain inner ih =>
    intro limit budget inside enough
    obtain ⟨budget, rfl⟩ := Task.exists_succ enough
    simp only [Task.rank] at enough ih
    have found := ih limit budget inside (by omega)
    exact (read_of_unsigned plain).trans found
  | negation inner ih =>
    intro limit budget inside enough
    obtain ⟨budget, rfl⟩ := Task.exists_succ enough
    simp only [Task.rank, List.length_cons] at enough ih
    have found := fun room => ih limit budget room (by omega)
    exact read_sub inner.level_le found
  | negationStuck inner ih =>
    intro limit budget inside enough
    obtain ⟨budget, rfl⟩ := Task.exists_succ enough
    simp only [Task.rank, List.length_cons] at enough ih
    have found := fun room => ih limit budget room (by omega)
    exact read_sub inner.level_le found
  | binary start loop startIh loopIh =>
    intro limit budget inside enough
    obtain ⟨budget, rfl⟩ := Task.exists_succ enough
    have shorter := start.length_lt
    simp only [Task.rank] at enough startIh loopIh
    have started := startIh limit budget inside (by omega)
    have looped := loopIh limit budget inside (by omega) _ (Nat.le_refl _)
    exact read_binary started looped
  | binaryStuck start ih =>
    intro limit budget inside enough
    obtain ⟨budget, rfl⟩ := Task.exists_succ enough
    simp only [Task.rank] at enough ih
    obtain ⟨stop, stopped⟩ := Finding.stuck_within _ _ _ limit
    have started := (ih limit budget inside (by omega)).trans stopped
    simp only [Task.Gives, stopped]
    simp only [read, started, bind, Except.bind]
  | done loose =>
    intro limit budget inside enough steps long
    rw [Finding.within_of_le inside]
    exact climb_of_loose loose
  | step tight operand loop operandIh loopIh =>
    intro limit budget inside enough steps long
    have shorter := operand.length_lt
    have deeper := operand.level_le
    simp only [Task.rank, List.length_cons] at enough long operandIh loopIh
    cases steps with
    | zero => omega
    | succ steps =>
      have found := fun room => operandIh limit budget room (by omega)
      have looped := loopIh limit budget inside (by omega) steps (by omega)
      rw [climb_operator tight inside]
      exact bind_rightOperand deeper found looped
  | @stepStuck level floor need op left rest after expected tight operand ih =>
    intro limit budget inside enough steps long
    have deeper := operand.level_le
    simp only [Task.rank, List.length_cons] at enough long ih
    cases steps with
    | zero => omega
    | succ steps =>
      rw [climb_operator tight inside, rightOperand]
      split
      · rename_i room
        obtain ⟨stop, stopped⟩ := Finding.stuck_within after expected need limit
        have read := (ih limit budget room (by omega)).trans stopped
        simp only [read, stopped, bind, Except.bind]
      · rw [Finding.within_of_lt (by omega)]
        rfl

/-! Whole texts -/

/-- What tokens come to where no limit is in the way. -/
def Finding.outcome : Finding → Except Stop Expr
  | .taken branch rest =>
    if rest.all Token.isBlank then .ok branch.expr else .error (.unexpected rest .continuation)
  | .stuck rest expected => .error (.unexpected rest expected)

theorem readAll_eq {tokens : List Token} {need : Nat} {finding : Finding}
    (reading : Reading 0 (.read (.binary 0)) tokens need finding) (limit : Nat) :
    readAll limit (sufficientBudget tokens) tokens =
      if need ≤ limit then finding.outcome else .error .tooComplex := by
  have found := reading.gives limit (sufficientBudget tokens) (Nat.zero_le _)
    (by simp only [sufficientBudget, Task.rank]; omega)
  rw [Task.Gives] at found
  rw [readAll, found]
  by_cases enough : need ≤ limit
  · rw [Finding.within_of_le enough, if_pos enough]
    cases finding <;> rfl
  · rw [Finding.within_of_lt (Nat.not_le.mp enough), if_neg enough]
    rfl

/-- What a text comes to where no limit is in the way. -/
def verdict (text : List Char) : Finding → Except Rejection Expr
  | .taken branch rest =>
    if rest.all Token.isBlank then .ok branch.expr
    else .error (reject 0 text (Token.lex text) (.unexpected rest .continuation))
  | .stuck rest expected => .error (reject 0 text (Token.lex text) (.unexpected rest expected))

/-- A text is read by the limit alone once it is read without one. -/
theorem parse_eq {text : List Char} {need : Nat} {finding : Finding}
    (reading : Reading 0 (.read (.binary 0)) ((Token.lex text).map Lexeme.token) need finding)
    (limit : Nat) :
    parse limit text =
      if need ≤ limit then verdict text finding else .error (.tooComplex limit) := by
  simp only [parse, readAll_eq reading]
  by_cases enough : need ≤ limit
  · rw [if_pos enough, if_pos enough]
    cases finding with
    | stuck rest expected => rfl
    | taken branch rest =>
      rw [Finding.outcome, verdict]
      split <;> rfl
  · rw [if_neg enough, if_neg enough]
    rfl

end Parser

end LineCalc
