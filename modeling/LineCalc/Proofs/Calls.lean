import Mathlib.Data.Nat.Find
import LineCalc.Proofs.Position

set_option autoImplicit false

/- How many calls are active at once. Within a level each call reads a tighter phrase than the one
that makes it, and a limit leaves only so many levels; so a budget that depends on the limit alone
is never spent, whatever the text. -/
namespace LineCalc

namespace Parser

/-! Larger budgets -/

/-- The second outcome is the first one, unless the budget of that was spent. -/
def Extends {α : Type} (first second : Except Stop α) : Prop :=
  first = .error .exhausted ∨ second = first

theorem Extends.bind {α β : Type} {first second : Except Stop α} {next later : α → Except Stop β}
    (start : Extends first second) (rest : ∀ a, Extends (next a) (later a)) :
    Extends (first >>= next) (second >>= later) := by
  rcases start with rfl | rfl
  · exact .inl rfl
  · cases second with
    | error stop => exact .inr rfl
    | ok a => exact rest a

theorem extends_climb {operand other : Nat → Nat → List Token → Result}
    (reads : ∀ floor level tokens, Extends (operand floor level tokens) (other floor level tokens))
    (limit floor level steps : Nat) (left : Branch) (tokens : List Token) :
    Extends (climb operand limit floor level steps left tokens)
      (climb other limit floor level steps left tokens) := by
  induction steps generalizing left tokens with
  | zero => exact .inr rfl
  | succ steps ih =>
    unfold climb
    split
    · split
      · exact .inr rfl
      · split
        · refine .bind (.inr rfl) fun _ => .bind (reads _ _ _) fun _ => ?_
          exact .bind (.inr rfl) fun _ => ih _ _
        · refine .bind (reads _ _ _) fun _ => ?_
          exact .bind (.inr rfl) fun _ => ih _ _
    · exact .inr rfl
    · exact .inr rfl

theorem extends_read (limit budget : Nat) (goal : Goal) (level : Nat) (tokens : List Token) :
    Extends (read limit budget goal level tokens) (read limit (budget + 1) goal level tokens) := by
  induction budget generalizing goal level tokens with
  | zero => exact .inl rfl
  | succ budget ih =>
    cases goal with
    | binary floor =>
      exact .bind (ih _ _ _) fun _ => extends_climb (fun _ => ih _) _ _ _ _ _ _
    | unary =>
      by_cases signed : tokens.head? = some (.operator .sub)
      · obtain ⟨rest, rfl⟩ := List.head?_eq_some_iff.mp signed
        exact .bind (.inr rfl) fun _ => .bind (ih _ _ _) fun _ => .inr rfl
      · rw [read_of_unsigned signed, read_of_unsigned signed]
        exact ih _ _ _
    | atom =>
      by_cases opens : tokens.head? = some .opening
      · obtain ⟨rest, rfl⟩ := List.head?_eq_some_iff.mp opens
        exact .bind (.inr rfl) fun _ => .bind (ih _ _ _) fun _ => .inr rfl
      · -- Only an opening parenthesis makes a call from here.
        cases tokens with
        | nil => exact .inr rfl
        | cons token rest =>
          cases token with
          | opening => exact absurd rfl opens
          | _ => exact .inr rfl

/-- A budget that was not spent may be any larger. -/
theorem read_of_le {limit budget larger level : Nat} {goal : Goal} {tokens : List Token}
    (order : budget ≤ larger)
    (unspent : read limit budget goal level tokens ≠ .error .exhausted) :
    read limit larger goal level tokens = read limit budget goal level tokens := by
  induction order with
  | refl => rfl
  | @step larger order ih =>
    rcases extends_read limit larger goal level tokens with spent | same
    · rw [ih] at spent
      exact absurd spent unspent
    · rw [same, ih]

theorem readAll_eq_exhausted {limit budget : Nat} {tokens : List Token} :
    readAll limit budget tokens = .error .exhausted ↔
      read limit budget (.binary 0) 0 tokens = .error .exhausted := by
  rw [readAll]
  cases read limit budget (.binary 0) 0 tokens with
  | error stop => simp [bind, Except.bind]
  | ok found =>
    simp only [bind, Except.bind]
    split <;> simp

theorem readAll_of_le {limit budget larger : Nat} {tokens : List Token} (order : budget ≤ larger)
    (unspent : readAll limit budget tokens ≠ .error .exhausted) :
    readAll limit larger tokens = readAll limit budget tokens := by
  rw [readAll, readAll, read_of_le order (mt readAll_eq_exhausted.mpr unspent)]

/-! What a limit allows -/

/-- How many calls of a level are active at most from a goal on: one for each phrase that is at
least as tight. -/
def Goal.calls (goal : Goal) : Nat := 5 - goal.phrase.rank

theorem Goal.calls_binary (floor : Nat) : (Goal.binary floor).calls = 5 - min (floor - 1) 2 := by
  rw [calls, phrase, Phrase.rank_ofFloor]

/-- The calls from a goal at a level on, over all levels that are left. -/
def reserve (limit level : Nat) (goal : Goal) : Nat := 5 * (limit - level) + goal.calls

/-- A right operand is of a tighter phrase, or one level further inside. -/
theorem reserve_operand {limit level floor : Nat} {op : Operator} (tight : floor ≤ op.precedence)
    (room : operandLevel op level ≤ limit) :
    reserve limit (operandLevel op level) (.binary (operandFloor op)) <
      reserve limit level (.binary floor) := by
  rw [reserve, reserve, Goal.calls_binary, Goal.calls_binary]
  cases op <;>
    simp only [Operator.precedence, operandLevel, operandFloor, Operator.isRightAssociative,
      Bool.false_eq_true, ↓reduceIte] at tight room ⊢ <;>
    omega

theorem bind_ne_exhausted {α β : Type} {start : Except Stop α} {next : α → Except Stop β}
    (first : start ≠ .error .exhausted)
    (later : ∀ a, start = .ok a → next a ≠ .error .exhausted) :
    start >>= next ≠ .error .exhausted := by
  cases start with
  | error stop => exact fun spent => first (congrArg Except.error (Except.error.inj spent))
  | ok a => exact later a rfl

theorem enter_ne_exhausted (limit level : Nat) : enter limit level ≠ .error .exhausted := by
  unfold enter
  split <;> rintro ⟨⟩

theorem enter_eq_ok {limit level deeper : Nat} (entered : enter limit level = .ok deeper) :
    deeper = level + 1 ∧ level < limit := by
  unfold enter at entered
  split at entered
  · cases entered
  · rename_i room
    exact ⟨(Except.ok.inj entered).symm, Nat.not_le.mp room⟩

theorem node_ne_exhausted (limit : Nat) (branch : Branch) :
    node limit branch ≠ .error .exhausted := by
  unfold node
  split <;> rintro ⟨⟩

/-- A loop spends what its right operands spend. -/
theorem climb_ne_exhausted {operand : Nat → Nat → List Token → Result} {limit floor level : Nat}
    (inside : level ≤ limit)
    (reads : ∀ (op : Operator) (rest : List Token), floor ≤ op.precedence →
      operandLevel op level ≤ limit →
      operand (operandFloor op) (operandLevel op level) rest ≠ .error .exhausted)
    (steps : Nat) (left : Branch) (tokens : List Token) :
    climb operand limit floor level steps left tokens ≠ .error .exhausted := by
  induction steps generalizing left tokens with
  | zero => rintro ⟨⟩
  | succ steps ih =>
    by_cases loose : Loose floor tokens
    · rw [climb_of_loose loose]
      rintro ⟨⟩
    · simp only [Loose, Classical.not_forall, Nat.not_lt] at loose
      obtain ⟨op, head, tight⟩ := loose
      obtain ⟨rest, rfl⟩ := List.head?_eq_some_iff.mp head
      have right : rightOperand operand limit level op rest ≠ .error .exhausted := by
        rw [rightOperand]
        split
        · rename_i room
          exact reads op rest tight room
        · rintro ⟨⟩
      rw [climb_operator tight inside]
      apply bind_ne_exhausted right
      intro found _
      apply bind_ne_exhausted (node_ne_exhausted limit _)
      intro joined _
      exact ih joined found.2

/-- A budget for the calls that a limit leaves room for is not spent, whatever there is to read. -/
theorem read_ne_exhausted {limit budget level : Nat} {goal : Goal} {tokens : List Token}
    (inside : level ≤ limit) (enough : reserve limit level goal ≤ budget) :
    read limit budget goal level tokens ≠ .error .exhausted := by
  induction budget generalizing goal level tokens with
  | zero =>
    have positive : 0 < goal.calls := by
      have ranked : goal.phrase.rank ≤ 4 := goal.phrase.rank_le_atom
      rw [Goal.calls]
      omega
    rw [reserve] at enough
    omega
  | succ budget ih =>
    cases goal with
    | binary floor =>
      have first : reserve limit level .unary ≤ budget := by
        rw [reserve, Goal.calls_binary] at enough
        rw [reserve, Goal.calls, Goal.phrase, Phrase.rank]
        omega
      apply bind_ne_exhausted (ih inside first)
      intro found _
      apply climb_ne_exhausted inside
      intro op rest tight room
      have less := reserve_operand tight room
      exact ih room (by omega)
    | unary =>
      have calls : Goal.unary.calls = 2 := rfl
      by_cases signed : tokens.head? = some (.operator .sub)
      · obtain ⟨rest, rfl⟩ := List.head?_eq_some_iff.mp signed
        apply bind_ne_exhausted (enter_ne_exhausted limit level)
        intro deeper entered
        obtain ⟨rfl, room⟩ := enter_eq_ok entered
        apply bind_ne_exhausted (ih room (by rw [reserve] at enough ⊢; omega))
        intro found _
        apply bind_ne_exhausted (node_ne_exhausted limit _)
        intro negated _
        rintro ⟨⟩
      · have atom : Goal.atom.calls = 1 := rfl
        rw [read_of_unsigned signed]
        exact ih inside (by rw [reserve] at enough ⊢; omega)
    | atom =>
      have calls : Goal.atom.calls = 1 := rfl
      have whole : (Goal.binary 0).calls = 5 := rfl
      cases tokens with
      | nil => rintro ⟨⟩
      | cons token rest =>
        cases token with
        | opening =>
          apply bind_ne_exhausted (enter_ne_exhausted limit level)
          intro deeper entered
          obtain ⟨rfl, room⟩ := enter_eq_ok entered
          apply bind_ne_exhausted (ih room (by rw [reserve] at enough ⊢; omega))
          rintro ⟨inner, after⟩ _
          dsimp only
          split <;> rintro ⟨⟩
        | word name =>
          rw [read_word]
          split <;> rintro ⟨⟩
        | _ => rintro ⟨⟩

/-! Turns of a loop -/

/-- What was read under a budget is what is read without one. -/
theorem reading_of_read {limit budget level : Nat} {goal : Goal} {tokens rest : List Token}
    {branch : Branch} (inside : level ≤ limit)
    (found : read limit budget goal level tokens = .ok (branch, rest)) :
    ∃ need, Reading level (.read goal) tokens need (.taken branch rest) := by
  obtain ⟨need, finding, reading⟩ := Reading.exists (.read goal) level tokens
  have wide : 3 * tokens.length + (Task.read goal).rank ≤
      max budget (3 * tokens.length + (Task.read goal).rank) := Nat.le_max_right _ _
  have given := reading.gives limit _ inside wide
  rw [Task.Gives, read_of_le (Nat.le_max_left _ _) (by rw [found]; rintro ⟨⟩), found,
    Finding.within] at given
  split at given
  · cases finding with
    | taken other after =>
      cases given
      exact ⟨need, reading⟩
    | stuck after expected => cases given
  · cases given

/-- One turn of the loop over operators: it takes an operator with its right operand, if one comes
next that binds tight enough. -/
def turn (operand : Nat → Nat → List Token → Result) (limit floor level : Nat) (left : Branch) :
    List Token → Except Stop (Option (Branch × List Token))
  | .operator op :: rest =>
    if op.precedence < floor then .ok none
    else do
      let (right, after) ← rightOperand operand limit level op rest
      let joined ← node limit (.binary op left right)
      return some (joined, after)
  | _ => .ok none

section

variable {operand : Nat → Nat → List Token → Result} {limit floor level : Nat}

/-- A loop is its first turn, and the turns after it. -/
theorem climb_succ (inside : level ≤ limit) (steps : Nat) (left : Branch) (tokens : List Token) :
    climb operand limit floor level (steps + 1) left tokens = (do
      match ← turn operand limit floor level left tokens with
      | none => return (left, tokens)
      | some (joined, after) => climb operand limit floor level steps joined after) := by
  cases tokens with
  | nil => rfl
  | cons token rest =>
    cases token with
    | operator op =>
      by_cases loose : op.precedence < floor
      · have ends : Loose floor (.operator op :: rest) := by
          intro other head
          cases head
          exact loose
        rw [climb_of_loose ends, turn, if_pos loose]
        rfl
      · rw [climb_operator (Nat.not_lt.mp loose) inside, turn, if_neg loose]
        cases rightOperand operand limit level op rest with
        | error stop => rfl
        | ok found =>
          simp only [bind, Except.bind]
          cases node limit (.binary op left found.1) <;> rfl
    | _ => rfl

/-- A turn takes tokens, if right operands do. -/
theorem turn_eq_some {left joined : Branch} {tokens after : List Token}
    (turned : turn operand limit floor level left tokens = .ok (some (joined, after))) :
    ∃ op rest right, tokens = .operator op :: rest ∧ operandLevel op level ≤ limit ∧
      operand (operandFloor op) (operandLevel op level) rest = .ok (right, after) := by
  unfold turn at turned
  split at turned
  · rename_i op rest
    split at turned
    · cases turned
    · cases found : rightOperand operand limit level op rest with
      | error stop =>
        rw [found] at turned
        cases turned
      | ok result =>
        obtain ⟨right, following⟩ := result
        simp only [found, bind, Except.bind] at turned
        cases made : node limit (.binary op left right) with
        | error stop =>
          rw [made] at turned
          cases turned
        | ok other =>
          rw [made] at turned
          cases turned
          rw [rightOperand] at found
          split at found
          · rename_i room
            exact ⟨op, rest, right, rfl, room, found⟩
          · cases found
  · cases turned

/-- Once there are steps for all the tokens, more of them make no difference. -/
theorem climb_steps (inside : level ≤ limit)
    (shortens : ∀ left tokens joined after,
      turn operand limit floor level left tokens = .ok (some (joined, after)) →
        after.length < tokens.length)
    {steps other : Nat} {left : Branch} {tokens : List Token} (long : tokens.length ≤ steps)
    (also : tokens.length ≤ other) :
    climb operand limit floor level steps left tokens =
      climb operand limit floor level other left tokens := by
  have ended : Loose floor [] := by simp [Loose]
  induction steps generalizing other left tokens with
  | zero =>
    obtain rfl := List.eq_nil_of_length_eq_zero (Nat.le_zero.mp long)
    rw [climb_of_loose ended, climb_of_loose ended]
  | succ steps ih =>
    cases other with
    | zero =>
      obtain rfl := List.eq_nil_of_length_eq_zero (Nat.le_zero.mp also)
      rw [climb_of_loose ended, climb_of_loose ended]
    | succ other =>
      rw [climb_succ inside, climb_succ inside]
      cases turned : turn operand limit floor level left tokens with
      | error stop => rfl
      | ok found =>
        cases found with
        | none => rfl
        | some next =>
          have shorter := shortens _ _ _ _ turned
          exact ih (by omega) (by omega)

end

/-- A turn takes the operator, and the operand behind it. -/
theorem turn_read {limit budget floor level : Nat} {left joined : Branch}
    {tokens after : List Token}
    (turned : turn (fun floor => read limit budget (.binary floor)) limit floor level left tokens =
      .ok (some (joined, after))) : after <:+ tokens ∧ after.length < tokens.length := by
  obtain ⟨op, rest, right, rfl, room, found⟩ := turn_eq_some turned
  obtain ⟨need, reading⟩ := reading_of_read room found
  obtain ⟨taken, rfl, _⟩ := reading.derived
  constructor
  · exact (List.suffix_append taken after).trans (List.suffix_cons _ _)
  · simp only [List.length_cons, List.length_append]
    omega

/-- The loop of a call goes on turn by turn, and ends for no lack of steps. -/
theorem climb_by_turns {limit budget floor level steps : Nat} {left : Branch} {rest : List Token}
    (inside : level ≤ limit) (long : rest.length ≤ steps) :
    let operand := fun floor => read limit budget (.binary floor)
    climb operand limit floor level steps left rest = (do
      match ← turn operand limit floor level left rest with
      | none => return (left, rest)
      | some (joined, after) => climb operand limit floor level after.length joined after) := by
  intro operand
  have shortens : ∀ left tokens joined after,
      turn operand limit floor level left tokens = .ok (some (joined, after)) →
        after.length < tokens.length := fun _ _ _ _ turned => (turn_read turned).2
  rw [climb_steps inside shortens long (Nat.le_succ rest.length), climb_succ inside]
  cases turned : turn operand limit floor level left rest with
  | error stop => rfl
  | ok found =>
    cases found with
    | none => rfl
    | some next =>
      have shorter := shortens _ _ _ _ turned
      exact climb_steps inside shortens (by omega) (Nat.le_refl _)

end Parser

/-! Texts that are left -/

namespace Token

/-- Each lexeme leaves less of a text than the ones before it. -/
theorem Munched.descends {text : List Char} {lexemes : List Lexeme}
    (munched : Munched text lexemes) :
    lexemes.Pairwise fun lexeme later => later.start.length < lexeme.start.length := by
  induction munched with
  | nil => exact .nil
  | gap _ _ ih => exact ih
  | @token token spelling rest lexemes spells longest later ih =>
    refine .cons (fun other member => ?_) ih
    obtain ⟨front, parts⟩ := exists_append_start later other member
    have positive := List.length_pos_iff.mpr spells.ne_nil
    rw [parts, List.length_append, List.length_append]
    omega

theorem Munched.start_ne_nil {text : List Char} {lexemes : List Lexeme}
    (munched : Munched text lexemes) : ∀ lexeme ∈ lexemes, lexeme.start ≠ [] := by
  induction munched with
  | nil =>
    intro lexeme member
    cases member
  | gap _ _ ih => exact ih
  | token spells longest later ih =>
    intro lexeme member
    rcases List.mem_cons.mp member with rfl | member
    · exact fun empty => spells.ne_nil (List.append_eq_nil_iff.mp empty).1
    · exact ih lexeme member

end Token

namespace Parser

/-- Fewer tokens are less text. -/
theorem length_textFrom_lt {text : List Char} {rest after : List Token}
    (inside : rest <:+ (Token.lex text).map Lexeme.token) (left : after <:+ rest)
    (shorter : after.length < rest.length) :
    (textFrom (Token.lex text) after).length < (textFrom (Token.lex text) rest).length := by
  obtain ⟨before, split⟩ := inside
  obtain ⟨passed, lexemes, lexed, rfl, rfl⟩ := List.map_eq_append_iff.mp split.symm
  obtain ⟨taken, parts⟩ := left
  obtain ⟨front, later, rfl, rfl, rfl⟩ := List.map_eq_append_iff.mp parts.symm
  cases front with
  | nil => simp at shorter
  | cons lexeme front =>
    have munched := Token.munched_lexFrom (Text.trimStart text)
    rw [← Token.lex, lexed] at munched
    have leading := munched.start_ne_nil lexeme (by simp)
    have descends := (List.pairwise_append.mp munched.descends).2.1
    have whole : textFrom (Token.lex text) ((lexeme :: front ++ later).map Lexeme.token) =
        lexeme.start := textFrom_cons lexed
    have last : textFrom (Token.lex text) (later.map Lexeme.token) =
        (later.head?.map Lexeme.start).getD [] :=
      @textFrom_of_append text (passed ++ lexeme :: front) later (by simpa using lexed)
    rw [whole, last]
    cases later with
    | nil => exact List.length_pos_iff.mpr leading
    | cons next later =>
      exact (List.pairwise_append.mp descends).2.2 lexeme (by simp) next (by simp)

/-! Whole texts -/

theorem readAll_ne_exhausted {limit budget : Nat} (enough : 5 * (limit + 1) ≤ budget)
    (tokens : List Token) : readAll limit budget tokens ≠ .error .exhausted := by
  have room : reserve limit 0 (.binary 0) ≤ budget := by
    rw [reserve, Goal.calls_binary]
    omega
  exact mt readAll_eq_exhausted.mp (read_ne_exhausted (Nat.zero_le limit) room)

/-- The budget that goes by the number of tokens is not spent, either. -/
theorem sufficientBudget_ne_exhausted (limit : Nat) (tokens : List Token) :
    readAll limit (sufficientBudget tokens) tokens ≠ .error .exhausted := by
  intro spent
  rcases readAll_eq_error spent with other | ⟨rest, expected, other, _⟩ <;> cases other

/-- A limit alone bounds how many calls are active at once while a text is read: five for each
level, the outermost one included. A budget of fewer calls than become active is spent, and any
other one makes no difference to what comes of the text. Each loop over operators goes on turn by
turn until a turn takes none, and a turn leaves less of the text than there was before it. -/
theorem active_calls_le (limit : Nat) (text : List Char) :
    let tokens := (Token.lex text).map Lexeme.token
    (∃ active outcome, active ≤ 5 * (limit + 1) ∧ outcome ≠ .error .exhausted ∧
      (∀ budget < active, readAll limit budget tokens = .error .exhausted) ∧
      (∀ budget, active ≤ budget → readAll limit budget tokens = outcome) ∧
      parse limit text = outcome.mapError (reject limit text (Token.lex text))) ∧
    ∀ budget floor level left rest, level ≤ limit → rest <:+ tokens →
      let operand := fun floor => read limit budget (.binary floor)
      (∀ steps, rest.length ≤ steps → climb operand limit floor level steps left rest = (do
        match ← turn operand limit floor level left rest with
        | none => return (left, rest)
        | some (joined, after) => climb operand limit floor level after.length joined after)) ∧
      ∀ joined after, turn operand limit floor level left rest = .ok (some (joined, after)) →
        after <:+ rest ∧
          (textFrom (Token.lex text) after).length < (textFrom (Token.lex text) rest).length := by
  classical
  intro tokens
  refine ⟨?_, fun budget floor level left rest inside remaining => ?_⟩
  · have sufficient : ∃ budget, readAll limit budget tokens ≠ .error .exhausted :=
      ⟨_, readAll_ne_exhausted (Nat.le_refl _) tokens⟩
    let active := Nat.find sufficient
    have wide : active ≤ 5 * (limit + 1) :=
      Nat.find_min' sufficient (readAll_ne_exhausted (Nat.le_refl _) tokens)
    have unspent : readAll limit active tokens ≠ .error .exhausted := Nat.find_spec sufficient
    refine ⟨active, readAll limit active tokens, wide, unspent, fun budget short => ?_,
      fun budget enough => readAll_of_le enough unspent, ?_⟩
    · exact Classical.not_not.mp (Nat.find_min sufficient short)
    · have own := Nat.find_min' sufficient (sufficientBudget_ne_exhausted limit tokens)
      rw [← readAll_of_le own unspent]
      rfl
  · exact ⟨fun steps long => climb_by_turns inside long, fun joined after turned =>
      ⟨(turn_read turned).1,
        length_textFrom_lt remaining (turn_read turned).1 (turn_read turned).2⟩⟩

/-- A sum whose right operand is a product, and so on in the parenthesis that the product ends
with. -/
def nested : Nat → List Char
  | 0 => ['a', '+', 'a', '*', 'a']
  | count + 1 => 'a' :: '+' :: 'a' :: '*' :: '(' :: nested count

def nestedTokens : Nat → List Token
  | 0 => [.word "a", .operator .add, .word "a", .operator .mul, .word "a"]
  | count + 1 =>
    .word "a" :: .operator .add :: .word "a" :: .operator .mul :: .opening :: nestedTokens count

theorem map_lexFrom_nested (count : Nat) :
    (Token.lexFrom 0 (nested count)).map Lexeme.token = nestedTokens count := by
  induction count with
  | zero => rfl
  | succ count ih =>
    rw [nestedTokens, ← ih]
    rfl

theorem map_lex_nested (count : Nat) :
    (Token.lex (nested count)).map Lexeme.token = nestedTokens count := by
  have solid : Text.trimStart (nested count) = nested count := by cases count <;> rfl
  rw [Token.lex, solid, map_lexFrom_nested]

/-- A right operand that spends the budget is read while its operator's call is active. -/
theorem read_right_spent {limit budget level floor : Nat} {op : Operator} {rest : List Token}
    (tight : floor ≤ op.precedence) (fromLeft : op.isRightAssociative = false)
    (spent : read limit (budget + 2) (.binary (op.precedence + 1)) level rest =
      .error .exhausted) :
    read limit (budget + 3) (.binary floor) level (.word "a" :: .operator op :: rest) =
      .error .exhausted := by
  have first : read limit (budget + 2) .unary level (.word "a" :: .operator op :: rest) =
      .ok (.leaf (.var "a") rfl, .operator op :: rest) := rfl
  rw [read, first]
  simp only [bind, Except.bind, List.length_cons, climb, accept_operator,
    if_neg (Nat.not_lt.mpr tight), fromLeft, Bool.false_eq_true, ↓reduceIte, spent]

theorem read_nested {limit level count : Nat} (inside : level + count ≤ limit) :
    read limit (5 * count + 4) (.binary 0) level (nestedTokens count) = .error .exhausted := by
  induction count generalizing level with
  | zero => rfl
  | succ count ih =>
    have deeper := @ih (level + 1) (by omega)
    have entered := enter_of_lt (show level < limit by omega)
    have budget : 5 * (count + 1) + 4 = 5 * count + 4 + 2 + 3 := by omega
    rw [nestedTokens, budget]
    generalize 5 * count + 4 = left at deeper
    apply read_right_spent (Nat.zero_le _) rfl
    apply read_right_spent (Nat.le_refl _) rfl
    have plain : (Token.opening :: nestedTokens count).head? ≠ some (.operator .sub) := nofun
    rw [read, read_of_unsigned plain, read_parenthesis]
    simp only [bind, Except.bind, entered, deeper]

/-- Under every limit, there is a text with as many calls active at once as there can be. -/
theorem exists_active_calls (limit : Nat) : ∃ text : List Char,
    readAll limit (5 * limit + 4) ((Token.lex text).map Lexeme.token) = .error .exhausted := by
  refine ⟨nested limit, ?_⟩
  rw [map_lex_nested, readAll_eq_exhausted]
  exact read_nested (Nat.le_of_eq (Nat.zero_add limit))

end Parser

end LineCalc
