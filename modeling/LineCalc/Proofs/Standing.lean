import LineCalc.Proofs.Derivations

set_option autoImplicit false

/- What may come next in an expression. It depends on the tokens before it only through whether an
operand is due and how many parentheses are open. -/
namespace LineCalc

structure Standing where
  due : Bool
  opened : Nat
  deriving DecidableEq, Repr

namespace Standing

/-- Before an expression. -/
def start : Standing := ⟨true, 0⟩

/-- The standing after one more token, if an expression can go on with it. -/
def next? : Standing → Token → Option Standing
  | ⟨true, opened⟩, .number _ => some ⟨false, opened⟩
  | ⟨true, opened⟩, .word name => if name = "a" ∨ name = "b" then some ⟨false, opened⟩ else none
  | ⟨true, opened⟩, .opening => some ⟨true, opened + 1⟩
  | ⟨true, opened⟩, .operator .sub => some ⟨true, opened⟩
  | ⟨false, opened⟩, .operator _ => some ⟨true, opened⟩
  | ⟨false, opened + 1⟩, .closing => some ⟨false, opened⟩
  | _, _ => none

def after? (standing : Standing) : List Token → Option Standing
  | [] => some standing
  | token :: rest => (standing.next? token).bind (·.after? rest)

theorem after?_append (standing : Standing) (first second : List Token) :
    standing.after? (first ++ second) = (standing.after? first).bind (·.after? second) := by
  induction first generalizing standing with
  | nil => rfl
  | cons token rest ih =>
    simp only [List.cons_append, after?]
    cases standing.next? token with
    | none => rfl
    | some reached => exact ih reached

theorem after?_append_of_eq {standing middle : Standing} {first : List Token}
    (reached : standing.after? first = some middle) (second : List Token) :
    standing.after? (first ++ second) = middle.after? second := by
  rw [after?_append, reached]
  rfl

/-- What stands after all of some tokens stands after the first of them. -/
theorem exists_of_after?_append {standing last : Standing} {first second : List Token}
    (reached : standing.after? (first ++ second) = some last) :
    ∃ middle, standing.after? first = some middle ∧ middle.after? second = some last := by
  rw [after?_append] at reached
  exact Option.bind_eq_some_iff.mp reached

theorem after?_singleton (standing : Standing) (token : Token) :
    standing.after? [token] = standing.next? token := by
  rw [after?]
  cases standing.next? token <;> rfl

/-- Every open parenthesis can be closed after an operand. -/
theorem after?_closings (opened more : Nat) :
    (Standing.mk false (opened + more)).after? (List.replicate more .closing) =
      some ⟨false, opened⟩ := by
  induction more with
  | zero => rfl
  | succ more ih => exact ih

end Standing

open LineCalc.Standing

/-- A phrase takes an operand that is due, and leaves the parentheses around it alone. -/
theorem Derivation.after? {phrase : Phrase} {tokens : List Token} {e : Expr}
    (d : Derivation phrase tokens e) (opened : Nat) :
    (Standing.mk true opened).after? tokens = some ⟨false, opened⟩ := by
  induction d generalizing opened with
  | sum _ before after beforeIh afterIh | product _ before after beforeIh afterIh
  | power before after beforeIh afterIh =>
    rw [after?_append_of_eq (beforeIh opened)]
    exact afterIh opened
  | negation inner ih => exact ih opened
  | literal value => rfl
  | var bound => simp [Standing.after?, next?, bound]
  | parentheses inner ih =>
    rw [Standing.after?, next?, Option.bind_some, after?_append_of_eq (ih (opened + 1))]
    rfl
  | _ inner ih => exact ih opened

theorem Derives.after? {phrase : Phrase} {tokens : List Token} {e : Expr}
    (derives : Derives phrase tokens e) (opened : Nat) :
    (Standing.mk true opened).after? tokens = some ⟨false, opened⟩ := by
  obtain ⟨d⟩ := derives
  exact d.after? opened

/-- What was expected tells where the tokens taken so far stand. -/
def Expectation.Fits : Expectation → Standing → Prop
  | .operand, standing => standing.due = true
  | .closing, standing => standing.due = false ∧ 0 < standing.opened
  | .continuation, standing => standing = ⟨false, 0⟩
  | .token, _ => False

/-- Where an expression breaks off, more is known than that some token was tried for in vain. -/
theorem Expectation.Fits.ne_token {expected : Expectation} {standing : Standing}
    (fits : expected.Fits standing) : expected ≠ .token := by
  rintro rfl
  exact fits

/-- Nothing can go on with the tokens left. -/
structure Blocked (standing : Standing) (rest : List Token) (expected : Expectation) : Prop where
  stops : ∀ token ∈ rest.head?, standing.next? token = none
  fits : expected.Fits standing

namespace Parser

/-- Before a task an operand is due, or one has just been taken. -/
def Task.standing (opened : Nat) : Task → Standing
  | .read _ => ⟨true, opened⟩
  | .climb _ _ => ⟨false, opened⟩

/-- Atoms are read only where no sign comes first. -/
def Task.Called (tokens : List Token) : Task → Prop
  | .read .atom => tokens.head? ≠ some (.operator .sub)
  | _ => True

/-- Reading gets stuck amid an expression, before a token that cannot go on with it. -/
def Task.Blocks (tokens : List Token) (task : Task) : Finding → Prop
  | .taken _ _ => True
  | .stuck rest expected => task.Called tokens → ∀ opened, ∃ taken standing,
    tokens = taken ++ rest ∧ (task.standing opened).after? taken = some standing ∧
      standing ≠ ⟨false, 0⟩ ∧ Blocked standing rest expected

theorem next?_of_not_startsAtom {token : Token} (opened : Nat) (missing : startsAtom token = false)
    (plain : token ≠ .operator .sub) : (Standing.mk true opened).next? token = none := by
  cases token with
  | number | opening => cases missing
  | word name =>
    have unbound : ¬(name = "a" ∨ name = "b") := by simpa [startsAtom] using missing
    simp only [next?, if_neg unbound]
  | operator op =>
    cases op with
    | sub => exact absurd rfl plain
    | _ => rfl
  | _ => rfl

/-- After an operand only an operator or a parenthesis that closes can follow. -/
theorem next?_of_loose {rest : List Token} (loose : Loose 0 rest) {token : Token}
    (head : token ∈ rest.head?) {opened : Nat} (closed : token = .closing → opened = 0) :
    (Standing.mk false opened).next? token = none := by
  cases token with
  | operator op => exact absurd (loose op head) (Nat.not_lt_zero _)
  | closing =>
    rw [closed rfl]
    rfl
  | _ => rfl

theorem Reading.blocks {level need : Nat} {task : Task} {tokens : List Token} {finding : Finding}
    (reading : Reading level task tokens need finding) : task.Blocks tokens finding := by
  -- Tokens that were taken derive something, and stand as what they derive does. So the induction
  -- has to follow the stuck parts alone.
  induction reading with
  | @operandMissing level tokens missing =>
    intro called opened
    refine ⟨[], ⟨true, opened⟩, rfl, rfl, nofun, ?_, rfl⟩
    intro token head
    apply next?_of_not_startsAtom opened (missing token head)
    rintro rfl
    exact called head
  | @closingMissing level need branch rest after inner missing ih =>
    intro called opened
    obtain ⟨taken, rfl, derives, loose⟩ := inner.derived
    refine ⟨.opening :: taken, ⟨false, opened + 1⟩, rfl, derives.after? _, nofun, ?_, rfl,
      Nat.succ_pos _⟩
    intro token head
    apply next?_of_loose loose head
    rintro rfl
    exact absurd head missing
  | @parenthesesStuck level need rest after expected inner ih =>
    intro called opened
    obtain ⟨taken, standing, rfl, reached, blocked⟩ := ih trivial (opened + 1)
    exact ⟨.opening :: taken, standing, rfl, reached, blocked⟩
  | @unsigned level need tokens finding plain inner ih =>
    cases finding with
    | taken branch rest => trivial
    | stuck rest expected => exact fun _ opened => ih plain opened
  | @negationStuck level need rest after expected inner ih =>
    intro called opened
    obtain ⟨taken, standing, rfl, reached, blocked⟩ := ih trivial opened
    exact ⟨.operator .sub :: taken, standing, rfl, reached, blocked⟩
  | @binary level floor first later left tokens rest finding start loop startIh loopIh =>
    cases finding with
    | taken branch rest => trivial
    | stuck after expected =>
      intro called opened
      obtain ⟨front, rfl, derives, _⟩ := start.derived
      obtain ⟨taken, standing, rfl, reached, blocked⟩ := loopIh trivial opened
      refine ⟨front ++ taken, standing, by simp, ?_, blocked⟩
      exact (after?_append_of_eq (derives.after? opened) taken).trans reached
  | binaryStuck start ih => exact fun _ opened => ih trivial opened
  | @step level floor first later op left right rest after finding tight operand loop operandIh
      loopIh =>
    cases finding with
    | taken branch rest => trivial
    | stuck last expected =>
      intro called opened
      obtain ⟨second, rfl, derives, _⟩ := operand.derived
      obtain ⟨taken, standing, rfl, reached, blocked⟩ := loopIh trivial opened
      refine ⟨.operator op :: (second ++ taken), standing, by simp, ?_, blocked⟩
      exact (after?_append_of_eq (derives.after? opened) taken).trans reached
  | @stepStuck level floor need op left rest after expected tight operand ih =>
    intro called opened
    obtain ⟨taken, standing, rfl, reached, blocked⟩ := ih trivial opened
    exact ⟨.operator op :: taken, standing, rfl, reached, blocked⟩
  | _ => trivial

/-- Of all that may stop the reading of tokens, no call asks for more of them, the budget lasts, and
whoever tries for a token in vain either does without it or says what else was expected. -/
theorem readAll_eq_error {limit : Nat} {tokens : List Token} {stop : Stop}
    (stopped : readAll limit (sufficientBudget tokens) tokens = .error stop) :
    stop = .tooComplex ∨
      ∃ rest expected, stop = .unexpected rest expected ∧ expected ≠ .token := by
  obtain ⟨need, finding, reading⟩ := Reading.exists (.read (.binary 0)) 0 tokens
  rw [readAll_eq reading] at stopped
  split at stopped
  · cases finding with
    | stuck rest expected =>
      obtain ⟨_, standing, _, _, _, blocked⟩ := reading.blocks trivial 0
      cases stopped
      exact .inr ⟨rest, expected, rfl, blocked.fits.ne_token⟩
    | taken branch rest =>
      rw [Finding.outcome] at stopped
      split at stopped
      · cases stopped
      · cases stopped
        exact .inr ⟨rest, .continuation, rfl, by decide⟩
  · cases stopped
    exact .inl rfl

end Parser

open LineCalc.Parser

/-- The expressions are the tokens that end with no operand due and no parenthesis open. -/
theorem derives_iff_after? (tokens : List Token) :
    (∃ e, Derives .sum tokens e) ↔ start.after? tokens = some ⟨false, 0⟩ := by
  constructor
  · rintro ⟨e, derives⟩
    exact derives.after? 0
  · intro reached
    -- The parser finds the derivation: anywhere it could get stuck, the tokens could not go on.
    obtain ⟨need, finding, reading⟩ := Reading.exists (.read (.binary 0)) 0 tokens
    cases finding with
    | taken branch rest =>
      obtain ⟨taken, rfl, derives, loose⟩ := reading.derived
      rw [start, after?_append_of_eq (derives.after? 0)] at reached
      cases rest with
      | nil =>
        rw [List.append_nil]
        exact ⟨branch.expr, derives⟩
      | cons token rest =>
        rw [Standing.after?, next?_of_loose loose rfl fun _ => rfl] at reached
        cases reached
    | stuck rest expected =>
      obtain ⟨taken, standing, rfl, before, amid, blocked⟩ := reading.blocks trivial 0
      rw [Task.standing] at before
      rw [start, after?_append_of_eq before] at reached
      cases rest with
      | nil => exact absurd (Option.some.inj reached) amid
      | cons token rest =>
        rw [Standing.after?, blocked.stops token rfl] at reached
        cases reached

end LineCalc
