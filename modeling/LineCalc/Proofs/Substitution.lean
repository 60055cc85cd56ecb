import LineCalc.Proofs.Threshold
import LineCalc.Proofs.Whitelist

set_option autoImplicit false

/- Numbers that are written in place of a variable. The text stays an expression under the same
limit, and comes to what it comes to where the variable stands for the number. -/
namespace LineCalc

open LineCalc.Parser

/-! Texts -/

namespace Token

/-- The text with `spelling` in place of each token that is the word `name`. The first `skip`
characters belong to a token already read, and leave the text with it if it is `replaced`. -/
def substituteFrom (name : String) (spelling : List Char) : Nat → Bool → List Char → List Char
  | _, _, [] => []
  | skip + 1, replaced, c :: rest =>
    let after := substituteFrom name spelling skip replaced rest
    if replaced then after else c :: after
  | 0, _, c :: rest =>
    if isGap c then c :: substituteFrom name spelling 0 false rest
    else
      let (token, more) := munch c rest
      if token = .word name then spelling ++ substituteFrom name spelling more true rest
      else c :: substituteFrom name spelling more false rest

section

variable {name : String} {spelling : List Char}

theorem substituteFrom_eq_drop (skip : Nat) (replaced : Bool) (text : List Char) :
    substituteFrom name spelling skip replaced text =
      (if replaced then [] else text.take skip) ++
        substituteFrom name spelling 0 false (text.drop skip) := by
  induction text generalizing skip with
  | nil => simp [substituteFrom]
  | cons c rest ih =>
    cases skip with
    | zero => simp [substituteFrom]
    | succ skip =>
      rw [substituteFrom, ih skip]
      cases replaced <;> rfl

theorem substituteFrom_munch {c : Char} {rest : List Char} {token : Token} {more : Nat}
    (solid : isGap c = false) (cut : munch c rest = (token, more)) :
    substituteFrom name spelling 0 false (c :: rest) =
      (if token = .word name then spelling else c :: rest.take more) ++
        substituteFrom name spelling 0 false (rest.drop more) := by
  rw [substituteFrom, if_neg (Bool.not_eq_true _ ▸ solid)]
  simp only [cut, substituteFrom_eq_drop more]
  split <;> rfl

/-- A token that nothing makes longer is replaced or copied. -/
theorem substituteFrom_append {token : Token} {written rest : List Char}
    (spells : token.Spells written) (apart : Apart token rest) :
    substituteFrom name spelling 0 false (written ++ rest) =
      (if token = .word name then spelling else written) ++
        substituteFrom name spelling 0 false rest := by
  obtain ⟨c, more, rfl⟩ := List.exists_cons_of_ne_nil spells.ne_nil
  rw [List.cons_append, substituteFrom_munch spells.solid (munch_append spells apart),
    List.take_left, List.drop_left]

/-- White space that is no gap is a token of one character. -/
theorem take_munch_of_isBlank {c : Char} {rest : List Char} {token : Token} {more : Nat}
    (solid : isGap c = false) (blank : Text.isBlank c = true)
    (cut : munch c rest = (token, more)) : token = .other c ∧ rest.take more = [] := by
  have spells := munch_spells solid cut
  obtain ⟨rfl, _⟩ := spells.eq_other_of_isBlank List.mem_cons_self blank
  generalize whole : c :: rest.take more = written at spells
  cases spells
  exact ⟨rfl, (List.cons.inj whole).2⟩

/-- White space is copied. -/
theorem substituteFrom_blank {white : List Char} (blank : ∀ c ∈ white, Text.isBlank c = true)
    (rest : List Char) :
    substituteFrom name spelling 0 false (white ++ rest) =
      white ++ substituteFrom name spelling 0 false rest := by
  induction white with
  | nil => rfl
  | cons c white ih =>
    have later := ih fun d member => blank d (List.mem_cons_of_mem c member)
    rw [List.cons_append, List.cons_append, ← later]
    by_cases gap : isGap c = true
    · rw [substituteFrom, if_pos gap]
    · have solid : isGap c = false := Bool.not_eq_true _ ▸ gap
      rcases cut : munch c (white ++ rest) with ⟨token, more⟩
      obtain ⟨rfl, alone⟩ := take_munch_of_isBlank solid (blank c List.mem_cons_self) cut
      have parts := List.take_append_drop more (white ++ rest)
      rw [alone, List.nil_append] at parts
      rw [substituteFrom_munch solid cut, if_neg nofun, alone, parts]
      rfl

end

/-- The number in place of the word. -/
def substitute (name : String) (value : Binary64) (token : Token) : Token :=
  if token = .word name then .number value else token

theorem substitute_operator (name : String) (value : Binary64) (op : Operator) :
    (operator op).substitute name value = .operator op := if_neg nofun

theorem substitute_opening (name : String) (value : Binary64) :
    opening.substitute name value = .opening := if_neg nofun

theorem substitute_closing (name : String) (value : Binary64) :
    closing.substitute name value = .closing := if_neg nofun

end Token

/-- The tree with the number in place of the variable. -/
def Expr.substitute (name : String) (value : Binary64) : Expr → Expr
  | .literal other => .literal other
  | .var other => if other = name then .literal value else .var other
  | .neg operand => .neg (operand.substitute name value)
  | .binary op left right => .binary op (left.substitute name value) (right.substitute name value)

/-- The text with a spelling in place of each token that is a given word. -/
def Text.substitute (name : String) (spelling text : List Char) : List Char :=
  Token.substituteFrom name spelling 0 false text

section

variable {value : Binary64} {spelling : List Char}

/-- Tokens of an expression are spelled with the number in place of the word. -/
theorem Spelled.exists_substitute {tokens : List Token} {text rest : List Char}
    (spelled : Spelled tokens text) (name : String) (literal : (Token.number value).Spells spelling)
    {before after : Standing} (reached : before.after? tokens = some after)
    (clear : after.Clear rest) :
    ∃ written, Spelled (tokens.map (Token.substitute name value)) written ∧
      Token.substituteFrom name spelling 0 false (text ++ rest) =
        written ++ Token.substituteFrom name spelling 0 false rest := by
  have respell : ∀ {token : Token} {written : List Char}, token.Spells written →
      (token.substitute name value).Spells (if token = .word name then spelling else written) := by
    intro token written spells
    rw [Token.substitute]
    split
    · exact literal
    · exact spells
  induction spelled generalizing before with
  | single spells =>
    rw [Standing.after?_singleton] at reached
    exact ⟨_, .single (respell spells),
      Token.substituteFrom_append spells (Standing.apart_of_clear reached clear)⟩
  | @cons token tokens front gap text spells gaps later ih =>
    obtain ⟨middle, taken, reached⟩ := Option.bind_eq_some_iff.mp reached
    have blank : ∀ c ∈ gap, Text.isBlank c = true := fun c member =>
      Token.isBlank_of_isGap (gaps c member)
    have apart : token.Apart (gap ++ (text ++ rest)) := by
      apply Standing.apart_of_clear taken
      cases gap with
      | cons c gap => exact Standing.clear_of_isBlank middle (blank c List.mem_cons_self)
      | nil => exact later.clear reached rest
    obtain ⟨written, respelled, copied⟩ := ih reached
    refine ⟨_, .cons (respell spells) gaps respelled, ?_⟩
    rw [List.append_assoc, List.append_assoc, Token.substituteFrom_append spells apart,
      Token.substituteFrom_blank blank, copied]
    simp only [List.append_assoc]

/-- With white space around it, too, an expression is spelled with the number in place of the
word. -/
theorem Spelled.substitute {tokens : List Token} {text : List Char} {e : Expr}
    (spelled : Spelled tokens (Text.trim text)) (d : Derivation .sum tokens e) {name : String}
    (literal : (Token.number value).Spells spelling)
    (substituted : Derivation .sum (tokens.map (Token.substitute name value))
      (e.substitute name value)) :
    Spelled (tokens.map (Token.substitute name value))
      (Text.trim (Text.substitute name spelling text)) := by
  have lead := List.takeWhile_append_dropWhile (p := Text.isBlank) (l := text)
  obtain ⟨tail, parts, blank⟩ := Text.exists_trimEnd_append (Text.trimStart text)
  have inside := List.all_eq_true.mp blank
  have clear : (Standing.mk false 0).Clear tail := by
    cases tail with
    | nil => exact Standing.clear_nil _
    | cons c tail => exact Standing.clear_of_isBlank _ (inside c List.mem_cons_self)
  obtain ⟨written, respelled, copied⟩ :=
    spelled.exists_substitute name literal (d.after? 0) clear
  rw [Text.trim, ← parts] at copied
  have whole : Text.substitute name spelling text =
      text.takeWhile Text.isBlank ++ (written ++ tail) := by
    have ended : Token.substituteFrom name spelling 0 false (tail ++ []) = _ :=
      Token.substituteFrom_blank inside []
    rw [List.append_nil] at ended
    rw [Text.substitute]
    conv => lhs; rw [← lead]
    rw [Token.substituteFrom_blank Text.mem_takeWhile, ← Text.trimStart, copied, ended]
    simp [Token.substituteFrom]
  rwa [whole, respelled.trim_append (substituted.after? 0) Text.mem_takeWhile blank]

end

/-! Trees -/

namespace Derivation

variable {phrase : Phrase} {tokens : List Token} {e : Expr}

/-- The tokens make a phrase and a tree, each at a depth of its own. -/
def Exists (phrase : Phrase) (tokens : List Token) (e : Expr) (depths : List Nat) : Prop :=
  ∃ d : Derivation phrase tokens e, d.depths = depths

/-- A variable and a number take the same place in an expression. -/
theorem exists_substitute (name : String) (value : Binary64) (d : Derivation phrase tokens e) :
    Exists phrase (tokens.map (Token.substitute name value)) (e.substitute name value)
      d.depths := by
  induction d with
  | sum additive before after beforeIh afterIh =>
    obtain ⟨first, firstSame⟩ := beforeIh
    obtain ⟨second, secondSame⟩ := afterIh
    rw [List.map_append, List.map_cons, Token.substitute_operator, Expr.substitute]
    exact ⟨.sum additive first second, by rw [depths, depths, firstSame, secondSame]⟩
  | product multiplicative before after beforeIh afterIh =>
    obtain ⟨first, firstSame⟩ := beforeIh
    obtain ⟨second, secondSame⟩ := afterIh
    rw [List.map_append, List.map_cons, Token.substitute_operator, Expr.substitute]
    exact ⟨.product multiplicative first second, by rw [depths, depths, firstSame, secondSame]⟩
  | power before after beforeIh afterIh =>
    obtain ⟨first, firstSame⟩ := beforeIh
    obtain ⟨second, secondSame⟩ := afterIh
    rw [List.map_append, List.map_cons, Token.substitute_operator, Expr.substitute]
    exact ⟨.power first second, by rw [depths, depths, firstSame, secondSame]⟩
  | negation inner ih =>
    obtain ⟨signed, same⟩ := ih
    rw [List.map_cons, Token.substitute_operator, Expr.substitute]
    exact ⟨.negation signed, by rw [depths, depths, same]⟩
  | parentheses inner ih =>
    obtain ⟨enclosed, same⟩ := ih
    rw [List.map_cons, List.map_append, List.map_singleton, Token.substitute_opening,
      Token.substitute_closing]
    exact ⟨.parentheses enclosed, by rw [depths, depths, same]⟩
  | literal other => exact ⟨.literal other, rfl⟩
  | @var other bound =>
    rw [List.map_singleton, Token.substitute, Expr.substitute]
    by_cases same : other = name
    · rw [if_pos same, if_pos (congrArg Token.word same)]
      exact ⟨.literal value, rfl⟩
    · rw [if_neg same, if_neg (mt Token.word.inj same)]
      exact ⟨.var bound, rfl⟩
  | sumOfProduct inner ih =>
    obtain ⟨other, same⟩ := ih
    exact ⟨.sumOfProduct other, same⟩
  | productOfPower inner ih =>
    obtain ⟨other, same⟩ := ih
    exact ⟨.productOfPower other, same⟩
  | powerOfUnary inner ih =>
    obtain ⟨other, same⟩ := ih
    exact ⟨.powerOfUnary other, same⟩
  | unaryOfAtom inner ih =>
    obtain ⟨other, same⟩ := ih
    exact ⟨.unaryOfAtom other, same⟩

/-- The variables of a tree are words among its tokens. -/
theorem word_mem_of_mem_names (d : Derivation phrase tokens e) :
    ∀ name ∈ e.names, .word name ∈ tokens := by
  induction d with
  | sum _ before after beforeIh afterIh
  | product _ before after beforeIh afterIh
  | power before after beforeIh afterIh =>
    intro name member
    rcases List.mem_append.mp member with first | second
    · exact List.mem_append_left _ (beforeIh name first)
    · exact List.mem_append_right _ (List.mem_cons_of_mem _ (afterIh name second))
  | negation inner ih =>
    intro name member
    exact List.mem_cons_of_mem _ (ih name member)
  | parentheses inner ih =>
    intro name member
    exact List.mem_cons_of_mem _ (List.mem_append_left _ (ih name member))
  | literal value =>
    intro name member
    cases member
  | var bound =>
    intro name member
    cases List.mem_singleton.mp member
    exact List.mem_cons_self
  | _ inner ih => exact ih

end Derivation

namespace Expr

theorem height_substitute (name : String) (value : Binary64) (e : Expr) :
    (e.substitute name value).height = e.height := by
  induction e with
  | literal other => rfl
  | var other => rw [substitute]; split <;> rfl
  | neg operand ih => rw [substitute, height, height, ih]
  | binary op left right leftIh rightIh => rw [substitute, height, height, leftIh, rightIh]

theorem limitedHeight_substitute (name : String) (value : Binary64) (e : Expr) :
    (e.substitute name value).limitedHeight = e.limitedHeight := by
  cases e with
  | literal other => rfl
  | var other => rw [substitute]; split <;> rfl
  | neg operand => exact height_substitute name value (.neg operand)
  | binary op left right => exact height_substitute name value (.binary op left right)

end Expr

/-- An evaluation asks for the variables of the tree alone. -/
theorem evaluate_congr {first second : Bindings} {e : Expr}
    (agree : ∀ name ∈ e.names, first.get? name = second.get? name) :
    evaluate first e = evaluate second e := by
  induction e with
  | literal value => rfl
  | var name => rw [evaluate, evaluate, agree name (List.mem_singleton.mpr rfl)]
  | neg operand ih => rw [evaluate, evaluate, ih agree]
  | binary op left right leftIh rightIh =>
    rw [evaluate, evaluate, leftIh fun name member => agree name (List.mem_append_left _ member),
      rightIh fun name member => agree name (List.mem_append_right _ member)]

/-- A number in place of a variable counts as what the variable stands for. -/
theorem evaluate_substitute {first second : Bindings} {name : String} {value : Binary64}
    (bound : first.get? name = some value)
    (agree : ∀ other, other ≠ name → first.get? other = second.get? other) (e : Expr) :
    evaluate second (e.substitute name value) = evaluate first e := by
  induction e with
  | literal other => rfl
  | var other =>
    rw [Expr.substitute]
    split
    · rename_i same
      rw [evaluate, evaluate, same, bound]
    · rename_i different
      rw [evaluate, evaluate, agree other different]
  | neg operand ih => rw [Expr.substitute, evaluate, evaluate, ih]
  | binary op left right leftIh rightIh =>
    rw [Expr.substitute, evaluate, evaluate, leftIh, rightIh]

/-! Calculations -/

/-- An accepted text is accepted with a number written in place of a variable. -/
theorem parse_substitute {limit : Nat} {text spelling : List Char} {e : Expr} {value : Binary64}
    (accepted : parse limit text = .ok e) (name : String)
    (literal : (Token.number value).Spells spelling) :
    parse limit (Text.substitute name spelling text) = .ok (e.substitute name value) := by
  obtain ⟨tokens, d, spelled, enough⟩ := accepted_iff.mp accepted
  obtain ⟨other, same⟩ := d.exists_substitute name value
  have nesting : other.nesting = d.nesting := by rw [Derivation.nesting, same, Derivation.nesting]
  refine accepted_iff.mpr ⟨_, other, spelled.substitute d literal other, ?_⟩
  rwa [nesting, Expr.limitedHeight_substitute]

theorem Calculator.run_congr {calculator : Calculator} {first second : List Char}
    {e other : Expr} {bindings others : Bindings}
    (accepted : parse calculator.limit first = .ok e)
    (also : parse calculator.limit second = .ok other)
    (same : evaluate bindings e = evaluate others other) :
    calculator.run first bindings = calculator.run second others := by
  simp only [run, accepted, also, same]

/-- The words of an accepted text that is cut into tokens are the variables of its tree. -/
theorem word_mem_of_parse {limit : Nat} {text : List Char} {e : Expr}
    (accepted : parse limit text = .ok e) :
    ∀ name ∈ e.names, .word name ∈ (Token.lex text).map Lexeme.token := by
  obtain ⟨tokens, d, spelled, _⟩ := accepted_iff.mp accepted
  obtain ⟨rest, _, lexed⟩ := lex_of_spelled spelled d
  intro name member
  rw [lexed]
  exact List.mem_append_left rest (d.word_mem_of_mem_names name member)

theorem Bindings.get?_of_ne {a b other : Binary64} {name : String} :
    (name ≠ "a" → (Bindings.mk a b).get? name = (Bindings.mk other b).get? name) ∧
      (name ≠ "b" → (Bindings.mk a b).get? name = (Bindings.mk a other).get? name) := by
  constructor
  · intro different
    rw [get?, get?, if_neg different, if_neg different]
  · intro different
    rw [get?, get?, if_neg different, if_neg different]

/-- A variable that is no token of a text makes no difference to it. -/
theorem Calculator.run_eq_of_not_mem {calculator : Calculator} {text : List Char} {name : String}
    {first second : Bindings} (absent : .word name ∉ (Token.lex text).map Lexeme.token)
    (agree : ∀ other, other ≠ name → first.get? other = second.get? other) :
    calculator.run text first = calculator.run text second := by
  cases outcome : parse calculator.limit text with
  | error reason => simp only [run, outcome]
  | ok e =>
    apply run_congr outcome outcome
    apply evaluate_congr
    intro other member
    apply agree
    rintro rfl
    exact absent (word_mem_of_parse outcome other member)

/-- A literal in place of each token of a variable leaves an accepted text accepted under the same
limit, and calculating it gives, whatever the variable stands for, what calculating the text gives
where the variable stands for the value of the literal. Where a text has no token of a variable,
that variable makes no difference. -/
theorem run_substitute (limit : Nat) (text : List Char) :
    (∀ e, parse limit text = .ok e → ∀ n : Numeral, n.WellFormed → ∀ a b : Binary64,
      ((∃ other, parse limit (Text.substitute "a" n.spelling text) = .ok other) ∧
        (Calculator.mk limit).run text ⟨n.value, b⟩ =
          (Calculator.mk limit).run (Text.substitute "a" n.spelling text) ⟨a, b⟩) ∧
      (∃ other, parse limit (Text.substitute "b" n.spelling text) = .ok other) ∧
        (Calculator.mk limit).run text ⟨a, n.value⟩ =
          (Calculator.mk limit).run (Text.substitute "b" n.spelling text) ⟨a, b⟩) ∧
    (.word "a" ∉ (Token.lex text).map Lexeme.token → ∀ a other b : Binary64,
      (Calculator.mk limit).run text ⟨a, b⟩ = (Calculator.mk limit).run text ⟨other, b⟩) ∧
    (.word "b" ∉ (Token.lex text).map Lexeme.token → ∀ a b other : Binary64,
      (Calculator.mk limit).run text ⟨a, b⟩ = (Calculator.mk limit).run text ⟨a, other⟩) := by
  refine ⟨fun e accepted n valid a b => ⟨?_, ?_⟩, fun absent a other b => ?_,
    fun absent a b other => ?_⟩
  · have substituted := parse_substitute accepted "a" (.number valid)
    refine ⟨⟨_, substituted⟩, Calculator.run_congr accepted substituted ?_⟩
    exact (evaluate_substitute rfl (fun _ => Bindings.get?_of_ne.1) e).symm
  · have substituted := parse_substitute accepted "b" (.number valid)
    refine ⟨⟨_, substituted⟩, Calculator.run_congr accepted substituted ?_⟩
    exact (evaluate_substitute rfl (fun _ => Bindings.get?_of_ne.2) e).symm
  · exact Calculator.run_eq_of_not_mem absent fun _ => Bindings.get?_of_ne.1
  · exact Calculator.run_eq_of_not_mem absent fun _ => Bindings.get?_of_ne.2

/-- A literal that ends in its point, and a limit that leaves no room. -/
theorem run_substitute_product :
    parse 3 "\n-a*(b-a) ".toList = .ok (.binary .mul (.neg (.var "a"))
      (.binary .sub (.var "b") (.var "a"))) ∧
    parse 2 "\n-a*(b-a) ".toList = .error (.tooComplex 2) ∧
    Text.substitute "a" "2.".toList "\n-a*(b-a) ".toList = "\n-2.*(b-2.) ".toList ∧
    ∀ a b : Binary64, (Calculator.mk 3).run "\n-a*(b-a) ".toList ⟨.ofInt 2, b⟩ =
      (Calculator.mk 3).run "\n-2.*(b-2.) ".toList ⟨a, b⟩ := by
  let n : Numeral := ⟨['2'], true, [], none⟩
  have valid : n.WellFormed :=
    ⟨by simp [n], by simp [n], .inl (by simp [n]), fun _ => rfl, by simp [n]⟩
  have value : n.value = .ofInt 2 := by decide +kernel
  have accepted : parse 3 "\n-a*(b-a) ".toList = .ok (.binary .mul (.neg (.var "a"))
    (.binary .sub (.var "b") (.var "a"))) := rfl
  have substituted : Text.substitute "a" "2.".toList "\n-a*(b-a) ".toList =
    "\n-2.*(b-2.) ".toList := by rfl
  refine ⟨accepted, rfl, substituted, fun a b => ?_⟩
  rw [← value]
  exact ((run_substitute 3 _).1 _ accepted n valid a b).1.2

end LineCalc
