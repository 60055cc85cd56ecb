import LineCalc.Proofs.Writing

set_option autoImplicit false

/- Which texts are accepted, and as what: the ones whose tokens derive an expression, as the tree
that the derivation makes. -/
namespace LineCalc

open LineCalc.Parser

/-- The text is an expression, written without white space at its ends. -/
def Denotes (text : List Char) (e : Expr) : Prop :=
  ∃ tokens, Spelled tokens text ∧ Derives .sum tokens e

/-- No reading of a text needs more than a level for each byte. -/
theorem need_le_byteLength {text : List Char} {need : Nat} {finding : Finding}
    (reading : Reading 0 (.read (.binary 0)) ((Token.lex text).map Lexeme.token) need finding) :
    need ≤ Text.byteLength text := by
  have bound := reading.extent_le.2
  have tokens := Token.length_lexFrom_le 0 (Text.trimStart text)
  have trimmed : (Text.trimStart text).length ≤ text.length :=
    (List.dropWhile_sublist Text.isBlank).length_le
  have bytes := Text.length_le_byteLength text
  simp only [Task.height, List.length_map, Token.lex] at bound
  omega

/-- An expression with white space around it is cut into its tokens, and white space. -/
theorem lex_of_spelled {text : List Char} {tokens : List Token} {e : Expr}
    (spelled : Spelled tokens (Text.trim text)) (d : Derivation .sum tokens e) :
    ∃ rest, rest.all Token.isBlank = true ∧
      (Token.lex text).map Lexeme.token = tokens ++ rest := by
  obtain ⟨tail, parts, blank⟩ := Text.exists_trimEnd_append (Text.trimStart text)
  have clear : (Standing.mk false 0).Clear tail := by
    cases tail with
    | nil => exact Standing.clear_nil _
    | cons c tail =>
      rw [List.all_cons, Bool.and_eq_true] at blank
      exact Standing.clear_of_isBlank _ blank.1
  have lexed := spelled.lexFrom_eq (d.after? 0) clear
  rw [Text.trim, ← parts] at lexed
  exact ⟨_, by rw [Token.all_isBlank_lexFrom, blank], lexed⟩

/-- It is read whole, and needs what its derivation asks for. -/
theorem reading_of_spelled {text : List Char} {tokens : List Token} {e : Expr}
    (spelled : Spelled tokens (Text.trim text)) (d : Derivation .sum tokens e) :
    ∃ rest, rest.all Token.isBlank = true ∧
      Reading 0 (.read (.binary 0)) ((Token.lex text).map Lexeme.token)
        (max d.nesting e.limitedHeight) (.taken (.ofExpr e) rest) := by
  obtain ⟨rest, leftover, lexed⟩ := lex_of_spelled spelled d
  have loose : Loose 0 rest := by
    intro op head
    obtain ⟨rest, rfl⟩ := List.head?_eq_some_iff.mp head
    cases leftover
  refine ⟨rest, leftover, ?_⟩
  have found := (found_of_derivation d).whole (by omega) (by omega) loose (d.level_le 0)
  rw [lexed]
  apply found.of_eq
  rw [Derivation.demand, Nat.zero_add]

/-- An expression is accepted under every limit that its derivation fits. -/
theorem parse_of_spelled {text : List Char} {tokens : List Token} {e : Expr} {limit : Nat}
    (spelled : Spelled tokens text) (d : Derivation .sum tokens e)
    (enough : max d.nesting e.limitedHeight ≤ limit) : parse limit text = .ok e := by
  rw [← spelled.trim_eq (d.after? 0)] at spelled
  obtain ⟨rest, blank, found⟩ := reading_of_spelled spelled d
  rw [parse_eq found, if_pos enough, verdict, if_pos blank]
  rfl

/-- So it is under a limit that allows a level for each byte. -/
theorem parse_of_derives {text : List Char} {tokens : List Token} {e : Expr} {limit : Nat}
    (spelled : Spelled tokens text) (derives : Derives .sum tokens e)
    (enough : Text.byteLength text ≤ limit) : parse limit text = .ok e := by
  obtain ⟨d⟩ := derives
  have trimmed := spelled.trim_eq (d.after? 0)
  obtain ⟨rest, blank, found⟩ := reading_of_spelled (trimmed.symm ▸ spelled) d
  have bound := need_le_byteLength found
  exact parse_of_spelled spelled d (by omega)

/-- What is read, with but white space after it, is a derivation of the text within its ends. -/
theorem denotes_of_reading {text : List Char} {need : Nat} {branch : Branch} {rest : List Token}
    (reading : Reading 0 (.read (.binary 0)) ((Token.lex text).map Lexeme.token) need
      (.taken branch rest))
    (blank : rest.all Token.isBlank = true) : Denotes (Text.trim text) branch.expr := by
  obtain ⟨taken, lexed, derives, _⟩ := reading.derived
  have nonempty : taken ≠ [] := by
    obtain ⟨d⟩ := derives
    exact d.tokens_ne_nil
  obtain ⟨gap, written, tail, gaps, parts, spelled, left⟩ :=
    Spelled.exists_of_lexFrom nonempty lexed
  have none : gap = [] := by
    cases gap with
    | nil => rfl
    | cons c gap =>
      have solid := Text.halts_dropWhile Text.isBlank text
      rw [← Text.trimStart, parts] at solid
      have blank := Token.isBlank_of_isGap (gaps c List.mem_cons_self)
      rw [solid c rfl] at blank
      cases blank
  have blankTail : tail.all Text.isBlank = true := by
    rw [← Token.all_isBlank_lexFrom, left, blank]
  refine ⟨taken, ?_, derives⟩
  rwa [Text.trim, parts, none, List.nil_append,
    Text.trimEnd_append blankTail (spelled.solid_end (derives.after? 0))]

theorem verdict_eq_ok {text : List Char} {finding : Finding} {e : Expr}
    (accepted : verdict text finding = .ok e) :
    ∃ branch rest, finding = .taken branch rest ∧ rest.all Token.isBlank = true ∧
      branch.expr = e := by
  cases finding with
  | stuck rest expected => cases accepted
  | taken branch rest =>
    rw [verdict] at accepted
    split at accepted
    · rename_i blank
      exact ⟨branch, rest, rfl, blank, Except.ok.inj accepted⟩
    · cases accepted

/-- With a limit that allows a level for each byte, a text is accepted as just the tree that it
denotes, and it denotes but one. -/
theorem parse_eq_ok_iff (text : List Char) (limit : Nat) (enough : Text.byteLength text ≤ limit) :
    (∀ e, parse limit text = .ok e ↔ Denotes (Text.trim text) e) ∧
      ∀ e other, Denotes (Text.trim text) e → Denotes (Text.trim text) other → e = other := by
  obtain ⟨need, finding, reading⟩ :=
    Reading.exists (.read (.binary 0)) 0 ((Token.lex text).map Lexeme.token)
  have bound := need_le_byteLength reading
  have same : ∀ e, parse limit text = .ok e ↔ Denotes (Text.trim text) e := by
    intro e
    constructor
    · intro accepted
      rw [parse_eq reading, if_pos (by omega)] at accepted
      obtain ⟨branch, rest, rfl, blank, rfl⟩ := verdict_eq_ok accepted
      exact denotes_of_reading reading blank
    · rintro ⟨tokens, spelled, ⟨d⟩⟩
      obtain ⟨rest, blank, found⟩ := reading_of_spelled spelled d
      have bound := need_le_byteLength found
      rw [parse_eq found, if_pos (by omega), verdict, if_pos blank]
      rfl
  refine ⟨same, fun e other first second => ?_⟩
  have found := (same e).mpr first
  rw [(same other).mpr second] at found
  exact (Except.ok.inj found).symm

theorem denotes_difference : Text.byteLength " a-b\n".toList ≤ 5 ∧
    Denotes (Text.trim " a-b\n".toList) (.binary .sub (.var "a") (.var "b")) :=
  ⟨by decide, ((parse_eq_ok_iff " a-b\n".toList 5 (by decide)).1 _).mp (by rfl)⟩

end LineCalc
