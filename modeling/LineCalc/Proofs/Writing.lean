import LineCalc.Proofs.Lexis
import LineCalc.Proofs.Standing
import LineCalc.Proofs.Utf8

set_option autoImplicit false

/- Tokens written one after the other. Wherever they stand in an expression, lexing gives back the
tokens that were written, although two of them may touch. -/
namespace LineCalc

/-- Tokens and a spelling of each in turn, with any run of gaps between them. -/
inductive Spelled : List Token → List Char → Prop where
  | single {token : Token} {spelling : List Char} (spells : token.Spells spelling) :
      Spelled [token] spelling
  | cons {token : Token} {tokens : List Token} {spelling gap text : List Char}
      (spells : token.Spells spelling) (gaps : ∀ c ∈ gap, Token.isGap c = true)
      (later : Spelled tokens text) : Spelled (token :: tokens) (spelling ++ gap ++ text)

namespace Standing

/-- What follows does not make the last token before it longer. -/
def Clear : Standing → List Char → Prop
  | ⟨true, _⟩, rest => ∀ c ∈ rest.head?, c ≠ '*' ∧ c ≠ '/'
  | ⟨false, _⟩, rest => ∀ c ∈ rest.head?, Token.isWordPart c = false ∧ c ≠ '.'

theorem clear_nil (standing : Standing) : standing.Clear [] := by
  obtain ⟨due, opened⟩ := standing
  cases due <;> simp [Clear]

theorem clear_of_isBlank {c : Char} {rest : List Char} (standing : Standing)
    (blank : Text.isBlank c = true) : standing.Clear (c :: rest) := by
  obtain ⟨outside, _, mark⟩ := Token.isBlank_outside blank
  simp only [List.mem_cons, List.not_mem_nil, or_false, not_or] at mark
  obtain ⟨due, opened⟩ := standing
  cases due <;> simp [Clear, outside, mark]

/-- A token that comes next does not touch the one before it. -/
theorem clear_of_spells {standing reached : Standing} {token : Token} {spelling : List Char}
    (spells : token.Spells spelling) (taken : standing.next? token = some reached)
    (rest : List Char) : standing.Clear (spelling ++ rest) := by
  obtain ⟨c, more, rfl⟩ := List.exists_cons_of_ne_nil spells.ne_nil
  have inside : c ∈ c :: more := List.mem_cons_self
  obtain ⟨due, opened⟩ := standing
  cases due with
  | true =>
    intro d head
    obtain rfl : c = d := by simpa using head
    generalize c :: more = spelling at spells inside
    cases spells with
    | number valid =>
      have plain := valid.mem_spelling c inside
      constructor <;> rintro rfl <;> exact absurd plain (by decide)
    | word start parts =>
      have part := Token.isWordPart_of_mem_word start parts inside
      constructor <;> rintro rfl <;> exact absurd part (by decide)
    | operator op =>
      cases op with
      | sub =>
        obtain rfl := List.mem_singleton.mp inside
        decide
      | _ => cases taken
    | power => cases taken
    | opening =>
      obtain rfl := List.mem_singleton.mp inside
      decide
    | closing => cases taken
    | other alone => cases taken
  | false =>
    intro d head
    obtain rfl : c = d := by simpa using head
    generalize c :: more = spelling at spells inside
    cases spells with
    | operator op =>
      obtain ⟨outside, _, point⟩ := Token.mark_outside (Token.mark_of_mem_symbol inside)
      exact ⟨outside, point⟩
    | power =>
      obtain rfl : c = '*' := by simpa using inside
      decide
    | closing =>
      obtain rfl := List.mem_singleton.mp inside
      decide
    | _ => cases taken

/-- White space is no part of a token that an expression can take. -/
theorem solid_of_spells {standing reached : Standing} {token : Token} {spelling : List Char}
    (spells : token.Spells spelling) (taken : standing.next? token = some reached) :
    ∀ c ∈ spelling, Text.isBlank c = false := by
  intro c inside
  rw [← Bool.not_eq_true]
  intro blank
  obtain ⟨rfl, _⟩ := spells.eq_other_of_isBlank inside blank
  obtain ⟨due, opened⟩ := standing
  cases due <;> cases taken

/-- A token that was taken is not made longer by what is clear of it. -/
theorem apart_of_clear {standing reached : Standing} {token : Token} {rest : List Char}
    (taken : standing.next? token = some reached) (clear : reached.Clear rest) :
    token.Apart rest := by
  obtain ⟨due, opened⟩ := standing
  cases token with
  | number value =>
    cases due with
    | true =>
      cases taken
      exact clear
    | false => cases taken
  | word name =>
    cases due with
    | true =>
      simp only [next?] at taken
      split at taken
      · cases taken
        exact clear
      · cases taken
    | false => cases taken
  | operator op =>
    have due : reached.due = true := by
      cases due <;> cases op <;> cases taken <;> rfl
    obtain ⟨_, _⟩ := reached
    subst due
    cases op with
    | mul =>
      intro head
      exact (clear '*' head).1 rfl
    | div =>
      intro head
      exact (clear '/' head).2 rfl
    | _ => trivial
  | opening => trivial
  | closing => trivial
  | other c => cases due <;> cases taken

end Standing

namespace Spelled

/-- Tokens may touch. -/
theorem touching {token : Token} {tokens : List Token} {spelling text : List Char}
    (spells : token.Spells spelling) (later : Spelled tokens text) :
    Spelled (token :: tokens) (spelling ++ text) := by
  have nothing : ∀ c ∈ ([] : List Char), Token.isGap c = true := by simp
  have spelled := Spelled.cons spells nothing later
  rwa [List.append_nil] at spelled

theorem lexFrom_gaps {gap rest : List Char} (gaps : ∀ c ∈ gap, Token.isGap c = true) :
    Token.lexFrom 0 (gap ++ rest) = Token.lexFrom 0 rest := by
  induction gap with
  | nil => rfl
  | cons c gap ih =>
    rw [List.cons_append, Token.lexFrom_gap (gaps c List.mem_cons_self)]
    exact ih fun d member => gaps d (List.mem_cons_of_mem c member)

/-- What is written does not touch what stands before it. -/
theorem clear {tokens : List Token} {text : List Char} (spelled : Spelled tokens text)
    {before after : Standing} (reached : before.after? tokens = some after) (rest : List Char) :
    before.Clear (text ++ rest) := by
  cases spelled with
  | single spells =>
    rw [Standing.after?_singleton] at reached
    exact Standing.clear_of_spells spells reached rest
  | cons spells gaps later =>
    obtain ⟨middle, taken, _⟩ := Option.bind_eq_some_iff.mp reached
    rw [List.append_assoc, List.append_assoc]
    exact Standing.clear_of_spells spells taken _

/-- Tokens that an expression can take one after the other are lexed as they were written. -/
theorem exists_lexemes {tokens : List Token} {text : List Char} (spelled : Spelled tokens text)
    {before after : Standing} {rest : List Char} (reached : before.after? tokens = some after)
    (clear : after.Clear rest) :
    ∃ lexemes, Token.lexFrom 0 (text ++ rest) = lexemes ++ Token.lexFrom 0 rest ∧
      lexemes.map Lexeme.token = tokens := by
  induction spelled generalizing before with
  | @single token spelling spells =>
    rw [Standing.after?_singleton] at reached
    rw [Token.lexFrom_append spells (Standing.apart_of_clear reached clear)]
    exact ⟨[⟨token, spelling ++ rest⟩], rfl, rfl⟩
  | @cons token tokens spelling gap text spells gaps later ih =>
    obtain ⟨middle, taken, reached⟩ := Option.bind_eq_some_iff.mp reached
    -- Behind the token comes a gap or the next one, which is clear of it where both can stand.
    have apart : token.Apart (gap ++ (text ++ rest)) := by
      apply Standing.apart_of_clear taken
      cases gap with
      | cons c gap =>
        exact Standing.clear_of_isBlank middle
          (Token.isBlank_of_isGap (gaps c List.mem_cons_self))
      | nil => exact later.clear reached rest
    obtain ⟨lexemes, lexed, rfl⟩ := ih reached
    rw [List.append_assoc, List.append_assoc, Token.lexFrom_append spells apart,
      lexFrom_gaps gaps, lexed]
    exact ⟨⟨token, spelling ++ (gap ++ (text ++ rest))⟩ :: lexemes, rfl, rfl⟩

theorem lexFrom_eq {tokens : List Token} {text : List Char} (spelled : Spelled tokens text)
    {before after : Standing} {rest : List Char} (reached : before.after? tokens = some after)
    (clear : after.Clear rest) :
    (Token.lexFrom 0 (text ++ rest)).map Lexeme.token =
      tokens ++ (Token.lexFrom 0 rest).map Lexeme.token := by
  obtain ⟨lexemes, lexed, rfl⟩ := spelled.exists_lexemes reached clear
  rw [lexed, List.map_append]

/-- What is lexed as some tokens and others begins with a spelling of the first ones. -/
theorem exists_of_lexFrom {tokens rest : List Token} {text : List Char} (nonempty : tokens ≠ [])
    (lexed : (Token.lexFrom 0 text).map Lexeme.token = tokens ++ rest) :
    ∃ gap written tail, (∀ c ∈ gap, Token.isGap c = true) ∧ text = gap ++ (written ++ tail) ∧
      Spelled tokens written ∧ (Token.lexFrom 0 tail).map Lexeme.token = rest := by
  induction tokens generalizing text with
  | nil => exact absurd rfl nonempty
  | cons token tokens ih =>
    have parts := List.takeWhile_append_dropWhile (p := Token.isGap) (l := text)
    have gaps : ∀ c ∈ text.takeWhile Token.isGap, Token.isGap c = true := Text.mem_takeWhile
    have halts := Text.halts_dropWhile Token.isGap text
    generalize text.takeWhile Token.isGap = gap at parts gaps
    generalize text.dropWhile Token.isGap = after at parts halts
    subst parts
    rw [lexFrom_gaps gaps] at lexed
    cases after with
    | nil => cases lexed
    | cons c after =>
      obtain ⟨first, spelling, last, spells, split, cut, _⟩ :=
        Token.lexFrom_cons after (halts c rfl)
      rw [cut, List.map_cons, List.cons_append, List.cons.injEq] at lexed
      obtain ⟨rfl, lexed⟩ := lexed
      rw [split]
      cases tokens with
      | nil => exact ⟨gap, spelling, last, gaps, rfl, .single spells, lexed⟩
      | cons next tokens =>
        obtain ⟨between, written, tail, inside, rfl, spelled, lexed⟩ := ih (by simp) lexed
        exact ⟨gap, spelling ++ between ++ written, tail, gaps, by simp,
          .cons spells inside spelled, lexed⟩

theorem ne_nil {tokens : List Token} {text : List Char} (spelled : Spelled tokens text) :
    text ≠ [] := by
  induction spelled with
  | single spells => exact spells.ne_nil
  | cons _ _ _ ih => simp [ih]

/-- The tokens of an expression start with a character that is not blank. -/
theorem solid_start {tokens : List Token} {text : List Char} (spelled : Spelled tokens text)
    {before after : Standing} (reached : before.after? tokens = some after) :
    Text.Halts Text.isBlank text := by
  intro c head
  cases spelled with
  | single spells =>
    rw [Standing.after?_singleton] at reached
    exact Standing.solid_of_spells spells reached c (List.mem_of_mem_head? head)
  | cons spells gaps later =>
    obtain ⟨middle, taken, _⟩ := Option.bind_eq_some_iff.mp reached
    apply Standing.solid_of_spells spells taken c
    obtain ⟨first, more, rfl⟩ := List.exists_cons_of_ne_nil spells.ne_nil
    exact List.mem_of_mem_head? head

/-- The tokens of an expression end in a character that is not blank. -/
theorem solid_end {tokens : List Token} {text : List Char} (spelled : Spelled tokens text)
    {before after : Standing} (reached : before.after? tokens = some after) :
    Text.Halts Text.isBlank text.reverse := by
  induction spelled generalizing before with
  | single spells =>
    intro c head
    rw [Standing.after?_singleton] at reached
    exact Standing.solid_of_spells spells reached c
      (List.mem_reverse.mp (List.mem_of_mem_head? head))
  | cons spells gaps later ih =>
    obtain ⟨middle, _, reached⟩ := Option.bind_eq_some_iff.mp reached
    intro c head
    apply ih reached c
    obtain ⟨last, more, backwards⟩ :=
      List.exists_cons_of_ne_nil (mt List.reverse_eq_nil_iff.mp later.ne_nil)
    rw [List.reverse_append, backwards] at head
    rw [backwards]
    exact head

end Spelled

namespace Token

/-- White space alone is left over just where there are but blank characters. -/
theorem all_isBlank_lexFrom (text : List Char) :
    ((lexFrom 0 text).map Lexeme.token).all isBlank = text.all Text.isBlank := by
  induction text with
  | nil => rfl
  | cons c rest ih =>
    by_cases gap : isGap c = true
    · rw [lexFrom_gap gap, List.all_cons, isBlank_of_isGap gap, Bool.true_and, ih]
    · obtain ⟨token, spelling, after, spells, split, cut, _⟩ :=
        lexFrom_cons rest (Bool.not_eq_true _ ▸ gap)
      rw [cut, List.map_cons, List.all_cons, List.all_cons]
      by_cases alone : ∃ d, token = .other d
      · obtain ⟨d, rfl⟩ := alone
        cases spells
        obtain ⟨rfl, rfl⟩ := List.cons.inj split
        exact congrArg (Text.isBlank c && ·) ih
      · have inside : c ∈ spelling := by
          obtain ⟨first, more, rfl⟩ := List.exists_cons_of_ne_nil spells.ne_nil
          cases split
          exact List.mem_cons_self
        have solid : Text.isBlank c = false := by
          rw [← Bool.not_eq_true]
          intro blank
          exact alone ⟨c, (spells.eq_other_of_isBlank inside blank).1⟩
        have meaning : token.isBlank = false := by
          cases token with
          | other d => exact absurd ⟨d, rfl⟩ alone
          | _ => rfl
        rw [solid, meaning, Bool.false_and, Bool.false_and]

theorem length_lexFrom_le (skip : Nat) (text : List Char) :
    (lexFrom skip text).length ≤ text.length := by
  induction text generalizing skip with
  | nil => simp [lexFrom]
  | cons c rest ih =>
    cases skip with
    | succ skip => exact Nat.le_succ_of_le (ih skip)
    | zero =>
      rw [lexFrom]
      split
      · exact Nat.le_succ_of_le (ih 0)
      · exact Nat.succ_le_succ (ih _)

end Token

namespace Text

/-- Only blank characters are trimmed off an end. -/
theorem exists_trimEnd_append (text : List Char) :
    ∃ tail, text = trimEnd text ++ tail ∧ tail.all isBlank = true := by
  refine ⟨(text.reverse.takeWhile isBlank).reverse, ?_, ?_⟩
  · rw [trimEnd, ← List.reverse_append, List.takeWhile_append_dropWhile, List.reverse_reverse]
  · rw [List.all_reverse]
    exact List.all_takeWhile

theorem trimEnd_append {text tail : List Char} (blank : tail.all isBlank = true)
    (solid : Halts isBlank text.reverse) : trimEnd (text ++ tail) = text := by
  have inside : ∀ c ∈ tail.reverse, isBlank c = true := by
    simpa using blank
  rw [trimEnd, List.reverse_append, dropWhile_append_of_halts inside solid, List.reverse_reverse]

end Text

/-- The text of an expression is what is left of it without the white space around it. -/
theorem Spelled.trim_append {tokens : List Token} {text white tail : List Char}
    (spelled : Spelled tokens text) {before after : Standing}
    (reached : before.after? tokens = some after) (lead : ∀ c ∈ white, Text.isBlank c = true)
    (blank : tail.all Text.isBlank = true) : Text.trim (white ++ (text ++ tail)) = text := by
  have start : Text.Halts Text.isBlank (text ++ tail) := by
    obtain ⟨c, more, rfl⟩ := List.exists_cons_of_ne_nil spelled.ne_nil
    exact fun d head => spelled.solid_start reached d head
  rw [Text.trim, Text.trimStart, Text.dropWhile_append_of_halts lead start,
    Text.trimEnd_append blank (spelled.solid_end reached)]

/-- The text of an expression has no white space at its ends. -/
theorem Spelled.trim_eq {tokens : List Token} {text : List Char} (spelled : Spelled tokens text)
    {before after : Standing} (reached : before.after? tokens = some after) :
    Text.trim text = text := by
  have nothing : ∀ c ∈ ([] : List Char), Text.isBlank c = true := by simp
  have trimmed : Text.trim ([] ++ (text ++ [])) = text :=
    spelled.trim_append reached nothing rfl
  rwa [List.nil_append, List.append_nil] at trimmed

end LineCalc
