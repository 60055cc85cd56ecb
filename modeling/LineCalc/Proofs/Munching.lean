import LineCalc.Proofs.Lexis

set_option autoImplicit false

/- Lexing cuts a text into the longest tokens, and there is no other way to do so. -/
namespace LineCalc

namespace Token

/-- A text cut into lexemes. Each token is the longest that starts where it does, and between
tokens there are but gaps. -/
inductive Munched : List Char → List Lexeme → Prop where
  | nil : Munched [] []
  | gap {c : Char} {rest : List Char} {lexemes : List Lexeme} (gap : isGap c = true)
      (later : Munched rest lexemes) : Munched (c :: rest) lexemes
  | token {token : Token} {spelling rest : List Char} {lexemes : List Lexeme}
      (spells : token.Spells spelling)
      (longest : ∀ other longer after, Spells other longer → spelling ++ rest = longer ++ after →
        longer.length ≤ spelling.length)
      (later : Munched rest lexemes) :
      Munched (spelling ++ rest) (⟨token, spelling ++ rest⟩ :: lexemes)

theorem munched_lexFrom (text : List Char) : Munched text (lexFrom 0 text) := by
  induction size : text.length using Nat.strongRecOn generalizing text with
  | ind size ih =>
    subst size
    cases text with
    | nil => exact .nil
    | cons c rest =>
      by_cases gap : isGap c = true
      · rw [lexFrom_gap gap]
        exact .gap gap (ih _ (by simp) rest rfl)
      · obtain ⟨token, spelling, after, spells, split, cut, longest⟩ :=
          lexFrom_cons rest (Bool.not_eq_true _ ▸ gap)
        have positive := List.length_pos_iff.mpr spells.ne_nil
        rw [cut, split]
        rw [split] at longest ih
        exact .token spells longest (ih _ (by rw [List.length_append]; omega) after rfl)

/-- A spelling is that of one token. -/
theorem Spells.unique {token other : Token} {spelling : List Char} (first : token.Spells spelling)
    (second : other.Spells spelling) : token = other := by
  have alone : ∀ token : Token, Apart token [] := by
    intro token
    cases token with
    | operator op => cases op <;> simp [Apart]
    | _ => simp [Apart, Text.Halts]
  obtain ⟨c, more, rfl⟩ := List.exists_cons_of_ne_nil first.ne_nil
  have cut := munch_append first (alone token)
  rw [munch_append second (alone other)] at cut
  exact (congrArg Prod.fst cut).symm

/-- A text is cut into its lexemes alone. -/
theorem munched_iff {text : List Char} {lexemes : List Lexeme} :
    Munched text lexemes ↔ lexemes = lexFrom 0 text := by
  constructor
  · intro munched
    induction munched with
    | nil => rfl
    | gap gap later ih => rw [ih, lexFrom_gap gap]
    | @token token spelling rest lexemes spells longest later ih =>
      obtain ⟨c, more, rfl⟩ := List.exists_cons_of_ne_nil spells.ne_nil
      obtain ⟨found, cut, after, cutSpells, split, lexed, cutLongest⟩ :=
        lexFrom_cons (more ++ rest) spells.solid
      have short := longest found cut after cutSpells split
      have long := cutLongest token (c :: more) rest spells rfl
      have parts : c :: more ++ rest = cut ++ after := split
      obtain ⟨rfl, rfl⟩ := List.append_inj parts (by omega)
      obtain rfl := spells.unique cutSpells
      rw [ih]
      exact lexed.symm
  · rintro rfl
    exact munched_lexFrom text

/-- A lexeme keeps the text from its token on. -/
theorem exists_append_start {text : List Char} {lexemes : List Lexeme}
    (munched : Munched text lexemes) :
    ∀ lexeme ∈ lexemes, ∃ front, text = front ++ lexeme.start := by
  induction munched with
  | nil =>
    intro lexeme member
    cases member
  | @gap c rest lexemes gap later ih =>
    intro lexeme member
    obtain ⟨front, parts⟩ := ih lexeme member
    exact ⟨c :: front, by rw [parts, List.cons_append]⟩
  | @token token spelling rest lexemes spells longest later ih =>
    intro lexeme member
    rcases List.mem_cons.mp member with rfl | member
    · exact ⟨[], rfl⟩
    · obtain ⟨front, parts⟩ := ih lexeme member
      exact ⟨spelling ++ front, by rw [parts, List.append_assoc]⟩

end Token

end LineCalc
