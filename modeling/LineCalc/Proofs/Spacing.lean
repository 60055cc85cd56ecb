import LineCalc.Proofs.Fragments
import LineCalc.Proofs.Threshold

set_option autoImplicit false

/- White space and the spelling of tokens. They make no difference to what a text is accepted as,
and white space before a text moves the place of a rejection and nothing else. -/
namespace LineCalc

open LineCalc.Parser

/-! Between tokens -/

namespace Text

/-- A trimmed text has no white space at its ends. -/
theorem halts_trim (text : List Char) :
    Halts isBlank (trim text) ∧ Halts isBlank (trim text).reverse := by
  constructor
  · intro c head
    obtain ⟨tail, parts, _⟩ := exists_trimEnd_append (trimStart text)
    apply halts_dropWhile isBlank text c
    rw [← trimStart, parts, ← trim, List.head?_append, Option.mem_def.mp head]
    rfl
  · rw [trim, trimEnd, List.reverse_reverse]
    exact halts_dropWhile isBlank _

end Text

/-- The tokens of a text between the white space at its ends, each the longest where it stands. -/
def CutInto (text : List Char) (tokens : List Token) : Prop :=
  ∃ lexemes, Token.Munched (Text.trim text) lexemes ∧ lexemes.map Lexeme.token = tokens

theorem cutInto_iff {text : List Char} {tokens : List Token} :
    CutInto text tokens ↔ (Token.lexFrom 0 (Text.trim text)).map Lexeme.token = tokens := by
  simp only [CutInto, Token.munched_iff, exists_eq_left]

/-- What is cut into tokens is a spelling of them. -/
theorem CutInto.spelled {text : List Char} {tokens : List Token} (cut : CutInto text tokens)
    (nonempty : tokens ≠ []) : Spelled tokens (Text.trim text) := by
  have lexed := cutInto_iff.mp cut
  rw [← List.append_nil tokens] at lexed
  obtain ⟨solid, solidEnd⟩ := Text.halts_trim text
  obtain ⟨gap, written, tail, gaps, parts, spelled, left⟩ :=
    Spelled.exists_of_lexFrom nonempty lexed
  rw [parts] at solid solidEnd
  have noGap : gap = [] := by
    cases gap with
    | nil => rfl
    | cons c gap =>
      have blank := Token.isBlank_of_isGap (gaps c List.mem_cons_self)
      rw [solid c rfl] at blank
      cases blank
  have blankTail := Token.all_isBlank_lexFrom tail
  rw [left, List.all_nil, eq_comm, List.all_eq_true] at blankTail
  have noTail : tail = [] := by
    cases backwards : tail.reverse with
    | nil => exact List.reverse_eq_nil_iff.mp backwards
    | cons c front =>
      have blank := blankTail c (List.mem_reverse.mp (by simp [backwards]))
      rw [solidEnd c (by simp [backwards])] at blank
      cases blank
  rwa [parts, noGap, noTail, List.nil_append, List.append_nil]

/-- The tokens of an expression are cut as they were written, whatever gaps stand between them. -/
theorem Spelled.cutInto {text : List Char} {tokens : List Token}
    (spelled : Spelled tokens (Text.trim text)) {before after : Standing}
    (reached : before.after? tokens = some after) : CutInto text tokens := by
  have lexed := spelled.lexFrom_eq reached after.clear_nil
  rw [cutInto_iff]
  simpa [Token.lexFrom] using lexed

/-- Texts of the same tokens are accepted as the same trees. -/
theorem parse_of_cutInto {first second : List Char} {tokens : List Token} {limit : Nat} {e : Expr}
    (cut : CutInto first tokens) (same : CutInto second tokens)
    (accepted : parse limit first = .ok e) : parse limit second = .ok e := by
  obtain ⟨written, d, spelled, enough⟩ := accepted_iff.mp accepted
  have rewritten := spelled.cutInto (d.after? 0)
  obtain rfl := (cutInto_iff.mp rewritten).symm.trans (cutInto_iff.mp cut)
  exact accepted_iff.mpr ⟨written, d, same.spelled d.tokens_ne_nil, enough⟩

/-! Before a text -/

/-- A rejection of a text that starts some bytes later. -/
def Rejection.shift (bytes : Nat) : Rejection → Rejection
  | .malformed position complaint => .malformed (bytes + position) complaint
  | .unsupported position construct fragment => .unsupported (bytes + position) construct fragment
  | .tooComplex limit => .tooComplex limit

theorem Text.trimStart_append {white : List Char} (blank : ∀ c ∈ white, isBlank c = true)
    (text : List Char) : trimStart (white ++ text) = trimStart text :=
  List.dropWhile_append_of_pos blank

theorem Parser.reject_append (limit : Nat) (white text : List Char) (stop : Stop) :
    reject limit (white ++ text) (Token.lex text) stop =
      (reject limit text (Token.lex text) stop).shift (Text.byteLength white) := by
  cases stop with
  | tooComplex | exhausted => rfl
  | incomplete => rw [reject, reject, Rejection.shift, Text.byteLength_append]
  | unexpected rest expected =>
    obtain ⟨front, parts⟩ := textFrom_suffix text rest
    have counted : Text.byteLength (white ++ text) -
        Text.byteLength (textFrom (Token.lex text) rest) = Text.byteLength white +
          (Text.byteLength text - Text.byteLength (textFrom (Token.lex text) rest)) := by
      have whole := congrArg Text.byteLength parts
      rw [Text.byteLength_append] at whole ⊢
      omega
    simp only [reject, counted]
    split <;> rfl

/-- White space before a text moves the place of a rejection. -/
theorem parse_append {white : List Char} (blank : ∀ c ∈ white, Text.isBlank c = true)
    (limit : Nat) (text : List Char) :
    parse limit (white ++ text) =
      (parse limit text).mapError (Rejection.shift (Text.byteLength white)) := by
  have lexed : Token.lex (white ++ text) = Token.lex text := by
    rw [Token.lex, Text.trimStart_append blank, Token.lex]
  simp only [parse, lexed]
  cases readAll limit _ _ with
  | ok e => rfl
  | error stop => exact congrArg Except.error (reject_append limit white text stop)

/-- Neither the gaps between tokens, nor the white space at both ends, nor which of its two
spellings a power has makes a difference to what a text is accepted as. Written again with any
gaps or none between them, the tokens of an accepted text are never joined or divided. White space
before a text moves the place of a rejection and changes nothing else. -/
theorem parse_spacing (limit : Nat) (first second : List Char) :
    (∀ tokens, CutInto first tokens → CutInto second tokens →
      ∀ e, parse limit first = .ok e ↔ parse limit second = .ok e) ∧
    (∀ tokens e, parse limit first = .ok e → CutInto first tokens →
      Spelled tokens (Text.trim second) →
        CutInto second tokens ∧ parse limit second = .ok e) ∧
    ∀ white, (∀ c ∈ white, Text.isBlank c = true) →
      parse limit (white ++ first) =
        (parse limit first).mapError (Rejection.shift (Text.byteLength white)) := by
  refine ⟨fun tokens cut same e => ?_, fun tokens e accepted cut spelled => ?_,
    fun white blank => parse_append blank limit first⟩
  · exact ⟨parse_of_cutInto cut same, parse_of_cutInto same cut⟩
  · obtain ⟨written, d, original, enough⟩ := accepted_iff.mp accepted
    have rewritten := original.cutInto (d.after? 0)
    obtain rfl := (cutInto_iff.mp rewritten).symm.trans (cutInto_iff.mp cut)
    have again := spelled.cutInto (d.after? 0)
    exact ⟨again, parse_of_cutInto cut again accepted⟩

/-- The two spellings of a power before a negation, and white space before a text that stops. -/
theorem parse_spacing_power : parse 9 " a**-b\n".toList =
      .ok (.binary .pow (.var "a") (.neg (.var "b"))) ∧
    parse 9 "a ^ - b".toList = .ok (.binary .pow (.var "a") (.neg (.var "b"))) ∧
    parse 9 ("\n\u00a0".toList ++ "1 +".toList) =
      .error (.malformed 6 (.unexpected none .operand)) := by
  have first : CutInto " a**-b\n".toList
    [.word "a", .operator .pow, .operator .sub, .word "b"] := cutInto_iff.mpr (by decide)
  have second : CutInto "a ^ - b".toList
    [.word "a", .operator .pow, .operator .sub, .word "b"] := cutInto_iff.mpr (by decide)
  have accepted : parse 9 " a**-b\n".toList =
    .ok (.binary .pow (.var "a") (.neg (.var "b"))) := rfl
  refine ⟨accepted, ((parse_spacing 9 _ _).1 _ first second _).mp accepted, ?_⟩
  exact (parse_spacing 9 "1 +".toList []).2.2 _ (List.all_eq_true.mp (by decide))

end LineCalc
