import LineCalc.Proofs.Lines
import LineCalc.Proofs.Munching
import LineCalc.Tally.Exposition

set_option autoImplicit false

/- What is printed in the middle of a line does not end it: numbers, quoted characters, the messages
about a text that is one line, and counts with their labels. -/
namespace LineCalc

/-- Text without a line feed. -/
def Text.OneLine (text : List Char) : Prop := '\n' ∉ text

namespace Text.OneLine

instance (text : List Char) : Decidable (OneLine text) := inferInstanceAs (Decidable (¬_))

@[simp] theorem nil : OneLine [] := List.not_mem_nil

@[simp] theorem cons_iff {c : Char} {rest : List Char} :
    OneLine (c :: rest) ↔ '\n' ≠ c ∧ OneLine rest := by
  rw [OneLine, List.mem_cons, not_or]
  rfl

@[simp] theorem append_iff {first second : List Char} :
    OneLine (first ++ second) ↔ OneLine first ∧ OneLine second := by
  rw [OneLine, List.mem_append, not_or]
  rfl

theorem of_subset {part text : List Char} (single : OneLine text) (inside : part ⊆ text) :
    OneLine part := fun member => single (inside member)

theorem replicate {c : Char} (other : '\n' ≠ c) (count : Nat) :
    OneLine (List.replicate count c) := fun member => other (List.eq_of_mem_replicate member)

/-- No digit of a base up to sixteen is a line feed. -/
theorem toDigits {base : Nat} (many : 1 < base) (few : base ≤ 16) (n : Nat) :
    OneLine (Nat.toDigits base n) := by
  have digit : ∀ d < 16, '\n' ≠ Nat.digitChar d := by decide
  induction n using Nat.strongRecOn with
  | ind n ih =>
    rw [Nat.toDigits_eq_if many]
    split
    · rename_i small
      exact cons_iff.mpr ⟨digit n (by omega), nil⟩
    · rename_i large
      have smaller : n / base < n := Nat.div_lt_self (by omega) many
      have last : n % base < base := Nat.mod_lt n (by omega)
      rw [append_iff]
      exact ⟨ih _ smaller, cons_iff.mpr ⟨digit (n % base) (by omega), nil⟩⟩

@[simp] theorem decimal (n : Nat) : OneLine (Nat.toDigits 10 n) :=
  toDigits (by decide) (by decide) n

@[simp] theorem repr_int (n : Int) : OneLine n.repr.toList := by
  cases n with
  | ofNat n => simp [Int.repr]
  | negSucc n => simp [Int.repr]

end Text.OneLine

open Text.OneLine

/-! Bytes -/

theorem Text.OneLine.lineFeed_not_mem_encode {text : List Char} (single : OneLine text) :
    Session.lineFeed ∉ encode text := by
  intro member
  obtain ⟨c, inside, byte⟩ := List.mem_flatMap.mp member
  have code := (sequence_utf8EncodeChar c).eq_of_mem byte (by decide)
  have same : c = '\n' := Char.toNat_inj.mp code
  exact single (same ▸ inside)

/-! Numbers -/

namespace Layout

theorem oneLine_significant {digits : List Char} (single : Text.OneLine digits) :
    Text.OneLine (significant digits) := by
  apply single.of_subset
  intro c member
  rw [significant, List.mem_reverse] at member
  exact List.mem_reverse.mp ((List.dropWhile_sublist _).subset member)

theorem oneLine_positionalText (layout : Layout) {digits : List Char}
    (single : Text.OneLine digits) (place : Int) :
    Text.OneLine (layout.positionalText digits place) := by
  have zeros : ∀ count, Text.OneLine (List.replicate count '0') :=
    Text.OneLine.replicate (by decide)
  unfold positionalText
  split
  · simp [single]
  · simp [single, zeros]
  · rename_i whole _
    have front : Text.OneLine (digits.take whole) := single.of_subset (List.take_subset _ _)
    have back : Text.OneLine (digits.drop whole) := single.of_subset (List.drop_subset _ _)
    split
    · simp [front, back]
    · split <;> simp [single, zeros]

theorem oneLine_exponentText (layout : Layout) {digits : List Char}
    (single : Text.OneLine digits) (exponent : Int) :
    Text.OneLine (layout.exponentText digits exponent) := by
  have sign : Text.OneLine (if exponent < 0 then ['-']
      else if layout.exponentPlus then ['+'] else []) := by
    split
    · decide
    · split <;> decide
  cases digits with
  | nil => simp [exponentText, sign]
  | cons first rest =>
    have parts := Text.OneLine.cons_iff.mp single
    cases rest with
    | nil => simp [exponentText, sign, parts.1]
    | cons second rest => simp [exponentText, sign, parts.1, Text.OneLine.cons_iff.mp parts.2]

theorem oneLine_text (layout : Layout) (nan : Text.OneLine layout.nan)
    (infinity : Text.OneLine layout.infinity)
    (negativeInfinity : Text.OneLine layout.negativeInfinity) (x : Binary64) :
    Text.OneLine (layout.text x) := by
  have magnitude : ∀ units, Text.OneLine (layout.magnitudeText units) := by
    intro units
    unfold magnitudeText
    split
    · split <;> decide
    · have digits := oneLine_significant
        (Text.OneLine.decimal (Decimal.shortest layout.tie units).coefficient)
      dsimp only
      split
      · exact oneLine_positionalText layout digits _
      · exact oneLine_exponentText layout digits _
  cases x with
  | nan signaling => exact nan
  | infinity negative => cases negative <;> assumption
  | finite negative units fits =>
    cases negative with
    | true => exact Text.OneLine.cons_iff.mpr ⟨by decide, magnitude units⟩
    | false => exact magnitude units

end Layout

/-- The line feed behind an object is the only one of its record. -/
theorem RecordStyle.oneLine_jsonObject (result : Evaluation) :
    Text.OneLine (jsonObject result) := by
  have null : Text.OneLine "null".toList := by decide
  have float := Layout.oneLine_text .json null null null result.float
  unfold jsonObject
  simp [float]

/-! Messages -/

theorem Text.Malformed.oneLine_message (fault : Malformed) : OneLine fault.message.toList := by
  unfold message
  split <;> simp [toString]

/-- The escapes of a character leave no line feed. -/
theorem Text.OneLine.escape (quote c : Char) : OneLine (escape quote c) := by
  unfold Text.escape
  split
  · decide
  split
  · decide
  split
  · decide
  split
  · decide
  rename_i different
  split
  · simp [Ne.symm different]
  split
  · simp [codeEscape, OneLine.toDigits]
  · simp [Ne.symm different]

theorem Text.OneLine.quotedChar (c : Char) : OneLine (quotedChar c) := by
  simp [Text.quotedChar, OneLine.escape]

/-- A fragment is the start of the text that it is found in. -/
theorem Construct.fragment_prefix {text fragment : List Char} {construct : Construct}
    (found : ofText? text = some (construct, fragment)) : fragment <+: text := by
  cases text with
  | nil => cases found
  | cons c rest =>
    rw [ofText?] at found
    split at found
    · cases found
      exact List.cons_prefix_cons.mpr ⟨rfl, List.takeWhile_prefix _⟩
    · unfold ofSymbol? at found
      split at found
      case h_3 d after =>
        split at found
        · cases found
          simp only [List.cons_prefix_cons, true_and]
          exact List.takeWhile_prefix _
        · cases found
      all_goals cases found
      all_goals simp

namespace Parser

/-- What is left of a text is the end of it. -/
theorem textFrom_suffix (text : List Char) (rest : List Token) :
    textFrom (Token.lex text) rest <:+ text := by
  rw [textFrom]
  split
  · exact List.nil_suffix
  · rename_i lexeme later left
    have member : lexeme ∈ Token.lex text := by
      apply List.mem_of_mem_drop (i := (Token.lex text).length - rest.length)
      rw [left]
      exact List.mem_cons_self
    obtain ⟨front, parts⟩ :=
      Token.exists_append_start (Token.munched_lexFrom (Text.trimStart text)) lexeme member
    have inside : lexeme.start <:+ Text.trimStart text := ⟨front, parts.symm⟩
    exact inside.trans (List.dropWhile_suffix _)

end Parser

theorem Complaint.oneLine_message (found : Option Char) (expected : Expectation) :
    Text.OneLine (Complaint.unexpected found expected).message.toList := by
  have label : Text.OneLine expected.label.toList := by cases expected <;> simp [Expectation.label]
  cases found with
  | none =>
    unfold message
    simp [label]
  | some c =>
    have quoted := Text.OneLine.quotedChar c
    unfold message
    simp [quoted, label]

theorem Rejection.oneLine_malformed (position : Nat) {complaint : Complaint}
    (single : Text.OneLine complaint.message.toList) :
    Text.OneLine (malformed position complaint).message.toList := by
  unfold message
  simp [toString, single]

theorem Rejection.oneLine_unsupported (position : Nat) (construct : Construct) {fragment : String}
    (single : Text.OneLine fragment.toList) :
    Text.OneLine (unsupported position construct fragment).message.toList := by
  have label : Text.OneLine construct.label.toList := by cases construct <;> simp [Construct.label]
  unfold message
  simp [toString, label, single]

/-- What is said about a line fits on one. -/
theorem Rejection.oneLine_message {limit : Nat} {text : List Char} {reason : Rejection}
    (single : Text.OneLine text) (rejected : parse limit text = .error reason) :
    Text.OneLine reason.message.toList := by
  have tooComplex : Text.OneLine (Rejection.tooComplex limit).message.toList := by
    unfold message
    simp [toString]
  rw [parse] at rejected
  cases read : Parser.readAll limit (Parser.sufficientBudget ((Token.lex text).map Lexeme.token))
      ((Token.lex text).map Lexeme.token) with
  | ok e =>
    simp only [read] at rejected
    cases rejected
  | error stop =>
    simp only [read] at rejected
    cases rejected
    cases stop with
    | unexpected rest expected =>
      rw [Parser.reject]
      split
      · rename_i construct fragment found
        have inside := List.Subset.trans (Construct.fragment_prefix found).subset
          (Parser.textFrom_suffix text rest).subset
        apply oneLine_unsupported
        rw [String.toList_ofList]
        exact single.of_subset inside
      · exact oneLine_malformed _ (Complaint.oneLine_message _ _)
    | incomplete =>
      have single : Text.OneLine (Complaint.worded "Incomplete input").message.toList := by decide
      exact oneLine_malformed _ single
    | tooComplex => exact tooComplex
    | exhausted => exact tooComplex

theorem Failure.oneLine_message (op : Operator) :
    Text.OneLine (Failure.divisionByZero op).message.toList := by
  have symbol : Text.OneLine op.symbol.toList := by cases op <;> decide
  unfold message
  simp [symbol]

/-! Counts -/

namespace Exposition

/-- No label value ends a line. -/
theorem oneLine_escape (value : List Char) : Text.OneLine (value.flatMap escape) := by
  intro member
  obtain ⟨c, _, inside⟩ := List.mem_flatMap.mp member
  rw [escape] at inside
  split at inside
  · revert inside; decide
  split at inside
  · revert inside; decide
  split at inside
  · revert inside; decide
  · rename_i different
    exact different (List.mem_singleton.mp inside).symm

theorem oneLine_labelText {name value : String} (single : Text.OneLine name.toList) :
    Text.OneLine (labelText name value).toList := by
  unfold labelText
  simp [single, oneLine_escape]

theorem Sample.oneLine_text {sample : Sample} (metric : Text.OneLine sample.metric.toList) :
    Text.OneLine sample.text.toList := by
  have layer : Text.OneLine (labelText "app_layer" sample.labels.layer).toList :=
    oneLine_labelText (by decide)
  have function : Text.OneLine (labelText "class_function" sample.labels.function).toList :=
    oneLine_labelText (by decide)
  have bound : ∀ bound, Text.OneLine (labelText "le" bound).toList :=
    fun _ => oneLine_labelText (by decide)
  unfold text
  cases sample.bound with
  | none => simp [toString, metric, layer, function]
  | some high => simp [toString, metric, layer, function, bound]

theorem Family.oneLine_lines {family : Family} (name : Text.OneLine family.name.toList)
    (help : Text.OneLine family.help.toList)
    (metrics : ∀ sample ∈ family.samples, Text.OneLine sample.metric.toList) :
    ∀ line ∈ family.lines, Text.OneLine line.toList := by
  have kind : Text.OneLine family.kind.label.toList := by cases family.kind <;> decide
  intro line member
  rw [lines, List.mem_cons, List.mem_cons] at member
  rcases member with rfl | rfl | member
  · simp [name, help]
  · simp [name, kind]
  · obtain ⟨sample, inside, rfl⟩ := List.mem_map.mp member
    exact Sample.oneLine_text (metrics sample inside)

/-- Whatever is counted, each sample has a line of its own. -/
theorem oneLine_lines (tally : Tally) :
    ∀ line ∈ lines (families tally), Text.OneLine line.toList := by
  intro line member
  obtain ⟨family, kept, member⟩ := List.mem_flatMap.mp member
  have known := (List.mem_filter.mp kept).1
  simp only [families, List.mem_cons, List.not_mem_nil, or_false] at known
  rcases known with rfl | rfl | rfl
  · have name : Text.OneLine "failure_counter".toList := by decide
    have help : Text.OneLine "Failure Count".toList := by decide
    refine Family.oneLine_lines ?_ ?_ (fun sample inside => ?_) line member
    · exact name
    · exact help
    · obtain ⟨entry, _, rfl⟩ := List.mem_map.mp inside
      exact name
  · have name : Text.OneLine "success_counter".toList := by decide
    have help : Text.OneLine "Success Count".toList := by decide
    refine Family.oneLine_lines ?_ ?_ (fun sample inside => ?_) line member
    · exact name
    · exact help
    · obtain ⟨entry, _, rfl⟩ := List.mem_map.mp inside
      exact name
  · have name : Text.OneLine "timer".toList := by decide
    have help : Text.OneLine "Duration in seconds".toList := by decide
    have bucket : Text.OneLine "timer_bucket".toList := by decide
    have count : Text.OneLine "timer_count".toList := by decide
    refine Family.oneLine_lines ?_ ?_ (fun sample inside => ?_) line member
    · exact name
    · exact help
    · obtain ⟨entry, _, samples⟩ := List.mem_flatMap.mp inside
      rcases List.mem_cons.mp samples with rfl | last
      · exact bucket
      · rw [List.mem_singleton.mp last]
        exact count

end Exposition

end LineCalc
