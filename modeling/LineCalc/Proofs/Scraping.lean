import Mathlib.Data.List.Basic
import LineCalc.Proofs.OneLine
import LineCalc.Proofs.Tallying
import LineCalc.Settings.Reading

set_option autoImplicit false

/- Counts read back from their text. A scraper reads the text line by line and undoes the escapes of
label values. What it finds is what was counted: every function that was used once in each family,
in the order of the bytes of its labels. -/
namespace LineCalc

/-- By layer, then by function, in the order of their bytes. -/
def Labels.BytesBefore (x y : Labels) : Prop :=
  Text.encode x.layer.toList < Text.encode y.layer.toList ∨
    x.layer = y.layer ∧ Text.encode x.function.toList < Text.encode y.function.toList

theorem Labels.bytesBefore_of_before {x y : Labels} (before : x.before y = true) :
    x.BytesBefore y := by
  rcases before_iff.mp before with layer | ⟨same, function⟩
  · exact .inl (Text.encode_lt_encode layer)
  · exact .inr ⟨same, Text.encode_lt_encode function⟩

/-! What a scraper reads -/

namespace Exposition

/-- A line tells something of a family, or it is a sample. -/
inductive Entry where
  | note (keyword family words : String)
  | sample (metric : String) (labels : List (String × String)) (value : Nat)
  deriving DecidableEq, Repr

namespace Entry

/-- What a character stands for behind a backslash. -/
def unescape? (c : Char) : Option Char :=
  if c = '\\' then some '\\'
  else if c = '\x22' then some '\x22'
  else if c = 'n' then some '\n'
  else none

/-- A label value up to its closing quote, and the text after the quote. -/
def readValue? : List Char → Option (List Char × List Char)
  | [] => none
  | '\x22' :: rest => some ([], rest)
  | ['\\'] => none
  | '\\' :: c :: rest => do
    let c ← unescape? c
    let (value, rest) ← readValue? rest
    return (c :: value, rest)
  | c :: rest => do
    let (value, rest) ← readValue? rest
    return (c :: value, rest)

/-- A label with its value, and the text after them. -/
def readLabel? (text : List Char) : Option ((String × String) × List Char) :=
  let name := text.takeWhile (· != '=')
  match text.dropWhile (· != '=') with
  | '=' :: '\x22' :: rest =>
    (readValue? rest).map fun (value, rest) => ((String.ofList name, String.ofList value), rest)
  | _ => none

/-- At most `count` labels up to the closing brace, and the text after the brace. -/
def readLabels? : Nat → List Char → Option (List (String × String) × List Char)
  | 0, _ => none
  | count + 1, text =>
    match readLabel? text with
    | some (label, '}' :: rest) => some ([label], rest)
    | some (label, ',' :: rest) =>
      (readLabels? count rest).map fun (labels, rest) => (label :: labels, rest)
    | _ => none

/-- The text before the first blank, and the text after it. -/
def splitWord (text : List Char) : String × List Char :=
  (String.ofList (text.takeWhile (· != ' ')), (text.dropWhile (· != ' ')).drop 1)

def readLine? (line : List Char) : Option Entry :=
  match line with
  | '#' :: ' ' :: rest =>
    let (keyword, rest) := splitWord rest
    let (family, words) := splitWord rest
    some (.note keyword family (String.ofList words))
  | line =>
    let metric := String.ofList (line.takeWhile (· != '{'))
    match line.dropWhile (· != '{') with
    | '{' :: rest =>
      match readLabels? rest.length rest with
      | some (labels, ' ' :: digits) =>
        (Settings.Value.wholeNumber? digits).map fun value => .sample metric labels value
      | _ => none
    | _ => none

/-- The name of the family that a line announces. -/
def family? : Entry → Option String
  | .note "TYPE" family _ => some family
  | _ => none

end Entry

/-- All lines of a text, if each of them can be read. What stands behind the last line feed is no
line. -/
def scrape? (text : List Char) : Option (List Entry) :=
  (text.splitOn '\n').dropLast.mapM Entry.readLine?

/-- The text of a tally, each of its lines with a line feed. It has no samples that depend on the
time taken. -/
def text (tally : Tally) : List Char :=
  (lines (families tally)).flatMap fun line => line.toList ++ ['\n']

/-! Reading back -/

section Marks

variable {mark : Char} {front : List Char}

theorem takeWhile_mark (free : mark ∉ front) (rest : List Char) :
    (front ++ mark :: rest).takeWhile (· != mark) = front := by
  have inside : ∀ c ∈ front, (c != mark) = true := fun c member =>
    bne_iff_ne.mpr (ne_of_mem_of_not_mem member free)
  exact Text.takeWhile_append_of_halts inside (by simp [Text.Halts])

theorem dropWhile_mark (free : mark ∉ front) (rest : List Char) :
    (front ++ mark :: rest).dropWhile (· != mark) = mark :: rest := by
  have inside : ∀ c ∈ front, (c != mark) = true := fun c member =>
    bne_iff_ne.mpr (ne_of_mem_of_not_mem member free)
  exact Text.dropWhile_append_of_halts inside (by simp [Text.Halts])

end Marks

namespace Entry

/-- Reading a value undoes its escapes, whatever its characters. -/
theorem readValue?_escape (value rest : List Char) :
    readValue? (value.flatMap escape ++ '\x22' :: rest) = some (value, rest) := by
  induction value with
  | nil => rfl
  | cons c value ih =>
    rw [List.flatMap_cons, List.append_assoc, escape]
    split
    · rename_i same
      subst same
      simp [readValue?, unescape?, ih]
    split
    · rename_i same
      subst same
      simp [readValue?, unescape?, ih]
    split
    · rename_i same
      subst same
      simp [readValue?, unescape?, ih]
    · rename_i slash quote feed
      simp [readValue?, ih, slash]

theorem readLabel?_labelText {name : String} (value : String) (rest : List Char)
    (plain : '=' ∉ name.toList) :
    readLabel? ((labelText name value).toList ++ rest) = some ((name, value), rest) := by
  have parts : (labelText name value).toList ++ rest =
      name.toList ++ '=' :: '\x22' :: (value.toList.flatMap escape ++ '\x22' :: rest) := by
    simp [labelText]
  rw [readLabel?, parts, takeWhile_mark plain, dropWhile_mark plain]
  simp only [readValue?_escape, Option.map_some, String.ofList_toList]

/-- Labels are told apart by the commas between them. -/
theorem readLabels?_intercalate {labels : List (String × String)} (rest : List Char)
    {count : Nat} (enough : labels.length ≤ count) (nonempty : labels ≠ [])
    (plain : ∀ label ∈ labels, '=' ∉ label.1.toList) :
    readLabels? count
        ((",".intercalate (labels.map fun label => labelText label.1 label.2)).toList ++
          '}' :: rest) = some (labels, rest) := by
  induction labels generalizing count with
  | nil => exact absurd rfl nonempty
  | cons label others ih =>
    obtain ⟨count, rfl⟩ : ∃ before, count = before + 1 := ⟨count - 1, by simp at enough; omega⟩
    have first := plain label List.mem_cons_self
    cases others with
    | nil => simp [readLabels?, readLabel?_labelText label.2 ('}' :: rest) first]
    | cons next others =>
      have later := ih (Nat.le_of_succ_le_succ enough) (List.cons_ne_nil next others)
        fun other member => plain other (List.mem_cons_of_mem label member)
      have comma : ",".toList = [','] := by decide
      simp only [String.toList_intercalate, List.map_map, List.map_cons,
        List.intercalate_cons_cons, comma, List.append_assoc] at later ⊢
      rw [readLabels?, readLabel?_labelText label.2 _ first]
      simp only [List.cons_append, List.nil_append, later, Option.map_some]

theorem splitWord_append {word : String} (rest : List Char) (solid : ' ' ∉ word.toList) :
    splitWord (word.toList ++ ' ' :: rest) = (word, rest) := by
  rw [splitWord, takeWhile_mark solid, dropWhile_mark solid, String.ofList_toList]
  rfl

theorem readLine?_note {keyword family : String} (words : String)
    (single : ' ' ∉ keyword.toList) (solid : ' ' ∉ family.toList) :
    readLine? ("# " ++ keyword ++ " " ++ family ++ " " ++ words).toList =
      some (.note keyword family words) := by
  have parts : ("# " ++ keyword ++ " " ++ family ++ " " ++ words).toList =
      '#' :: ' ' :: (keyword.toList ++ ' ' :: (family.toList ++ ' ' :: words.toList)) := by
    simp
  rw [parts, readLine?, splitWord_append _ single]
  simp only [splitWord_append _ solid, String.ofList_toList]

end Entry

/-- The labels of a sample with their values, in the order of their writing. -/
def Sample.pairs (sample : Sample) : List (String × String) :=
  ("app_layer", sample.labels.layer) :: ("class_function", sample.labels.function) ::
    (sample.bound.map fun bound => ("le", bound)).toList

theorem Sample.text_eq (sample : Sample) :
    sample.text = sample.metric ++ "\x7b" ++
      ",".intercalate (sample.pairs.map fun label => labelText label.1 label.2) ++ "\x7d " ++
      toString sample.value := by
  rw [text, pairs]
  cases sample.bound <;> rfl

theorem Sample.pairs_plain (sample : Sample) :
    ∀ label ∈ sample.pairs, '=' ∉ label.1.toList := by
  rw [pairs]
  cases sample.bound <;> simp

def Sample.entry (sample : Sample) : Entry :=
  .sample sample.metric sample.pairs sample.value

theorem wholeNumber?_toDigits (n : Nat) :
    Settings.Value.wholeNumber? (Nat.toDigits 10 n) = some n := by
  have digits : (Nat.toDigits 10 n).all Char.isDigit = true :=
    List.all_eq_true.mpr fun _ => Nat.isDigit_of_mem_toDigits (by decide) (by decide)
  rw [Settings.Value.wholeNumber?, if_pos ⟨Nat.toDigits_ne_nil, digits⟩,
    Nat.ofDigitChars_ten_toDigits]

/-- A name that ends at a brace and starts no note. -/
def IsMetric (name : String) : Prop := '{' ∉ name.toList ∧ name.toList.head? ≠ some '#'

instance (name : String) : Decidable (IsMetric name) := inferInstanceAs (Decidable (_ ∧ _))

/-- What a sample is written as is read as that sample. -/
theorem Sample.readLine?_text {sample : Sample} (metric : IsMetric sample.metric) :
    Entry.readLine? sample.text.toList = some sample.entry := by
  have parts : sample.text.toList = sample.metric.toList ++ '{' ::
      ((",".intercalate (sample.pairs.map fun label => labelText label.1 label.2)).toList ++
        '}' :: ' ' :: Nat.toDigits 10 sample.value) := by
    rw [text_eq]
    simp
  -- The brace, the blank and a digit make the rest long enough for three labels.
  have few : sample.pairs.length ≤ 3 := by
    rw [pairs]
    cases sample.bound <;> simp
  have long : 0 < (Nat.toDigits 10 sample.value).length := Nat.length_toDigits_pos
  have enough : sample.pairs.length ≤
      ((",".intercalate (sample.pairs.map fun label => labelText label.1 label.2)).toList ++
        '}' :: ' ' :: Nat.toDigits 10 sample.value).length := by
    simp only [List.length_append, List.length_cons]
    omega
  rw [parts, Entry.readLine?]
  · rw [takeWhile_mark metric.1, dropWhile_mark metric.1]
    simp only [Entry.readLabels?_intercalate _ enough (List.cons_ne_nil _ _) sample.pairs_plain,
      String.ofList_toList, wholeNumber?_toDigits, Option.map_some]
    rfl
  · intro rest same
    cases name : sample.metric.toList with
    | nil => simp [name] at same
    | cons c more =>
      rw [name, List.cons_append, List.cons.injEq] at same
      exact metric.2 (by rw [name, same.1]; rfl)

def Family.entries (family : Family) : List Entry :=
  .note "HELP" family.name family.help :: .note "TYPE" family.name family.kind.label ::
    family.samples.map Sample.entry

/-- Names without the marks that end them. -/
structure Family.Named (family : Family) : Prop where
  name : ' ' ∉ family.name.toList
  metrics : ∀ sample ∈ family.samples, IsMetric sample.metric

theorem mapM_map_eq_some {α β γ : Type} {read : β → Option γ} {written : α → β} {meant : α → γ}
    {items : List α} (each : ∀ item ∈ items, read (written item) = some (meant item)) :
    (items.map written).mapM read = some (items.map meant) := by
  induction items with
  | nil => rfl
  | cons item rest ih =>
    have first := each item List.mem_cons_self
    have later := ih fun other member => each other (List.mem_cons_of_mem _ member)
    rw [List.map_cons, List.mapM_cons, first, later]
    rfl

theorem Family.mapM_readLine? {family : Family} (named : family.Named) :
    (family.lines.map String.toList).mapM Entry.readLine? = some family.entries := by
  have samples : (family.samples.map fun sample => sample.text.toList).mapM Entry.readLine? =
      some (family.samples.map Sample.entry) :=
    mapM_map_eq_some fun sample member => Sample.readLine?_text (named.metrics sample member)
  have help := @Entry.readLine?_note "HELP" _ family.help (by decide) named.name
  have kind := @Entry.readLine?_note "TYPE" _ family.kind.label (by decide) named.name
  have first : "# " ++ "HELP" ++ " " = "# HELP " := by decide
  have second : "# " ++ "TYPE" ++ " " = "# TYPE " := by decide
  rw [first] at help
  rw [second] at kind
  rw [← Function.comp_def] at samples
  rw [lines, List.map_cons, List.map_cons, List.mapM_cons, List.mapM_cons, List.map_map, help, kind,
    samples]
  rfl

theorem mapM_readLine?_flatMap {families : List Family}
    (named : ∀ family ∈ families, family.Named) :
    ((families.flatMap Family.lines).map String.toList).mapM Entry.readLine? =
      some (families.flatMap Family.entries) := by
  induction families with
  | nil => rfl
  | cons family rest ih =>
    have first := Family.mapM_readLine? (named family List.mem_cons_self)
    have later := ih fun other member => named other (List.mem_cons_of_mem _ member)
    rw [List.flatMap_cons, List.map_append, List.mapM_append, first, later]
    rfl

theorem named_families (tally : Tally) : ∀ family ∈ families tally, family.Named := by
  have failure : IsMetric "failure_counter" := by decide
  have success : IsMetric "success_counter" := by decide
  have bucket : IsMetric "timer_bucket" := by decide
  have count : IsMetric "timer_count" := by decide
  intro family member
  simp only [families, List.mem_cons, List.not_mem_nil, or_false] at member
  rcases member with rfl | rfl | rfl
  · refine ⟨by simp, fun sample inside => ?_⟩
    obtain ⟨entry, _, rfl⟩ := List.mem_map.mp inside
    exact failure
  · refine ⟨by simp, fun sample inside => ?_⟩
    obtain ⟨entry, _, rfl⟩ := List.mem_map.mp inside
    exact success
  · refine ⟨by simp, fun sample inside => ?_⟩
    obtain ⟨entry, _, samples⟩ := List.mem_flatMap.mp inside
    rcases List.mem_cons.mp samples with rfl | last
    · exact bucket
    · rw [List.mem_singleton.mp last]
      exact count

/-- Texts that are each ended by a mark that is in none of them are split at the marks. -/
theorem splitOn_flatMap {α : Type} [BEq α] [LawfulBEq α] {mark : α} {texts : List (List α)}
    (free : ∀ text ∈ texts, mark ∉ text) :
    (texts.flatMap fun text => text ++ [mark]).splitOn mark = texts ++ [[]] := by
  have joined : (texts.flatMap fun text => text ++ [mark]) =
      [mark].intercalate (texts ++ [[]]) := by
    clear free
    induction texts with
    | nil => rfl
    | cons text rest ih =>
      obtain ⟨next, others, more⟩ := List.exists_cons_of_ne_nil
        (List.append_ne_nil_of_right_ne_nil rest (List.cons_ne_nil [] []))
      rw [List.flatMap_cons, ih, List.cons_append, more, List.intercalate_cons_cons]
  rw [joined]
  apply List.splitOn_intercalate
  · intro text member
    rcases List.mem_append.mp member with inside | last
    · exact free text inside
    · rw [List.mem_singleton.mp last]
      exact List.not_mem_nil
  · exact List.append_ne_nil_of_right_ne_nil _ (List.cons_ne_nil _ _)

/-- The lines of the text of a tally are the lines of its families, each with one line feed. -/
theorem splitOn_text (tally : Tally) :
    (text tally).splitOn '\n' = (lines (families tally)).map String.toList ++ [[]] := by
  have mapped : text tally =
      ((lines (families tally)).map String.toList).flatMap fun line => line ++ ['\n'] := by
    rw [text, List.flatMap_map]
  rw [mapped]
  apply splitOn_flatMap
  intro line member
  obtain ⟨line, inside, rfl⟩ := List.mem_map.mp member
  exact oneLine_lines tally line inside

theorem scrape?_text (tally : Tally) :
    scrape? (text tally) =
      some (((families tally).filter (!·.samples.isEmpty)).flatMap Family.entries) := by
  rw [scrape?, splitOn_text, List.dropLast_concat, lines]
  exact mapM_readLine?_flatMap fun family kept =>
    named_families tally family (List.mem_filter.mp kept).1

/-! What is found after some steps -/

/-- What there is to find of some functions: the families, and in each of them every function with
what was counted of it. -/
def found (used : List Labels) (steps : List Tally.Step) : List Entry :=
  let pairs (labels : Labels) :=
    [("app_layer", labels.layer), ("class_function", labels.function)]
  .note "HELP" "failure_counter" "Failure Count" ::
    .note "TYPE" "failure_counter" "counter" ::
    (used.map fun labels =>
      .sample "failure_counter" (pairs labels) (steps.countP (Tally.Step.isFault labels))) ++
  .note "HELP" "success_counter" "Success Count" ::
    .note "TYPE" "success_counter" "counter" ::
    (used.map fun labels =>
      .sample "success_counter" (pairs labels) (steps.countP (Tally.Step.isSuccess labels))) ++
  .note "HELP" "timer" "Duration in seconds" ::
    .note "TYPE" "timer" "histogram" ::
    (used.flatMap fun labels =>
      let calls := steps.countP (Tally.Step.isCall labels)
      [.sample "timer_bucket" (pairs labels ++ [("le", "+Inf")]) calls,
        .sample "timer_count" (pairs labels) calls])

theorem entries_families {used : List Labels} {steps : List Tally.Step}
    {count : Labels → Counts}
    (faults : ∀ labels, (count labels).failures = steps.countP (Tally.Step.isFault labels))
    (successes : ∀ labels, (count labels).successes = steps.countP (Tally.Step.isSuccess labels))
    (calls : ∀ labels, (count labels).timings = steps.countP (Tally.Step.isCall labels)) :
    ((families (used.map fun labels => (labels, count labels))).filter
        (!·.samples.isEmpty)).flatMap Family.entries =
      if used = [] then [] else found used steps := by
  cases used with
  | nil => rfl
  | cons first rest =>
    rw [if_neg (List.cons_ne_nil first rest)]
    simp [families, Family.entries, Kind.label, Sample.entry, Sample.pairs, found, faults,
      successes, calls, Function.comp_def, List.map_flatMap, List.flatMap_map]

theorem family?_found (used : List Labels) (steps : List Tally.Step) :
    (found used steps).filterMap Entry.family? =
      ["failure_counter", "success_counter", "timer"] := by
  simp [found, Entry.family?, Function.comp_def, List.filterMap_flatMap]

/-- After any steps, the text of the counts is read back line by line: of the functions that were
used, and of no others, each family holds one sample of each, or two of a timer, with the number of
its calls, its successes or its failures. Functions are in the order of the bytes of their layers,
then of their names, and families in the order of theirs; each line holds one sample or tells
something of a family, whatever the labels, and the last one is ended like all others. The text is
the one without a timer's sum and its finite buckets, which depend on the time taken. -/
theorem scrape?_after (steps : List Tally.Step) :
    ∃ used : List Labels,
      (∀ labels, labels ∈ used ↔ ∃ step ∈ steps, step.labels = labels) ∧
        used.Nodup ∧ used.Pairwise Labels.BytesBefore ∧
        scrape? (text (Tally.after steps)) = some (if used = [] then [] else found used steps) ∧
        ((text (Tally.after steps)).splitOn '\n').getLast? = some [] ∧
        ((found used steps).filterMap Entry.family?).Pairwise (· < ·) := by
  have ordered := Tally.ordered_after steps
  have ascending : (Tally.after steps).keys.Pairwise fun x y => x.before y = true :=
    List.pairwise_map.mpr ordered
  refine ⟨(Tally.after steps).keys, fun labels => ?_, ?_, ?_, ?_, ?_, ?_⟩
  · rw [Tally.after, Tally.mem_keys_foldl]
    simp [Tally.keys, Tally.empty]
  · refine ascending.imp fun before same => ?_
    rw [same, Labels.before_irrefl] at before
    cases before
  · exact ascending.imp Labels.bytesBefore_of_before
  · have entries := @entries_families (Tally.after steps).keys steps (Tally.after steps).counts
      (fun labels => (Tally.counted steps labels).1)
      (fun labels => (Tally.counted steps labels).2.1)
      (fun labels => (Tally.counted steps labels).2.2)
    rw [← ordered.eq_map_keys] at entries
    rw [scrape?_text, entries]
  · rw [splitOn_text, List.getLast?_concat]
  · rw [family?_found]
    decide

end Exposition

end LineCalc
