import LineCalc.Proofs.Utf8
import LineCalc.Session

set_option autoImplicit false

/- A session goes line by line: what comes of a line does not depend on the lines around it, but
for its number. -/
namespace LineCalc

/-- A record with the number of its line, if it tells one, raised. -/
def LogRecord.raise (count : Nat) : LogRecord → LogRecord
  | .lineFailed line text error => .lineFailed (line + count) text error
  | .lineMalformed line fault => .lineMalformed (line + count) fault
  | record => record

def Diagnostic.raise (count : Nat) (diagnostic : Diagnostic) : Diagnostic :=
  ⟨diagnostic.line + count, diagnostic.fault⟩

def Report.raise (count : Nat) (report : Report) : Report where
  output := report.output
  log := report.log.map (LogRecord.raise count)
  diagnostics := report.diagnostics.map (Diagnostic.raise count)
  failures := report.failures
  calls := report.calls
  stopped := report.stopped

namespace Report

theorem empty_append (report : Report) : Report.append {} report = report := by
  simp [append]

theorem append_empty {report : Report} (going : report.stopped = none) :
    report.append {} = report := by
  obtain ⟨output, log, diagnostics, failures, calls, stopped⟩ := report
  cases going
  simp [append]

theorem append_assoc (first second third : Report) :
    (first.append second).append third = first.append (second.append third) := by
  simp [append, List.append_assoc, Nat.add_assoc]

theorem raise_append (first later : Report) (count : Nat) :
    (first.append later).raise count = (first.raise count).append (later.raise count) := by
  simp [append, raise]

end Report

/-- All bytes of some segments. -/
def Segment.join (segments : List Segment) : Text.Bytes := segments.flatMap Segment.bytes

/-- An output that takes any number of bytes takes all, and does not fail. -/
theorem writeSegments_none (segments : List Segment) :
    writeSegments none segments = ⟨Segment.join segments, none⟩ := by
  induction segments with
  | nil => rfl
  | cons segment rest ih =>
    change Written.mk (segment.bytes ++ (writeSegments none rest).taken)
      (writeSegments none rest).failure = _
    rw [ih]
    rfl

/-- What is logged of a calculation does not tell the line. -/
theorem Outcome.raise_log (outcome : Outcome) (text : List Char) (bindings : Bindings)
    (count : Nat) :
    (outcome.log text bindings).map (LogRecord.raise count) = outcome.log text bindings := by
  cases outcome with
  | rejected reason => rfl
  | failed reason => cases reason <;> rfl
  | evaluated raw =>
    rw [log]
    split <;> rfl

namespace Session

variable (settings : Settings)

theorem runText_raise (number count : Nat) (text : List Char) :
    runText settings none (number + count) text =
      (runText settings none number text).raise count := by
  have same := Outcome.raise_log (settings.calculator.run text settings.bindings) text
    settings.bindings count
  unfold runText
  dsimp only
  split
  · simp [Report.raise, same]
  · simp [Report.raise, same, LogRecord.raise, Diagnostic.raise]

theorem runLine_raise (number count : Nat) (line : Text.Bytes) :
    runLine settings none (number + count) line =
      (runLine settings none number line).raise count := by
  unfold runLine
  split
  · rfl
  · split
    · rfl
    · exact runText_raise settings number count _

theorem runLine_stopped (number : Nat) (line : Text.Bytes) :
    (runLine settings none number line).stopped = none := by
  unfold runLine
  split
  · rfl
  · split
    · rfl
    · unfold runText
      dsimp only
      split
      · rw [writeRecord, writeSegments_none]
      · rfl

theorem runLines_cons (number : Nat) (line : Text.Bytes) (rest : List Text.Bytes) :
    runLines settings none number (line :: rest) =
      (runLine settings none number line).append (runLines settings none (number + 1) rest) := by
  rw [runLines, runLine_stopped]
  rfl

theorem runLines_stopped (number : Nat) (lines : List Text.Bytes) :
    (runLines settings none number lines).stopped = none := by
  induction lines generalizing number with
  | nil => rfl
  | cons line rest ih =>
    rw [runLines_cons]
    exact ih (number + 1)

theorem runLines_raise (number count : Nat) (lines : List Text.Bytes) :
    runLines settings none (number + count) lines =
      (runLines settings none number lines).raise count := by
  induction lines generalizing number with
  | nil => rfl
  | cons line rest ih =>
    rw [runLines_cons, runLines_cons, Report.raise_append, ← runLine_raise,
      Nat.add_right_comm, ih]

theorem runLines_append (number : Nat) (first second : List Text.Bytes) :
    runLines settings none number (first ++ second) =
      (runLines settings none number first).append
        (runLines settings none (number + first.length) second) := by
  induction first generalizing number with
  | nil => exact (Report.empty_append _).symm
  | cons line rest ih =>
    rw [List.cons_append, runLines_cons, runLines_cons, ih, Report.append_assoc,
      List.length_cons, Nat.add_right_comm, Nat.add_assoc]

/-! Cutting an input into lines -/

theorem splitFrom_done (held : Text.Bytes) (done : List Text.Bytes) (input : Text.Bytes) :
    splitFrom held done input =
      (done.reverse ++ (splitFrom held [] input).1, (splitFrom held [] input).2) := by
  induction input generalizing held done with
  | nil => simp [splitFrom]
  | cons b rest ih =>
    by_cases ends : b = lineFeed
    · simp only [splitFrom, if_pos ends]
      rw [ih [] (held.reverse :: done), ih [] [held.reverse]]
      simp
    · simp only [splitFrom, if_neg ends]
      exact ih (b :: held) done

/-- A line feed ends what is held of a line. -/
theorem splitFrom_append (held : Text.Bytes) (done : List Text.Bytes) (x y : Text.Bytes) :
    splitFrom held done (x ++ lineFeed :: y) =
      ((splitFrom held done x).1 ++ (splitFrom held done x).2 :: (split y).1, (split y).2) := by
  induction x generalizing held done with
  | nil =>
    simp only [List.nil_append, splitFrom, ↓reduceIte]
    rw [splitFrom_done, split]
    simp
  | cons b rest ih =>
    by_cases ends : b = lineFeed
    · simp only [List.cons_append, splitFrom, if_pos ends]
      exact ih [] (held.reverse :: done)
    · simp only [List.cons_append, splitFrom, if_neg ends]
      exact ih (b :: held) done

theorem length_splitFrom (held : Text.Bytes) (done : List Text.Bytes) (input : Text.Bytes) :
    (splitFrom held done input).1.length = done.length + input.count lineFeed := by
  induction input generalizing held done with
  | nil => simp [splitFrom]
  | cons b rest ih =>
    by_cases ends : b = lineFeed
    · rw [splitFrom, if_pos ends, ih, ends, List.count_cons_self, List.length_cons]
      omega
    · simp only [splitFrom, if_neg ends, ih, List.count_cons_of_ne ends]

theorem splitFrom_of_not_mem {input : Text.Bytes} (single : lineFeed ∉ input)
    (held : Text.Bytes) (done : List Text.Bytes) :
    splitFrom held done input = (done.reverse, held.reverse ++ input) := by
  induction input generalizing held with
  | nil => simp [splitFrom]
  | cons b rest ih =>
    rw [List.mem_cons, not_or] at single
    rw [splitFrom, if_neg (Ne.symm single.1), ih single.2]
    simp

theorem split_flatMap {ended : List Text.Bytes} {last : Text.Bytes}
    (single : ∀ line ∈ ended, lineFeed ∉ line) (rest : lineFeed ∉ last) :
    split (ended.flatMap (· ++ [lineFeed]) ++ last) = (ended, last) := by
  induction ended with
  | nil => exact splitFrom_of_not_mem rest [] []
  | cons line later ih =>
    have first := splitFrom_of_not_mem (single line List.mem_cons_self) [] []
    have regroup : (line :: later).flatMap (· ++ [lineFeed]) ++ last =
        line ++ lineFeed :: (later.flatMap (· ++ [lineFeed]) ++ last) := by simp
    rw [regroup, split, splitFrom_append, first, ih fun other member =>
      single other (List.mem_cons_of_mem _ member)]
    rfl

/-- What is held of a line belongs to the first piece. -/
theorem splitFrom_pieces (held input : Text.Bytes) (single : lineFeed ∉ held) :
    held.reverse ++ input =
        (splitFrom held [] input).1.flatMap (· ++ [lineFeed]) ++ (splitFrom held [] input).2 ∧
      (∀ line ∈ (splitFrom held [] input).1, lineFeed ∉ line) ∧
      lineFeed ∉ (splitFrom held [] input).2 := by
  induction input generalizing held with
  | nil => simp [splitFrom, single]
  | cons b rest ih =>
    by_cases ends : b = lineFeed
    · obtain ⟨joined, lines, last⟩ := ih [] List.not_mem_nil
      rw [List.reverse_nil, List.nil_append] at joined
      rw [splitFrom, if_pos ends, splitFrom_done]
      refine ⟨?_, fun line member => ?_, last⟩
      · rw [ends, List.reverse_singleton, List.singleton_append, List.flatMap_cons,
          List.append_assoc, List.append_assoc, List.singleton_append, ← joined]
      · rcases List.mem_append.mp member with first | later
        · rw [List.reverse_singleton, List.mem_singleton] at first
          rw [first, List.mem_reverse]
          exact single
        · exact lines line later
    · have longer : lineFeed ∉ b :: held := by
        rw [List.mem_cons, not_or]
        exact ⟨Ne.symm ends, single⟩
      have pieces := ih (b :: held) longer
      rw [splitFrom, if_neg ends]
      rw [List.reverse_cons, List.append_assoc, List.singleton_append] at pieces
      exact pieces

/-- An input is cut at its line feeds, and at nothing else. -/
theorem split_eq_iff {input : Text.Bytes} {ended : List Text.Bytes} {last : Text.Bytes} :
    split input = (ended, last) ↔
      input = ended.flatMap (· ++ [lineFeed]) ++ last ∧ (∀ line ∈ ended, lineFeed ∉ line) ∧
        lineFeed ∉ last := by
  constructor
  · intro cut
    have pieces := splitFrom_pieces [] input List.not_mem_nil
    rw [← split, cut] at pieces
    exact pieces
  · rintro ⟨rfl, lines, rest⟩
    exact split_flatMap lines rest

/-- The lines of an input. What is left behind the last line feed is one if it is anything. -/
def lines (input : Text.Bytes) : List Text.Bytes :=
  let (lines, last) := split input
  if last.isEmpty then lines else lines ++ [last]

/-- The lines are what stands between line feeds, but for an empty end. -/
theorem lines_pieces (input : Text.Bytes) :
    ∃ ended last, input = ended.flatMap (· ++ [lineFeed]) ++ last ∧
      (∀ line ∈ ended, lineFeed ∉ line) ∧ lineFeed ∉ last ∧
      lines input = if last.isEmpty then ended else ended ++ [last] := by
  rcases cut : split input with ⟨ended, last⟩
  obtain ⟨joined, single, rest⟩ := split_eq_iff.mp cut
  refine ⟨ended, last, joined, single, rest, ?_⟩
  rw [lines, cut]

theorem not_mem_of_mem_lines {input line : Text.Bytes} (member : line ∈ lines input) :
    lineFeed ∉ line := by
  obtain ⟨ended, last, _, single, rest, cut⟩ := lines_pieces input
  rw [cut] at member
  split at member
  · exact single line member
  · rcases List.mem_append.mp member with first | final
    · exact single line first
    · rw [List.mem_singleton.mp final]
      exact rest

theorem run_eq_runLines (room : Room) (input : Text.Bytes) :
    run settings room input = runLines settings room 1 (lines input) := rfl

/-- An empty line brings about nothing. -/
theorem runLines_concat_nil (room : Room) (number : Nat) (lines : List Text.Bytes) :
    runLines settings room number (lines ++ [[]]) = runLines settings room number lines := by
  induction lines generalizing room number with
  | nil => rfl
  | cons line rest ih => simp only [List.cons_append, runLines, ih]

/-- It makes no difference whether the bytes after the last line feed count as a line where there
are none. -/
theorem run_eq (room : Room) (input : Text.Bytes) :
    run settings room input =
      runLines settings room 1 ((split input).1 ++ [(split input).2]) := by
  rw [run]
  rcases split input with ⟨lines, last⟩
  cases last with
  | nil => exact (runLines_concat_nil settings room 1 lines).symm
  | cons b last => rfl

/-- Two inputs with a line feed between them bring about what each does by itself, but for the
numbers of the lines. -/
theorem run_lineFeed (x y : Text.Bytes) :
    run settings none (x ++ lineFeed :: y) =
      (run settings none x).append ((run settings none y).raise (x.count lineFeed + 1)) := by
  have cut : split (x ++ lineFeed :: y) =
      ((split x).1 ++ (split x).2 :: (split y).1, (split y).2) := splitFrom_append [] [] x y
  have lines : (split x).1.length = x.count lineFeed := by
    rw [split, length_splitFrom, List.length_nil, Nat.zero_add]
  have regroup : (split x).1 ++ (split x).2 :: (split y).1 ++ [(split y).2] =
      ((split x).1 ++ [(split x).2]) ++ ((split y).1 ++ [(split y).2]) := by simp
  rw [run_eq, run_eq, run_eq, cut, regroup, runLines_append, ← runLines_raise,
    List.length_append, lines]
  rfl

/-- Without a line feed, an input is one line. -/
theorem run_of_not_mem {input : Text.Bytes} (single : lineFeed ∉ input) :
    run settings none input = runLine settings none 1 input := by
  rw [run_eq, split, splitFrom_of_not_mem single]
  exact (runLines_cons settings 1 input []).trans
    (Report.append_empty (runLine_stopped settings 1 input))

/-- A line whose bytes are no text fails. -/
theorem runLine_of_not_text {line : Text.Bytes} (number : Nat)
    (garbled : ∀ text, Text.encode text ≠ dropReturn line) :
    ∃ fault, runLine settings none number line =
      { log := [.lineMalformed number fault]
        diagnostics := [⟨number, .malformed fault⟩]
        failures := 1 } := by
  cases decoded : Text.decode (dropReturn line) with
  | ok text => exact absurd ((Text.decode_eq_ok_iff _ _).mp decoded) (garbled text)
  | error fault =>
    refine ⟨fault, ?_⟩
    rw [runLine, decoded]

theorem runLine_of_text {line : Text.Bytes} {text : List Char} (number : Nat)
    (encoded : Text.encode text = dropReturn line) :
    runLine settings none number line =
      if text.all Text.isBlank then {} else runText settings none number text := by
  rw [runLine, (Text.decode_eq_ok_iff _ _).mpr encoded]

theorem runLine_of_solid {line : Text.Bytes} {text : List Char} (number : Nat)
    (encoded : Text.encode text = dropReturn line) (solid : text.all Text.isBlank = false) :
    runLine settings none number line = runText settings none number text := by
  rw [runLine_of_text settings number encoded, solid, if_neg Bool.false_ne_true]

/-- Lines do not affect each other, but for their numbers. One by itself fails if it is no text,
passes unnoticed if it is blank, and otherwise prints its value or fails. -/
theorem run_by_line :
    (∀ x y, (run settings none (x ++ lineFeed :: y)).output =
        (run settings none x).output ++ (run settings none y).output ∧
      (run settings none (x ++ lineFeed :: y)).failures =
        (run settings none x).failures + (run settings none y).failures ∧
      (run settings none (x ++ lineFeed :: y)).log = (run settings none x).log ++
        (run settings none y).log.map (LogRecord.raise (x.count lineFeed + 1))) ∧
    ∀ x, lineFeed ∉ x →
      ((∀ text, Text.encode text ≠ dropReturn x) →
        (run settings none x).output = [] ∧ (run settings none x).failures = 1 ∧
          ∃ fault, (run settings none x).log = [.lineMalformed 1 fault]) ∧
      ∀ text, Text.encode text = dropReturn x →
        (text.all Text.isBlank = true → run settings none x = {}) ∧
        (text.all Text.isBlank = false →
          match (settings.calculator.run text settings.bindings).result with
          | .ok result =>
            (run settings none x).output = (writeRecord settings.style none result).taken ∧
              (run settings none x).failures = 0
          | .error _ =>
            (run settings none x).output = [] ∧ (run settings none x).failures = 1) := by
  constructor
  · intro x y
    rw [run_lineFeed]
    exact ⟨rfl, rfl, rfl⟩
  · intro x single
    rw [run_of_not_mem settings single]
    refine ⟨fun garbled => ?_, fun text encoded => ?_⟩
    · obtain ⟨fault, failed⟩ := runLine_of_not_text settings 1 garbled
      rw [failed]
      exact ⟨rfl, rfl, fault, rfl⟩
    · rw [runLine_of_text settings 1 encoded]
      refine ⟨fun blank => if_pos blank, fun solid => ?_⟩
      rw [solid, if_neg Bool.false_ne_true, runText]
      cases (settings.calculator.run text settings.bindings).result with
      | ok result => exact ⟨rfl, rfl⟩
      | error error => exact ⟨rfl, rfl⟩

end Session

end LineCalc
