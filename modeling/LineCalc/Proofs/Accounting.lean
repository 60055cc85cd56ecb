import LineCalc.Proofs.FullOutput
import LineCalc.Proofs.Whitelist

set_option autoImplicit false

/- A log accounts for every line that was read, however the session ended: for each it tells what
came of the line, and of a line that is blank nothing. -/
namespace LineCalc

/-- The result that a record of a calculation tells. -/
def LogRecord.traced? : LogRecord → Option Evaluation
  | .evaluated _ _ result => some result
  | _ => none

/-- Only results are logged as traces. -/
theorem LogRecord.countP_trace (log : List LogRecord) :
    log.countP (·.level == .trace) = (log.filterMap LogRecord.traced?).length := by
  rw [List.length_filterMap_eq_countP]
  congr 1
  funext record
  cases record <;> rfl

/-- A full output is not reported as a broken input. -/
theorem OutputFormat.failureAt_ne (format : OutputFormat) (byte : Option UInt8) :
    format.failureAt byte ≠ .io .inputBroken := by
  cases format with
  | text => simp [failureAt]
  | json =>
    rw [failureAt]
    split <;> simp

namespace Session

variable {settings : Settings} {number : Nat} {line : Text.Bytes} {log : List LogRecord}

/-- What is logged of the line with a number. A text that is no expression, for whatever reason, and
one that divides by zero each make a record of their own before the line's warning; "not a number"
makes one before the result. -/
inductive Logs (settings : Settings) (number : Nat) (line : Text.Bytes) :
    List LogRecord → Prop where
  | malformed {fault : Text.Malformed} (garbled : ∀ text, Text.encode text ≠ dropReturn line)
      (found : Text.decode (dropReturn line) = .error fault) :
      Logs settings number line [.lineMalformed number fault]
  | blank {text : List Char} (encodes : Text.encode text = dropReturn line)
      (blank : text.all Text.isBlank = true) : Logs settings number line []
  | rejected {text : List Char} {reason : Rejection}
      (encodes : Text.encode text = dropReturn line) (solid : text.all Text.isBlank = false)
      (rejected : parse settings.calculator.limit text = .error reason) :
      Logs settings number line
        [.rejected text reason, .lineFailed number text (.rejected reason)]
  | failed {text : List Char} {e : Expr} {op : Operator}
      (encodes : Text.encode text = dropReturn line) (solid : text.all Text.isBlank = false)
      (accepted : parse settings.calculator.limit text = .ok e)
      (failed : evaluate settings.bindings e = .error (.divisionByZero op)) :
      Logs settings number line [.failed text (.divisionByZero op),
        .lineFailed number text (.failed (.divisionByZero op))]
  | evaluated {text : List Char} {e : Expr} {raw : Binary64}
      (encodes : Text.encode text = dropReturn line) (solid : text.all Text.isBlank = false)
      (accepted : parse settings.calculator.limit text = .ok e)
      (value : evaluate settings.bindings e = .ok raw) :
      Logs settings number line ((if raw.isNan then [.sanitized] else []) ++
        [.evaluated text settings.bindings (.ofValue raw)])

/-- Every line is one that something is logged of, or a blank one. -/
theorem Logs.exists (settings : Settings) (number : Nat) (line : Text.Bytes) :
    ∃ log, Logs settings number line log := by
  cases decoded : Text.decode (dropReturn line) with
  | error fault => exact ⟨_, .malformed (Text.encode_ne_of_decode decoded) decoded⟩
  | ok text =>
    have encodes := (Text.decode_eq_ok_iff _ _).mp decoded
    cases blank : text.all Text.isBlank with
    | true => exact ⟨_, .blank encodes blank⟩
    | false =>
      cases accepted : parse settings.calculator.limit text with
      | error reason => exact ⟨_, .rejected encodes blank accepted⟩
      | ok e =>
        cases value : evaluate settings.bindings e with
        | ok raw => exact ⟨_, .evaluated encodes blank accepted value⟩
        | error reason =>
          have failed : settings.calculator.run text settings.bindings = .failed reason := by
            simp only [Calculator.run, accepted, value]
          obtain ⟨op, _, rfl⟩ := Calculator.run_eq_failed failed
          exact ⟨_, .failed encodes blank accepted value⟩

/-- The log of a report accounts for its failures and for its output. -/
structure Balanced (settings : Settings) (report : Report) : Prop where
  warnings : report.log.countP (·.level == .warn) = report.failures
  output : report.output =
    (report.log.filterMap LogRecord.traced?).flatMap settings.style.record

theorem Balanced.append {first later : Report} (before : Balanced settings first)
    (after : Balanced settings later) : Balanced settings (first.append later) where
  warnings := by
    rw [Report.append, List.countP_append, before.warnings, after.warnings]
  output := by
    rw [Report.append, List.filterMap_append, List.flatMap_append, before.output, after.output]

theorem Logs.accounts (logs : Logs settings number line log) :
    (runLine settings none number line).log = log ∧
      Balanced settings (runLine settings none number line) := by
  cases logs with
  | malformed garbled found =>
    rw [runLine, found]
    exact ⟨rfl, rfl, rfl⟩
  | blank encodes blank =>
    rw [runLine_of_text settings number encodes, if_pos blank]
    exact ⟨rfl, rfl, rfl⟩
  | @rejected text reason encodes solid rejected =>
    have outcome : settings.calculator.run text settings.bindings = .rejected reason := by
      simp only [Calculator.run, rejected]
    rw [runLine_of_solid settings number encodes solid, runText, outcome]
    exact ⟨rfl, rfl, rfl⟩
  | @failed text e op encodes solid accepted failed =>
    have outcome : settings.calculator.run text settings.bindings =
        .failed (.divisionByZero op) := by
      simp only [Calculator.run, accepted, failed]
    rw [runLine_of_solid settings number encodes solid, runText, outcome]
    exact ⟨rfl, rfl, rfl⟩
  | @evaluated text e raw encodes solid accepted value =>
    have outcome : settings.calculator.run text settings.bindings = .evaluated raw := by
      simp only [Calculator.run, accepted, value]
    rw [runLine_of_solid settings number encodes solid, runText, outcome]
    dsimp only [Outcome.result, Outcome.log]
    rw [writeRecord_none]
    refine ⟨rfl, ?_, ?_⟩
    · cases raw.isNan <;> rfl
    · cases raw.isNan <;> exact (List.append_nil _).symm

/-- A line is logged in one way. -/
theorem logs_iff : Logs settings number line log ↔
    log = (runLine settings none number line).log := by
  constructor
  · intro logs
    exact logs.accounts.1.symm
  · rintro rfl
    obtain ⟨log, logs⟩ := Logs.exists settings number line
    rwa [logs.accounts.1]

/-! Lines one after the other -/

/-- The logs of some lines in turn, numbered from a number on. -/
inductive LogsFrom (settings : Settings) : Nat → List Text.Bytes → List LogRecord → Prop where
  | nil {number : Nat} : LogsFrom settings number [] []
  | cons {number : Nat} {line : Text.Bytes} {rest : List Text.Bytes} {first later : List LogRecord}
      (head : Logs settings number line first) (tail : LogsFrom settings (number + 1) rest later) :
      LogsFrom settings number (line :: rest) (first ++ later)

theorem runLines_accounts (settings : Settings) (number : Nat) (lines : List Text.Bytes) :
    LogsFrom settings number lines (runLines settings none number lines).log ∧
      Balanced settings (runLines settings none number lines) := by
  induction lines generalizing number with
  | nil => exact ⟨.nil, rfl, rfl⟩
  | cons line rest ih =>
    obtain ⟨logs, balanced⟩ := ih (number + 1)
    have first : Logs settings number line (runLine settings none number line).log :=
      logs_iff.mpr rfl
    rw [runLines_cons]
    exact ⟨.cons first logs, first.accounts.2.append balanced⟩

/-- The log of a line that prints a result tells that result alone. -/
theorem Prints.traced {text : List Char} {result : Evaluation}
    (prints : Prints settings number line text result) :
    (runLine settings none number line).log.filterMap LogRecord.traced? = [result] := by
  obtain ⟨log, logs⟩ := Logs.exists settings number line
  have last := prints.logged
  rw [logs.accounts.1] at last ⊢
  cases logs with
  | @evaluated _ e raw encodes solid accepted value =>
    rw [List.getLast?_concat] at last
    cases last
    cases raw.isNan <;> rfl
  | _ => cases last

/-! Whole runs -/

/-- All lines were read. Each failure has its warning, and each record that was written the trace of
its result. -/
structure Complete (settings : Settings) (lines : List Text.Bytes) (report : Report) : Prop where
  log : LogsFrom settings 1 lines report.log
  warnings : report.log.countP (·.level == .warn) = report.failures
  records : ∃ results, report.log.filterMap LogRecord.traced? = results ∧
    report.output = results.flatMap settings.style.record ∧
    report.log.countP (·.level == .trace) = results.length

/-- The output failed amid the record of the last line that was read, which has its trace, as have
all records before it. -/
structure CutOff (settings : Settings) (lines : List Text.Bytes) (report : Report) : Prop where
  log : ∃ read unread, lines = read ++ unread ∧ LogsFrom settings 1 read report.log
  records : ∃ results text last part,
    report.log.filterMap LogRecord.traced? = results ++ [last] ∧
    report.log.getLast? = some (.evaluated text settings.bindings last) ∧
    report.output = results.flatMap settings.style.record ++ part ∧
    part <+: settings.style.record last ∧ part.length < (settings.style.record last).length ∧
    report.log.countP (·.level == .trace) = results.length + 1

theorem complete_runLines (settings : Settings) (lines : List Text.Bytes) :
    Complete settings lines (runLines settings none 1 lines) := by
  obtain ⟨logs, balanced⟩ := runLines_accounts settings 1 lines
  exact ⟨logs, balanced.warnings, _, rfl, balanced.output, LogRecord.countP_trace _⟩

theorem cutOff_runLines {room : Nat} {before after : List Text.Bytes} {text : List Char}
    {result : Evaluation} (error : ServiceError)
    (prints : Prints settings (1 + before.length) line text result)
    (lower : (runLines settings none 1 before).output.length ≤ room)
    (upper : room < (runLines settings none 1 (before ++ [line])).output.length) :
    CutOff settings (before ++ line :: after)
      ((runLines settings none 1 (before ++ [line])).cut room error) := by
  obtain ⟨logs, _⟩ := runLines_accounts settings 1 (before ++ [line])
  obtain ⟨_, earlier⟩ := runLines_accounts settings 1 before
  have joined := runLines_concat settings 1 before line
  have traced : (runLines settings none 1 (before ++ [line])).log.filterMap LogRecord.traced? =
      (runLines settings none 1 before).log.filterMap LogRecord.traced? ++ [result] := by
    rw [joined, Report.append, List.filterMap_append, prints.traced]
  have output : (runLines settings none 1 (before ++ [line])).output =
      (runLines settings none 1 before).output ++ settings.style.record result := by
    rw [joined, Report.append, prints.output]
  rw [output, List.length_append] at upper
  -- The output fills up within the record of the last line, so that only this one is cut.
  let part := (settings.style.record result).take
    (room - (runLines settings none 1 before).output.length)
  have taken : (runLines settings none 1 (before ++ [line])).output.take room =
      (runLines settings none 1 before).output ++ part := by
    rw [output, List.take_append, List.take_of_length_le lower]
  have last : (runLines settings none 1 (before ++ [line])).log.getLast? =
      some (.evaluated text settings.bindings result) := by
    rw [joined, Report.append, List.getLast?_append, prints.logged]
    rfl
  refine ⟨⟨before ++ [line], after, by simp, logs⟩, _, text, result, part, traced, last, ?_,
    List.take_prefix _ _, ?_, ?_⟩
  · rw [Report.cut, taken, earlier.output]
  · rw [List.length_take]
    omega
  · rw [Report.cut, LogRecord.countP_trace, traced, List.length_append, List.length_singleton]

theorem runLines_complete_or_cutOff (settings : Settings) (room : Room)
    (lines : List Text.Bytes) :
    ((runLines settings room 1 lines).stopped = none ∧
        Complete settings lines (runLines settings room 1 lines)) ∨
      ∃ error, (runLines settings room 1 lines).stopped = some error ∧
        error ≠ .io .inputBroken ∧ CutOff settings lines (runLines settings room 1 lines) := by
  cases room with
  | none => exact .inl ⟨runLines_stopped settings 1 lines, complete_runLines settings lines⟩
  | some room =>
    by_cases fits : (runLines settings none 1 lines).output.length ≤ room
    · rw [runLines_of_le settings fits]
      exact .inl ⟨runLines_stopped settings 1 lines, complete_runLines settings lines⟩
    · obtain ⟨before, line, after, rfl, ⟨text, result, prints⟩, lower, upper, ran⟩ :=
        runLines_of_lt settings (Nat.not_le.mp fits)
      rw [ran]
      exact .inr ⟨_, rfl, OutputFormat.failureAt_ne _ _, cutOff_runLines _ prints lower upper⟩

theorem ended_of_or {lines : List Text.Bytes} {report : Report} {undisturbed : Option ServiceError}
    (ended : report.stopped = undisturbed ∧ Complete settings lines report ∨
      report.stopped ≠ undisturbed ∧ CutOff settings lines report) :
    (report.stopped = undisturbed → Complete settings lines report) ∧
      (report.stopped ≠ undisturbed → CutOff settings lines report) := by
  rcases ended with ⟨same, complete⟩ | ⟨other, cut⟩
  · exact ⟨fun _ => complete, absurd same⟩
  · exact ⟨fun same => absurd same other, fun _ => cut⟩

/-- The log of a session accounts for all lines, or for all up to the one whose record the output
failed to take. Lines of an input that breaks off are those that a line feed ends. -/
theorem log_by_line (settings : Settings) (room : Room) (input : Text.Bytes) :
    (∀ number line log, Logs settings number line log ↔
      log = (runLine settings none number line).log) ∧
    ((run settings room input).stopped = none →
      Complete settings (lines input) (run settings room input)) ∧
    ((run settings room input).stopped ≠ none →
      CutOff settings (lines input) (run settings room input)) ∧
    ((runBroken settings room input).stopped = some (.io .inputBroken) →
      Complete settings (split input).1 (runBroken settings room input)) ∧
    ((runBroken settings room input).stopped ≠ some (.io .inputBroken) →
      CutOff settings (split input).1 (runBroken settings room input)) := by
  have whole : (run settings room input).stopped = none ∧
        Complete settings (lines input) (run settings room input) ∨
      (run settings room input).stopped ≠ none ∧
        CutOff settings (lines input) (run settings room input) := by
    rcases runLines_complete_or_cutOff settings room (lines input) with
      complete | ⟨error, stopped, _, cut⟩
    · exact .inl complete
    · rw [run_eq_runLines, stopped]
      exact .inr ⟨Option.some_ne_none error, cut⟩
  have broken : (runBroken settings room input).stopped = some (.io .inputBroken) ∧
        Complete settings (split input).1 (runBroken settings room input) ∨
      (runBroken settings room input).stopped ≠ some (.io .inputBroken) ∧
        CutOff settings (split input).1 (runBroken settings room input) := by
    rcases runLines_complete_or_cutOff settings room (split input).1 with
      ⟨going, complete⟩ | ⟨error, stopped, other, cut⟩
    · rw [runBroken, going]
      exact .inl ⟨rfl, complete.log, complete.warnings, complete.records⟩
    · have same : runBroken settings room input =
          runLines settings room 1 (split input).1 := by rw [runBroken, stopped]
      rw [same, stopped]
      exact .inr ⟨mt Option.some.inj other, cut⟩
  obtain ⟨unfailed, failed⟩ := ended_of_or whole
  exact ⟨fun number line log => logs_iff, unfailed, failed, ended_of_or broken⟩

/-- The lines x, 1 and 2, of which the numbers have records of 22 bytes each. There is room for the
first of them, or not even for that. -/
theorem log_by_line_amid :
    (run {} (some 25) [120, 10, 49, 10, 50]).stopped = some (.io .outputFull) ∧
    (run {} (some 25) [120, 10, 49, 10, 50]).log.map LogRecord.level =
      [.debug, .warn, .trace, .trace] ∧
    CutOff {} [[120], [49], [50]] (run {} (some 25) [120, 10, 49, 10, 50]) ∧
    (runBroken {} (some 21) [120, 10, 49, 10, 50]).stopped = some (.io .outputFull) ∧
    CutOff {} [[120], [49]] (runBroken {} (some 21) [120, 10, 49, 10, 50]) := by
  have full : (run {} (some 25) [120, 10, 49, 10, 50]).stopped = some (.io .outputFull) := by
    decide +kernel
  have broken : (runBroken {} (some 21) [120, 10, 49, 10, 50]).stopped =
      some (.io .outputFull) := by decide +kernel
  obtain ⟨_, _, cut, _, _⟩ := log_by_line {} (some 25) [120, 10, 49, 10, 50]
  obtain ⟨_, _, _, _, cutToo⟩ := log_by_line {} (some 21) [120, 10, 49, 10, 50]
  refine ⟨full, by decide +kernel, cut ?_, broken, cutToo ?_⟩
  · rw [full]
    nofun
  · rw [broken]
    nofun

end Session

end LineCalc
