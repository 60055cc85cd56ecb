import LineCalc.Command
import LineCalc.Proofs.FullOutput
import LineCalc.Proofs.Whitelist

set_option autoImplicit false

/- A finished command tells what came of each line: its output holds the results, its errors name
the lines that failed, its status says whether there are any, and its counts say how many lines
were calculated. -/
namespace LineCalc

/-! What a line comes to -/

inductive LineEnd where
  | malformed (fault : Text.Malformed)
  | blank
  | failed (error : ExprError)
  | printed (result : Evaluation)
  deriving DecidableEq

namespace LineEnd

/-- What is printed of a line. -/
def record (style : RecordStyle) : LineEnd → Text.Bytes
  | .printed result => style.record result
  | _ => []

/-- What is wrong with a line. -/
def fault? : LineEnd → Option LineFault
  | .malformed fault => some (.malformed fault)
  | .failed error => some (.failed error)
  | _ => none

/-- The line is a text that is not blank. -/
def isCalculated : LineEnd → Bool
  | .failed _ | .printed _ => true
  | _ => false

theorem fault?_eq_none {ending : LineEnd} :
    ending.fault? = none ↔ ending = .blank ∨ ∃ result, ending = .printed result := by
  cases ending <;> simp [fault?]

end LineEnd

/-- The error of a calculation is told on one line, if the text is one. -/
theorem Calculator.oneLine_message {calculator : Calculator} {text : List Char}
    {bindings : Bindings} {error : ExprError} (single : Text.OneLine text)
    (failed : (calculator.run text bindings).result = .error error) :
    Text.OneLine error.message.toList := by
  rcases result_eq_error failed with ⟨reason, rejected, rfl⟩ | ⟨op, _, rfl⟩
  · exact Rejection.oneLine_message single rejected
  · exact Failure.oneLine_message op

namespace Session

variable {settings : Settings} {line : Text.Bytes}

/-- A line is no text, or it is a blank one, or its text is calculated. -/
inductive ComesTo (settings : Settings) (line : Text.Bytes) : LineEnd → Prop where
  | malformed {fault : Text.Malformed} (garbled : ∀ text, Text.encode text ≠ dropReturn line)
      (found : Text.decode (dropReturn line) = .error fault) :
      ComesTo settings line (.malformed fault)
  | blank {text : List Char} (encodes : Text.encode text = dropReturn line)
      (blank : text.all Text.isBlank = true) : ComesTo settings line .blank
  | failed {text : List Char} {error : ExprError} (encodes : Text.encode text = dropReturn line)
      (solid : text.all Text.isBlank = false)
      (failed : (settings.calculator.run text settings.bindings).result = .error error) :
      ComesTo settings line (.failed error)
  | printed {text : List Char} {result : Evaluation}
      (encodes : Text.encode text = dropReturn line) (solid : text.all Text.isBlank = false)
      (evaluated : (settings.calculator.run text settings.bindings).result = .ok result) :
      ComesTo settings line (.printed result)

def lineEnd (settings : Settings) (line : Text.Bytes) : LineEnd :=
  match Text.decode (dropReturn line) with
  | .error fault => .malformed fault
  | .ok text =>
    if text.all Text.isBlank then .blank
    else
      match (settings.calculator.run text settings.bindings).result with
      | .error error => .failed error
      | .ok result => .printed result

theorem lineEnd_of_text {text : List Char} (encodes : Text.encode text = dropReturn line) :
    lineEnd settings line =
      if text.all Text.isBlank then .blank
      else
        match (settings.calculator.run text settings.bindings).result with
        | .error error => .failed error
        | .ok result => .printed result := by
  rw [lineEnd, (Text.decode_eq_ok_iff _ _).mpr encodes]

theorem comesTo_iff {ending : LineEnd} :
    ComesTo settings line ending ↔ ending = lineEnd settings line := by
  constructor
  · intro comes
    cases comes with
    | malformed garbled found => rw [lineEnd, found]
    | blank encodes blank => rw [lineEnd_of_text encodes, if_pos blank]
    | failed encodes solid failed => simp [lineEnd_of_text encodes, solid, failed]
    | printed encodes solid evaluated => simp [lineEnd_of_text encodes, solid, evaluated]
  · rintro rfl
    cases decoded : Text.decode (dropReturn line) with
    | error fault =>
      rw [lineEnd, decoded]
      exact .malformed (Text.encode_ne_of_decode decoded) decoded
    | ok text =>
      have encodes := (Text.decode_eq_ok_iff _ _).mp decoded
      rw [lineEnd_of_text encodes]
      split
      · rename_i blank
        exact .blank encodes blank
      · rename_i solid
        rw [Bool.not_eq_true] at solid
        split
        · rename_i error failed
          exact .failed encodes solid failed
        · rename_i result evaluated
          exact .printed encodes solid evaluated

theorem comesTo_lineEnd (settings : Settings) (line : Text.Bytes) :
    ComesTo settings line (lineEnd settings line) := comesTo_iff.mpr rfl

/-! What is told of some lines -/

/-- What a report tells of a line that came to its end. -/
structure Tells (settings : Settings) (number : Nat) (ending : LineEnd) (report : Report) :
    Prop where
  output : report.output = ending.record settings.style
  diagnostics : report.diagnostics = (ending.fault?.map (Diagnostic.mk number)).toList
  failures : report.failures = report.diagnostics.length
  calls : report.calls = if ending.isCalculated then [⟨measured, false⟩] else []

theorem ComesTo.tells {ending : LineEnd} (comes : ComesTo settings line ending) (number : Nat) :
    Tells settings number ending (runLine settings none number line) := by
  cases comes with
  | malformed garbled found =>
    rw [runLine, found]
    exact ⟨rfl, rfl, rfl, rfl⟩
  | blank encodes blank =>
    rw [runLine_of_text settings number encodes, if_pos blank]
    exact ⟨rfl, rfl, rfl, rfl⟩
  | @failed text error encodes solid failed =>
    have call := settings.calculator.call_run text settings.bindings measured
    rw [runLine_of_solid settings number encodes solid, runText]
    rw [failed] at call
    simp only [failed, call]
    exact ⟨rfl, rfl, rfl, rfl⟩
  | @printed text result encodes solid evaluated =>
    rw [runLine_of_solid settings number encodes solid, runText]
    simp only [evaluated, writeRecord_none]
    exact ⟨rfl, rfl, rfl, rfl⟩

/-- The faults among some ends, each with its line's number, counted from `number` on. -/
def diagnosticsOf (number : Nat) (ends : List LineEnd) : List Diagnostic :=
  (ends.zipIdx number).filterMap fun (ending, number) =>
    ending.fault?.map (Diagnostic.mk number)

theorem diagnosticsOf_cons (number : Nat) (ending : LineEnd) (rest : List LineEnd) :
    diagnosticsOf number (ending :: rest) =
      (ending.fault?.map (Diagnostic.mk number)).toList ++ diagnosticsOf (number + 1) rest := by
  cases found : ending.fault? with
  | none => simp only [diagnosticsOf, List.zipIdx_cons, List.filterMap_cons, found]; rfl
  | some fault => simp only [diagnosticsOf, List.zipIdx_cons, List.filterMap_cons, found]; rfl

/-- Nothing is told of lines that are blank or have results. -/
theorem diagnosticsOf_eq_nil {number : Nat} {ends : List LineEnd} :
    diagnosticsOf number ends = [] ↔
      ∀ ending ∈ ends, ending = .blank ∨ ∃ result, ending = .printed result := by
  induction ends generalizing number with
  | nil => simp [diagnosticsOf]
  | cons ending rest ih =>
    rw [diagnosticsOf_cons, List.append_eq_nil_iff, List.forall_mem_cons, ih,
      ← LineEnd.fault?_eq_none, Option.toList_eq_nil_iff, Option.map_eq_none_iff]

theorem runLines_tells (settings : Settings) (number : Nat) (lines : List Text.Bytes) :
    (runLines settings none number lines).output =
        (lines.map (lineEnd settings)).flatMap (LineEnd.record settings.style) ∧
      (runLines settings none number lines).diagnostics =
        diagnosticsOf number (lines.map (lineEnd settings)) ∧
      (runLines settings none number lines).failures =
        (runLines settings none number lines).diagnostics.length ∧
      (runLines settings none number lines).calls =
        List.replicate ((lines.map (lineEnd settings)).countP LineEnd.isCalculated)
          ⟨measured, false⟩ := by
  induction lines generalizing number with
  | nil => exact ⟨rfl, rfl, rfl, rfl⟩
  | cons line rest ih =>
    have first := (comesTo_lineEnd settings line).tells number
    obtain ⟨output, diagnostics, failures, calls⟩ := ih (number + 1)
    rw [runLines_cons, List.map_cons]
    refine ⟨?_, ?_, ?_, ?_⟩
    · rw [Report.append, first.output, output, List.flatMap_cons]
    · rw [Report.append, first.diagnostics, diagnostics, diagnosticsOf_cons]
    · rw [Report.append, first.failures, failures, List.length_append]
    · rw [Report.append, first.calls, calls, List.countP_cons]
      split
      · rw [List.replicate_succ]
        rfl
      · rfl

/-! One line for each fault -/

theorem ComesTo.oneLine_message {ending : LineEnd} (comes : ComesTo settings line ending)
    (single : lineFeed ∉ line) {fault : LineFault} (found : ending.fault? = some fault) :
    Text.OneLine fault.message.toList := by
  cases comes with
  | malformed garbled malformed =>
    cases found
    exact Text.Malformed.oneLine_message _
  | blank encodes blank => cases found
  | @failed text error encodes solid failed =>
    cases found
    have whole : Text.OneLine text := by
      intro member
      have byte : lineFeed ∈ Text.encode text :=
        List.mem_flatMap.mpr ⟨'\n', member, List.mem_singleton.mpr rfl⟩
      rw [encodes, dropReturn] at byte
      split at byte
      · exact single ((List.dropLast_sublist _).subset byte)
      · exact single byte
    exact Calculator.oneLine_message whole failed
  | printed encodes solid evaluated => cases found

/-- The diagnostics of an input fit on a line each. -/
theorem oneLine_text {input : Text.Bytes} {number : Nat} {diagnostic : Diagnostic}
    (member : diagnostic ∈ diagnosticsOf number ((lines input).map (lineEnd settings))) :
    Text.OneLine diagnostic.text.toList := by
  obtain ⟨⟨ending, place⟩, indexed, found⟩ := List.mem_filterMap.mp member
  obtain ⟨fault, faulty, rfl⟩ := Option.map_eq_some_iff.mp found
  obtain ⟨line, inside, rfl⟩ := List.mem_map.mp (List.fst_mem_of_mem_zipIdx indexed)
  have message := (comesTo_lineEnd settings line).oneLine_message
    (not_mem_of_mem_lines inside) faulty
  unfold Diagnostic.text
  simp [toString, message]

end Session

/-! Counts -/

namespace Tally

theorem foldl_record_replicate (labels : Labels) (counted count : Nat) :
    (List.replicate count ⟨labels, false⟩).foldl record [(labels, ⟨counted, 0, counted⟩)] =
      [(labels, ⟨counted + count, 0, counted + count⟩)] := by
  induction count generalizing counted with
  | zero => rfl
  | succ count ih =>
    have next : record [(labels, ⟨counted, 0, counted⟩)] ⟨labels, false⟩ =
        [(labels, ⟨counted + 1, 0, counted + 1⟩)] := by simp [record, update, Counts.add]
    rw [List.replicate_succ, List.foldl_cons, next, ih, Nat.add_right_comm, Nat.add_assoc]

/-- A function that is called, but never to blame, has all its calls as successes. -/
theorem foldl_record_empty (labels : Labels) {count : Nat} (called : 0 < count) :
    (List.replicate count ⟨labels, false⟩).foldl record empty =
      [(labels, ⟨count, 0, count⟩)] := by
  obtain ⟨before, rfl⟩ : ∃ before, count = before + 1 := ⟨count - 1, by omega⟩
  have first : record empty ⟨labels, false⟩ = [(labels, ⟨1, 0, 1⟩)] := rfl
  rw [List.replicate_succ, List.foldl_cons, first, foldl_record_replicate, Nat.add_comm]

end Tally

namespace Exposition

/-- The counts after a session in which some lines were calculated, without a timer's sum and its
finite buckets. -/
def calculationLines (count : Nat) : List String :=
  ["# HELP failure_counter Failure Count",
    "# TYPE failure_counter counter",
    "failure_counter\x7bapp_layer=\"service\",class_function=\"evaluate_math\"\x7d 0",
    "# HELP success_counter Success Count",
    "# TYPE success_counter counter",
    "success_counter\x7bapp_layer=\"service\",class_function=\"evaluate_math\"\x7d " ++
      toString count,
    "# HELP timer Duration in seconds",
    "# TYPE timer histogram",
    "timer_bucket\x7bapp_layer=\"service\",class_function=\"evaluate_math\",le=\"+Inf\"\x7d " ++
      toString count,
    "timer_count\x7bapp_layer=\"service\",class_function=\"evaluate_math\"\x7d " ++
      toString count]

theorem lines_families_measured (count : Nat) :
    lines (families [(Session.measured, ⟨count, 0, count⟩)]) = calculationLines count := by
  have layer : labelText "app_layer" "service" = "app_layer=\"service\"" := by decide
  have function : labelText "class_function" "evaluate_math" =
      "class_function=\"evaluate_math\"" := by decide
  have bound : labelText "le" "+Inf" = "le=\"+Inf\"" := by decide
  have zero : Nat.repr 0 = "0" := by decide
  simp [lines, families, Family.lines, Kind.label, Sample.text, Session.measured, layer, function,
    bound, zero, calculationLines]

end Exposition

/-! Commands -/

namespace Command

/-- Errors that fit on a line each are the lines of what is written for them. -/
theorem Completion.split_errorBytes {completion : Completion}
    (single : ∀ line ∈ completion.errors, Text.OneLine line.toList) :
    Session.split completion.errorBytes =
      (completion.errors.map fun line => Text.encode line.toList, []) := by
  have joined : completion.errorBytes =
      (completion.errors.map fun line => Text.encode line.toList).flatMap
        (· ++ [Session.lineFeed]) ++ [] := by
    rw [errorBytes, List.flatMap_map, List.append_nil]
    congr
    funext line
    rw [Text.encode, List.flatMap_append]
    rfl
  rw [joined]
  apply Session.split_flatMap
  · intro bytes member
    obtain ⟨line, inside, rfl⟩ := List.mem_map.mp member
    exact (single line inside).lineFeed_not_mem_encode
  · exact List.not_mem_nil

theorem run_errors (settings : Settings) (input : Text.Bytes) :
    (run settings input).errors =
      let ends := (Session.lines input).map (Session.lineEnd settings)
      (Session.diagnosticsOf 1 ends).map Diagnostic.text ++
        if settings.metrics ∧ 0 < ends.countP LineEnd.isCalculated then
          Exposition.calculationLines (ends.countP LineEnd.isCalculated)
        else [] := by
  obtain ⟨_, diagnostics, _, calls⟩ := Session.runLines_tells settings 1 (Session.lines input)
  rw [← Session.run_eq_runLines] at diagnostics calls
  simp only [run, diagnostics, calls]
  congr 1
  cases settings.metrics with
  | false => simp
  | true =>
    by_cases called : 0 < ((Session.lines input).map (Session.lineEnd settings)).countP
        LineEnd.isCalculated
    · rw [Tally.foldl_record_empty _ called, Exposition.lines_families_measured, if_pos rfl,
        if_pos ⟨rfl, called⟩]
    · rw [Nat.eq_zero_of_not_pos called]
      rfl

theorem oneLine_errors (settings : Settings) (input : Text.Bytes) :
    ∀ line ∈ (run settings input).errors, Text.OneLine line.toList := by
  obtain ⟨_, diagnostics, _, _⟩ := Session.runLines_tells settings 1 (Session.lines input)
  rw [← Session.run_eq_runLines] at diagnostics
  intro line member
  rcases List.mem_append.mp member with told | counted
  · rw [diagnostics] at told
    obtain ⟨diagnostic, inside, rfl⟩ := List.mem_map.mp told
    exact Session.oneLine_text inside
  · split at counted
    · exact Exposition.oneLine_lines _ line counted
    · cases counted

/-- The status is zero if nothing is told of any line. -/
theorem run_status (settings : Settings) (input : Text.Bytes) :
    (run settings input).status =
      if Session.diagnosticsOf 1 ((Session.lines input).map (Session.lineEnd settings)) = []
      then 0 else 1 := by
  obtain ⟨_, diagnostics, failures, _⟩ :=
    Session.runLines_tells settings 1 (Session.lines input)
  rw [← Session.run_eq_runLines] at diagnostics failures
  rw [run, failures, diagnostics]
  cases Session.diagnosticsOf 1 ((Session.lines input).map (Session.lineEnd settings)) with
  | nil => rfl
  | cons first rest => rfl

/-- With settings that load, a command prints the results of its lines in turn; the lines are what
stands between line feeds. The status is zero if each line is blank or has a result, and one
otherwise. The errors are a line for each line that failed, with its number, and behind them, if
they are asked for and any line was calculated, the counts: all lines that were calculated are
successes. Of the lines for the counts, those that depend on the time taken are left out. -/
theorem completion_by_line {environment : Settings.Environment} {settings : Settings}
    (loads : Settings.load environment = .ok settings) :
    ∃ command, ofEnvironment environment = .ok command ∧
      (∀ line ending, Session.ComesTo settings line ending ↔
        ending = Session.lineEnd settings line) ∧
      ∀ input,
        let ends := (Session.lines input).map (Session.lineEnd settings)
        let calculated := ends.countP LineEnd.isCalculated
        (∃ ended last, input = ended.flatMap (· ++ [Session.lineFeed]) ++ last ∧
            (∀ line ∈ ended, Session.lineFeed ∉ line) ∧ Session.lineFeed ∉ last ∧
            Session.lines input = if last.isEmpty then ended else ended ++ [last]) ∧
          (command input).output = ends.flatMap (LineEnd.record settings.style) ∧
          ((command input).status = 0 ∨ (command input).status = 1) ∧
          ((command input).status = 0 ↔
            ∀ ending ∈ ends, ending = .blank ∨ ∃ result, ending = .printed result) ∧
          Session.split (command input).errorBytes =
            (((Session.diagnosticsOf 1 ends).map
                (fun diagnostic => s!"line {diagnostic.line}: " ++ diagnostic.fault.message) ++
              if settings.metrics ∧ 0 < calculated then Exposition.calculationLines calculated
              else []).map fun line => Text.encode line.toList, []) := by
  refine ⟨run settings, ?_, fun line ending => Session.comesTo_iff, fun input => ?_⟩
  · rw [ofEnvironment, loads]
    rfl
  have output := (Session.runLines_tells settings 1 (Session.lines input)).1
  refine ⟨Session.lines_pieces input, output, ?_, ?_, ?_⟩
  · rw [run_status]
    split
    · exact .inl rfl
    · exact .inr rfl
  · rw [run_status, ← @Session.diagnosticsOf_eq_nil 1]
    split
    · rename_i clean
      exact iff_of_true rfl clean
    · rename_i faulty
      exact iff_of_false Nat.one_ne_zero faulty
  · rw [Completion.split_errorBytes (oneLine_errors settings input), run_errors]
    rfl

/-- An expression and a byte that is no text, with the counts asked for. -/
theorem completion_metrics :
    ∃ command, ofEnvironment [⟨"APP_METRICS", "true"⟩] = .ok command ∧
      (command [0x31, 0x0a, 0xff]).status = 1 ∧
      Session.split (command [0x31, 0x0a, 0xff]).errorBytes =
        (("line 2: invalid utf-8 sequence of 1 bytes from index 0" ::
          Exposition.calculationLines 1).map fun line => Text.encode line.toList, []) := by
  have path : (Settings.Assignment.mk "APP_METRICS" "true").path? = some ["metrics"] := by
    decide +kernel
  have letters : "true".toList = ['t', 'r', 'u', 'e'] := by decide
  have read : Settings.Value.ofText? ['t', 'r', 'u', 'e'] = some (.bool true) := rfl
  have value : Settings.Environment.value [⟨"APP_METRICS", "true"⟩] =
      .ok (.map [("metrics", .bool true)]) := by
    simp only [Settings.Environment.value, List.foldlM_cons, List.foldlM_nil, path, letters, read]
    rfl
  have loads : Settings.load [⟨"APP_METRICS", "true"⟩] = .ok { metrics := true } := by
    rw [Settings.load, value]
    rfl
  have ends : (Session.lines [0x31, 0x0a, 0xff]).map (Session.lineEnd { metrics := true }) =
      [.printed (.ofValue (.ofInt 1)), .malformed ⟨0, some 1⟩] := by decide +kernel
  obtain ⟨command, ran, _, completes⟩ := completion_by_line loads
  obtain ⟨_, _, binary, zero, told⟩ := completes [0x31, 0x0a, 0xff]
  rw [ends] at zero told
  refine ⟨command, ran, ?_, told⟩
  refine binary.resolve_left fun clean => ?_
  have fine := zero.mp clean (.malformed ⟨0, some 1⟩) (by simp)
  rcases fine with blank | ⟨result, printed⟩
  · cases blank
  · cases printed

end Command

end LineCalc
