import LineCalc.Proofs.OneLine

set_option autoImplicit false

/- An output that fills up takes the start of what would be written, and the session ends amid the
line whose record it cuts off. -/
namespace LineCalc

/-! Segments -/

theorem writeSegments_of_le {room : Nat} {segments : List Segment}
    (fits : (Segment.join segments).length ≤ room) :
    writeSegments (some room) segments = ⟨Segment.join segments, none⟩ := by
  induction segments generalizing room with
  | nil => rfl
  | cons segment rest ih =>
    have size : (Segment.join (segment :: rest)).length =
        segment.bytes.length + (Segment.join rest).length := List.length_append
    have takes : Room.takes (some room) segment.bytes.length = true :=
      decide_eq_true (by omega)
    have remaining : (Segment.join rest).length ≤ room - segment.bytes.length := by omega
    have later := ih remaining
    rw [writeSegments, if_pos takes, Room.after, Option.map_some, later]
    rfl

/-- What is written is cut within one segment, and fails as that segment does. -/
theorem writeSegments_of_lt {room : Nat} {segments : List Segment}
    (short : room < (Segment.join segments).length) :
    ∃ before segment after, segments = before ++ segment :: after ∧
      (Segment.join before).length ≤ room ∧
      room < (Segment.join before).length + segment.bytes.length ∧
      writeSegments (some room) segments =
        ⟨(Segment.join segments).take room, some segment.failure⟩ := by
  induction segments generalizing room with
  | nil => exact absurd short (Nat.not_lt_zero room)
  | cons segment rest ih =>
    have parts : Segment.join (segment :: rest) = segment.bytes ++ Segment.join rest := rfl
    rw [parts, List.length_append] at short
    by_cases fits : segment.bytes.length ≤ room
    · have remaining : room - segment.bytes.length < (Segment.join rest).length := by omega
      obtain ⟨before, last, after, rfl, lower, upper, written⟩ := ih remaining
      have takes : Room.takes (some room) segment.bytes.length = true := decide_eq_true fits
      have front : Segment.join (segment :: before) = segment.bytes ++ Segment.join before := rfl
      refine ⟨segment :: before, last, after, rfl, ?_, ?_, ?_⟩
      · rw [front, List.length_append]
        omega
      · rw [front, List.length_append]
        omega
      · rw [writeSegments, if_pos takes, Room.after, Option.map_some, written, parts,
          List.take_append, List.take_of_length_le fits]
    · have full : ¬Room.takes (some room) segment.bytes.length = true :=
        fun takes => fits (of_decide_eq_true takes)
      refine ⟨[], segment, rest, rfl, Nat.zero_le room, ?_, ?_⟩
      · rw [Segment.join, List.flatMap_nil, List.length_nil]
        omega
      · rw [writeSegments, if_neg full, parts, List.take_append_of_le_length (by omega)]
        rfl

/-! Records -/

/-- How a full output is reported, by the byte that it did not take. -/
def OutputFormat.failureAt (format : OutputFormat) (byte : Option UInt8) : ServiceError :=
  match format with
  | .text => .io .outputFull
  | .json => if byte = some Session.lineFeed then .io .outputFull else .serialize .outputFull

namespace RecordStyle

/-- The bytes of a result's record. -/
def record (style : RecordStyle) (result : Evaluation) : Text.Bytes :=
  Segment.join (style.segments result)

theorem record_json {style : RecordStyle} (json : style.format = .json) (result : Evaluation) :
    style.record result = Text.encode (jsonObject result) ++ [Session.lineFeed] := by
  rw [record, segments, json]
  rfl

/-- In a JSON record only the last byte is a line feed. -/
theorem record_getElem?_eq_lineFeed {style : RecordStyle} (json : style.format = .json)
    (result : Evaluation) (place : Nat) :
    (style.record result)[place]? = some Session.lineFeed ↔
      place + 1 = (style.record result).length := by
  have absent := (oneLine_jsonObject result).lineFeed_not_mem_encode
  rw [record_json json, List.length_append, List.length_singleton]
  constructor
  · intro found
    by_cases inside : place < (Text.encode (jsonObject result)).length
    · rw [List.getElem?_append_left inside] at found
      exact absurd (List.mem_of_getElem? found) absent
    · rw [List.getElem?_append_right (by omega), List.getElem?_singleton] at found
      split at found
      · omega
      · cases found
  · intro last
    obtain rfl : place = (Text.encode (jsonObject result)).length := by omega
    exact List.getElem?_concat_length

end RecordStyle

theorem writeRecord_none (style : RecordStyle) (result : Evaluation) :
    writeRecord style none result = ⟨style.record result, none⟩ := writeSegments_none _

theorem writeRecord_of_le {style : RecordStyle} {room : Nat} {result : Evaluation}
    (fits : (style.record result).length ≤ room) :
    writeRecord style (some room) result = ⟨style.record result, none⟩ := writeSegments_of_le fits

theorem writeRecord_of_lt {style : RecordStyle} {room : Nat} {result : Evaluation}
    (short : room < (style.record result).length) :
    writeRecord style (some room) result =
      ⟨(style.record result).take room,
        some (style.format.failureAt (style.record result)[room]?)⟩ := by
  obtain ⟨before, segment, after, parts, lower, upper, written⟩ := writeSegments_of_lt short
  rw [writeRecord, written]
  suffices failure : segment.failure = style.format.failureAt (style.record result)[room]? by
    rw [failure]
    rfl
  cases format : style.format with
  | text =>
    rw [RecordStyle.segments, format] at parts
    have member : segment ∈ before ++ segment :: after := by simp
    rw [← parts, List.mem_singleton] at member
    rw [member]
    rfl
  | json =>
    have place := RecordStyle.record_getElem?_eq_lineFeed format result room
    rw [RecordStyle.record_json format, List.length_append, List.length_singleton] at place short
    rw [OutputFormat.failureAt, RecordStyle.record_json format]
    simp only [place]
    rw [RecordStyle.segments, format] at parts
    -- The cut is in the object, or it is the line feed behind it that finds no room.
    cases before with
    | nil =>
      cases parts
      change room < 0 + (Text.encode (RecordStyle.jsonObject result)).length at upper
      rw [if_neg (by omega)]
    | cons object before =>
      cases before with
      | nil =>
        cases parts
        have size : (Segment.join [⟨Text.encode (RecordStyle.jsonObject result),
            .serialize .outputFull⟩]).length =
            (Text.encode (RecordStyle.jsonObject result)).length := by simp [Segment.join]
        rw [size] at lower
        rw [if_pos (by omega)]
      | cons second before => simp at parts

/-! Sessions -/

/-- A calculation with a result logs it last. -/
theorem Outcome.getLast?_log {outcome : Outcome} {text : List Char} {bindings : Bindings}
    {result : Evaluation} (evaluated : outcome.result = .ok result) :
    (outcome.log text bindings).getLast? = some (.evaluated text bindings result) := by
  cases outcome with
  | rejected reason => cases evaluated
  | failed reason => cases evaluated
  | evaluated raw =>
    cases evaluated
    exact List.getLast?_concat

/-- A report of which the output ends early. -/
def Report.cut (report : Report) (room : Nat) (error : ServiceError) : Report :=
  { report with output := report.output.take room, stopped := some error }

theorem Report.append_cut {first : Report} {room : Nat} (fits : first.output.length ≤ room)
    (later : Report) (error : ServiceError) :
    (first.append later).cut room error =
      first.append (later.cut (room - first.output.length) error) := by
  simp only [cut, append, List.take_append, List.take_of_length_le fits]

namespace Session

variable (settings : Settings)

/-- The line's text is an expression with a value, and its record is all that it writes. -/
structure Prints (number : Nat) (line : Text.Bytes) (text : List Char) (result : Evaluation) :
    Prop where
  encodes : Text.encode text = dropReturn line
  evaluates : (settings.calculator.run text settings.bindings).result = .ok result
  output : (runLine settings none number line).output = settings.style.record result
  logged : (runLine settings none number line).log.getLast? =
    some (.evaluated text settings.bindings result)

/-- The room of the output matters only to a line that prints a result. -/
theorem runLine_cases (number : Nat) (line : Text.Bytes) :
    (∃ report : Report, report.output = [] ∧
      ∀ room, runLine settings room number line = report) ∨
    ∃ text result, Text.encode text = dropReturn line ∧
      (settings.calculator.run text settings.bindings).result = .ok result ∧
      ∀ room, runLine settings room number line =
        { output := (writeRecord settings.style room result).taken
          log := (settings.calculator.run text settings.bindings).log text settings.bindings
          calls := [Call.of measured (.ok result : Except ExprError Evaluation)]
          stopped := (writeRecord settings.style room result).failure } := by
  cases decoded : Text.decode (dropReturn line) with
  | error fault =>
    refine .inl ⟨runLine settings none number line, ?_, fun room => ?_⟩
    · rw [runLine, decoded]
    · rw [runLine, runLine, decoded]
  | ok text =>
    by_cases blank : text.all Text.isBlank = true
    · refine .inl ⟨{}, rfl, fun room => ?_⟩
      rw [runLine, decoded]
      exact if_pos blank
    · have ran : ∀ room, runLine settings room number line =
          runText settings room number text := by
        intro room
        rw [runLine, decoded]
        exact if_neg blank
      cases evaluated : (settings.calculator.run text settings.bindings).result with
      | error error =>
        refine .inl ⟨runText settings none number text, ?_, fun room => ?_⟩
        · simp only [runText, evaluated]
        · rw [ran]
          simp only [runText, evaluated]
      | ok result =>
        refine .inr ⟨text, result, (Text.decode_eq_ok_iff _ _).mp decoded, evaluated,
          fun room => ?_⟩
        rw [ran]
        simp only [runText, evaluated]

theorem runLine_of_le {room number : Nat} {line : Text.Bytes}
    (fits : (runLine settings none number line).output.length ≤ room) :
    runLine settings (some room) number line = runLine settings none number line := by
  rcases runLine_cases settings number line with
    ⟨report, _, ran⟩ | ⟨text, result, _, _, ran⟩
  · rw [ran, ran]
  · rw [ran, writeRecord_none] at fits
    rw [ran, ran, writeRecord_none, writeRecord_of_le fits]

/-- A line that an output cuts off prints a result. All else of the line is as without a limit. -/
theorem runLine_of_lt {room number : Nat} {line : Text.Bytes}
    (short : room < (runLine settings none number line).output.length) :
    (∃ text result, Prints settings number line text result) ∧
      runLine settings (some room) number line =
        (runLine settings none number line).cut room
          (settings.style.format.failureAt (runLine settings none number line).output[room]?) := by
  rcases runLine_cases settings number line with
    ⟨report, empty, ran⟩ | ⟨text, result, encodes, evaluated, ran⟩
  · rw [ran, empty] at short
    exact absurd short (Nat.not_lt_zero room)
  · rw [ran, writeRecord_none] at short
    constructor
    · refine ⟨text, result, encodes, evaluated, ?_, ?_⟩
      · rw [ran, writeRecord_none]
      · rw [ran]
        exact Outcome.getLast?_log evaluated
    · rw [ran, ran, writeRecord_of_lt short, writeRecord_none]
      rfl

theorem runLines_some_cons {room number : Nat} {line : Text.Bytes}
    (fits : (runLine settings none number line).output.length ≤ room) (rest : List Text.Bytes) :
    runLines settings (some room) number (line :: rest) =
      (runLine settings none number line).append (runLines settings
        (some (room - (runLine settings none number line).output.length)) (number + 1) rest) := by
  rw [runLines, runLine_of_le settings fits, runLine_stopped]
  rfl

theorem runLines_of_le {room number : Nat} {lines : List Text.Bytes}
    (fits : (runLines settings none number lines).output.length ≤ room) :
    runLines settings (some room) number lines = runLines settings none number lines := by
  induction lines generalizing room number with
  | nil => rfl
  | cons line rest ih =>
    have size : (runLines settings none number (line :: rest)).output.length =
        (runLine settings none number line).output.length +
          (runLines settings none (number + 1) rest).output.length := by
      rw [runLines_cons]
      exact List.length_append
    rw [runLines_some_cons settings (by omega), runLines_cons, ih (by omega)]

/-- The line that is cut off prints a result. Of the lines before it, all is as without a limit, and
of the lines after it there is nothing. -/
theorem runLines_of_lt {room number : Nat} {lines : List Text.Bytes}
    (short : room < (runLines settings none number lines).output.length) :
    ∃ before line after, lines = before ++ line :: after ∧
      (∃ text result, Prints settings (number + before.length) line text result) ∧
      (runLines settings none number before).output.length ≤ room ∧
      room < (runLines settings none number (before ++ [line])).output.length ∧
      runLines settings (some room) number lines =
        (runLines settings none number (before ++ [line])).cut room
          (settings.style.format.failureAt
            (runLines settings none number lines).output[room]?) := by
  induction lines generalizing room number with
  | nil => exact absurd short (Nat.not_lt_zero room)
  | cons line rest ih =>
    have whole : (runLines settings none number (line :: rest)).output =
        (runLine settings none number line).output ++
          (runLines settings none (number + 1) rest).output := by
      rw [runLines_cons]
      rfl
    rw [whole, List.length_append] at short
    by_cases fits : (runLine settings none number line).output.length ≤ room
    · have remaining : room - (runLine settings none number line).output.length <
          (runLines settings none (number + 1) rest).output.length := by omega
      obtain ⟨before, last, after, rfl, prints, lower, upper, ended⟩ := ih remaining
      refine ⟨line :: before, last, after, rfl, ?_, ?_, ?_, ?_⟩
      · rw [List.length_cons, Nat.add_comm before.length, ← Nat.add_assoc]
        exact prints
      · rw [runLines_cons, Report.append, List.length_append]
        omega
      · rw [List.cons_append, runLines_cons, Report.append, List.length_append]
        omega
      · rw [runLines_some_cons settings fits, ended, List.cons_append, runLines_cons,
          Report.append_cut fits, whole, List.getElem?_append_right fits]
    · have inside : room < (runLine settings none number line).output.length := by omega
      have alone : runLines settings none number [line] = runLine settings none number line := by
        rw [runLines_cons]
        exact Report.append_empty (runLine_stopped settings number line)
      obtain ⟨prints, ended⟩ := runLine_of_lt settings inside
      refine ⟨[], line, rest, rfl, prints, Nat.zero_le room, ?_, ?_⟩
      · rw [List.nil_append, alone]
        exact inside
      · rw [List.nil_append, alone, whole, List.getElem?_append_left inside, runLines, ended]
        rfl

theorem runLines_concat (number : Nat) (before : List Text.Bytes) (line : Text.Bytes) :
    runLines settings none number (before ++ [line]) =
      (runLines settings none number before).append
        (runLine settings none (number + before.length) line) := by
  rw [runLines_append, runLines_cons]
  exact congrArg _ (Report.append_empty (runLine_stopped settings _ line))

/-- An output with room for everything makes no difference. Any other one takes as much of the
output as it has room for, and the session ends amid a line that prints a result: of the lines
before it and of its own log nothing is missing, and of the lines after it there is nothing. A text
record fails as a whole; a JSON record fails as a serialized value, unless it is its line feed that
finds no room. -/
theorem run_some (room : Nat) (input : Text.Bytes) :
    ((run settings none input).output.length ≤ room →
      run settings (some room) input = run settings none input) ∧
    (room < (run settings none input).output.length →
      ∃ before line after text result, lines input = before ++ line :: after ∧
        Text.encode text = dropReturn line ∧
        (settings.calculator.run text settings.bindings).result = .ok result ∧
        (runLines settings none 1 before).output.length ≤ room ∧
        room < (runLines settings none 1 (before ++ [line])).output.length ∧
        (run settings (some room) input).output = (run settings none input).output.take room ∧
        (run settings (some room) input).calls =
          (runLines settings none 1 (before ++ [line])).calls ∧
        (run settings (some room) input).log =
          (runLines settings none 1 (before ++ [line])).log ∧
        (run settings (some room) input).log <+: (run settings none input).log ∧
        (run settings (some room) input).log.getLast? =
          some (.evaluated text settings.bindings result) ∧
        (settings.style.format = .text →
          (run settings (some room) input).stopped = some (.io .outputFull)) ∧
        (settings.style.format = .json →
          ((run settings none input).output[room]? = some lineFeed ↔
            room + 1 = (runLines settings none 1 (before ++ [line])).output.length) ∧
          (run settings (some room) input).stopped =
            some (if (run settings none input).output[room]? = some lineFeed
              then .io .outputFull else .serialize .outputFull))) ∧
    (ServiceError.io .outputFull).message = "IO Error: output full" ∧
    (ServiceError.serialize .outputFull).message = "Serialization Error: output full" := by
  refine ⟨fun fits => runLines_of_le settings fits, fun short => ?_, rfl, rfl⟩
  rw [run_eq_runLines] at short
  obtain ⟨before, line, after, parts, ⟨text, result, prints⟩, lower, upper, ran⟩ :=
    runLines_of_lt settings short
  rw [← run_eq_runLines, ← run_eq_runLines] at ran
  have concat := runLines_concat settings 1 before line
  have whole : run settings none input = (runLines settings none 1 (before ++ [line])).append
      (runLines settings none (1 + (before ++ [line]).length) after) := by
    rw [run_eq_runLines, parts, ← runLines_append, List.append_assoc, List.singleton_append]
  have output : (runLines settings none 1 (before ++ [line])).output =
      (runLines settings none 1 before).output ++
        (runLine settings none (1 + before.length) line).output := by
    rw [concat]
    rfl
  have written : (run settings none input).output[room]? =
      (settings.style.record result)[room - (runLines settings none 1 before).output.length]? := by
    rw [whole, Report.append, List.getElem?_append_left upper, output,
      List.getElem?_append_right lower, prints.output]
  refine ⟨before, line, after, text, result, parts, prints.encodes, prints.evaluates, lower, upper,
    ?_, ?_, ?_, ?_, ?_, ?_, ?_⟩
  · rw [ran, whole, Report.append, List.take_append_of_le_length (Nat.le_of_lt upper)]
    rfl
  · rw [ran]
    rfl
  · rw [ran]
    rfl
  · rw [ran, whole]
    exact List.prefix_append _ _
  · rw [ran, concat, Report.cut, Report.append, List.getLast?_append, prints.logged]
    rfl
  · intro format
    rw [ran, format]
    rfl
  · intro format
    constructor
    · rw [written, RecordStyle.record_getElem?_eq_lineFeed format, output, prints.output,
        List.length_append]
      omega
    · rw [ran, format]
      rfl

/-- The lines 1 and 2, with records of 22 bytes each. A JSON output that is full at the end of the
first object lacks its line feed alone. -/
theorem run_some_amid :
    (25 < (run {} none [49, 10, 50]).output.length ∧
      (run {} (some 25) [49, 10, 50]).output = (run {} none [49, 10, 50]).output.take 25 ∧
      (run {} (some 25) [49, 10, 50]).stopped = some (.io .outputFull)) ∧
    let settings : Settings := { style := { format := .json } }
    (run settings none [49, 10, 50]).output[21]? = some lineFeed ∧
      (run settings (some 21) [49, 10, 50]).stopped = some (.io .outputFull) ∧
      (run settings (some 20) [49, 10, 50]).stopped = some (.serialize .outputFull) := by
  constructor
  · have short : 25 < (run {} none [49, 10, 50]).output.length := by decide +kernel
    obtain ⟨_, _, _, _, _, _, _, _, _, _, taken, _, _, _, _, text, _⟩ :=
      (run_some {} 25 [49, 10, 50]).2.1 short
    exact ⟨short, taken, text rfl⟩
  · intro settings
    have last : (run settings none [49, 10, 50]).output[21]? = some lineFeed := by decide +kernel
    have inside : (run settings none [49, 10, 50]).output[20]? ≠ some lineFeed := by decide +kernel
    have size : (run settings none [49, 10, 50]).output.length = 44 := by decide +kernel
    obtain ⟨_, _, _, _, _, _, _, _, _, _, _, _, _, _, _, _, json⟩ :=
      (run_some settings 21 [49, 10, 50]).2.1 (by rw [size]; decide)
    obtain ⟨_, _, _, _, _, _, _, _, _, _, _, _, _, _, _, _, other⟩ :=
      (run_some settings 20 [49, 10, 50]).2.1 (by rw [size]; decide)
    refine ⟨last, ?_, ?_⟩
    · rw [(json rfl).2, if_pos last]
    · rw [(other rfl).2, if_neg inside]

end Session

end LineCalc
