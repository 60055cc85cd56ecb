import LineCalc.Proofs.Lines

set_option autoImplicit false

/- Ends of lines. A line feed ends a line, and it makes no difference whether a carriage return
stands before it; what follows the last line feed of an input that breaks off is no line. -/
namespace LineCalc.Session

variable (settings : Settings)

/-! Carriage returns -/

theorem dropReturn_of_getLast? {line : Text.Bytes} (bare : line.getLast? ≠ some carriageReturn) :
    dropReturn line = line := if_neg bare

theorem dropReturn_concat (line : Text.Bytes) : dropReturn (line ++ [carriageReturn]) = line := by
  rw [dropReturn, if_pos List.getLast?_concat, List.dropLast_concat]

/-- What a line brings about does not depend on a carriage return at its end. -/
theorem runLine_congr {first second : Text.Bytes} (same : dropReturn first = dropReturn second)
    (room : Room) (number : Nat) :
    runLine settings room number first = runLine settings room number second := by
  rw [runLine, runLine, same]

theorem runLines_congr {first second : List Text.Bytes}
    (same : first.map dropReturn = second.map dropReturn) (room : Room) (number : Nat) :
    runLines settings room number first = runLines settings room number second := by
  induction first generalizing second room number with
  | nil =>
    rw [List.map_nil, eq_comm, List.map_eq_nil_iff] at same
    rw [same]
  | cons line rest ih =>
    obtain ⟨other, others, rfl, head, tail⟩ := List.map_eq_cons_iff.mp same.symm
    rw [runLines, runLines, runLine_congr settings head.symm room number]
    simp only [ih tail.symm]

/-- Lines with an ending each; the last one may be left without. -/
def joined (ending : Text.Bytes) (closed : Bool) : List Text.Bytes → Text.Bytes
  | [] => []
  | [last] => if closed then last ++ ending else last
  | line :: rest => line ++ ending ++ joined ending closed rest

theorem joined_closed (ending : Text.Bytes) (lines : List Text.Bytes) :
    joined ending true lines = lines.flatMap (· ++ ending) := by
  induction lines with
  | nil => rfl
  | cons line rest ih =>
    cases rest with
    | nil => exact (List.append_nil _).symm
    | cons next more => exact congrArg (line ++ ending ++ ·) ih

theorem joined_open (ending : Text.Bytes) (front : List Text.Bytes) (last : Text.Bytes) :
    joined ending false (front ++ [last]) = front.flatMap (· ++ ending) ++ last := by
  induction front with
  | nil => rfl
  | cons line rest ih =>
    rw [List.flatMap_cons, List.append_assoc, ← ih]
    cases rest <;> rfl

/-- Joined lines are read as they were before they were joined, if the ending is a line feed behind
bytes that are no part of a line. -/
theorem run_joined {extra : Text.Bytes} (single : lineFeed ∉ extra) {lines : List Text.Bytes}
    (whole : ∀ line ∈ lines, lineFeed ∉ line ∧ dropReturn (line ++ extra) = dropReturn line)
    (room : Room) (closed : Bool) :
    run settings room (joined (extra ++ [lineFeed]) closed lines) =
      runLines settings room 1 lines := by
  have pieces : ∀ part : List Text.Bytes, part.flatMap (· ++ (extra ++ [lineFeed])) =
      (part.map (· ++ extra)).flatMap (· ++ [lineFeed]) := by
    intro part
    simp only [List.flatMap_map, List.append_assoc]
  have ended : ∀ part ⊆ lines, (∀ line ∈ part.map (· ++ extra), lineFeed ∉ line) ∧
      (part.map (· ++ extra)).map dropReturn = part.map dropReturn := by
    intro part within
    constructor
    · intro line member
      obtain ⟨own, inside, rfl⟩ := List.mem_map.mp member
      rw [List.mem_append, not_or]
      exact ⟨(whole own (within inside)).1, single⟩
    · rw [List.map_map]
      exact List.map_congr_left fun line member => (whole line (within member)).2
  cases closed with
  | true =>
    obtain ⟨inside, same⟩ := ended lines (List.Subset.refl lines)
    rw [joined_closed, pieces, ← List.append_nil (List.flatMap ..), run_eq,
      split_flatMap inside List.not_mem_nil, runLines_concat_nil]
    exact runLines_congr settings same room 1
  | false =>
    rcases List.eq_nil_or_concat lines with rfl | ⟨front, last, rfl⟩
    · rfl
    · rw [List.concat_eq_append] at whole ended ⊢
      obtain ⟨inside, same⟩ := ended front (List.subset_append_left front [last])
      have rest := (whole last (List.mem_append_right _ List.mem_cons_self)).1
      rw [joined_open, pieces, run_eq, split_flatMap inside rest]
      apply runLines_congr settings
      rw [List.map_append, same, List.map_append]

/-- It makes no difference whether lines end in a line feed or in a carriage return and a line feed,
nor whether the last one has its ending. -/
theorem run_crlf {lines : List Text.Bytes}
    (bare : ∀ line ∈ lines, lineFeed ∉ line ∧ line.getLast? ≠ some carriageReturn)
    (room : Room) (closed closed' : Bool) :
    run settings room (joined [carriageReturn, lineFeed] closed lines) =
      run settings room (joined [lineFeed] closed' lines) := by
  have returned : ∀ line ∈ lines, lineFeed ∉ line ∧
      dropReturn (line ++ [carriageReturn]) = dropReturn line := by
    intro line member
    obtain ⟨single, last⟩ := bare line member
    rw [dropReturn_concat, dropReturn_of_getLast? last]
    exact ⟨single, rfl⟩
  have plain : ∀ line ∈ lines, lineFeed ∉ line ∧ dropReturn (line ++ []) = dropReturn line := by
    intro line member
    rw [List.append_nil]
    exact ⟨(bare line member).1, rfl⟩
  calc run settings room (joined [carriageReturn, lineFeed] closed lines)
    _ = runLines settings room 1 lines := run_joined settings (by decide) returned room closed
    _ = run settings room (joined [lineFeed] closed' lines) :=
      (run_joined settings List.not_mem_nil plain room closed').symm

/-- An operator without its operand, bytes that break off inside a character, and an empty line. -/
theorem run_crlf_incomplete :
    (∀ line ∈ [[49, 43], [226, 130], []],
      lineFeed ∉ line ∧ line.getLast? ≠ some carriageReturn) ∧
    run {} none [49, 43, 13, 10, 226, 130, 13, 10] = run {} none [49, 43, 10, 226, 130, 10] ∧
    (run {} none [49, 43, 13, 10, 226, 130, 13, 10]).diagnostics =
      [⟨1, .failed (.rejected (.malformed 2 (.unexpected none .operand)))⟩,
        ⟨2, .malformed ⟨0, none⟩⟩] := by
  have bare : ∀ line ∈ [[49, 43], [226, 130], []],
      lineFeed ∉ line ∧ line.getLast? ≠ some carriageReturn := by decide
  exact ⟨bare, run_crlf {} bare none false false, by decide +kernel⟩

/-! Inputs that break off -/

/-- An input up to its last line feed and with it. -/
def finished (input : Text.Bytes) : Text.Bytes := (input.reverse.dropWhile (· != lineFeed)).reverse

theorem finished_flatMap (ended : List Text.Bytes) {last : Text.Bytes} (rest : lineFeed ∉ last) :
    finished (ended.flatMap (· ++ [lineFeed]) ++ last) = ended.flatMap (· ++ [lineFeed]) := by
  have behind : ∀ b ∈ last.reverse, (b != lineFeed) = true := by
    intro b member
    rw [bne_iff_ne]
    rintro rfl
    exact rest (List.mem_reverse.mp member)
  rw [finished, List.reverse_append, List.dropWhile_append_of_pos behind]
  rcases List.eq_nil_or_concat ended with rfl | ⟨front, line, rfl⟩
  · rfl
  · simp

/-- The bytes after the last line feed are left out, and no others. -/
theorem exists_finished_append (input : Text.Bytes) :
    ∃ rest, input = finished input ++ rest ∧ lineFeed ∉ rest ∧
      ∀ b ∈ (finished input).getLast?, b = lineFeed := by
  obtain ⟨ended, last, joined, single, rest, _⟩ := lines_pieces input
  have same : finished input = ended.flatMap (· ++ [lineFeed]) := by
    rw [joined]
    exact finished_flatMap ended rest
  refine ⟨last, ?_, rest, ?_⟩
  · rw [same]
    exact joined
  · rw [same]
    rcases List.eq_nil_or_concat ended with rfl | ⟨front, line, rfl⟩
    · nofun
    · simp

theorem lines_finished (input : Text.Bytes) : lines (finished input) = (split input).1 := by
  rcases cut : split input with ⟨ended, last⟩
  obtain ⟨joined, single, rest⟩ := split_eq_iff.mp cut
  have same : finished input = ended.flatMap (· ++ [lineFeed]) ++ [] := by
    rw [joined, finished_flatMap ended rest, List.append_nil]
  rw [lines, same, split_flatMap single List.not_mem_nil]
  rfl

/-- A session along its input, byte by byte. Each line feed has the line run that it ends, before
anything behind it is read. Where the input ends, so does the line that is held, if it is anything;
where it breaks off, that line is lost. The line that is held is in reverse. -/
def runAsRead (broken : Bool) (room : Room) (number : Nat) (held : Text.Bytes) :
    Text.Bytes → Report
  | [] =>
    if broken then { stopped := some (.io .inputBroken) }
    else if held.isEmpty then {}
    else runLine settings room number held.reverse
  | b :: rest =>
    if b = lineFeed then
      let first := runLine settings room number held.reverse
      match first.stopped with
      | some _ => first
      | none => first.append
          (runAsRead broken (Room.after room first.output.length) (number + 1) [] rest)
    else runAsRead broken room number (b :: held) rest

/-- A report on lines after which the input breaks off. -/
def breakOff (report : Report) : Report :=
  match report.stopped with
  | some _ => report
  | none => { report with stopped := some (.io .inputBroken) }

theorem breakOff_append {first : Report} (later : Report) :
    breakOff (first.append later) = first.append (breakOff later) := by
  rw [breakOff, breakOff]
  split <;> simp_all [Report.append]

theorem runLines_singleton (room : Room) (number : Nat) (line : Text.Bytes) :
    runLines settings room number [line] = runLine settings room number line := by
  rw [runLines]
  split
  · rfl
  · rename_i going
    exact Report.append_empty going

/-- Reading first and running then makes no difference. -/
theorem runAsRead_eq (broken : Bool) (room : Room) (number : Nat) (held input : Text.Bytes) :
    runAsRead settings broken room number held input =
      if broken then breakOff (runLines settings room number (splitFrom held [] input).1)
      else runLines settings room number
        ((splitFrom held [] input).1 ++ [(splitFrom held [] input).2]) := by
  induction input generalizing held room number with
  | nil =>
    cases broken with
    | true => rfl
    | false =>
      change _ = runLines settings room number [held.reverse]
      rw [runLines_singleton]
      cases held <;> rfl
  | cons b rest ih =>
    by_cases ends : b = lineFeed
    · rw [runAsRead, if_pos ends, splitFrom, if_pos ends, splitFrom_done]
      simp only [List.reverse_singleton, List.cons_append, List.nil_append, runLines, ih]
      cases first : (runLine settings room number held.reverse).stopped with
      | some error => cases broken <;> simp [breakOff, first]
      | none => cases broken <;> simp [breakOff_append]
    · rw [runAsRead, if_neg ends, splitFrom, if_neg ends]
      exact ih room number (b :: held)

/-- An input that breaks off brings about what its finished lines do, whatever else there is of it.
The break is reported unless the output fails before it, which is reported instead. So it is
whether the lines are run as they are read or afterwards. -/
theorem runBroken_eq (room : Room) (input : Text.Bytes) :
    (∃ rest, input = finished input ++ rest ∧ lineFeed ∉ rest ∧
      ∀ b ∈ (finished input).getLast?, b = lineFeed) ∧
    runBroken settings room input = runAsRead settings true room 1 [] input ∧
    run settings room (finished input) = runAsRead settings false room 1 [] (finished input) ∧
    (∀ error, (run settings room (finished input)).stopped = some error →
      runBroken settings room input = run settings room (finished input)) ∧
    ((run settings room (finished input)).stopped = none →
      runBroken settings room input =
        { run settings room (finished input) with stopped := some (.io .inputBroken) }) ∧
    (ServiceError.io .inputBroken).message = "IO Error: input broken" := by
  have broken : runBroken settings room input =
      breakOff (run settings room (finished input)) := by
    rw [run_eq_runLines, lines_finished]
    rfl
  refine ⟨exists_finished_append input, ?_, ?_, fun error failed => ?_, fun going => ?_, rfl⟩
  · rw [runAsRead_eq]
    rfl
  · rw [runAsRead_eq, run_eq]
    rfl
  · rw [broken, breakOff, failed]
  · rw [broken, breakOff, going]

end LineCalc.Session
