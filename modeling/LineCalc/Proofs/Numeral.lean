import LineCalc.Decimal.Numeral

set_option autoImplicit false

/- Which texts are numerals, and that scanning finds the numeral a text starts with. -/
namespace LineCalc

namespace Text

/-- No character of a class comes first. -/
def Halts (p : Char → Bool) (rest : List Char) : Prop := ∀ c ∈ rest.head?, p c = false

theorem halts_dropWhile (p : Char → Bool) (text : List Char) : Halts p (text.dropWhile p) := by
  intro c head
  cases found : text.dropWhile p with
  | nil =>
    rw [found] at head
    cases head
  | cons first rest =>
    rw [found, List.head?_cons, Option.mem_some_iff] at head
    have refused := List.head_dropWhile_not p (l := text) (by simp [found])
    simp only [found, List.head_cons] at refused
    rw [← head]
    exact refused

theorem takeWhile_append_of_halts {p : Char → Bool} {run rest : List Char}
    (inside : ∀ c ∈ run, p c = true) (halts : Halts p rest) :
    (run ++ rest).takeWhile p = run := by
  rw [List.takeWhile_append_of_pos inside]
  cases rest with
  | nil => simp
  | cons c rest => simp [halts c rfl]

theorem dropWhile_append_of_halts {p : Char → Bool} {run rest : List Char}
    (inside : ∀ c ∈ run, p c = true) (halts : Halts p rest) :
    (run ++ rest).dropWhile p = rest := by
  rw [List.dropWhile_append_of_pos inside]
  cases rest with
  | nil => rfl
  | cons c rest => simp [halts c rfl]

theorem mem_takeWhile {p : Char → Bool} {text : List Char} :
    ∀ c ∈ text.takeWhile p, p c = true :=
  fun c member => List.all_eq_true.mp List.all_takeWhile c member

end Text

namespace Numeral

namespace Exponent

/-- A marker, a sign or none, and at least one digit. -/
structure WellFormed (e : Exponent) : Prop where
  marker : e.marker = 'e' ∨ e.marker = 'E'
  sign : ∀ c ∈ e.sign, c = '+' ∨ c = '-'
  digits : ∀ c ∈ e.digits, c.isDigit = true
  nonempty : e.digits ≠ []

end Exponent

/-- Digits on at least one side, and none after a point that is missing. -/
structure WellFormed (n : Numeral) : Prop where
  whole : ∀ c ∈ n.whole, c.isDigit = true
  fraction : ∀ c ∈ n.fraction, c.isDigit = true
  nonempty : n.whole ≠ [] ∨ n.fraction ≠ []
  pointless : n.point = false → n.fraction = []
  exponent : ∀ e ∈ n.exponent, e.WellFormed

/-- Nothing that could make a numeral longer comes first. -/
def Ends (rest : List Char) : Prop :=
  ∀ c ∈ rest.head?, c.isDigit = false ∧ c ≠ '.' ∧ c ≠ 'e' ∧ c ≠ 'E'

theorem Ends.halts {rest : List Char} (ends : Ends rest) : Text.Halts Char.isDigit rest :=
  fun c head => (ends c head).1

namespace Exponent

theorem afterMarker_eq_some {marker : Char} {sign : Option Char} {text rest : List Char}
    {e : Exponent} (success : afterMarker marker sign text = some (e, rest)) :
    e.marker = marker ∧ e.sign = sign ∧ text = e.digits ++ rest ∧
      (∀ c ∈ e.digits, c.isDigit = true) ∧ e.digits ≠ [] := by
  unfold afterMarker at success
  split at success
  · cases success
  · rename_i digits nonempty
    cases success
    exact ⟨rfl, rfl, List.takeWhile_append_dropWhile.symm, Text.mem_takeWhile, nonempty⟩

theorem afterMarker_append {marker : Char} {sign : Option Char} {digits rest : List Char}
    (inside : ∀ c ∈ digits, c.isDigit = true) (nonempty : digits ≠ [])
    (halts : Text.Halts Char.isDigit rest) :
    afterMarker marker sign (digits ++ rest) = some (⟨marker, sign, digits⟩, rest) := by
  unfold afterMarker
  rw [Text.takeWhile_append_of_halts inside halts, Text.dropWhile_append_of_halts inside halts]
  cases digits with
  | nil => exact absurd rfl nonempty
  | cons digit digits => rfl

/-- What is scanned is an exponent, and nothing is lost. -/
theorem scan_eq_some {text rest : List Char} {e : Exponent}
    (success : scan text = some (e, rest)) : e.WellFormed ∧ text = e.spelling ++ rest := by
  cases text with
  | nil => cases success
  | cons marker text =>
    simp only [scan] at success
    split at success
    · rename_i marked
      split at success
      all_goals
        obtain ⟨rfl, sign, rfl, digits, nonempty⟩ := afterMarker_eq_some success
        exact ⟨⟨marked, by simp [sign], digits, nonempty⟩, by simp [spelling, sign]⟩
    · cases success

theorem scan_append {e : Exponent} {rest : List Char} (valid : e.WellFormed)
    (halts : Text.Halts Char.isDigit rest) : scan (e.spelling ++ rest) = some (e, rest) := by
  obtain ⟨marker, sign, digits⟩ := e
  obtain ⟨marked, signed, inside, nonempty⟩ := valid
  have found : ∀ sign, afterMarker marker sign (digits ++ rest) =
      some (⟨marker, sign, digits⟩, rest) :=
    fun _ => afterMarker_append inside nonempty halts
  cases sign with
  | none =>
    cases digits with
    | nil => exact absurd rfl nonempty
    | cons digit digits =>
      have isDigit := inside digit (by simp)
      simp only [spelling, Option.toList_none, List.cons_append, List.nil_append, scan]
      rw [if_pos marked]
      split
      · rename_i same
        cases same
        cases isDigit
      · rename_i same
        cases same
        cases isDigit
      · exact found none
  | some mark =>
    simp only [spelling, Option.toList_some, List.cons_append, List.nil_append, scan]
    rw [if_pos marked]
    rcases signed mark rfl with rfl | rfl
    · exact found (some '+')
    · exact found (some '-')

/-- What does not start with a marker is no exponent. -/
theorem scan_eq_none {rest : List Char} (ends : Ends rest) : scan rest = none := by
  cases rest with
  | nil => rfl
  | cons c rest =>
    obtain ⟨_, _, small, large⟩ := ends c rfl
    simp only [scan, small, large, or_self, ↓reduceIte]

end Exponent

theorem WellFormed.mem_spelling {n : Numeral} (valid : n.WellFormed) :
    ∀ c ∈ n.spelling, c.isDigit = true ∨ c ∈ ['.', 'e', 'E', '+', '-'] := by
  intro c member
  simp only [spelling, List.mem_append] at member
  rcases member with ((whole | point) | fraction) | exponent
  · exact .inl (valid.whole c whole)
  · split at point
    · simp_all
    · cases point
  · exact .inl (valid.fraction c fraction)
  · cases found : n.exponent with
    | none => simp [found] at exponent
    | some e =>
      obtain ⟨marker, sign, digits, _⟩ := valid.exponent e found
      simp only [found, Option.map_some, Option.getD_some, Exponent.spelling, List.cons_append,
        List.mem_cons, List.mem_append, Option.mem_toList] at exponent
      rcases exponent with rfl | signed | digit
      · rcases marker with marker | marker <;> simp [marker]
      · rcases sign c signed with rfl | rfl <;> simp
      · exact .inl (digits c digit)

/-- A numeral starts with a digit, or with a point before one. -/
theorem WellFormed.exists_start {n : Numeral} (valid : n.WellFormed) :
    ∃ d more, d.isDigit = true ∧ (n.spelling = d :: more ∨ n.spelling = '.' :: d :: more) := by
  cases whole : n.whole with
  | cons d more =>
    have digit := valid.whole d (by simp [whole])
    exact ⟨d, _, digit, .inl (by rw [spelling, whole]; rfl)⟩
  | nil =>
    have nonempty : n.fraction ≠ [] := valid.nonempty.resolve_left (not_not_intro whole)
    obtain ⟨d, more, fraction⟩ := List.exists_cons_of_ne_nil nonempty
    have point : n.point = true := by
      rw [← Bool.not_eq_false]
      exact mt valid.pointless nonempty
    have digit := valid.fraction d (by simp [fraction])
    exact ⟨d, _, digit, .inr (by rw [spelling, whole, point, fraction]; rfl)⟩

theorem withExponent_wellFormed {whole fraction text rest : List Char} {point : Bool} {n : Numeral}
    (digits : ∀ c ∈ whole, c.isDigit = true) (places : ∀ c ∈ fraction, c.isDigit = true)
    (nonempty : whole ≠ [] ∨ fraction ≠ []) (pointless : point = false → fraction = [])
    (success : withExponent whole point fraction text = (n, rest)) :
    n.WellFormed ∧
      whole ++ (if point then ['.'] else []) ++ fraction ++ text = n.spelling ++ rest := by
  unfold withExponent at success
  split at success
  · rename_i exponent after found
    obtain ⟨valid, rfl⟩ := Exponent.scan_eq_some found
    cases success
    refine ⟨⟨digits, places, nonempty, pointless, ?_⟩, by simp [spelling]⟩
    intro e same
    cases same
    exact valid
  · cases success
    refine ⟨⟨digits, places, nonempty, pointless, ?_⟩, by simp [spelling]⟩
    intro e absent
    cases absent

/-- What is scanned is a numeral, and nothing is lost. -/
theorem scan_eq_some {text rest : List Char} {n : Numeral} (success : scan text = some (n, rest)) :
    n.WellFormed ∧ text = n.spelling ++ rest := by
  have parts := List.takeWhile_append_dropWhile (p := Char.isDigit) (l := text)
  unfold scan at success
  split at success
  · rename_i after found
    dsimp only at success
    split at success
    · cases success
    · rename_i digits
      have nonempty := Classical.not_and_iff_not_or_not.mp digits
      obtain ⟨valid, same⟩ := withExponent_wellFormed Text.mem_takeWhile Text.mem_takeWhile
        nonempty (by simp) (Option.some.inj success)
      refine ⟨valid, ?_⟩
      calc text = text.takeWhile Char.isDigit ++ '.' :: after := by rw [← found, parts]
        _ = n.spelling ++ rest := by simpa using same
  · dsimp only at success
    split at success
    · cases success
    · rename_i digits
      obtain ⟨valid, same⟩ := withExponent_wellFormed Text.mem_takeWhile
        (fun _ absent => absurd absent List.not_mem_nil) (.inl digits) (fun _ => rfl)
        (Option.some.inj success)
      refine ⟨valid, ?_⟩
      rw [← same]
      simp

theorem withExponent_append {n : Numeral} {rest : List Char} (valid : n.WellFormed)
    (ends : n.exponent = none → Ends rest) (halts : Text.Halts Char.isDigit rest) :
    withExponent n.whole n.point n.fraction ((n.exponent.map Exponent.spelling).getD [] ++ rest) =
      (n, rest) := by
  obtain ⟨whole, point, fraction, exponent⟩ := n
  cases exponent with
  | none => simp [withExponent, Exponent.scan_eq_none (ends rfl)]
  | some e => simp [withExponent, Exponent.scan_append (valid.exponent e rfl) halts]

/-- After the digits comes an exponent or the end of the numeral. -/
theorem halts_exponent {n : Numeral} {rest : List Char} (valid : n.WellFormed)
    (ends : n.exponent = none → Ends rest) :
    ∀ c ∈ ((n.exponent.map Exponent.spelling).getD [] ++ rest).head?,
      c.isDigit = false ∧ c ≠ '.' := by
  intro c head
  cases found : n.exponent with
  | none =>
    rw [found] at head
    exact ⟨(ends found c head).1, (ends found c head).2.1⟩
  | some e =>
    obtain rfl : e.marker = c := by simpa [found, Exponent.spelling] using head
    rcases (valid.exponent e found).marker with marker | marker <;> rw [marker] <;> decide

/-- Digits and a point are completed with the fraction and the exponent that follow. -/
theorem scan_pointed {whole : List Char} (rest : List Char)
    (digits : ∀ c ∈ whole, c.isDigit = true)
    (nonempty : whole ≠ [] ∨ rest.takeWhile Char.isDigit ≠ []) :
    scan (whole ++ '.' :: rest) = some
      (withExponent whole true (rest.takeWhile Char.isDigit) (rest.dropWhile Char.isDigit)) := by
  have pointed : Text.Halts Char.isDigit ('.' :: rest) := by
    intro c head
    cases head
    rfl
  have some := Classical.not_and_iff_not_or_not.mpr nonempty
  rw [scan, Text.dropWhile_append_of_halts digits pointed,
    Text.takeWhile_append_of_halts digits pointed]
  simp only [some, ↓reduceIte]

/-- Digits without a point are completed with the exponent that follows. -/
theorem scan_pointless {whole rest : List Char} (digits : ∀ c ∈ whole, c.isDigit = true)
    (nonempty : whole ≠ []) (halts : ∀ c ∈ rest.head?, c.isDigit = false ∧ c ≠ '.') :
    scan (whole ++ rest) = some (withExponent whole false [] rest) := by
  have inside : Text.Halts Char.isDigit rest := fun c head => (halts c head).1
  rw [scan, Text.dropWhile_append_of_halts digits inside,
    Text.takeWhile_append_of_halts digits inside]
  split
  · exact absurd rfl (halts '.' rfl).2
  · simp only [nonempty, ↓reduceIte]

/-- A numeral is scanned whole where nothing can make it longer. After an exponent, only digits
can. -/
theorem scan_append {n : Numeral} {rest : List Char} (valid : n.WellFormed)
    (ends : n.exponent = none → Ends rest) (halts : Text.Halts Char.isDigit rest) :
    scan (n.spelling ++ rest) = some (n, rest) := by
  have completed := withExponent_append valid ends halts
  have follows := halts_exponent valid ends
  generalize tail : (n.exponent.map Exponent.spelling).getD [] ++ rest = after at completed follows
  have inside : Text.Halts Char.isDigit after := fun c head => (follows c head).1
  have text : n.spelling ++ rest =
      n.whole ++ ((if n.point then ['.'] else []) ++ (n.fraction ++ after)) := by
    rw [← tail]
    simp [spelling]
  cases point : n.point with
  | true =>
    have run := Text.takeWhile_append_of_halts valid.fraction inside
    have past := Text.dropWhile_append_of_halts valid.fraction inside
    have nonempty := valid.nonempty
    rw [← run] at nonempty
    have scanned := scan_pointed _ valid.whole nonempty
    rw [point] at text completed
    rw [run, past, completed] at scanned
    rw [text]
    exact scanned
  | false =>
    have pointless := valid.pointless point
    have whole : n.whole ≠ [] := valid.nonempty.resolve_right (not_not_intro pointless)
    rw [point, pointless] at completed
    rw [point, pointless] at text
    rw [text, ← completed]
    exact scan_pointless valid.whole whole follows

theorem length_withExponent (whole : List Char) (point : Bool) (fraction rest : List Char) :
    whole.length + (if point then 1 else 0) + fraction.length ≤
      (withExponent whole point fraction rest).1.spelling.length := by
  rcases found : Exponent.scan rest with _ | ⟨e, after⟩ <;> cases point <;>
    simp [withExponent, found, spelling] <;> omega

/-- Digits alone are scanned with whatever can be added to them. -/
theorem scan_digits_longest {whole : List Char} (digits : ∀ c ∈ whole, c.isDigit = true)
    (nonempty : whole ≠ []) (rest : List Char) :
    ∃ found after, scan (whole ++ rest) = some (found, after) ∧
      whole.length ≤ found.spelling.length := by
  have parts := List.takeWhile_append_dropWhile (p := Char.isDigit) (l := rest)
  have run : ∀ c ∈ rest.takeWhile Char.isDigit, c.isDigit = true := Text.mem_takeWhile
  have halts := Text.halts_dropWhile Char.isDigit rest
  generalize rest.takeWhile Char.isDigit = more at parts run
  generalize rest.dropWhile Char.isDigit = after at parts halts
  subst parts
  have inside : ∀ c ∈ whole ++ more, c.isDigit = true := by
    intro c member
    rcases List.mem_append.mp member with member | member
    · exact digits c member
    · exact run c member
  have started : whole ++ more ≠ [] := by simp [nonempty]
  rw [← List.append_assoc]
  by_cases point : after.head? = some '.'
  · obtain ⟨after, rfl⟩ := List.head?_eq_some_iff.mp point
    have scanned := scan_pointed after inside (.inl started)
    have long := length_withExponent (whole ++ more) true (after.takeWhile Char.isDigit)
      (after.dropWhile Char.isDigit)
    generalize withExponent (whole ++ more) true _ _ = made at scanned long
    rw [List.length_append] at long
    exact ⟨made.1, made.2, scanned, by omega⟩
  · have follows : ∀ c ∈ after.head?, c.isDigit = false ∧ c ≠ '.' := by
      intro c head
      refine ⟨halts c head, ?_⟩
      rintro rfl
      exact point head
    have scanned := scan_pointless inside started follows
    have long := length_withExponent (whole ++ more) false [] after
    generalize withExponent (whole ++ more) false [] after = made at scanned long
    rw [List.length_append] at long
    exact ⟨made.1, made.2, scanned, by omega⟩

/-- No numeral at the start of a text is longer than the one that is scanned. -/
theorem scan_longest {n : Numeral} (valid : n.WellFormed) (rest : List Char) :
    ∃ found after, scan (n.spelling ++ rest) = some (found, after) ∧
      n.spelling.length ≤ found.spelling.length := by
  obtain ⟨whole, point, fraction, exponent⟩ := n
  cases exponent with
  | some e =>
    -- More digits of the exponent are all that can be gained.
    have digits := valid.exponent e rfl
    let longer : Exponent := { e with digits := e.digits ++ rest.takeWhile Char.isDigit }
    have same : spelling ⟨whole, point, fraction, some e⟩ ++ rest =
        spelling ⟨whole, point, fraction, some longer⟩ ++ rest.dropWhile Char.isDigit := by
      simp [spelling, Exponent.spelling, longer]
    have extended : longer.WellFormed := by
      refine ⟨digits.marker, digits.sign, ?_, by simp [longer, digits.nonempty]⟩
      intro c member
      rcases List.mem_append.mp member with member | member
      · exact digits.digits c member
      · exact Text.mem_takeWhile c member
    refine ⟨⟨whole, point, fraction, some longer⟩, rest.dropWhile Char.isDigit, ?_, ?_⟩
    · rw [same]
      have wellFormed : WellFormed ⟨whole, point, fraction, some longer⟩ := by
        refine ⟨valid.whole, valid.fraction, valid.nonempty, valid.pointless, ?_⟩
        intro f found
        cases found
        exact extended
      exact scan_append wellFormed nofun (Text.halts_dropWhile _ _)
    · simp [spelling, Exponent.spelling, longer]
  | none =>
    cases point with
    | true =>
      have run : (fraction ++ rest).takeWhile Char.isDigit =
          fraction ++ rest.takeWhile Char.isDigit :=
        List.takeWhile_append_of_pos valid.fraction
      have nonempty : whole ≠ [] ∨ (fraction ++ rest).takeWhile Char.isDigit ≠ [] := by
        rw [run]
        rcases valid.nonempty with digits | digits
        · exact .inl digits
        · exact .inr (by simp [digits])
      have scanned := scan_pointed _ valid.whole nonempty
      have long := length_withExponent whole true ((fraction ++ rest).takeWhile Char.isDigit)
        ((fraction ++ rest).dropWhile Char.isDigit)
      have text : spelling ⟨whole, true, fraction, none⟩ ++ rest =
          whole ++ '.' :: (fraction ++ rest) := by simp [spelling]
      have size : (spelling ⟨whole, true, fraction, none⟩).length =
          whole.length + (1 + fraction.length) := by simp [spelling, Nat.add_comm]
      generalize withExponent whole true _ _ = made at scanned long
      rw [run, List.length_append] at long
      simp only [↓reduceIte] at long
      rw [text]
      exact ⟨made.1, made.2, scanned, by omega⟩
    | false =>
      obtain rfl : fraction = [] := valid.pointless rfl
      have digits : whole ≠ [] := valid.nonempty.resolve_right (not_not_intro rfl)
      have text : spelling ⟨whole, false, [], none⟩ = whole := by simp [spelling]
      rw [text]
      exact scan_digits_longest valid.whole digits rest

end Numeral

end LineCalc
