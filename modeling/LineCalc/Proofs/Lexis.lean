import LineCalc.Proofs.Numeral
import LineCalc.Token.Basic

set_option autoImplicit false

/- How tokens are written, and that every text is cut into the longest ones. -/
namespace LineCalc

namespace Token

/-- Neither a gap, nor the start of a word, nor a digit, nor a mark with a meaning. -/
structure IsOther (c : Char) : Prop where
  gap : isGap c = false
  word : isWordStart c = false
  digit : c.isDigit = false
  mark : c ∉ ['+', '-', '*', '/', '%', '^', '(', ')']

/-- How a token is written. Only a power has two spellings. -/
inductive Spells : Token → List Char → Prop where
  | number {n : Numeral} (valid : n.WellFormed) : Spells (.number n.value) n.spelling
  | word {c : Char} {parts : List Char} (start : isWordStart c = true)
      (inside : ∀ d ∈ parts, isWordPart d = true) :
      Spells (.word (String.ofList (c :: parts))) (c :: parts)
  | operator (op : Operator) : Spells (.operator op) op.symbol.toList
  | power : Spells (.operator .pow) ['*', '*']
  | opening : Spells .opening ['(']
  | closing : Spells .closing [')']
  | other {c : Char} (alone : IsOther c) : Spells (.other c) [c]

/-- What follows does not make a token longer. -/
def Apart : Token → List Char → Prop
  | .number _, rest | .word _, rest => ∀ c ∈ rest.head?, isWordPart c = false ∧ c ≠ '.'
  | .operator .mul, rest => rest.head? ≠ some '*'
  | .operator .div, rest => rest.head? ≠ some '/'
  | .other c, rest => c = '.' → Text.Halts Char.isDigit rest
  | _, _ => True

/-! Characters -/

theorem isWordStart_of_ascii {c : Char} (ascii : c.toNat < 128) :
    isWordStart c = (c == '_' || c.isAlpha) := by
  simp [isWordStart, Text.isAlphabetic, Nat.not_le.mpr ascii]

theorem isAlpha_iff_toNat {c : Char} :
    c.isAlpha = true ↔ (65 ≤ c.toNat ∧ c.toNat ≤ 90) ∨ (97 ≤ c.toNat ∧ c.toNat ≤ 122) := by
  change (decide (65 ≤ c.val ∧ c.val ≤ 90) ||
    (decide (97 ≤ c.val) && decide (c.val ≤ 122))) = true ↔ _
  simp only [Bool.or_eq_true, Bool.and_eq_true, decide_eq_true_eq, UInt32.le_iff_toNat_le,
    UInt32.reduceToNat, Char.toNat_val]

theorem isDigit_iff_toNat {c : Char} : c.isDigit = true ↔ 48 ≤ c.toNat ∧ c.toNat ≤ 57 :=
  Char.isDigit_iff_toNat

theorem isWordStart_of_isDigit {c : Char} (digit : c.isDigit = true) : isWordStart c = false := by
  have range := isDigit_iff_toNat.mp digit
  rw [isWordStart_of_ascii (by omega), Bool.or_eq_false_iff]
  constructor
  · rw [beq_eq_false_iff_ne]
    rintro rfl
    cases digit
  · rw [← Bool.not_eq_true, isAlpha_iff_toNat]
    omega

theorem isDigit_of_isWordStart {c : Char} (start : isWordStart c = true) : c.isDigit = false := by
  rw [← Bool.not_eq_true]
  intro digit
  rw [isWordStart_of_isDigit digit] at start
  cases start

theorem isWordPart_of_isDigit {c : Char} (digit : c.isDigit = true) : isWordPart c = true := by
  simp [isWordPart, Text.isNumeric, digit]

theorem isBlank_of_isGap {c : Char} (gap : isGap c = true) : Text.isBlank c = true := by
  simp only [isGap, Bool.or_eq_true, beq_iff_eq] at gap
  rcases gap with rfl | rfl <;> decide

theorem isBlank_outside {c : Char} (blank : Text.isBlank c = true) :
    isWordPart c = false ∧ c.isDigit = false ∧
      c ∉ ['+', '-', '*', '/', '%', '^', '(', ')', '.'] := by
  have codes : ∀ n ∈ [0x09, 0x0a, 0x0b, 0x0c, 0x0d, 0x20, 0x85, 0xa0, 0x1680, 0x2000, 0x2001,
      0x2002, 0x2003, 0x2004, 0x2005, 0x2006, 0x2007, 0x2008, 0x2009, 0x200a, 0x2028, 0x2029,
      0x202f, 0x205f, 0x3000],
      isWordPart (Char.ofNat n) = false ∧ (Char.ofNat n).isDigit = false ∧
        Char.ofNat n ∉ ['+', '-', '*', '/', '%', '^', '(', ')', '.'] := by
    decide +kernel
  have found := codes c.toNat (Text.toNat_of_isBlank blank)
  rwa [Char.ofNat_toNat] at found

theorem isWordPart_of_isWordStart {c : Char} (start : isWordStart c = true) :
    isWordPart c = true := by
  simp [isWordPart, start]

theorem isWordPart_of_mem_word {c d : Char} {parts : List Char} (start : isWordStart c = true)
    (inside : ∀ d ∈ parts, isWordPart d = true) (member : d ∈ c :: parts) :
    isWordPart d = true := by
  rcases List.mem_cons.mp member with rfl | part
  · exact isWordPart_of_isWordStart start
  · exact inside d part

/-! One token -/

theorem Spells.ne_nil {token : Token} {spelling : List Char} (spells : token.Spells spelling) :
    spelling ≠ [] := by
  cases spells with
  | number valid =>
    intro empty
    simp only [Numeral.spelling, List.append_eq_nil_iff] at empty
    exact valid.nonempty.elim (absurd empty.1.1.1) (absurd empty.1.2)
  | operator op => cases op <;> decide
  | _ => simp

/-- White space is in no token but the one that it is. -/
theorem Spells.eq_other_of_isBlank {token : Token} {spelling : List Char}
    (spells : token.Spells spelling) {c : Char} (member : c ∈ spelling)
    (blank : Text.isBlank c = true) : token = .other c ∧ isGap c = false := by
  obtain ⟨outside, digit, mark⟩ := isBlank_outside blank
  simp only [List.mem_cons, List.not_mem_nil, or_false, not_or] at mark
  cases spells with
  | number valid =>
    rcases valid.mem_spelling c member with inside | inside
    · rw [digit] at inside
      cases inside
    · have letters : isWordPart 'e' = true ∧ isWordPart 'E' = true := by decide
      simp only [List.mem_cons, List.not_mem_nil, or_false] at inside
      rcases inside with rfl | rfl | rfl | rfl | rfl <;> simp_all
  | word start inside =>
    rw [isWordPart_of_mem_word start inside member] at outside
    cases outside
  | operator op => cases op <;> simp_all [Operator.symbol]
  | other alone =>
    obtain rfl := List.mem_singleton.mp member
    exact ⟨rfl, alone.gap⟩
  | _ => simp_all

theorem Spells.solid {token : Token} {c : Char} {more : List Char}
    (spells : token.Spells (c :: more)) : isGap c = false := by
  rw [← Bool.not_eq_true]
  intro gap
  have alone := (spells.eq_other_of_isBlank List.mem_cons_self (isBlank_of_isGap gap)).2
  rw [gap] at alone
  cases alone

theorem scan_eq_none_of_other {c : Char} {rest : List Char} (digit : c.isDigit = false)
    (alone : c = '.' → Text.Halts Char.isDigit rest) : Numeral.scan (c :: rest) = none := by
  by_cases point : c = '.'
  · have halts := alone point
    subst point
    have empty : rest.takeWhile Char.isDigit = [] := by
      cases rest with
      | nil => rfl
      | cons d rest => simp [halts d rfl]
    simp [Numeral.scan, digit, empty]
  · simp [Numeral.scan, digit, point]

theorem scan_eq_none_of_isWordStart {c : Char} {rest : List Char} (start : isWordStart c = true) :
    Numeral.scan (c :: rest) = none := by
  apply scan_eq_none_of_other (isDigit_of_isWordStart start)
  rintro rfl
  exact absurd start (by decide)

theorem scan_ne_none_of_isDigit {c : Char} {rest : List Char} (digit : c.isDigit = true) :
    Numeral.scan (c :: rest) ≠ none := by
  have whole : (c :: rest).takeWhile Char.isDigit ≠ [] := by simp [digit]
  unfold Numeral.scan
  split <;> simp [whole]

/-- What is cut off is the spelling of the token. -/
theorem munch_spells {c : Char} {rest : List Char} {token : Token} {more : Nat}
    (solid : isGap c = false) (cut : munch c rest = (token, more)) :
    token.Spells (c :: rest.take more) := by
  unfold munch at cut
  split at cut
  · rename_i numeral after found
    cases cut
    obtain ⟨valid, parts⟩ := Numeral.scan_eq_some found
    have positive := List.length_pos_iff.mpr (Spells.number valid).ne_nil
    have whole : c :: rest.take (numeral.spelling.length - 1) = numeral.spelling := by
      rw [← List.take_succ_cons, Nat.sub_add_cancel positive, parts, List.take_left]
    rw [whole]
    exact .number valid
  · rename_i absent
    split at cut
    · rename_i start
      cases cut
      have parts := List.prefix_iff_eq_take.mp (List.takeWhile_prefix (l := rest) isWordPart)
      rw [← parts]
      exact .word start Text.mem_takeWhile
    · rename_i start
      split at cut <;> cases cut
      · exact .power
      · exact .operator .floorDiv
      · exact .operator .add
      · exact .operator .sub
      · exact .operator .mul
      · exact .operator .div
      · exact .operator .mod
      · exact .operator .pow
      · exact .opening
      · exact .closing
      · rename_i plus minus star slash percent caret opening closing _ _
        have word : isWordStart c = false := Bool.not_eq_true _ ▸ start
        have digit : c.isDigit = false := by
          rw [← Bool.not_eq_true]
          intro digit
          exact scan_ne_none_of_isDigit digit absent
        apply Spells.other ⟨solid, word, digit, _⟩
        simpa using ⟨plus, minus, star, slash, percent, caret, opening, closing⟩

theorem lexFrom_eq_drop (skip : Nat) (text : List Char) :
    lexFrom skip text = lexFrom 0 (text.drop skip) := by
  induction text generalizing skip with
  | nil => simp [lexFrom]
  | cons c rest ih =>
    cases skip with
    | zero => rfl
    | succ skip => exact ih skip

theorem lexFrom_gap {c : Char} {rest : List Char} (gap : isGap c = true) :
    lexFrom 0 (c :: rest) = lexFrom 0 rest := by
  simp [lexFrom, gap]

theorem mark_outside {c : Char} (mark : c ∈ ['+', '-', '*', '/', '%', '^', '(', ')']) :
    isWordPart c = false ∧ c.isDigit = false ∧ c ≠ '.' := by
  simp only [List.mem_cons, List.not_mem_nil, or_false] at mark
  rcases mark with rfl | rfl | rfl | rfl | rfl | rfl | rfl | rfl <;> decide

theorem mark_starts_nothing {c : Char} (mark : c ∈ ['+', '-', '*', '/', '%', '^', '(', ')'])
    (rest : List Char) : Numeral.scan (c :: rest) = none ∧ isWordStart c = false := by
  obtain ⟨outside, digit, point⟩ := mark_outside mark
  exact ⟨scan_eq_none_of_other digit (absurd · point), (Bool.or_eq_false_iff.mp outside).1⟩

/-- Operators are written in marks. -/
theorem mark_of_mem_symbol {op : Operator} {c : Char} (member : c ∈ op.symbol.toList) :
    c ∈ ['+', '-', '*', '/', '%', '^', '(', ')'] := by
  cases op <;> simp [Operator.symbol] at member <;> simp [member]

/-- But one symbol takes two characters. -/
theorem eq_floorDiv_of_symbol {op : Operator} {c : Char} {more : List Char}
    (symbol : c :: more = op.symbol.toList) :
    more = [] ∨ op = .floorDiv ∧ c = '/' ∧ more = ['/'] := by
  cases op <;> simp_all [Operator.symbol]

/-- No token at the start of a text is longer than the one that is cut off. -/
theorem munch_longest {token found : Token} {c : Char} {more rest : List Char} {size : Nat}
    (spells : token.Spells (c :: more)) (cut : munch c (more ++ rest) = (found, size)) :
    more.length ≤ size := by
  generalize whole : c :: more = spelling at spells
  cases spells with
  | @number n valid =>
    obtain ⟨longer, after, scanned, long⟩ := Numeral.scan_longest valid rest
    rw [← whole, List.cons_append] at scanned
    simp only [munch, scanned] at cut
    cases cut
    rw [← whole, List.length_cons] at long
    omega
  | word start inside =>
    cases whole
    simp only [munch, scan_eq_none_of_isWordStart start, start, ↓reduceIte] at cut
    cases cut
    rw [List.takeWhile_append_of_pos inside, List.length_append]
    omega
  | operator op =>
    rcases eq_floorDiv_of_symbol whole with rfl | ⟨_, rfl, rfl⟩
    · exact Nat.zero_le size
    · obtain ⟨scanned, start⟩ := mark_starts_nothing (c := '/') (by decide) ('/' :: rest)
      simp [munch, scanned, start] at cut
      simp [← cut.2]
  | power =>
    cases whole
    obtain ⟨scanned, start⟩ := mark_starts_nothing (c := '*') (by decide) ('*' :: rest)
    simp [munch, scanned, start] at cut
    simp [← cut.2]
  | _ =>
    cases whole
    exact Nat.zero_le size

/-- Every text that starts with no gap starts with a token, and the longest one is lexed. -/
theorem lexFrom_cons {c : Char} (rest : List Char) (solid : isGap c = false) :
    ∃ token spelling after, token.Spells spelling ∧ c :: rest = spelling ++ after ∧
      lexFrom 0 (c :: rest) = ⟨token, c :: rest⟩ :: lexFrom 0 after ∧
      ∀ other longer tail, Spells other longer → c :: rest = longer ++ tail →
        longer.length ≤ spelling.length := by
  rcases cut : munch c rest with ⟨token, more⟩
  refine ⟨token, c :: rest.take more, rest.drop more, munch_spells solid cut, by simp, ?_, ?_⟩
  · rw [← lexFrom_eq_drop]
    simp [lexFrom, solid, cut]
  · intro other longer tail spells split
    obtain ⟨first, later, rfl⟩ := List.exists_cons_of_ne_nil spells.ne_nil
    rw [List.cons_append, List.cons.injEq] at split
    obtain ⟨rfl, rfl⟩ := split
    have long := munch_longest spells cut
    simp only [List.length_cons, List.length_take, List.length_append]
    omega

theorem Apart.numeralEnds {value : Binary64} {rest : List Char}
    (apart : Apart (.number value) rest) : Numeral.Ends rest := by
  intro c head
  obtain ⟨outside, point⟩ := apart c head
  have letters : isWordPart 'e' = true ∧ isWordPart 'E' = true := by decide
  refine ⟨?_, point, ?_, ?_⟩
  · rw [← Bool.not_eq_true]
    intro digit
    rw [isWordPart_of_isDigit digit] at outside
    cases outside
  · rintro rfl
    rw [letters.1] at outside
    cases outside
  · rintro rfl
    rw [letters.2] at outside
    cases outside

theorem munch_operator {op : Operator} {c : Char} {more rest : List Char}
    (symbol : c :: more = op.symbol.toList) (apart : Apart (.operator op) rest) :
    munch c (more ++ rest) = (.operator op, more.length) := by
  have member : c ∈ op.symbol.toList := by
    rw [← symbol]
    exact List.mem_cons_self
  obtain ⟨scanned, start⟩ := mark_starts_nothing (mark_of_mem_symbol member) (more ++ rest)
  unfold munch
  rw [scanned]
  simp only [start, Bool.false_eq_true, ↓reduceIte]
  cases op <;> simp only [Operator.symbol, String.reduceToList, List.cons.injEq] at symbol <;>
    obtain ⟨rfl, rfl⟩ := symbol
  case mul => split <;> simp_all [Apart]
  case div => split <;> simp_all [Apart]
  all_goals rfl

/-- A token that nothing makes longer is cut off whole. -/
theorem munch_append {token : Token} {c : Char} {more rest : List Char}
    (spells : token.Spells (c :: more)) (apart : Apart token rest) :
    munch c (more ++ rest) = (token, more.length) := by
  generalize whole : c :: more = spelling at spells
  cases spells with
  | number valid =>
    rename_i n
    have ends := apart.numeralEnds
    have scanned := Numeral.scan_append valid (fun _ => ends) ends.halts
    rw [← whole, List.cons_append] at scanned
    simp [munch, scanned, ← whole]
  | word start inside =>
    cases whole
    have halts : Text.Halts isWordPart rest := fun c head => (apart c head).1
    simp only [munch, scan_eq_none_of_isWordStart start, start, ↓reduceIte,
      Text.takeWhile_append_of_halts inside halts]
  | operator op => exact munch_operator whole apart
  | power =>
    cases whole
    obtain ⟨scanned, start⟩ := mark_starts_nothing (c := '*') (by decide) ('*' :: rest)
    simp [munch, scanned, start]
  | opening =>
    cases whole
    obtain ⟨scanned, start⟩ := mark_starts_nothing (c := '(') (by decide) rest
    simp [munch, scanned, start]
  | closing =>
    cases whole
    obtain ⟨scanned, start⟩ := mark_starts_nothing (c := ')') (by decide) rest
    simp [munch, scanned, start]
  | other alone =>
    cases whole
    have scanned := scan_eq_none_of_other alone.digit apart
    have mark := alone.mark
    simp only [List.mem_cons, List.not_mem_nil, or_false, not_or] at mark
    simp [munch, scanned, alone.word, mark]

theorem lexFrom_append {token : Token} {spelling rest : List Char}
    (spells : token.Spells spelling) (apart : Apart token rest) :
    lexFrom 0 (spelling ++ rest) = ⟨token, spelling ++ rest⟩ :: lexFrom 0 rest := by
  cases spelling with
  | nil => exact absurd rfl spells.ne_nil
  | cons c more =>
    have cut := munch_append spells apart
    have tail : lexFrom more.length (more ++ rest) = lexFrom 0 rest := by
      rw [lexFrom_eq_drop, List.drop_left]
    simp [lexFrom, spells.solid, cut, tail]

end Token

end LineCalc
