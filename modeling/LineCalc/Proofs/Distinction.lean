import LineCalc.Proofs.Feedback

set_option autoImplicit false

/- Records tell results apart. A number is laid out so that it reads back, which leaves each text to
one number; only JSON has one word for both infinities, and there the whole numbers differ. -/
namespace LineCalc

/-! Texts in a row -/

namespace Text

theorem encode_injective {first second : List Char} (same : encode first = encode second) :
    first = second := by
  have decoded := (decode_eq_ok_iff (encode second) first).mpr same
  rw [(decode_eq_ok_iff _ second).mpr rfl] at decoded
  exact (Except.ok.inj decoded).symm

/-- Where neither of two texts goes on in a class of characters, what stands before it in that class
is the same in both. -/
theorem append_inj_of_halts {p : Char → Bool} {first second rest other : List Char}
    (inside : ∀ c ∈ first, p c = true) (inside' : ∀ c ∈ second, p c = true)
    (halts : Halts p rest) (halts' : Halts p other) (same : first ++ rest = second ++ other) :
    first = second ∧ rest = other := by
  constructor
  · rw [← takeWhile_append_of_halts inside halts, same, takeWhile_append_of_halts inside' halts']
  · rw [← dropWhile_append_of_halts inside halts, same, dropWhile_append_of_halts inside' halts']

theorem toList_toString (n : Int) :
    (toString n).toList = (if n < 0 then ['-'] else []) ++ Nat.toDigits 10 n.natAbs := by
  rw [Int.toString_eq_repr]
  cases n with
  | ofNat n => exact Nat.toList_repr
  | negSucc n =>
    rw [if_pos (Int.negSucc_lt_zero n)]
    exact String.toList_append.trans (congrArg ('-' :: ·) Nat.toList_repr)

theorem eq_minus_of_mem_sign {n : Int} {c : Char} (member : c ∈ if n < 0 then ['-'] else []) :
    c = '-' := by
  split at member
  · exact List.mem_singleton.mp member
  · cases member

/-- The characters that whole numbers are written with. -/
def isIntPart (c : Char) : Bool := c.isDigit || c == '-'

theorem isIntPart_of_mem_toString {n : Int} : ∀ c ∈ (toString n).toList, isIntPart c = true := by
  intro c member
  rw [toList_toString, List.mem_append] at member
  rw [isIntPart, Bool.or_eq_true, beq_iff_eq]
  rcases member with sign | digit
  · exact .inr (eq_minus_of_mem_sign sign)
  · exact .inl (Decimal.isDigit_of_mem_toDigits digit)

theorem toString_int_inj {m n : Int} (same : (toString m).toList = (toString n).toList) :
    m = n := by
  have sign : ∀ k : Int, ∀ c ∈ if k < 0 then ['-'] else [], (c == '-') = true :=
    fun _ _ member => beq_iff_eq.mpr (eq_minus_of_mem_sign member)
  have halts : ∀ k : Nat, Halts (· == '-') (Nat.toDigits 10 k) := by
    intro k c first
    rw [beq_eq_false_iff_ne]
    rintro rfl
    cases Decimal.isDigit_of_mem_toDigits (List.mem_of_mem_head? first)
  rw [toList_toString, toList_toString] at same
  obtain ⟨signs, digits⟩ := append_inj_of_halts (sign m) (sign n) (halts _) (halts _) same
  have side : m < 0 ↔ n < 0 := by
    by_cases first : m < 0 <;> by_cases second : n < 0 <;>
      simp only [first, second, ↓reduceIte] at signs ⊢ <;> cases signs
  have size : m.natAbs = n.natAbs := by
    rw [← @Nat.ofDigitChars_ten_toDigits m.natAbs, digits, Nat.ofDigitChars_ten_toDigits]
  omega

end Text

namespace RecordStyle

/-- A whole number between fixed texts ends where the text behind it begins. -/
theorem int_append_inj (front back : List Char) {c : Char} (outside : Text.isIntPart c = false)
    {m n : Int64} {rest other : List Char}
    (same : front ++ (toString m.toInt).toList ++ c :: (back ++ rest) =
      front ++ (toString n.toInt).toList ++ c :: (back ++ other)) : m = n ∧ rest = other := by
  have halts : ∀ text, Text.Halts Text.isIntPart (c :: text) := by
    intro text d first
    cases first
    exact outside
  rw [List.append_assoc, List.append_assoc] at same
  obtain ⟨ints, others⟩ := Text.append_inj_of_halts Text.isIntPart_of_mem_toString
    Text.isIntPart_of_mem_toString (halts _) (halts _) (List.append_cancel_left same)
  exact ⟨Int64.toInt_inj.mp (Text.toString_int_inj ints),
    List.append_cancel_left (List.cons.inj others).2⟩

/-- What stands before the number of a record tells the whole number. -/
theorem front_append_inj {style : RecordStyle} {m n : Int64} {rest other : List Char}
    (same : style.front m ++ rest = style.front n ++ other) : m = n ∧ rest = other := by
  obtain ⟨format, lead⟩ := style
  cases format with
  | text =>
    have outside : Text.isIntPart ' ' = false := rfl
    apply int_append_inj ("\x1b[96m".toList ++ lead.toList ++ [' ']) [] outside
    simpa [front] using same
  | json =>
    have outside : Text.isIntPart ',' = false := rfl
    apply int_append_inj "\x7b\"int\":".toList "\"float\":".toList outside
    simpa [front] using same

/-- A record tells the whole number and the text of the other. -/
theorem record_inj {style : RecordStyle} {first second : Evaluation}
    (same : style.record first = style.record second) :
    first.int = second.int ∧
      style.format.layout.text first.float = style.format.layout.text second.float := by
  rw [record_eq, record_eq] at same
  obtain ⟨ints, texts⟩ := front_append_inj (List.append_cancel_right (Text.encode_injective same))
  exact ⟨ints, texts⟩

end RecordStyle

/-! Numbers -/

namespace Layout

/-- A text that reads back is that of one number. -/
theorem text_inj (layout : Layout) {x y : Binary64} (first : x.isFinite = true)
    (second : y.isFinite = true) (same : layout.text x = layout.text y) : x = y := by
  obtain ⟨e, read, value⟩ := layout.exists_parse_text first
  obtain ⟨f, read', value'⟩ := layout.exists_parse_text second
  rw [same, read'] at read
  cases read
  have values := (value ⟨.zero false, .zero false⟩).symm.trans (value' ⟨.zero false, .zero false⟩)
  exact Except.ok.inj values

end Layout

/-- No word for an infinity is an expression. -/
theorem OutputFormat.parse_infinity (format : OutputFormat) (negative : Bool) (e : Expr) :
    parse defaultLimit (format.layout.text (.infinity negative)) ≠ .ok e := by
  intro read
  cases format <;> cases negative <;> cases read

namespace Evaluation

theorem exists_number (raw : Binary64) :
    ∃ x : Binary64, x.isNan = false ∧ ofValue raw = ⟨x.toInt64, x⟩ := by
  cases number : raw.isNan with
  | false => exact ⟨raw, number, by simp [ofValue, number]⟩
  | true => exact ⟨.zero false, rfl, by simp [ofValue, number]⟩

/-- The whole number tells the infinities apart where their words do not. -/
theorem eq_of_record_eq {style : RecordStyle} {x y : Binary64} (first : x.isNan = false)
    (second : y.isNan = false)
    (same : style.record ⟨x.toInt64, x⟩ = style.record ⟨y.toInt64, y⟩) : x = y := by
  obtain ⟨ints, texts⟩ := RecordStyle.record_inj same
  have apart : ∀ {z : Binary64}, z.isFinite = true → ∀ negative,
      style.format.layout.text z ≠ style.format.layout.text (.infinity negative) := by
    intro z finite negative equal
    obtain ⟨e, read, _⟩ := style.format.layout.exists_parse_text finite
    rw [equal] at read
    exact style.format.parse_infinity negative e read
  cases x with
  | nan signaling => cases first
  | infinity s =>
    cases y with
    | nan signaling => cases second
    | infinity t =>
      change (if s then Int64.minValue else Int64.maxValue) =
        if t then Int64.minValue else Int64.maxValue at ints
      cases s <;> cases t <;> first | rfl | cases ints
    | finite t n fits => exact absurd texts.symm (apart rfl s)
  | finite s m fits =>
    cases y with
    | nan signaling => cases second
    | infinity t => exact absurd texts (apart rfl t)
    | finite t n _ => exact style.format.layout.text_inj rfl rfl texts

end Evaluation

/-- Results with the same record are the same, to the bit. This includes the infinities, which JSON
has no words for. -/
theorem writeRecord_eq_iff (style : RecordStyle) :
    (∀ raw other : Binary64,
      (writeRecord style none (.ofValue raw)).taken =
          (writeRecord style none (.ofValue other)).taken ↔
        (Evaluation.ofValue raw).int = (Evaluation.ofValue other).int ∧
          (Evaluation.ofValue raw).float.toBits = (Evaluation.ofValue other).float.toBits) ∧
    (style.format = .json → ∀ negative,
      (writeRecord style none (.ofValue (.infinity negative))).taken =
        Text.encode (if negative
          then "\x7b\"int\":-9223372036854775808,\"float\":null\x7d\n".toList
          else "\x7b\"int\":9223372036854775807,\"float\":null\x7d\n".toList) ∧
      ∀ raw : Binary64, (Evaluation.ofValue raw).float ≠ .infinity negative →
        (writeRecord style none (.ofValue raw)).taken ≠
          (writeRecord style none (.ofValue (.infinity negative))).taken) := by
  have told : ∀ raw other : Binary64,
      style.record (.ofValue raw) = style.record (.ofValue other) →
        Evaluation.ofValue raw = .ofValue other := by
    intro raw other same
    obtain ⟨x, first, result⟩ := Evaluation.exists_number raw
    obtain ⟨y, second, result'⟩ := Evaluation.exists_number other
    rw [result, result'] at same ⊢
    rw [Evaluation.eq_of_record_eq first second same]
  simp only [writeRecord_none]
  refine ⟨fun raw other => ⟨fun same => ?_, fun ⟨ints, bits⟩ => ?_⟩, fun json negative => ⟨?_, ?_⟩⟩
  · rw [told raw other same]
    exact ⟨rfl, rfl⟩
  · have floats := congrArg Binary64.ofBits bits
    rw [Binary64.ofBits_toBits, Binary64.ofBits_toBits] at floats
    have equal : Evaluation.ofValue raw = .ofValue other :=
      calc Evaluation.ofValue raw
        _ = ⟨(Evaluation.ofValue raw).int, (Evaluation.ofValue raw).float⟩ := rfl
        _ = ⟨(Evaluation.ofValue other).int, (Evaluation.ofValue other).float⟩ := by
          rw [ints, floats]
    rw [equal]
  · rw [RecordStyle.record_eq, RecordStyle.front, RecordStyle.back, json]
    cases negative <;> rfl
  · intro raw differ same
    rw [told raw _ same] at differ
    exact differ rfl

end LineCalc
