import LineCalc.Text.Utf8

set_option autoImplicit false

/- Decoding undoes encoding, and accepts nothing but what was encoded. An encoded text has a byte
at least for each character, and encoding keeps the order of texts. -/
namespace LineCalc.Text

/-- A byte that continues a character. -/
def Continues (b : UInt8) : Prop := 0x80 ≤ b.toNat ∧ b.toNat ≤ 0xbf

theorem Continues.bounds {b : UInt8} (continues : Continues b) :
    (0x80 : UInt8).toNat ≤ b.toNat ∧ b.toNat ≤ (0xbf : UInt8).toNat := continues

/-- The bytes of one code point. Overlong forms, surrogates and what lies beyond the last code point
have none. -/
inductive Sequence : List UInt8 → Nat → Prop where
  | one {b : UInt8} {code : Nat} (ascii : code < 0x80) (value : code = b.toNat) : Sequence [b] code
  | two {b c : UInt8} {code : Nat} (lead : 0xc2 ≤ b.toNat ∧ b.toNat < 0xe0)
      (second : Continues c) (value : code = (b.toNat - 0xc0) * 64 + (c.toNat - 0x80)) :
      Sequence [b, c] code
  | three {b c d : UInt8} {code : Nat} (lead : 0xe0 ≤ b.toNat ∧ b.toNat < 0xf0)
      (second : Continues c) (third : Continues d)
      (value : code = ((b.toNat - 0xe0) * 64 + (c.toNat - 0x80)) * 64 + (d.toNat - 0x80))
      (long : 0x800 ≤ code) (scalar : code < 0xd800 ∨ 0xdfff < code) : Sequence [b, c, d] code
  | four {b c d e : UInt8} {code : Nat} (lead : 0xf0 ≤ b.toNat ∧ b.toNat < 0xf5)
      (second : Continues c) (third : Continues d) (fourth : Continues e)
      (value : code = (((b.toNat - 0xf0) * 64 + (c.toNat - 0x80)) * 64 + (d.toNat - 0x80)) * 64 +
        (e.toNat - 0x80))
      (long : 0x10000 ≤ code) (last : code < 0x110000) : Sequence [b, c, d, e] code

theorem toNat_ofNat {code : Nat} (valid : code.isValidChar) : (Char.ofNat code).toNat = code := by
  rw [Char.ofNat, dif_pos valid]
  rfl

theorem Sequence.valid {bytes : List UInt8} {code : Nat} (sequence : Sequence bytes code) :
    code.isValidChar := by
  rw [Nat.isValidChar]
  cases sequence with
  | one ascii value => omega
  | two lead second value =>
    obtain ⟨low, high⟩ := second
    omega
  | three lead second third value long scalar =>
    obtain ⟨low, high⟩ := second
    obtain ⟨least, most⟩ := third
    omega
  | four lead second third fourth value long last => omega

theorem ofNat_eq {value : Nat} {b : UInt8} (same : value = b.toNat) : UInt8.ofNat value = b := by
  rw [same, UInt8.ofNat_toNat]

/-- The bytes of a character are those that encode it. -/
theorem Sequence.encodes {bytes : List UInt8} {c : Char} (sequence : Sequence bytes c.toNat) :
    String.utf8EncodeChar c = bytes := by
  rw [String.utf8EncodeChar]
  generalize point : c.toNat = code at sequence
  simp only [Char.toNat_val, point]
  cases sequence with
  | one ascii value =>
    rw [if_pos (by omega), ofNat_eq value]
  | two lead second value =>
    obtain ⟨low, high⟩ := second
    rw [if_neg (by omega), if_pos (by omega)]
    simp only [List.cons.injEq, and_true]
    exact ⟨ofNat_eq (by omega), ofNat_eq (by omega)⟩
  | three lead second third value long scalar =>
    obtain ⟨low, high⟩ := second
    obtain ⟨least, most⟩ := third
    rw [if_neg (by omega), if_neg (by omega), if_pos (by omega)]
    simp only [List.cons.injEq, and_true]
    exact ⟨ofNat_eq (by omega), ofNat_eq (by omega), ofNat_eq (by omega)⟩
  | four lead second third fourth value long last =>
    obtain ⟨low, high⟩ := second
    obtain ⟨least, most⟩ := third
    obtain ⟨first, final⟩ := fourth
    rw [if_neg (by omega), if_neg (by omega), if_neg (by omega)]
    simp only [List.cons.injEq, and_true]
    exact ⟨ofNat_eq (by omega), ofNat_eq (by omega), ofNat_eq (by omega), ofNat_eq (by omega)⟩

theorem toNat_ofNat_of_lt {value : Nat} (small : value < 256) :
    (UInt8.ofNat value).toNat = value := by
  rw [UInt8.toNat_ofNat', Nat.mod_eq_of_lt small]

theorem continues_ofNat {value : Nat} (small : value < 64) :
    Continues (UInt8.ofNat (value + 128)) := by
  have same := toNat_ofNat_of_lt (show value + 128 < 256 by omega)
  rw [Continues, same]
  omega

/-- Every character has its bytes. -/
theorem sequence_utf8EncodeChar (c : Char) : Sequence (String.utf8EncodeChar c) c.toNat := by
  have valid : c.toNat < 0xd800 ∨ 0xdfff < c.toNat ∧ c.toNat < 0x110000 := c.valid
  rw [String.utf8EncodeChar]
  simp only [Char.toNat_val]
  generalize c.toNat = code at valid
  have last := toNat_ofNat_of_lt (show code % 64 + 128 < 256 by omega)
  have middle := toNat_ofNat_of_lt (show code / 64 % 64 + 128 < 256 by omega)
  have early := toNat_ofNat_of_lt (show code / 4096 % 64 + 128 < 256 by omega)
  have lastContinues := continues_ofNat (show code % 64 < 64 by omega)
  have middleContinues := continues_ofNat (show code / 64 % 64 < 64 by omega)
  have earlyContinues := continues_ofNat (show code / 4096 % 64 < 64 by omega)
  by_cases one : code ≤ 0x7f
  · rw [if_pos one]
    exact .one (by omega) (toNat_ofNat_of_lt (by omega)).symm
  rw [if_neg one]
  by_cases two : code ≤ 0x7ff
  · have lead := toNat_ofNat_of_lt (show code / 64 % 32 + 192 < 256 by omega)
    rw [if_pos two]
    exact .two (by omega) lastContinues (by omega)
  rw [if_neg two]
  by_cases three : code ≤ 0xffff
  · have lead := toNat_ofNat_of_lt (show code / 4096 % 16 + 224 < 256 by omega)
    rw [if_pos three]
    exact .three (by omega) middleContinues lastContinues (by omega) (by omega) (by omega)
  · have lead := toNat_ofNat_of_lt (show code / 262144 % 8 + 240 < 256 by omega)
    rw [if_neg three]
    exact .four (by omega) earlyContinues middleContinues lastContinues (by omega) (by omega)
      (by omega)

/-- A byte below 128 is a character by itself. -/
theorem Sequence.eq_of_mem {bytes : Bytes} {code : Nat} (sequence : Sequence bytes code)
    {b : UInt8} (member : b ∈ bytes) (ascii : b.toNat < 0x80) : code = b.toNat := by
  cases sequence with
  | one _ value => rw [value, List.mem_singleton.mp member]
  | two lead second value =>
    have next := second.1
    simp only [List.mem_cons, List.not_mem_nil, or_false] at member
    rcases member with rfl | rfl <;> omega
  | three lead second third value long scalar =>
    have next := second.1
    have last := third.1
    simp only [List.mem_cons, List.not_mem_nil, or_false] at member
    rcases member with rfl | rfl | rfl <;> omega
  | four lead second third fourth value long final =>
    have next := second.1
    have middle := third.1
    have last := fourth.1
    simp only [List.mem_cons, List.not_mem_nil, or_false] at member
    rcases member with rfl | rfl | rfl | rfl <;> omega

/-- What a first byte leads to. After three or four, the bounds on the second byte are such that
the code point is none of those that have no bytes. -/
inductive Starts (b : UInt8) : Progress → Prop where
  | one (lead : b.toNat < 0x80) : Starts b (.whole (Char.ofNat b.toNat))
  | two (lead : 0xc2 ≤ b.toNat ∧ b.toNat < 0xe0) :
      Starts b (.part ⟨1, 1, 0x80, 0xbf, b.toNat - 0xc0⟩)
  | three {low high : UInt8} (lead : 0xe0 ≤ b.toNat ∧ b.toNat < 0xf0)
      (bounds : ∀ c : UInt8, low.toNat ≤ c.toNat ∧ c.toNat ≤ high.toNat ↔ Continues c ∧
        32 ≤ (b.toNat - 0xe0) * 64 + (c.toNat - 0x80) ∧
        ((b.toNat - 0xe0) * 64 + (c.toNat - 0x80)) / 32 ≠ 27) :
      Starts b (.part ⟨1, 2, low, high, b.toNat - 0xe0⟩)
  | four {low high : UInt8} (lead : 0xf0 ≤ b.toNat ∧ b.toNat < 0xf5)
      (bounds : ∀ c : UInt8, low.toNat ≤ c.toNat ∧ c.toNat ≤ high.toNat ↔ Continues c ∧
        16 ≤ (b.toNat - 0xf0) * 64 + (c.toNat - 0x80) ∧
        (b.toNat - 0xf0) * 64 + (c.toNat - 0x80) < 272) :
      Starts b (.part ⟨1, 3, low, high, b.toNat - 0xf0⟩)
  | invalid (none : 0x80 ≤ b.toNat ∧ b.toNat < 0xc2 ∨ 0xf5 ≤ b.toNat) : Starts b .invalid

theorem starts (b : UInt8) : Starts b (Progress.start b) := by
  unfold Progress.start
  simp only [UInt8.lt_iff_toNat_lt, ← UInt8.toNat_inj, UInt8.reduceToNat]
  split
  · exact .one (by assumption)
  split
  · exact .invalid (by omega)
  split
  · exact .two (by omega)
  split
  · rename_i lead
    rw [show (0 : Nat) = b.toNat - 0xe0 by omega]
    apply Starts.three (by omega)
    intro c
    simp only [Continues, UInt8.reduceToNat]
    omega
  split
  · rename_i lead
    rw [show (0xd : Nat) = b.toNat - 0xe0 by omega]
    apply Starts.three (by omega)
    intro c
    simp only [Continues, UInt8.reduceToNat]
    omega
  split
  · apply Starts.three (by omega)
    intro c
    simp only [Continues, UInt8.reduceToNat]
    omega
  split
  · rename_i lead
    rw [show (0 : Nat) = b.toNat - 0xf0 by omega]
    apply Starts.four (by omega)
    intro c
    simp only [Continues, UInt8.reduceToNat]
    omega
  split
  · apply Starts.four (by omega)
    intro c
    simp only [Continues, UInt8.reduceToNat]
    omega
  split
  · rename_i lead
    rw [show (4 : Nat) = b.toNat - 0xf0 by omega]
    apply Starts.four (by omega)
    intro c
    simp only [Continues, UInt8.reduceToNat]
    omega
  · exact .invalid (by omega)

theorem start_of_one {b : UInt8} (lead : b.toNat < 0x80) :
    Progress.start b = .whole (Char.ofNat b.toNat) := by
  have known := starts b
  generalize Progress.start b = progress at known
  cases known <;> first | rfl | omega

theorem start_of_two {b : UInt8} (lead : 0xc2 ≤ b.toNat ∧ b.toNat < 0xe0) :
    Progress.start b = .part ⟨1, 1, 0x80, 0xbf, b.toNat - 0xc0⟩ := by
  have known := starts b
  generalize Progress.start b = progress at known
  cases known <;> first | rfl | omega

theorem start_of_three {b : UInt8} (lead : 0xe0 ≤ b.toNat ∧ b.toNat < 0xf0) :
    ∃ low high : UInt8, Progress.start b = .part ⟨1, 2, low, high, b.toNat - 0xe0⟩ ∧
      ∀ c : UInt8, low.toNat ≤ c.toNat ∧ c.toNat ≤ high.toNat ↔ Continues c ∧
        32 ≤ (b.toNat - 0xe0) * 64 + (c.toNat - 0x80) ∧
        ((b.toNat - 0xe0) * 64 + (c.toNat - 0x80)) / 32 ≠ 27 := by
  have known := starts b
  generalize Progress.start b = progress at known
  cases known with
  | three _ bounds => exact ⟨_, _, rfl, bounds⟩
  | _ => omega

theorem start_of_four {b : UInt8} (lead : 0xf0 ≤ b.toNat ∧ b.toNat < 0xf5) :
    ∃ low high : UInt8, Progress.start b = .part ⟨1, 3, low, high, b.toNat - 0xf0⟩ ∧
      ∀ c : UInt8, low.toNat ≤ c.toNat ∧ c.toNat ≤ high.toNat ↔ Continues c ∧
        16 ≤ (b.toNat - 0xf0) * 64 + (c.toNat - 0x80) ∧
        (b.toNat - 0xf0) * 64 + (c.toNat - 0x80) < 272 := by
  have known := starts b
  generalize Progress.start b = progress at known
  cases known with
  | four _ bounds => exact ⟨_, _, rfl, bounds⟩
  | _ => omega

section Held

variable {index taken missing code : Nat} {low high b : UInt8}

theorem not_outside (bounds : low.toNat ≤ b.toNat ∧ b.toNat ≤ high.toNat) :
    ¬(b < low ∨ high < b) := by
  rw [UInt8.lt_iff_toNat_lt, UInt8.lt_iff_toNat_lt]
  omega

/-- The last byte of a character that is held completes it. -/
theorem decodeFrom_last (rest : Bytes) (bounds : low.toNat ≤ b.toNat ∧ b.toNat ≤ high.toNat) :
    decodeFrom index (some ⟨taken, 1, low, high, code⟩) (b :: rest) =
      (decodeFrom (index + taken + 1) none rest).map
        (Char.ofNat (code * 64 + (b.toNat - 0x80)) :: ·) := by
  rw [decodeFrom, Partial.next, if_neg (not_outside bounds), if_pos (Nat.le_refl 1)]

/-- Any other byte of it is held as well. -/
theorem decodeFrom_more (rest : Bytes) (bounds : low.toNat ≤ b.toNat ∧ b.toNat ≤ high.toNat) :
    decodeFrom index (some ⟨taken, missing + 2, low, high, code⟩) (b :: rest) =
      decodeFrom index
        (some ⟨taken + 1, missing + 1, 0x80, 0xbf, code * 64 + (b.toNat - 0x80)⟩) rest := by
  rw [decodeFrom, Partial.next, if_neg (not_outside bounds),
    if_neg (show ¬missing + 2 ≤ 1 by omega)]
  rfl

/-- What is decoded goes on with a byte within the bounds. -/
theorem exists_of_decodeFrom_held {p : Partial} {bytes : Bytes} {text : List Char}
    (decoded : decodeFrom index (some p) bytes = .ok text) :
    ∃ b rest, bytes = b :: rest ∧ p.low.toNat ≤ b.toNat ∧ b.toNat ≤ p.high.toNat := by
  cases bytes with
  | nil => cases decoded
  | cons b rest =>
    refine ⟨b, rest, rfl, ?_⟩
    rw [decodeFrom, Partial.next] at decoded
    by_cases outside : b < p.low ∨ p.high < b
    · rw [if_pos outside] at decoded
      cases decoded
    · rw [UInt8.lt_iff_toNat_lt, UInt8.lt_iff_toNat_lt] at outside
      omega

end Held

theorem decodeFrom_start (index : Nat) (b : UInt8) (rest : Bytes) :
    decodeFrom index none (b :: rest) =
      match Progress.start b with
      | .whole c => (decodeFrom (index + 1) none rest).map (c :: ·)
      | .part p => decodeFrom index (some p) rest
      | .invalid => .error ⟨index, some 1⟩ := rfl

/-- The bytes of a code point are decoded as its character. -/
theorem decodeFrom_sequence {bytes : Bytes} {code : Nat} (sequence : Sequence bytes code)
    (index : Nat) (rest : Bytes) :
    decodeFrom index none (bytes ++ rest) =
      (decodeFrom (index + bytes.length) none rest).map (Char.ofNat code :: ·) := by
  cases sequence with
  | @one b _ ascii value =>
    rw [List.singleton_append, decodeFrom_start, start_of_one (by omega), value]
    rfl
  | @two b c _ lead second value =>
    rw [List.cons_append, decodeFrom_start, start_of_two lead]
    change decodeFrom index (some ⟨1, 1, 0x80, 0xbf, b.toNat - 0xc0⟩) (c :: rest) = _
    rw [decodeFrom_last rest second.bounds, value]
    rfl
  | @three b c d _ lead second third value long scalar =>
    obtain ⟨low, high, started, bounds⟩ := start_of_three lead
    have final := third.bounds
    obtain ⟨least, most⟩ := third
    have inside := (bounds c).mpr ⟨second, by omega, by omega⟩
    rw [List.cons_append, decodeFrom_start, started]
    change decodeFrom index (some ⟨1, 2, low, high, b.toNat - 0xe0⟩) (c :: d :: rest) = _
    rw [decodeFrom_more _ inside, decodeFrom_last rest final, value]
    rfl
  | @four b c d e _ lead second third fourth value long last =>
    obtain ⟨low, high, started, bounds⟩ := start_of_four lead
    have middle := third.bounds
    have final := fourth.bounds
    obtain ⟨least, most⟩ := third
    obtain ⟨first, highest⟩ := fourth
    have inside := (bounds c).mpr ⟨second, by omega, by omega⟩
    rw [List.cons_append, decodeFrom_start, started]
    change decodeFrom index (some ⟨1, 3, low, high, b.toNat - 0xf0⟩) (c :: d :: e :: rest) = _
    rw [decodeFrom_more _ inside, decodeFrom_more _ middle, decodeFrom_last rest final, value]
    rfl

/-- What is decoded starts with the bytes of a code point. -/
theorem exists_sequence {index : Nat} {b : UInt8} {bytes : Bytes} {text : List Char}
    (decoded : decodeFrom index none (b :: bytes) = .ok text) :
    ∃ sequence code rest, Sequence sequence code ∧ b :: bytes = sequence ++ rest := by
  have known := starts b
  rw [decodeFrom_start] at decoded
  generalize Progress.start b = progress at known decoded
  cases known with
  | one lead => exact ⟨[b], b.toNat, bytes, .one lead rfl, rfl⟩
  | two lead =>
    obtain ⟨c, rest, rfl, second⟩ := exists_of_decodeFrom_held decoded
    exact ⟨[b, c], _, rest, .two lead second rfl, rfl⟩
  | three lead bounds =>
    obtain ⟨c, later, rfl, inside⟩ := exists_of_decodeFrom_held decoded
    have held := (decodeFrom_more later inside).symm.trans decoded
    obtain ⟨d, rest, rfl, least, most⟩ := exists_of_decodeFrom_held held
    obtain ⟨second, long, scalar⟩ := (bounds c).mp inside
    simp only [UInt8.reduceToNat] at least most
    exact ⟨[b, c, d], _, rest, .three lead second ⟨least, most⟩ rfl (by omega) (by omega), rfl⟩
  | four lead bounds =>
    obtain ⟨c, later, rfl, inside⟩ := exists_of_decodeFrom_held decoded
    have held := (decodeFrom_more later inside).symm.trans decoded
    obtain ⟨d, later, rfl, third⟩ := exists_of_decodeFrom_held held
    have heldOn := (decodeFrom_more later third).symm.trans held
    obtain ⟨e, rest, rfl, first, final⟩ := exists_of_decodeFrom_held heldOn
    obtain ⟨second, long, last⟩ := (bounds c).mp inside
    obtain ⟨least, most⟩ := third
    simp only [UInt8.reduceToNat] at least most first final
    exact ⟨[b, c, d, e], _, rest, .four lead second ⟨least, most⟩ ⟨first, final⟩ rfl (by omega)
      (by omega), rfl⟩
  | invalid none => cases decoded

theorem decodeFrom_encode (text : List Char) (index : Nat) :
    decodeFrom index none (encode text) = .ok text := by
  induction text generalizing index with
  | nil => rfl
  | cons c rest ih =>
    have first := decodeFrom_sequence (sequence_utf8EncodeChar c) index (encode rest)
    rw [ih, Char.ofNat_toNat] at first
    exact first

theorem Sequence.ne_nil {bytes : Bytes} {code : Nat} (sequence : Sequence bytes code) :
    bytes ≠ [] := by
  cases sequence <;> exact List.cons_ne_nil _ _

theorem encode_of_decodeFrom {text : List Char} {bytes : Bytes} {index : Nat}
    (decoded : decodeFrom index none bytes = .ok text) : encode text = bytes := by
  -- Each step takes the bytes of a character off, so the induction is on their number.
  induction size : bytes.length using Nat.strongRecOn generalizing bytes index text with
  | ind size ih =>
    subst size
    cases bytes with
    | nil =>
      cases decoded
      rfl
    | cons b bytes =>
      obtain ⟨sequence, code, rest, spells, parts⟩ := exists_sequence decoded
      have shorter : rest.length < (b :: bytes).length := by
        rw [parts, List.length_append]
        have positive := List.length_pos_iff.mpr spells.ne_nil
        omega
      rw [parts, decodeFrom_sequence spells] at decoded
      cases found : decodeFrom (index + sequence.length) none rest with
      | error fault =>
        rw [found] at decoded
        cases decoded
      | ok later =>
        rw [found] at decoded
        cases decoded
        have again := ih rest.length shorter found rfl
        have same : (Char.ofNat code).toNat = code := toNat_ofNat spells.valid
        rw [← same] at spells
        rw [parts, ← spells.encodes, ← again]
        rfl

/-- Bytes are decoded as the text that they encode, and as no other. -/
theorem decode_eq_ok_iff (bytes : Bytes) (text : List Char) :
    decode bytes = .ok text ↔ encode text = bytes := by
  constructor
  · exact encode_of_decodeFrom
  · rintro rfl
    exact decodeFrom_encode text 0

theorem encode_ne_of_decode {bytes : Bytes} {fault : Malformed}
    (refused : decode bytes = .error fault) (text : List Char) : encode text ≠ bytes := by
  intro encodes
  rw [(decode_eq_ok_iff bytes text).mpr encodes] at refused
  cases refused

/-! Sizes -/

theorem byteLength_append (first second : List Char) :
    byteLength (first ++ second) = byteLength first + byteLength second := by
  simp [byteLength, encode]

theorem length_le_byteLength (text : List Char) : text.length ≤ byteLength text := by
  induction text with
  | nil => exact Nat.le_refl 0
  | cons c rest ih =>
    have positive := c.utf8Size_pos
    simp only [byteLength, encode, List.flatMap_cons, List.length_append, List.length_cons,
      String.length_utf8EncodeChar] at ih ⊢
    omega

/-! Order -/

/-- The bytes of a smaller code point come first, whatever follows them. -/
theorem Sequence.append_lt_append {first second : Bytes} {low high : Nat}
    (lower : Sequence first low) (upper : Sequence second high) (less : low < high)
    (after rest : Bytes) : first ++ after < second ++ rest := by
  cases lower <;> cases upper <;>
    simp only [Continues, List.cons_append, List.nil_append, List.cons_lt_cons_iff,
      UInt8.lt_iff_toNat_lt, ← UInt8.toNat_inj] at * <;>
    omega

/-- Texts in the order of their characters are in the order of their bytes. -/
theorem encode_lt_encode {x y : List Char} (less : x < y) : encode x < encode y := by
  induction less with
  | @nil d ds =>
    obtain ⟨b, bytes, first⟩ := List.exists_cons_of_ne_nil (sequence_utf8EncodeChar d).ne_nil
    rw [encode, encode, List.flatMap_nil, List.flatMap_cons, first]
    exact List.nil_lt_cons _ _
  | @rel c cs d ds less =>
    rw [encode, encode, List.flatMap_cons, List.flatMap_cons]
    exact (sequence_utf8EncodeChar c).append_lt_append (sequence_utf8EncodeChar d) less _ _
  | @cons c cs ds less ih =>
    rw [encode, encode, List.flatMap_cons, List.flatMap_cons]
    exact List.append_left_lt ih

end LineCalc.Text
