import LineCalc.Binary64.Basic

set_option autoImplicit false

/- The interchange encoding of binary64 numbers: a sign bit above 63 bits that number the magnitudes
in ascending order, from zero to infinity, with "not a number" beyond: signaling first, then
quiet. -/
namespace LineCalc.Binary64

/-- The number of a magnitude. Its exponent field counts the shifts of its significand; the leading
digit, which the encoding leaves out, adds the one that makes the field start at 1. -/
def encodeUnits (units : Nat) : Nat :=
  let shift := units.log2 - 52
  shift <<< 52 + units >>> shift

/-- The magnitude with a number. The least numbers are shifted by nothing and have no leading digit,
so they are magnitudes themselves. -/
def decodeUnits (code : Nat) : Nat :=
  let shift := code >>> 52 - 1
  (code - shift <<< 52) <<< shift

/-- The number of infinity. -/
def infinityCode : Nat := 2047 <<< 52

theorem representable_decodeUnits {code : Nat} (finite : code < infinityCode) :
    Representable (decodeUnits code) := by
  unfold infinityCode at finite
  exact .encoded (by omega) (by omega)

/-- A magnitude without a leading digit in place is its own number. -/
theorem encodeUnits_of_lt {units : Nat} (small : units < 1 <<< 52) : encodeUnits units = units := by
  have shift : units.log2 - 52 = 0 := by
    by_cases zero : units = 0
    · rw [zero]
      rfl
    · rw [Nat.one_shiftLeft] at small
      have := (Nat.log2_lt zero).mpr small
      omega
  simp only [encodeUnits, shift, Nat.zero_shiftLeft, Nat.zero_add, Nat.shiftRight_zero]

/-- Any other one is a significand with its leading digit, shifted. -/
theorem encodeUnits_shifted {significand shift : Nat} (lower : 1 <<< 52 ≤ significand)
    (upper : significand < 1 <<< 53) :
    encodeUnits (significand <<< shift) = shift <<< 52 + significand := by
  have below := shiftLeft_lt upper shift
  have above : 1 <<< (52 + shift) ≤ significand <<< shift := by
    rw [Nat.shiftLeft_add, Nat.shiftLeft_eq (1 <<< 52), Nat.shiftLeft_eq significand]
    exact Nat.mul_le_mul_right _ lower
  rw [Nat.one_shiftLeft] at above below
  have positive := Nat.ne_of_gt (Nat.lt_of_lt_of_le (Nat.two_pow_pos _) above)
  have upperLog := (Nat.log2_lt positive).mpr below
  have lowerLog := (Nat.le_log2 positive).mpr above
  have log : (significand <<< shift).log2 - 52 = shift := by omega
  simp only [encodeUnits, log, Nat.shiftLeft_shiftRight]

theorem decodeUnits_of_lt {code : Nat} (small : code < 1 <<< 52) : decodeUnits code = code := by
  have shift : code >>> 52 - 1 = 0 := by omega
  simp only [decodeUnits, shift, Nat.zero_shiftLeft, Nat.sub_zero, Nat.shiftLeft_zero]

theorem decodeUnits_shifted {significand shift : Nat} (lower : 1 <<< 52 ≤ significand)
    (upper : significand < 1 <<< 53) :
    decodeUnits (shift <<< 52 + significand) = significand <<< shift := by
  have field : (shift <<< 52 + significand) >>> 52 - 1 = shift := by omega
  simp only [decodeUnits, field, Nat.add_sub_cancel_left]

theorem encodeUnits_decodeUnits (code : Nat) : encodeUnits (decodeUnits code) = code := by
  by_cases small : code < 1 <<< 52
  · rw [decodeUnits_of_lt small, encodeUnits_of_lt small]
  · refine (encodeUnits_shifted (by omega) (by omega)).trans ?_
    omega

theorem decodeUnits_encodeUnits {units : Nat} (fits : Representable units) :
    decodeUnits (encodeUnits units) = units := by
  by_cases small : units < 1 <<< 52
  · rw [encodeUnits_of_lt small, decodeUnits_of_lt small]
  · obtain ⟨significand, shift, lower, upper, _, rfl⟩ := fits.exists_shifted (by omega)
    rw [encodeUnits_shifted lower upper, decodeUnits_shifted lower upper]

theorem encodeUnits_lt {units : Nat} (fits : Representable units) :
    encodeUnits units < infinityCode := by
  unfold infinityCode
  by_cases small : units < 1 <<< 52
  · rw [encodeUnits_of_lt small]
    omega
  · obtain ⟨significand, shift, lower, upper, range, rfl⟩ := fits.exists_shifted (by omega)
    rw [encodeUnits_shifted lower upper]
    omega

/-- The first number of a quiet "not a number". -/
def quietCode : Nat := infinityCode + 1 <<< 51

/-- A sign and the number of a magnitude. -/
def ofCode (negative : Bool) (code : Nat) : Binary64 :=
  if finite : code < infinityCode then
    .finite negative (decodeUnits code) (representable_decodeUnits finite)
  else if code = infinityCode then .infinity negative
  else .nan (code < quietCode)

def code : Binary64 → Nat
  | .nan true => infinityCode + 1
  | .nan false => quietCode
  | .infinity _ => infinityCode
  | .finite _ units _ => encodeUnits units

theorem code_lt (x : Binary64) : x.code < 1 <<< 63 := by
  cases x with
  | nan signaling => cases signaling <;> decide
  | infinity negative => exact (by decide : infinityCode < 1 <<< 63)
  | finite negative units fits =>
    exact Nat.lt_trans (encodeUnits_lt fits) (by decide : infinityCode < 1 <<< 63)

theorem ofCode_of_lt (negative : Bool) {code : Nat} (finite : code < infinityCode) :
    ofCode negative code =
      .finite negative (decodeUnits code) (representable_decodeUnits finite) :=
  dif_pos finite

theorem ofCode_infinityCode (negative : Bool) :
    ofCode negative infinityCode = .infinity negative := by
  rw [ofCode, dif_neg (Nat.lt_irrefl _), if_pos rfl]

theorem ofCode_of_gt (negative : Bool) {code : Nat} (beyond : infinityCode < code) :
    ofCode negative code = .nan (code < quietCode) := by
  rw [ofCode, dif_neg (Nat.lt_asymm beyond), if_neg (Nat.ne_of_gt beyond)]

theorem ofCode_code (x : Binary64) : ofCode x.isNegative x.code = x := by
  cases x with
  | nan signaling => cases signaling <;> exact ofCode_of_gt _ (by decide)
  | infinity negative => exact ofCode_infinityCode negative
  | finite negative units fits =>
    refine (ofCode_of_lt negative (encodeUnits_lt fits)).trans ?_
    congr 1
    exact decodeUnits_encodeUnits fits

/-- The number that an encoding stands for. -/
def ofBits (bits : UInt64) : Binary64 :=
  if 1 <<< 63 ≤ bits.toNat then ofCode true (bits.toNat - 1 <<< 63) else ofCode false bits.toNat

def toBits (x : Binary64) : UInt64 :=
  UInt64.ofNat (if x.isNegative then 1 <<< 63 + x.code else x.code)

theorem toNat_toBits (x : Binary64) :
    x.toBits.toNat = if x.isNegative then 1 <<< 63 + x.code else x.code := by
  have := x.code_lt
  simp only [toBits, UInt64.toNat_ofNat']
  split <;> omega

theorem ofBits_toBits (x : Binary64) : ofBits x.toBits = x := by
  have bound := x.code_lt
  have own := x.ofCode_code
  unfold ofBits
  rw [toNat_toBits]
  cases sign : x.isNegative with
  | true =>
    rw [sign] at own
    rw [if_pos rfl, if_pos (Nat.le_add_right _ _), Nat.add_sub_cancel_left, own]
  | false =>
    rw [sign] at own
    rw [if_neg Bool.false_ne_true, if_neg (Nat.not_le_of_lt bound), own]

/-- A number determines its sign and its code. -/
theorem code_ofCode (negative : Bool) {code : Nat} (number : (ofCode negative code).isNan = false) :
    (ofCode negative code).isNegative = negative ∧ (ofCode negative code).code = code := by
  rcases Nat.lt_trichotomy code infinityCode with finite | rfl | beyond
  · rw [ofCode_of_lt _ finite]
    exact ⟨rfl, encodeUnits_decodeUnits code⟩
  · rw [ofCode_infinityCode]
    exact ⟨rfl, rfl⟩
  · rw [ofCode_of_gt _ beyond] at number
    contradiction

/-- Different encodings stand for different numbers, but for those of "not a number". -/
theorem toBits_ofBits {bits : UInt64} (number : (ofBits bits).isNan = false) :
    (ofBits bits).toBits = bits := by
  apply UInt64.toNat_inj.mp
  rw [toNat_toBits]
  unfold ofBits at number ⊢
  split at number
  next high =>
    obtain ⟨sign, same⟩ := code_ofCode true number
    rw [if_pos high, sign, same, if_pos rfl]
    exact Nat.add_sub_of_le high
  next low =>
    obtain ⟨sign, same⟩ := code_ofCode false number
    rw [if_neg low, sign, same, if_neg Bool.false_ne_true]

end LineCalc.Binary64
