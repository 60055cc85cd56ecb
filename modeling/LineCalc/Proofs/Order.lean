import LineCalc.Proofs.Value

set_option autoImplicit false

/- The order of binary64 numbers. Their values are in the order of their codes, both taken with the
sign, and the comparison of two numbers is that of their values. -/
namespace LineCalc.Binary64

/-- The numbering of magnitudes is in ascending order. -/
theorem decodeUnits_lt_succ (code : Nat) : decodeUnits code < decodeUnits (code + 1) := by
  have unshifted : ∀ {i : Nat}, i < 1 <<< 53 → decodeUnits i = i := by
    intro i small
    have shift : i >>> 52 - 1 = 0 := by omega
    rw [decodeUnits, shift, Nat.zero_shiftLeft, Nat.shiftLeft_zero, Nat.sub_zero]
  by_cases least : code < 1 <<< 52
  · rw [unshifted (by omega), unshifted (by omega)]
    exact Nat.lt_succ_self code
  · obtain ⟨significand, shift, lower, upper, rfl⟩ : ∃ significand shift, 1 <<< 52 ≤ significand ∧
        significand < 1 <<< 53 ∧ code = shift <<< 52 + significand :=
      ⟨code - (code >>> 52 - 1) <<< 52, code >>> 52 - 1, by omega, by omega, by omega⟩
    have grown : decodeUnits (shift <<< 52 + significand + 1) = (significand + 1) <<< shift := by
      by_cases room : significand + 1 < 1 <<< 53
      · rw [Nat.add_assoc, decodeUnits_shifted (by omega) room]
      · have carried : shift <<< 52 + significand + 1 = (shift + 1) <<< 52 + 1 <<< 52 := by omega
        have full : significand + 1 = 1 <<< 52 <<< 1 := by omega
        rw [carried, decodeUnits_shifted (Nat.le_refl _) (by decide), full, Nat.add_comm,
          Nat.shiftLeft_add]
    rw [grown, decodeUnits_shifted lower upper, Nat.shiftLeft_eq, Nat.shiftLeft_eq]
    exact Nat.mul_lt_mul_of_pos_right (Nat.lt_succ_self significand) (Nat.two_pow_pos shift)

theorem decodeUnits_strictMono : StrictMono decodeUnits :=
  strictMono_nat_of_lt_succ decodeUnits_lt_succ

theorem signed_decodeUnits_lt_iff (s t : Bool) (m n : Nat) :
    signed s (decodeUnits m) < signed t (decodeUnits n) ↔ signed s m < signed t n := by
  have order : ∀ {i j : Nat}, decodeUnits i < decodeUnits j ↔ i < j :=
    decodeUnits_strictMono.lt_iff_lt
  have positive : ∀ {i : Nat}, 0 < decodeUnits i ↔ 0 < i := @order 0
  have forward := @order m n
  have backward := @order n m
  have first := @positive m
  have second := @positive n
  cases s <;> cases t <;> simp only [signed, ↓reduceIte, Bool.false_eq_true] <;> omega

section

variable {x y : Binary64}

theorem code_le (number : x.isNan = false) : x.code ≤ infinityCode := by
  cases x with
  | nan signaling => cases number
  | infinity negative => exact Nat.le_refl _
  | finite negative units fits => exact (encodeUnits_lt fits).le

/-- Infinity continues the numbering. -/
theorem decodeUnits_infinityCode : decodeUnits infinityCode = magnitudeLimit :=
  (decodeUnits_shifted (Nat.le_refl _) (by decide) :
    decodeUnits (2046 <<< 52 + 1 <<< 52) = 1 <<< 52 <<< 2046)

theorem decodeUnits_code (number : x.isNan = false) : decodeUnits x.code = x.units := by
  cases x with
  | nan signaling => cases number
  | infinity negative => exact decodeUnits_infinityCode
  | finite negative units fits => exact decodeUnits_encodeUnits fits

theorem value_lt_value_iff_units :
    x.value < y.value ↔ signed x.isNegative x.units < signed y.isNegative y.units := by
  rw [value, value, div_lt_div_iff_of_pos_right one_pos, Int.cast_lt]

theorem value_lt_value_iff (first : x.isNan = false) (second : y.isNan = false) :
    x.value < y.value ↔ signed x.isNegative x.code < signed y.isNegative y.code := by
  rw [value_lt_value_iff_units, ← decodeUnits_code first, ← decodeUnits_code second]
  exact signed_decodeUnits_lt_iff ..

/-- The comparison of numbers is that of their values. -/
theorem less_iff (first : x.isNan = false) (second : y.isNan = false) :
    x.less y = true ↔ x.value < y.value := by
  have positive : 0 < magnitudeLimit := Representable.zero.lt
  rw [value_lt_value_iff_units]
  cases x with
  | nan signaling => cases first
  | infinity s =>
    cases y with
    | nan signaling => cases second
    | infinity t =>
      change (s && !t) = true ↔ signed s magnitudeLimit < signed t magnitudeLimit
      generalize magnitudeLimit = limit at positive ⊢
      cases s <;> cases t <;> grind [signed]
    | finite t n fits =>
      have below := fits.lt
      change s = true ↔ signed s magnitudeLimit < signed t n
      generalize magnitudeLimit = limit at below ⊢
      cases s <;> cases t <;> grind [signed]
  | finite s m fits =>
    cases y with
    | nan signaling => cases second
    | infinity t =>
      have below := fits.lt
      change (!t) = true ↔ signed s m < signed t magnitudeLimit
      generalize magnitudeLimit = limit at below ⊢
      cases s <;> cases t <;> grind [signed]
    | finite t n _ => exact decide_eq_true_iff

/-- Between two numbers with even codes lies one with an odd code. -/
theorem exists_value_between (first : x.isNan = false) (second : y.isNan = false)
    (evenFirst : Even x.code) (evenSecond : Even y.code) (lt : x.value < y.value) :
    ∃ z : Binary64, z.isNan = false ∧ x.value < z.value ∧ z.value < y.value := by
  have apart := (value_lt_value_iff first second).mp lt
  have firstBound := code_le first
  have secondBound := code_le second
  obtain ⟨place, next⟩ : ∃ place, place = signed x.isNegative x.code + 1 := ⟨_, rfl⟩
  rw [Nat.even_iff] at evenFirst evenSecond
  have between : place < signed y.isNegative y.code ∧ place.natAbs ≤ infinityCode := by
    generalize x.isNegative = s, y.isNegative = t at next apart ⊢
    cases s <;> cases t <;>
      simp only [signed, ↓reduceIte, Bool.false_eq_true] at next apart ⊢ <;> omega
  have number : (ofCode (place < 0) place.natAbs).isNan = false := by
    rcases Nat.lt_or_eq_of_le between.2 with finite | infinite
    · rw [ofCode_of_lt _ finite]
      rfl
    · rw [infinite, ofCode_infinityCode]
      rfl
  obtain ⟨sign, code⟩ := code_ofCode _ number
  have own : signed (place < 0) place.natAbs = place := by
    simp only [signed, decide_eq_true_eq]
    split <;> omega
  refine ⟨_, number, ?_, ?_⟩
  · rw [value_lt_value_iff first number, sign, code, own, next]
    exact Int.lt_succ _
  · rw [value_lt_value_iff number second, sign, code, own]
    exact between.1

end

end LineCalc.Binary64
