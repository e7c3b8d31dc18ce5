import Mathlib
import ScriptVM.Number.Parse
import ScriptVM.Proofs.Doubles

/-!
# Rounding to the nearest double

A fraction is rounded to the double that attracts it: the one that no other double is nearer than,
and whose significand is even if another one is as near. So a decimal whose value a finite double
attracts is read as that double, and a finite double is the one that its exponent and fraction bits
and its sign make.
-/

namespace ScriptVM
namespace Number

variable {number : Float} {numerator denominator result : Nat}

open Float.Model Float.Model.UnpackedFloat

/-! ## Division -/

/-- The quotient rounds to a number that it is no more than a half away from, and to the even one
of two. -/
theorem divideToEven_eq
    (positive : 0 < denominator)
    (low : 2 * (result * denominator) <= 2 * numerator + denominator)
    (high : 2 * numerator <= 2 * (result * denominator) + denominator)
    (even : result % 2 = 0 ∨
      2 * (result * denominator) < 2 * numerator + denominator ∧
        2 * numerator < 2 * (result * denominator) + denominator) :
    divideToEven numerator denominator = result := by
  have parts := Nat.div_add_mod numerator denominator
  have rest := Nat.mod_lt numerator positive
  rw [Nat.mul_comm] at parts
  unfold divideToEven
  dsimp only
  generalize numerator / denominator = quotient at parts ⊢
  generalize numerator % denominator = remainder at parts rest ⊢
  have least : quotient <= result := by
    by_contra less
    have : (result + 1) * denominator <= quotient * denominator :=
      Nat.mul_le_mul_right _ (by omega)
    rw [Nat.add_mul] at this
    omega
  have most : result <= quotient + 1 := by
    by_contra more
    have : (quotient + 2) * denominator <= result * denominator :=
      Nat.mul_le_mul_right _ (by omega)
    rw [Nat.add_mul] at this
    omega
  obtain rfl | rfl : result = quotient ∨ result = quotient + 1 := by omega
  · rw [if_pos]
    simp only [Bool.or_eq_true, Bool.and_eq_true, decide_eq_true_eq, beq_iff_eq]
    omega
  · rw [Nat.add_mul] at low high even
    rw [if_neg]
    simp only [Bool.or_eq_true, Bool.and_eq_true, decide_eq_true_eq, beq_iff_eq]
    omega

/-- A quotient rounds to a number that is no more than a half away from it, and to the even one of
two. -/
theorem divideToEven_of_near
    (positive : 0 < denominator)
    (low : (result : ℚ) - 1 / 2 <= numerator / denominator)
    (high : (numerator : ℚ) / denominator <= result + 1 / 2)
    (even : result % 2 = 0 ∨
      (result : ℚ) - 1 / 2 < numerator / denominator ∧
        (numerator : ℚ) / denominator < result + 1 / 2) :
    divideToEven numerator denominator = result := by
  have divisor : (0 : ℚ) < denominator := by exact_mod_cast positive
  refine divideToEven_eq positive ?_ ?_ (even.imp_right fun strict => ⟨?_, ?_⟩)
  · rw [le_div_iff₀ divisor] at low
    have : (2 : ℚ) * (result * denominator) <= 2 * numerator + denominator := by linarith
    exact_mod_cast this
  · rw [div_le_iff₀ divisor] at high
    have : (2 : ℚ) * numerator <= 2 * (result * denominator) + denominator := by linarith
    exact_mod_cast this
  · have less := (lt_div_iff₀ divisor).1 strict.1
    have : (2 : ℚ) * (result * denominator) < 2 * numerator + denominator := by linarith
    exact_mod_cast this
  · have less := (div_lt_iff₀ divisor).1 strict.2
    have : (2 : ℚ) * numerator < 2 * (result * denominator) + denominator := by linarith
    exact_mod_cast this

/-! ## The exponent of a fraction -/

/-- A power with an exponent of any sign is a quotient of whole powers. -/
theorem zpow_mul_toNat_neg {base : ℚ} (nonzero : base ≠ 0) (exponent : Int) :
    base ^ exponent * base ^ (-exponent).toNat = base ^ exponent.toNat := by
  rw [← zpow_natCast, ← zpow_natCast, ← zpow_add₀ nonzero]
  congr 1
  omega

/-- Scaling numerator and denominator by whole powers scales the fraction. -/
theorem scaled_div
    {base : Nat}
    (positive : 0 < base)
    (numerator denominator : Nat)
    (exponent : Int) :
    ((numerator * base ^ (-exponent).toNat : Nat) : ℚ) /
        ((denominator * base ^ exponent.toNat : Nat) : ℚ) =
      (numerator : ℚ) / denominator / (base : ℚ) ^ exponent := by
  have nonzero : (base : ℚ) ≠ 0 := by exact_mod_cast positive.ne'
  push_cast
  rw [← zpow_mul_toNat_neg nonzero exponent, ← mul_assoc,
    mul_div_mul_right _ _ (pow_ne_zero _ nonzero), div_div]

/-- The logarithm of a natural number bounds it. -/
theorem zpow_log2_bounds {number : Nat} (positive : 0 < number) :
    (2 : ℚ) ^ (number.log2 : Int) <= number ∧ (number : ℚ) < 2 ^ ((number.log2 : Int) + 1) := by
  rw [← Nat.cast_succ, zpow_natCast, zpow_natCast]
  exact ⟨by exact_mod_cast Nat.log2_self_le positive.ne', by exact_mod_cast Nat.lt_log2_self⟩

/-- The significand has fifty-three bits, or the exponent is the least one. -/
theorem binaryExponent_spec
    (positive : 0 < numerator)
    (divisor : 0 < denominator) :
    (-1074 : Int) <= binaryExponent numerator denominator ∧
      (numerator : ℚ) / denominator / 2 ^ binaryExponent numerator denominator < 2 ^ 53 ∧
      (binaryExponent numerator denominator = -1074 ∨
        2 ^ 52 <= (numerator : ℚ) / denominator / 2 ^ binaryExponent numerator denominator) := by
  obtain ⟨low, high⟩ := zpow_log2_bounds positive
  obtain ⟨below, above⟩ := zpow_log2_bounds divisor
  have nonzero : (0 : ℚ) < denominator := by exact_mod_cast divisor
  have nonneg : (0 : ℚ) < numerator := by exact_mod_cast positive
  unfold binaryExponent
  set estimate := (numerator.log2 : Int) - denominator.log2 - 53 with defined
  -- The scaled fraction is between 2 ^ 52 and 2 ^ 54 at the estimate.
  have least : 2 ^ 52 <= (numerator : ℚ) / denominator / 2 ^ estimate := by
    rw [le_div_iff₀ (by positivity), le_div_iff₀ nonzero]
    calc (2 : ℚ) ^ 52 * 2 ^ estimate * denominator
        <= 2 ^ 52 * 2 ^ estimate * 2 ^ ((denominator.log2 : Int) + 1) := by gcongr
      _ = 2 ^ (numerator.log2 : Int) := by
          rw [← zpow_natCast, ← zpow_add₀ two_ne_zero, ← zpow_add₀ two_ne_zero]
          congr 1
          omega
      _ <= numerator := low
  have most : (numerator : ℚ) / denominator / 2 ^ estimate < 2 ^ 54 := by
    rw [div_lt_iff₀ (by positivity), div_lt_iff₀ nonzero]
    calc (numerator : ℚ)
        < 2 ^ ((numerator.log2 : Int) + 1) := high
      _ = 2 ^ 54 * 2 ^ estimate * 2 ^ (denominator.log2 : Int) := by
          rw [← zpow_natCast, ← zpow_add₀ two_ne_zero, ← zpow_add₀ two_ne_zero]
          congr 1
          omega
      _ <= 2 ^ 54 * 2 ^ estimate * denominator := by gcongr
  have fits : numerator <<< (-estimate).toNat < (denominator <<< estimate.toNat) <<< 53 ↔
      (numerator : ℚ) / denominator / 2 ^ estimate < 2 ^ 53 := by
    have scaled := scaled_div Nat.two_pos numerator denominator estimate
    rw [Nat.cast_ofNat] at scaled
    rw [← scaled, div_lt_iff₀ (by positivity), Nat.shiftLeft_eq, Nat.shiftLeft_eq,
      Nat.shiftLeft_eq, Nat.mul_comm _ (2 ^ 53)]
    exact_mod_cast Iff.rfl
  have chosen : ∃ exponent, (if numerator <<< (-estimate).toNat <
        (denominator <<< estimate.toNat) <<< 53 then estimate else estimate + 1) = exponent ∧
      (numerator : ℚ) / denominator / 2 ^ exponent < 2 ^ 53 ∧
      2 ^ 52 <= (numerator : ℚ) / denominator / 2 ^ exponent := by
    split
    · next below => exact ⟨estimate, rfl, fits.1 below, least⟩
    · next beyond =>
        refine ⟨estimate + 1, rfl, ?_, ?_⟩
        · rw [zpow_add_one₀ two_ne_zero, ← div_div]
          linarith
        · rw [zpow_add_one₀ two_ne_zero, ← div_div]
          linarith [not_lt.1 fun small => beyond (fits.2 small)]
  obtain ⟨exponent, same, small, normal⟩ := chosen
  dsimp only
  rw [same]
  rcases le_total (-1074) exponent with large | least
  · rw [max_eq_left large]
    exact ⟨large, small, .inr normal⟩
  · rw [max_eq_right least]
    refine ⟨le_rfl, lt_of_le_of_lt ?_ small, .inl rfl⟩
    exact div_le_div_of_nonneg_left (div_nonneg nonneg.le nonzero.le) (zpow_pos two_pos _)
      (zpow_le_zpow_right₀ one_le_two least)

/-! ## The doubles and what they attract -/

namespace Magnitude

/-- The number that a magnitude stands for. -/
def value (magnitude : Magnitude) : ℚ :=
  magnitude.significand * 2 ^ magnitude.exponent

/-- The exponent and fraction bits of a double, read as one number. -/
def fields (magnitude : Magnitude) : Nat :=
  (magnitude.exponent + 1074).toNat * 2 ^ 52 + magnitude.significand

/-- The magnitudes of finite doubles. -/
structure IsDouble (magnitude : Magnitude) : Prop where
  short : magnitude.significand < 2 ^ 53
  least : -1074 <= magnitude.exponent
  most : magnitude.exponent <= 971
  normal : magnitude.exponent = -1074 ∨ 2 ^ 52 <= magnitude.significand

/-- The distance from the significand to the lower end of its rounding interval. Below a power of
two the neighbour is half as far away. -/
def reach (magnitude : Magnitude) : ℚ :=
  if magnitude.significand = 0x10000000000000 ∧ -1074 < magnitude.exponent then 1 / 4 else 1 / 2

/-- A number is no nearer to any other double, and the significand is even if it is as near to
another one. -/
@[mk_iff] structure Attracts (magnitude : Magnitude) (number : ℚ) : Prop where
  low : magnitude.significand - magnitude.reach <= number / 2 ^ magnitude.exponent
  high : number / 2 ^ magnitude.exponent <= magnitude.significand + 1 / 2
  even : magnitude.significand % 2 = 0 ∨
    magnitude.significand - magnitude.reach < number / 2 ^ magnitude.exponent ∧
      number / 2 ^ magnitude.exponent < magnitude.significand + 1 / 2

variable {magnitude : Magnitude}

theorem reach_pos : 0 < magnitude.reach := by
  unfold reach
  split <;> norm_num

theorem reach_le : magnitude.reach <= 1 / 2 := by
  unfold reach
  split <;> norm_num

/-- What a double attracts is rounded to it. The exponent that is found may be one less than that
of the double, if the double is a power of two; then the significand carries into the exponent. -/
theorem fields_of_attracts
    {numerator denominator : Nat}
    (double : magnitude.IsDouble)
    (positive : 0 < numerator)
    (divisor : 0 < denominator)
    (near : magnitude.Attracts ((numerator : ℚ) / denominator)) :
    ((binaryExponent numerator denominator + 1074).toNat <<< 52) +
        divideToEven (numerator <<< (-binaryExponent numerator denominator).toNat)
          (denominator <<< (binaryExponent numerator denominator).toNat) =
      magnitude.fields := by
  obtain ⟨least, top, normal⟩ := binaryExponent_spec positive divisor
  have scaled := scaled_div Nat.two_pos numerator denominator
    (binaryExponent numerator denominator)
  have room : 0 < denominator * 2 ^ (binaryExponent numerator denominator).toNat :=
    Nat.mul_pos divisor (Nat.two_pow_pos _)
  rw [Nat.shiftLeft_eq, Nat.shiftLeft_eq, Nat.shiftLeft_eq]
  unfold fields
  generalize binaryExponent numerator denominator = exponent at *
  generalize numerator * 2 ^ (-exponent).toNat = upper at scaled ⊢
  generalize denominator * 2 ^ exponent.toNat = lower at scaled room ⊢
  rw [Nat.cast_ofNat] at scaled
  rw [← scaled] at top normal
  have close := magnitude.reach_le
  obtain ⟨low, high, even⟩ := near
  have short : (magnitude.significand : ℚ) + 1 <= 2 ^ 53 := by exact_mod_cast double.short
  -- A larger exponent makes the scaled fraction smaller.
  have rescale : ∀ (exponent : Int) (shift : Nat),
      (numerator : ℚ) / denominator / 2 ^ exponent =
        (numerator : ℚ) / denominator / 2 ^ (exponent + shift) * 2 ^ shift := by
    intro exponent shift
    rw [zpow_add₀ two_ne_zero, zpow_natCast]
    field_simp
  rcases lt_trichotomy exponent magnitude.exponent with less | rfl | more
  · -- The fraction is just below a power of two.
    obtain ⟨shift, apart⟩ : ∃ shift : Nat, magnitude.exponent = exponent + (shift + 1 : Nat) :=
      ⟨(magnitude.exponent - exponent - 1).toNat, by omega⟩
    have large : 2 ^ 52 <= magnitude.significand := double.normal.resolve_left (by omega)
    rw [rescale exponent (shift + 1), ← apart] at scaled
    generalize (numerator : ℚ) / denominator / 2 ^ magnitude.exponent = point at *
    have above : (2 : ℚ) ^ 1 <= 2 ^ (shift + 1) :=
      pow_le_pow_right₀ one_le_two (by omega)
    have positive : (0 : ℚ) <= point := by
      have : (2 ^ 52 : ℚ) <= magnitude.significand := by exact_mod_cast large
      linarith
    have half : point * 2 ^ 1 <= point * 2 ^ (shift + 1) := by gcongr
    have power : magnitude.significand = 2 ^ 52 := by
      have : (magnitude.significand : ℚ) < 2 ^ 52 + 1 := by linarith
      have : magnitude.significand < 2 ^ 52 + 1 := by exact_mod_cast this
      omega
    have quarter : magnitude.reach = 1 / 4 := if_pos ⟨power, by omega⟩
    rw [quarter, power] at low
    push_cast at low
    obtain rfl : shift = 0 := by
      by_contra some
      have more : (2 : ℚ) ^ 2 <= 2 ^ (shift + 1) := pow_le_pow_right₀ one_le_two (by omega)
      have : point * 2 ^ 2 <= point * 2 ^ (shift + 1) := by gcongr
      linarith
    have rounded : divideToEven upper lower = 2 ^ 53 :=
      divideToEven_of_near room (by push_cast; linarith) (by push_cast; linarith)
        (.inl (by decide))
    rw [rounded, power, apart]
    omega
  · rw [← scaled] at low high even
    rw [divideToEven_of_near room (by linarith) high (even.imp_right fun strict =>
      ⟨by linarith [strict.1], strict.2⟩)]
  · -- There is no room for a larger exponent.
    obtain ⟨shift, apart⟩ : ∃ shift : Nat, exponent = magnitude.exponent + (shift + 1 : Nat) :=
      ⟨(exponent - magnitude.exponent - 1).toNat, by omega⟩
    have large := normal.resolve_left (by have := double.least; omega)
    rw [rescale magnitude.exponent (shift + 1), ← apart, ← scaled] at high
    have above : (2 : ℚ) ^ 1 <= 2 ^ (shift + 1) :=
      pow_le_pow_right₀ one_le_two (by omega)
    have : (upper : ℚ) / lower * 2 ^ 1 <= upper / lower * 2 ^ (shift + 1) := by gcongr
    linarith

theorem attracts_value (magnitude : Magnitude) : magnitude.Attracts magnitude.value := by
  have unit : (0 : ℚ) < 2 ^ magnitude.exponent := zpow_pos two_pos _
  have center : magnitude.value / 2 ^ magnitude.exponent = magnitude.significand :=
    mul_div_cancel_right₀ _ unit.ne'
  have reach := magnitude.reach_pos
  rw [attracts_iff, center]
  exact ⟨by linarith, by linarith, .inr ⟨by linarith, by linarith⟩⟩

/-- The bits of infinity come after those of all finite doubles. -/
theorem IsDouble.fields_lt (double : magnitude.IsDouble) :
    magnitude.fields < 0x7FF0000000000000 := by
  have short := double.short
  have least := double.least
  have most := double.most
  unfold fields
  omega

end Magnitude

/-! ## The fields of a finite double -/

theorem toNat_packComponents (sign : Sign) (exponent : BitVec 11) (fraction : BitVec 52) :
    (packComponents .binary64 sign exponent fraction).toNat =
      (sign.toBitVec.toNat * 2 ^ 11 + exponent.toNat) * 2 ^ 52 + fraction.toNat := by
  unfold packComponents
  rw [BitVec.toNat_append, BitVec.toNat_append, ← Nat.shiftLeft_add_eq_or_of_lt fraction.isLt,
    ← Nat.shiftLeft_add_eq_or_of_lt exponent.isLt, Nat.shiftLeft_eq, Nat.shiftLeft_eq]

/-- Negation changes the sign and no other field. -/
theorem neg_unpack_packComponents (sign : Sign) (exponent : BitVec 11) (fraction : BitVec 52) :
    (UnpackedFloat.unpack .binary64 (packComponents .binary64 sign exponent fraction)).neg =
      UnpackedFloat.unpack .binary64 (packComponents .binary64 (-sign) exponent fraction) := by
  unfold UnpackedFloat.unpack
  simp only [unpackMantissa_packComponents, unpackExponent_packComponents,
    unpackSign_packComponents, Sign.ofBitVec_toBitVec]
  split_ifs <;> rfl

theorem bits_injective {first second : Float} (same : bits first = bits second) :
    first = second :=
  Float.toBits_inj.1 (UInt64.toBitVec_inj.1 same)

theorem isNaNBits_packComponents (sign : Sign) (exponent : BitVec 11) (fraction : BitVec 52) :
    isNaNBits (packComponents .binary64 sign exponent fraction) =
      decide (exponent = -1#11 ∧ fraction ≠ 0#52) := by
  unfold isNaNBits
  rw [unpackExponent_packComponents, unpackMantissa_packComponents]

theorem isNaN_unpack (word : BitVec 64) :
    (UnpackedFloat.unpack .binary64 word).isNaN = @isNaNBits .binary64 word := by
  unfold UnpackedFloat.unpack isNaNBits
  dsimp only
  split_ifs <;> simp_all [UnpackedFloat.isNaN]

theorem isNaN_eq (number : Float) : number.isNaN = isNaNBits (bits number) :=
  isNaN_unpack (bits number)

theorem bits_ofBits (word : UInt64) :
    bits (Float.ofBits word) =
      if @isNaNBits .binary64 word.toBitVec then packedNaN .binary64 else word.toBitVec :=
  @pack_unpack .binary64 word.toBitVec (by decide)

theorem isNaN_ofBits (word : UInt64) :
    (Float.ofBits word).isNaN = @isNaNBits .binary64 word.toBitVec := by
  rw [isNaN_eq, bits_ofBits]
  split
  · next none => rw [none, isNaNBits_packedNaN]
  · rfl

theorem bits_neg
    {sign : Sign}
    {exponent : BitVec 11}
    {fraction : BitVec 52}
    (parts : bits number = packComponents .binary64 sign exponent fraction)
    (ordinary : number.isNaN = false) :
    bits (-number) = packComponents .binary64 (-sign) exponent fraction := by
  rw [isNaN_eq, parts, isNaNBits_packComponents] at ordinary
  show UnpackedFloat.pack .binary64 (UnpackedFloat.unpack .binary64 (bits number)).neg = _
  rw [parts, neg_unpack_packComponents, pack_unpack, isNaNBits_packComponents, ordinary]
  rfl

theorem bits_eq_packComponents (number : Float) :
    bits number = packComponents .binary64 (if isNegative number then .negative else .positive)
      (unpackExponent (bits number)) (unpackMantissa (bits number)) := by
  have parts := packComponents_unpackSign_unpackExponent_unpackMantissa (bits number)
  rw [isNegative_eq]
  conv_lhs => rw [← parts]
  congr 1
  generalize unpackSign (bits number) = sign
  obtain rfl | rfl : sign = 0#1 ∨ sign = 1#1 := by decide +revert
  · rfl
  · rfl

@[simp] theorem isNaN_neg (number : Float) : (-number).isNaN = number.isNaN := by
  cases ordinary : number.isNaN with
  | false =>
      have parts := bits_eq_packComponents number
      have other := bits_neg parts ordinary
      rw [isNaN_eq, parts, isNaNBits_packComponents] at ordinary
      rw [isNaN_eq, other, isNaNBits_packComponents, ordinary]
  | true =>
      rw [Float.isNaN_eq_decide_eq_nan, decide_eq_true_eq] at ordinary
      rw [ordinary]
      decide

/-- A fraction is no number only if its bits pass those of infinity. -/
theorem isNaN_ofBits_ofNat {fields : Nat} (most : fields <= 0x7FF0000000000000) :
    (Float.ofBits (UInt64.ofNat fields)).isNaN = false := by
  have same : (UInt64.ofNat fields).toBitVec.toNat = fields := by
    rw [UInt64.toNat_toBitVec, UInt64.toNat_ofNat', Nat.mod_eq_of_lt (by omega)]
  rw [isNaN_ofBits]
  generalize (UInt64.ofNat fields).toBitVec = word at same
  unfold isNaNBits
  rw [unpackExponent_def, unpackMantissa_def, decide_eq_false]
  rintro ⟨top, some⟩
  have exponent := congrArg BitVec.toNat top
  have fraction : word.toNat % 2 ^ 52 ≠ 0 := by
    intro none
    refine some (BitVec.eq_of_toNat_eq ?_)
    rw [BitVec.extractLsb'_toNat]
    exact none
  rw [BitVec.extractLsb'_toNat, Nat.shiftRight_eq_div_pow] at exponent
  change word.toNat / 2 ^ 52 % 2 ^ 11 = 2047 at exponent
  omega

/-- No fraction rounds to not-a-number. -/
@[simp] theorem isNaN_ofFraction (numerator denominator : Nat) :
    (ofFraction numerator denominator).isNaN = false := by
  unfold ofFraction
  split
  · decide
  · exact isNaN_ofBits_ofNat (Nat.min_le_right _ _)

theorem exponentField_lt_of_isFinite (finite : number.isFinite = true) :
    exponentField number < 2047 := by
  have top : unpackExponent (bits number) ≠ -1#11 := by
    intro top
    have unpacked : (UnpackedFloat.unpack .binary64 (bits number)).isFinite = true := finite
    unfold UnpackedFloat.unpack at unpacked
    rw [if_pos top] at unpacked
    split at unpacked <;> cases unpacked
  rw [exponentField_eq]
  have small : (unpackExponent (bits number)).toNat < 2 ^ 11 := (unpackExponent (bits number)).isLt
  have other : (unpackExponent (bits number)).toNat ≠ 2047 := fun same =>
    top (BitVec.eq_of_toNat_eq same)
  omega

theorem isDouble_magnitude (finite : number.isFinite = true) : (magnitude number).IsDouble := by
  have top := exponentField_lt_of_isFinite finite
  refine ⟨significand_lt number, ?_, ?_, ?_⟩
  all_goals
    unfold magnitude
    split
    · dsimp only
      omega
    · next nonzero =>
        rw [beq_iff_eq] at nonzero
        dsimp only
        omega

theorem fields_magnitude (number : Float) :
    (magnitude number).fields =
      (unpackExponent (bits number)).toNat * 2 ^ 52 + (unpackMantissa (bits number)).toNat := by
  unfold magnitude Magnitude.fields
  rw [exponentField_eq, fractionField_eq]
  split
  · next zero =>
      rw [beq_iff_eq] at zero
      rw [zero]
      rfl
  · next nonzero =>
      rw [beq_iff_eq] at nonzero
      dsimp only
      omega

/-- The double with the exponent and fraction bits of a finite one, and without its sign. -/
theorem toBitVec_fields (number : Float) :
    (UInt64.ofNat (magnitude number).fields).toBitVec =
      packComponents .binary64 .positive (unpackExponent (bits number))
        (unpackMantissa (bits number)) := by
  refine BitVec.eq_of_toNat_eq ?_
  rw [toNat_packComponents, fields_magnitude]
  have exponent : (unpackExponent (bits number)).toNat < 2 ^ 11 := (unpackExponent _).isLt
  have fraction : (unpackMantissa (bits number)).toNat < 2 ^ 52 := (unpackMantissa _).isLt
  have unsigned : Sign.positive.toBitVec.toNat = 0 := rfl
  rw [UInt64.toNat_toBitVec, UInt64.toNat_ofNat', unsigned, Nat.zero_mul, Nat.zero_add,
    Nat.mod_eq_of_lt (by omega)]

theorem ofBits_fields (positive : isNegative number = false) :
    Float.ofBits (UInt64.ofNat (magnitude number).fields) = number := by
  have same : UInt64.ofNat (magnitude number).fields = number.toBits := by
    refine UInt64.toBitVec_inj.1 ?_
    rw [toBitVec_fields]
    refine Eq.trans ?_ (bits_eq_packComponents number).symm
    rw [positive]
    rfl
  rw [same, Float.ofBits_toBits]

theorem neg_ofBits_fields
    (finite : number.isFinite = true)
    (negative : isNegative number = true) :
    -Float.ofBits (UInt64.ofNat (magnitude number).fields) = number := by
  have ordinary := isNaN_ofBits_ofNat (isDouble_magnitude finite).fields_lt.le
  have parts := bits_ofBits (UInt64.ofNat (magnitude number).fields)
  rw [← isNaN_ofBits, ordinary, if_neg Bool.false_ne_true, toBitVec_fields] at parts
  have whole := bits_eq_packComponents number
  rw [negative, if_pos rfl] at whole
  refine bits_injective ?_
  rw [bits_neg parts ordinary]
  exact whole.symm

/-! ## Fractions -/

theorem ofFraction_of_attracts
    {magnitude : Magnitude}
    (double : magnitude.IsDouble)
    (positive : 0 < magnitude.significand)
    (divisor : 0 < denominator)
    (near : magnitude.Attracts ((numerator : ℚ) / denominator)) :
    ofFraction numerator denominator = Float.ofBits (UInt64.ofNat magnitude.fields) := by
  have some : 0 < numerator := by
    refine Nat.pos_of_ne_zero fun none => ?_
    have low := near.low
    have reach := magnitude.reach_le
    have one : (1 : ℚ) <= magnitude.significand := by exact_mod_cast positive
    rw [none, Nat.cast_zero, zero_div, zero_div] at low
    linarith
  unfold ofFraction
  dsimp only
  rw [if_neg (by rw [beq_iff_eq]; omega), Magnitude.fields_of_attracts double some divisor near,
    Nat.min_eq_left double.fields_lt.le]

end Number
end ScriptVM
