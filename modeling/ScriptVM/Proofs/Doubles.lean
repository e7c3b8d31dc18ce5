import Mathlib
import ScriptVM.Number.Binary

/-!
# Whole numbers as doubles

A natural number below `2 ^ 53` is a double exactly, and truncating that double gives the number
back. A double between zero and a whole number truncates to no more than that number.
-/

namespace ScriptVM
namespace Number

variable {exponent : Int} {mantissa : Nat} {sign : Sign} {number : Nat} {positive : 0 < mantissa}

open Float.Model Float.Model.UnpackedFloat

/-! ## The fields of a double -/

/-- The bits of a double, as a vector. -/
def bits (number : Float) : BitVec Format.binary64.numBits :=
  number.toModel.toBits.toBitVec

theorem exponentField_eq (number : Float) :
    exponentField number = (unpackExponent (bits number)).toNat := by
  rw [unpackExponent_def, BitVec.extractLsb'_toNat]
  unfold exponentField bits Float.toBits
  rw [UInt64.toNat_and, UInt64.toNat_shiftRight]
  exact Nat.and_two_pow_sub_one_eq_mod _ 11

theorem fractionField_eq (number : Float) :
    fractionField number = (unpackMantissa (bits number)).toNat := by
  rw [unpackMantissa_def, BitVec.extractLsb'_toNat]
  unfold fractionField bits Float.toBits
  rw [UInt64.toNat_and]
  exact Nat.and_two_pow_sub_one_eq_mod _ 52

theorem isNegative_eq (number : Float) : isNegative number = (unpackSign (bits number) == 1#1) := by
  rw [unpackSign_def, Bool.eq_iff_iff, beq_iff_eq, ← BitVec.toNat_inj, BitVec.extractLsb'_toNat]
  unfold isNegative bits Float.toBits
  rw [beq_iff_eq, ← UInt64.toNat_inj, UInt64.toNat_shiftRight]
  have bound : number.toModel.toBits.toBitVec.toNat < 2 ^ 64 := BitVec.isLt _
  show number.toModel.toBits.toBitVec.toNat >>> 63 = 1 ↔
    number.toModel.toBits.toBitVec.toNat >>> 63 % 2 = 1
  rw [Nat.shiftRight_eq_div_pow]
  omega

/-- A normal significand has one bit more than its fraction. -/
theorem toNat_implicit (fraction : BitVec 52) :
    (1#1 ++ fraction).toNat = fraction.toNat + 0x10000000000000 := by
  rw [BitVec.toNat_append, ← Nat.shiftLeft_add_eq_or_of_lt fraction.isLt, Nat.shiftLeft_eq]
  exact Nat.add_comm _ _

/-- A finite double has the magnitude and the sign that it unpacks to. -/
theorem magnitude_of_unpack
    {number : Float}
    (unpacked : number.toModel.unpack = .finite sign mantissa exponent positive) :
    magnitude number = ⟨mantissa, exponent⟩ ∧
      isNegative number = (sign == .negative) ∧ number.isFinite = true := by
  have finite : number.isFinite = true := by
    show number.toModel.unpack.isFinite = true
    rw [unpacked]
    rfl
  have negative : ∀ sign, Sign.ofBitVec (unpackSign (bits number)) = sign ->
      isNegative number = (sign == .negative) := by
    rintro _ rfl
    rw [isNegative_eq]
    generalize unpackSign (bits number) = bit
    revert bit
    decide
  replace unpacked : UnpackedFloat.unpack .binary64 (bits number) = _ := unpacked
  unfold UnpackedFloat.unpack at unpacked
  unfold magnitude
  rw [exponentField_eq, fractionField_eq]
  dsimp only at unpacked
  split at unpacked
  · split at unpacked <;> cases unpacked
  · split at unpacked
    · next subnormal =>
        split at unpacked
        · cases unpacked
        · injection unpacked with signs mantissas exponents
          refine ⟨?_, negative _ signs, finite⟩
          rw [subnormal] at exponents ⊢
          rw [← mantissas, ← exponents]
          rfl
    · next normal =>
        injection unpacked with signs mantissas exponents
        refine ⟨?_, negative _ signs, finite⟩
        have nonzero : ¬ ((unpackExponent (bits number)).toNat == 0) = true := fun zero =>
          normal (BitVec.eq_of_toNat_eq (beq_iff_eq.1 zero))
        rw [if_neg nonzero, ← mantissas, ← exponents, toNat_implicit]
        rfl

theorem truncate_of_unpack
    {number : Float}
    (unpacked : number.toModel.unpack = .finite .positive mantissa exponent positive) :
    truncate number = (⟨mantissa, exponent⟩ : Magnitude).floor := by
  obtain ⟨magnitude, negative, finite⟩ := magnitude_of_unpack unpacked
  unfold truncate
  rw [if_pos finite, negative, magnitude]
  rfl

theorem truncate_of_unpack_zero
    {number : Float}
    (unpacked : number.toModel.unpack = .zero sign) :
    truncate number = 0 := by
  have packed : bits number = UnpackedFloat.pack .binary64 (.zero sign) := by
    rw [← unpacked]
    exact (pack_unpack_of_valid number.toModel.valid).symm
  have same : number = ⟨Float.Model.pack (.zero sign)⟩ := by
    refine Float.toBits_inj.1 (UInt64.toBitVec_inj.1 ?_)
    exact packed
  rw [same]
  cases sign <;> decide

theorem significand_lt (number : Float) : (magnitude number).significand < 2 ^ 53 := by
  have fraction : fractionField number < 2 ^ 52 := by
    rw [fractionField_eq]
    exact (unpackMantissa (bits number)).isLt
  unfold magnitude
  split
  · dsimp only
    omega
  · dsimp only
    omega

/-- A magnitude that is no fraction of a whole number has that number for its integral part. -/
theorem floor_of_scaled (whole shift : Nat) :
    (⟨whole * 2 ^ shift, 0 - shift⟩ : Magnitude).floor = whole := by
  unfold Magnitude.floor
  dsimp only
  split
  · next none =>
      obtain rfl : shift = 0 := by omega
      simp
  · rw [show (-(0 - (shift : Int))).toNat = shift by omega, Nat.shiftRight_eq_div_pow,
      Nat.mul_div_cancel _ (Nat.two_pow_pos _)]

/-! ## Packing and rounding -/

/-- A normal double is what it was packed from. -/
theorem unpack_pack
    (normal : 2 ^ 52 <= mantissa ∧ mantissa < 2 ^ 53)
    (bounds : -1074 <= exponent ∧ exponent <= 971) :
    (Float.Model.pack (.finite sign mantissa exponent positive)).unpack =
      .finite sign mantissa exponent positive := by
  show UnpackedFloat.unpack .binary64 (UnpackedFloat.pack .binary64 _) = _
  have log : mantissa.log2 = 52 := (Nat.log2_eq_iff (by omega)).2 normal
  have biased : (exponent + Format.binary64.exponentBias +
      Format.binary64.mantissaBitsWithoutImplicit).toNat = (exponent + 1075).toNat := by
    show (exponent + (2 ^ (11 - 1) - 1 : Nat) + (52 : Nat)).toNat = _
    omega
  have small : (exponent + 1075).toNat < 2 ^ 11 - 1 := by omega
  unfold UnpackedFloat.pack
  simp only [log, biased]
  rw [if_neg (by omega), if_pos (show 52 + 1 = Format.binary64.mantissaBits from rfl)]
  unfold UnpackedFloat.unpack
  simp only [unpackMantissa_packComponents, unpackExponent_packComponents,
    unpackSign_packComponents]
  have field : (BitVec.ofNat 11 (exponent + 1075).toNat).toNat = (exponent + 1075).toNat := by
    rw [BitVec.toNat_ofNat, Nat.mod_eq_of_lt (by omega)]
  have finite : BitVec.ofNat 11 (exponent + 1075).toNat ≠ -1#11 := fun same => by
    have equal := congrArg BitVec.toNat same
    rw [field] at equal
    change (exponent + 1075).toNat = 2047 at equal
    omega
  have ordinary : BitVec.ofNat 11 (exponent + 1075).toNat ≠ 0#11 := fun same => by
    have equal := congrArg BitVec.toNat same
    rw [field] at equal
    change (exponent + 1075).toNat = 0 at equal
    omega
  rw [if_neg finite, if_neg ordinary]
  have significand : (1#1 ++ BitVec.ofNat 52 mantissa).toNat = mantissa := by
    rw [toNat_implicit, BitVec.toNat_ofNat]
    omega
  congr 1
  · cases sign <;> rfl
  · rw [field]
    show ((exponent + 1075).toNat : Int) - (1023 + 52) = exponent
    omega

/-- Halving an exact significand loses nothing as long as it is even. -/
theorem repeat_shiftRightOne (mantissa shift : Nat) :
    Nat.repeat ExtendedMantissa.shiftRightOne shift ⟨mantissa * 2 ^ shift, false, false⟩ =
      ⟨mantissa, false, false⟩ := by
  induction shift generalizing mantissa with
  | zero => simp [Nat.repeat]
  | succ shift step =>
      rw [Nat.repeat, Nat.pow_succ', ← Nat.mul_assoc, step]
      simp [ExtendedMantissa.shiftRightOne]

/-- A significand that fits is not rounded. -/
theorem roundWithAccuracy_exact
    (sign : Sign)
    (positive : 0 < mantissa)
    (normal : 2 ^ 52 <= mantissa ∧ mantissa < 2 ^ 53)
    (bound : -1074 <= exponent)
    (shift : Nat) :
    roundWithAccuracy .binary64 sign (mantissa * 2 ^ shift) (exponent - shift) .exact =
      .finite sign mantissa exponent positive := by
  have total : ∀ shift : Nat, totalExponent (mantissa * 2 ^ shift) (exponent - shift) =
      exponent + 53 := by
    intro shift
    have log : (mantissa * 2 ^ shift).log2 = 52 + shift := by
      refine (Nat.log2_eq_iff (Nat.ne_of_gt (Nat.mul_pos positive (Nat.two_pow_pos _)))).2 ?_
      rw [show 52 + shift + 1 = 53 + shift by omega, Nat.pow_add, Nat.pow_add]
      exact ⟨Nat.mul_le_mul_right _ normal.1,
        Nat.mul_lt_mul_of_pos_right normal.2 (Nat.two_pow_pos _)⟩
    unfold totalExponent
    rw [log]
    omega
  have target : Format.binary64.targetExponent (exponent + 53) = exponent := by
    show max (exponent + 53 - 53) (3 - 2 ^ (11 - 1) - 53) = exponent
    omega
  have shifted : ∀ shift : Nat, shiftToTargetExponent .binary64 (mantissa * 2 ^ shift)
      (exponent - shift) .exact = (⟨mantissa, false, false⟩, exponent) := by
    intro shift
    unfold shiftToTargetExponent shiftToExponent
    simp only [total, target]
    rw [show (exponent - (exponent - shift)).toNat = shift by omega]
    refine Prod.ext (repeat_shiftRightOne mantissa shift) ?_
    show exponent - shift + shift = exponent
    omega
  unfold roundWithAccuracy
  rw [shifted shift]
  have again := shifted 0
  simp only [Nat.pow_zero, Nat.mul_one, Nat.cast_zero, Int.sub_zero] at again
  dsimp only
  rw [show ExtendedMantissa.roundedMantissa ⟨mantissa, false, false⟩ = mantissa from rfl, again]
  exact dif_neg (Nat.ne_of_gt positive)

/-! ## Whole numbers -/

/-- A natural number that fits into a significand is a double exactly. -/
theorem unpack_ofNat (positive : 0 < number) (small : number < 2 ^ 53) :
    ∃ shift : Nat, ∃ whole : 0 < number * 2 ^ shift, 2 ^ 52 <= number * 2 ^ shift ∧
      (Float.ofNat number).toModel.unpack =
        .finite .positive (number * 2 ^ shift) (0 - shift) whole := by
  have below : 2 ^ number.log2 <= number := Nat.log2_self_le (Nat.ne_of_gt positive)
  have above : number < 2 ^ (number.log2 + 1) := Nat.lt_log2_self
  have bound : number.log2 < 53 := (Nat.log2_lt (Nat.ne_of_gt positive)).2 small
  obtain ⟨shift, sum⟩ : ∃ shift, number.log2 + shift = 52 := ⟨52 - number.log2, by omega⟩
  have whole : 0 < number * 2 ^ shift := Nat.mul_pos positive (Nat.two_pow_pos _)
  have normal : 2 ^ 52 <= number * 2 ^ shift ∧ number * 2 ^ shift < 2 ^ 53 := by
    rw [← sum, show 53 = number.log2 + 1 + shift by omega, Nat.pow_add, Nat.pow_add]
    exact ⟨Nat.mul_le_mul_right _ below, Nat.mul_lt_mul_of_pos_right above (Nat.two_pow_pos _)⟩
  refine ⟨shift, whole, normal.1, ?_⟩
  -- The conversion of a word rounds nothing.
  have converted : UnpackedFloat.ofNat .binary64 number =
      .finite .positive (number * 2 ^ shift) (0 - shift) whole := by
    have order : compare (number : Int) 0 = .gt := compare_gt_iff_gt.2 (by omega)
    have target : Format.binary64.targetExponent (totalExponent number 0) = 0 - shift := by
      show max ((number.log2 : Int) + 1 + 0 - 53) (3 - 2 ^ (11 - 1) - 53) = 0 - shift
      omega
    unfold UnpackedFloat.ofNat UnpackedFloat.ofInt UnpackedFloat.normalize
    rw [order]
    dsimp only
    unfold UnpackedFloat.round decreaseExponent
    simp only [Int.toNat_natCast, target, Int.sub_sub_self, Nat.shiftLeft_eq]
    have rounded := roundWithAccuracy_exact .positive whole normal
      (show -1074 <= 0 - (shift : Int) by omega) 0
    simpa using rounded
  -- The multiplication by one rounds nothing either.
  have word : number.toUInt64.toFloat.toModel.unpack =
      .finite .positive (number * 2 ^ shift) (0 - shift) whole := by
    have same : number.toUInt64.toNat = number := Nat.mod_eq_of_lt (by omega)
    show (Float.Model.pack (UnpackedFloat.ofNat .binary64 number.toUInt64.toNat)).unpack = _
    rw [same, converted]
    exact unpack_pack normal (by omega)
  have one : (Float.exactlyRepresentablePowersOfTen[0]).toModel.unpack =
      .finite .positive (2 ^ 52) (0 - 52) (Nat.two_pow_pos _) := by
    rfl
  have product : Float.ofNat number =
      number.toUInt64.toFloat * Float.exactlyRepresentablePowersOfTen[0] := by
    show Float.ofScientific number false 0 = _
    unfold Float.ofScientific
    rw [dif_pos ⟨small, by decide⟩]
    rfl
  rw [product]
  show (Float.Model.pack (UnpackedFloat.mul .binary64 number.toUInt64.toFloat.toModel.unpack
    (Float.exactlyRepresentablePowersOfTen[0]).toModel.unpack)).unpack = _
  rw [word, one]
  have rounded := roundWithAccuracy_exact .positive whole normal
    (show -1074 <= 0 - (shift : Int) by omega) 52
  show (Float.Model.pack (roundWithAccuracy .binary64 .positive _
    (0 - (shift : Int) + (0 - 52)) .exact)).unpack = _
  rw [show 0 - (shift : Int) + (0 - 52) = 0 - (shift : Int) - (52 : Nat) by omega, rounded]
  exact unpack_pack normal (by omega)

/-- Truncating the double of a natural number gives the number back. -/
theorem truncate_ofNat (small : number < 2 ^ 53) : truncate (Float.ofNat number) = number := by
  rcases Nat.eq_zero_or_pos number with rfl | positive
  · decide
  · obtain ⟨shift, whole, -, unpacked⟩ := unpack_ofNat positive small
    rw [truncate_of_unpack unpacked, floor_of_scaled]

theorem toWord_ofNat (small : number < 2 ^ 32) : toWord (Float.ofNat number) = number := by
  unfold toWord
  rw [truncate_ofNat (by omega)]
  omega

theorem ofNat_beq_self (small : number < 2 ^ 53) :
    (Float.ofNat number == Float.ofNat number) = true := by
  refine Float.beq_self_iff.2 fun none => ?_
  rcases Nat.eq_zero_or_pos number with rfl | positive
  · exact absurd none (by decide)
  · obtain ⟨shift, whole, -, unpacked⟩ := unpack_ofNat positive small
    rw [none] at unpacked
    have undefined : Float.nan.toModel.unpack = .notANumber := by rfl
    cases undefined.symm.trans unpacked

/-- The integral part of a magnitude that is scaled down. -/
theorem floor_eq_div (significand scale : Nat) :
    (⟨significand, 0 - scale⟩ : Magnitude).floor = significand / 2 ^ scale := by
  unfold Magnitude.floor
  dsimp only
  split
  · next none =>
      obtain rfl : scale = 0 := by omega
      simp
  · rw [show (-(0 - (scale : Int))).toNat = scale by omega, Nat.shiftRight_eq_div_pow]

/-- A double that is not negative and no more than a whole number truncates to no more than
that. -/
theorem truncate_le_of_le_ofNat
    {value : Float}
    {bound : Nat}
    (small : bound < 2 ^ 53)
    (low : 0 <= value)
    (high : value <= Float.ofNat bound) :
    truncate value <= bound := by
  have zero : (0 : Float).toModel.unpack = .zero .positive := by rfl
  have above : ((0 : Float).toModel.unpack.le value.toModel.unpack) = true := of_decide_eq_true low
  have below : (value.toModel.unpack.le (Float.ofNat bound).toModel.unpack) = true :=
    of_decide_eq_true high
  rw [zero] at above
  cases unpacked : value.toModel.unpack with
  | notANumber => rw [unpacked] at above; cases above
  | zero sign =>
      rw [truncate_of_unpack_zero unpacked]
      omega
  | infinity sign =>
      rw [unpacked] at above below
      cases sign with
      | negative => cases above
      | positive =>
          rcases Nat.eq_zero_or_pos bound with rfl | positive
          · rw [show (Float.ofNat 0).toModel.unpack = .zero .positive by rfl] at below
            cases below
          · obtain ⟨shift, whole, -, target⟩ := unpack_ofNat positive small
            rw [target] at below
            cases below
  | finite sign mantissa exponent nonzero =>
      cases sign with
      | negative => rw [unpacked] at above; cases above
      | positive =>
          have short : mantissa < 2 ^ 53 := by
            have := significand_lt value
            rwa [(magnitude_of_unpack unpacked).1] at this
          rw [truncate_of_unpack unpacked]
          rw [unpacked] at below
          rcases Nat.eq_zero_or_pos bound with rfl | positive
          · rw [show (Float.ofNat 0).toModel.unpack = .zero .positive by rfl] at below
            cases below
          · obtain ⟨shift, whole, normal, target⟩ := unpack_ofNat positive small
            rw [target] at below
            have order : ((compare exponent (0 - shift)).then
                (compare mantissa (bound * 2 ^ shift))).isLE = true := below
            rw [Ordering.isLE_then_iff_or, compare_lt_iff_lt, compare_eq_iff_eq,
              Nat.isLE_compare] at order
            obtain ⟨scale, rfl⟩ : ∃ scale : Nat, exponent = 0 - scale :=
              ⟨(0 - exponent).toNat, by omega⟩
            rw [floor_eq_div]
            refine Int.ofNat_le.2 (Nat.div_le_of_le_mul (Nat.mul_comm bound _ ▸ ?_))
            rcases order with finer | ⟨same, order⟩
            · -- A finer scale leaves room for every significand.
              calc mantissa
                  <= 2 * (bound * 2 ^ shift) := by omega
                _ = bound * 2 ^ (shift + 1) := by rw [Nat.pow_succ]; ring
                _ <= bound * 2 ^ scale :=
                    Nat.mul_le_mul_left _ (Nat.pow_le_pow_right (by decide) (by omega))
            · obtain rfl : scale = shift := by omega
              exact order

/-! ## Comparisons -/

/-- Of two numbers with normal significands, the one with the finer scale is less. -/
theorem lt_of_scaled
    {first second shift scale : Nat}
    (finer : shift < scale)
    (normal : 2 ^ 52 <= first * 2 ^ shift)
    (top : second * 2 ^ scale < 2 ^ 53) :
    second < first := by
  refine Nat.lt_of_mul_lt_mul_right (a := 2 ^ (shift + 1)) ?_
  calc second * 2 ^ (shift + 1)
      <= second * 2 ^ scale :=
        Nat.mul_le_mul_left _ (Nat.pow_le_pow_right (by decide) (by omega))
    _ < 2 * 2 ^ 52 := top
    _ <= 2 * (first * 2 ^ shift) := Nat.mul_le_mul_left 2 normal
    _ = first * 2 ^ (shift + 1) := by rw [Nat.pow_succ]; ring

/-- Whole numbers compare as their doubles do. -/
theorem compare_ofNat
    {first second : Nat}
    (positive : 0 < first)
    (also : 0 < second)
    (small : first < 2 ^ 53)
    (low : second < 2 ^ 53) :
    (Float.ofNat first).toModel.unpack.compare (Float.ofNat second).toModel.unpack =
      some (compare first second) := by
  obtain ⟨shift, whole, normal, unpacked⟩ := unpack_ofNat positive small
  obtain ⟨scale, again, level, target⟩ := unpack_ofNat also low
  have top : first * 2 ^ shift < 2 ^ 53 := by
    have := significand_lt (Float.ofNat first)
    rwa [(magnitude_of_unpack unpacked).1] at this
  have roof : second * 2 ^ scale < 2 ^ 53 := by
    have := significand_lt (Float.ofNat second)
    rwa [(magnitude_of_unpack target).1] at this
  rw [unpacked, target]
  show some ((compare (0 - (shift : Int)) (0 - scale)).then
    (compare (first * 2 ^ shift) (second * 2 ^ scale))) = _
  congr 1
  rcases Nat.lt_trichotomy shift scale with less | rfl | greater
  · rw [compare_gt_iff_gt.2 (show 0 - (scale : Int) < 0 - shift by omega),
      compare_gt_iff_gt.2 (lt_of_scaled less normal roof)]
    rfl
  · rw [compare_eq_iff_eq.2 rfl]
    show compare (first * 2 ^ shift) (second * 2 ^ shift) = _
    rw [Nat.compare_eq_ite_lt, Nat.compare_eq_ite_lt]
    simp only [Nat.mul_lt_mul_right (Nat.two_pow_pos shift)]
  · rw [compare_lt_iff_lt.2 (show 0 - (shift : Int) < 0 - scale by omega),
      compare_lt_iff_lt.2 (lt_of_scaled greater level top)]
    rfl

theorem ofNat_lt_ofNat
    {first second : Nat}
    (positive : 0 < first)
    (also : 0 < second)
    (small : first < 2 ^ 53)
    (low : second < 2 ^ 53) :
    Float.ofNat first < Float.ofNat second ↔ first < second := by
  have lt : Float.ofNat first < Float.ofNat second ↔
      (Float.ofNat first).toModel.unpack.lt (Float.ofNat second).toModel.unpack = true :=
    ⟨fun h => of_decide_eq_true h, fun h => decide_eq_true h⟩
  rw [lt]
  unfold UnpackedFloat.lt
  rw [compare_ofNat positive also small low, beq_iff_eq, Option.some_inj, compare_lt_iff_lt]

theorem not_ofNat_le_zero (positive : 0 < number) (small : number < 2 ^ 53) :
    ¬ Float.ofNat number <= 0 := by
  intro low
  obtain ⟨shift, whole, -, unpacked⟩ := unpack_ofNat positive small
  have below : ((Float.ofNat number).toModel.unpack.le (0 : Float).toModel.unpack) = true :=
    of_decide_eq_true low
  rw [unpacked, show (0 : Float).toModel.unpack = .zero .positive by rfl] at below
  cases below

theorem isNaN_ofNat (positive : 0 < number) (small : number < 2 ^ 53) :
    (Float.ofNat number).isNaN = false := by
  obtain ⟨shift, whole, -, unpacked⟩ := unpack_ofNat positive small
  show (Float.ofNat number).toModel.unpack.isNaN = false
  rw [unpacked]
  rfl

end Number
end ScriptVM
