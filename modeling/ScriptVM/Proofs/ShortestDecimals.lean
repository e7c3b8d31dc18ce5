import ScriptVM.Proofs.Rounding
import ScriptVM.Proofs.WholeTexts

/-!
# The shortest decimal that reads back

The rounding interval of a double has the fractions that the double attracts, and seventeen digits
suffice for a point in it. So the shortest decimal of a finite double is read as that double, and
no decimal that is read so has fewer digits.
-/

namespace ScriptVM
namespace Number

variable {decimal : Decimal} {number : Float}

/-! ## Decimals as numbers -/

/-- The number that a decimal stands for. -/
def Decimal.value (decimal : Decimal) : ℚ :=
  decimal.digits * 10 ^ decimal.exponent

theorem decimalLength_eq (number : Nat) : decimalLength number = Nat.log 10 number + 1 := by
  induction number using decimalLength.induct with
  | case1 number small => rw [decimalLength, if_pos small, Nat.log_of_lt small]
  | case2 number large step =>
      rw [decimalLength, if_neg large, step,
        Nat.log_of_one_lt_of_le (by decide) (Nat.le_of_not_lt large)]

/-- A decimal is a fraction with a power of ten above or below the line. -/
theorem Decimal.fraction_eq_value (digits : Nat) (exponent : Int) :
    ((digits * Nat.pow 10 exponent.toNat : Nat) : ℚ) / (Nat.pow 10 (-exponent).toNat : Nat) =
      (⟨digits, exponent⟩ : Decimal).value := by
  have scaled := scaled_div (by decide : 0 < 10) digits 1 (-exponent)
  rw [neg_neg, Nat.one_mul] at scaled
  refine scaled.trans ?_
  unfold Decimal.value
  push_cast
  rw [zpow_neg, div_one, div_inv_eq_mul]

/-- A decimal lies between the powers of ten that its length and exponent tell. -/
theorem Decimal.value_bounds (nonzero : decimal.digits ≠ 0) :
    (10 : ℚ) ^ ((decimalLength decimal.digits : Int) + decimal.exponent - 1) <= decimal.value ∧
      decimal.value < 10 ^ ((decimalLength decimal.digits : Int) + decimal.exponent) := by
  have low := Nat.pow_log_le_self 10 nonzero
  have high := Nat.lt_pow_succ_log_self (b := 10) (by decide) decimal.digits
  unfold Decimal.value
  rw [decimalLength_eq, zpow_add₀ (by norm_num), show
    ((Nat.log 10 decimal.digits + 1 : Nat) : Int) + decimal.exponent - 1 =
      (Nat.log 10 decimal.digits : Int) + decimal.exponent by push_cast; ring,
    zpow_add₀ (by norm_num), zpow_natCast, zpow_natCast]
  refine ⟨?_, ?_⟩
  · gcongr
    exact_mod_cast low
  · gcongr
    exact_mod_cast high

theorem Decimal.value_normalize (decimal : Decimal) : decimal.normalize.value = decimal.value := by
  induction decimal using Decimal.normalize.induct with
  | case1 decimal more step =>
      rw [Decimal.normalize, if_pos more, step]
      have whole : decimal.digits / 10 * 10 = decimal.digits :=
        Nat.div_mul_cancel (Nat.dvd_of_mod_eq_zero more.2)
      unfold Decimal.value
      conv_rhs => rw [← whole]
      rw [zpow_add_one₀ (by norm_num)]
      push_cast
      ring
  | case2 decimal last => rw [Decimal.normalize, if_neg last]

/-- Of the decimals that stand for one number a normalized one has the least digits. -/
theorem Decimal.digits_normalize_le
    (decimal : Decimal)
    {other : Decimal}
    (nonzero : other.digits ≠ 0)
    (same : other.value = decimal.value) :
    decimal.normalize.digits <= other.digits := by
  induction decimal using Decimal.normalize.induct with
  | case1 decimal more step =>
      rw [Decimal.normalize, if_pos more]
      refine step (same.trans ?_)
      have whole : decimal.digits / 10 * 10 = decimal.digits :=
        Nat.div_mul_cancel (Nat.dvd_of_mod_eq_zero more.2)
      unfold Decimal.value
      conv_lhs => rw [← whole]
      rw [zpow_add_one₀ (by norm_num)]
      push_cast
      ring
  | case2 decimal last =>
      rw [Decimal.normalize, if_neg last]
      by_contra less
      have positive : (0 : ℚ) < other.digits := by exact_mod_cast Nat.pos_of_ne_zero nonzero
      have ten : (1 : ℚ) < 10 := by norm_num
      unfold Decimal.value at same
      -- More digits leave a smaller exponent.
      have below : decimal.exponent < other.exponent := by
        by_contra above
        have power : (10 : ℚ) ^ other.exponent <= 10 ^ decimal.exponent :=
          zpow_le_zpow_right₀ ten.le (by omega)
        have digits : (other.digits : ℚ) < decimal.digits := by exact_mod_cast (not_le.1 less)
        have : (other.digits : ℚ) * 10 ^ other.exponent < decimal.digits * 10 ^ decimal.exponent :=
          mul_lt_mul digits power (zpow_pos (by norm_num) _) (Nat.cast_nonneg _)
        exact this.ne same
      obtain ⟨zeros, apart⟩ : ∃ zeros : Nat, other.exponent = decimal.exponent + (zeros + 1 : Nat) :=
        ⟨(other.exponent - decimal.exponent - 1).toNat, by omega⟩
      rw [apart, zpow_add₀ (by norm_num), zpow_natCast, mul_comm ((10 : ℚ) ^ decimal.exponent),
        ← mul_assoc] at same
      have equal := mul_right_cancel₀ (zpow_ne_zero _ (by norm_num)) same
      have multiple : other.digits * 10 ^ zeros * 10 = decimal.digits := by
        rw [Nat.mul_assoc, ← Nat.pow_succ]
        exact_mod_cast equal
      have some : 0 < other.digits * 10 ^ zeros :=
        Nat.mul_pos (Nat.pos_of_ne_zero nonzero) (Nat.pow_pos (by decide))
      exact last ⟨by omega, by omega⟩

/-! ## The rounding interval -/

/-- The position of the decimal point is the number of integral digits, or else the number of zeros
behind the point, negated. -/
theorem zpow_decimalPoint_le
    {numerator denominator : Nat}
    (positive : 0 < numerator)
    (divisor : 0 < denominator) :
    (10 : ℚ) ^ (decimalPoint numerator denominator - 1) <= numerator / denominator := by
  have nonzero : (0 : ℚ) < denominator := by exact_mod_cast divisor
  unfold decimalPoint
  split
  · next large =>
      rw [decimalLength_eq, le_div_iff₀ nonzero, Nat.cast_succ, add_sub_cancel_right, zpow_natCast]
      have log := Nat.pow_log_le_self 10 (Nat.div_pos large divisor).ne'
      have : 10 ^ Nat.log 10 (numerator / denominator) * denominator <= numerator :=
        (Nat.mul_le_mul_right _ log).trans (Nat.div_mul_le_self _ _)
      exact_mod_cast this
  · next small =>
      rw [decimalLength_eq, le_div_iff₀ nonzero, Nat.cast_succ, show
        (1 : Int) - ((Nat.log 10 ((denominator - 1) / numerator) : Int) + 1) - 1 =
          -((Nat.log 10 ((denominator - 1) / numerator) + 1 : Nat) : Int) by push_cast; ring,
        zpow_neg, zpow_natCast, inv_mul_le_iff₀ (by positivity)]
      have log := Nat.lt_pow_succ_log_self (b := 10) (by decide) ((denominator - 1) / numerator)
      have : denominator - 1 < 10 ^ (Nat.log 10 ((denominator - 1) / numerator) + 1) * numerator :=
        (Nat.div_lt_iff_lt_mul positive).1 log
      have : denominator <= 10 ^ (Nat.log 10 ((denominator - 1) / numerator) + 1) * numerator := by
        omega
      exact_mod_cast this

theorem lt_zpow_decimalPoint
    {numerator denominator : Nat}
    (positive : 0 < numerator)
    (divisor : 0 < denominator) :
    (numerator : ℚ) / denominator < 10 ^ decimalPoint numerator denominator := by
  have nonzero : (0 : ℚ) < denominator := by exact_mod_cast divisor
  unfold decimalPoint
  split
  · next large =>
      rw [decimalLength_eq, div_lt_iff₀ nonzero, zpow_natCast]
      have log := Nat.lt_pow_succ_log_self (b := 10) (by decide) (numerator / denominator)
      have : numerator < 10 ^ (Nat.log 10 (numerator / denominator) + 1) * denominator :=
        (Nat.div_lt_iff_lt_mul divisor).1 log
      exact_mod_cast this
  · next small =>
      have some : (denominator - 1) / numerator ≠ 0 :=
        (Nat.div_pos (by omega) positive).ne'
      rw [decimalLength_eq, div_lt_iff₀ nonzero, show
        (1 : Int) - ((Nat.log 10 ((denominator - 1) / numerator) + 1 : Nat) : Int) =
          -(Nat.log 10 ((denominator - 1) / numerator) : Int) by push_cast; ring,
        zpow_neg, zpow_natCast, lt_inv_mul_iff₀ (by positivity)]
      have log := Nat.pow_log_le_self 10 some
      have : 10 ^ Nat.log 10 ((denominator - 1) / numerator) * numerator <= denominator - 1 :=
        (Nat.mul_le_mul_right _ log).trans (Nat.div_mul_le_self _ _)
      have : 10 ^ Nat.log 10 ((denominator - 1) / numerator) * numerator < denominator := by
        omega
      exact_mod_cast this

namespace Magnitude

variable {magnitude : Magnitude}

/-- What lies between a magnitude and a number that it attracts is attracted too. -/
theorem Attracts.of_between
    {number other : ℚ}
    (near : magnitude.Attracts number)
    (between : number <= other ∧ other <= magnitude.value ∨
      magnitude.value <= other ∧ other <= number) :
    magnitude.Attracts other := by
  have unit : (0 : ℚ) < 2 ^ magnitude.exponent := zpow_pos two_pos _
  have center : magnitude.value / 2 ^ magnitude.exponent = magnitude.significand :=
    mul_div_cancel_right₀ _ unit.ne'
  rw [← div_le_div_iff_of_pos_right unit, ← div_le_div_iff_of_pos_right unit (a := other),
    ← div_le_div_iff_of_pos_right unit (a := magnitude.value),
    ← div_le_div_iff_of_pos_right unit (a := other) (b := number), center] at between
  obtain ⟨low, high, even⟩ := near
  have reach := magnitude.reach_pos
  rcases between with ⟨above, below⟩ | ⟨above, below⟩
  · exact ⟨by linarith, by linarith, even.imp_right fun strict =>
      ⟨by linarith [strict.1], by linarith⟩⟩
  · exact ⟨by linarith, by linarith, even.imp_right fun strict =>
      ⟨by linarith, by linarith [strict.2]⟩⟩

/-- On a grid whose steps are shorter than the interval one of the neighbours of the magnitude lies
in the interval. -/
theorem exists_attracts
    {exponent : Int}
    (short : (10 : ℚ) ^ exponent < (magnitude.reach + 1 / 2) * 2 ^ magnitude.exponent) :
    ∃ digits : Nat, magnitude.Attracts (⟨digits, exponent⟩ : Decimal).value := by
  have unit : (0 : ℚ) < 2 ^ magnitude.exponent := zpow_pos two_pos _
  have step : (0 : ℚ) < 10 ^ exponent := zpow_pos (by norm_num) _
  have center : magnitude.value / 2 ^ magnitude.exponent = magnitude.significand :=
    mul_div_cancel_right₀ _ unit.ne'
  have positive : 0 <= magnitude.value / 10 ^ exponent :=
    div_nonneg (mul_nonneg (Nat.cast_nonneg _) unit.le) step.le
  have low := (le_div_iff₀ step).1 (Nat.floor_le positive)
  have high := (div_lt_iff₀ step).1 (Nat.lt_floor_add_one (magnitude.value / 10 ^ exponent))
  generalize ⌊magnitude.value / 10 ^ exponent⌋₊ = below at low high
  have reach := magnitude.reach_pos
  rw [← div_le_div_iff_of_pos_right unit, center] at low
  rw [← div_lt_div_iff_of_pos_right unit, center, add_mul, one_mul, add_div] at high
  rw [← div_lt_iff₀ unit] at short
  by_cases near : magnitude.significand - magnitude.reach <
      (⟨below, exponent⟩ : Decimal).value / 2 ^ magnitude.exponent
  · refine ⟨below, near.le, ?_, .inr ⟨near, ?_⟩⟩
    · unfold Decimal.value
      linarith
    · unfold Decimal.value
      linarith
  · have far := not_lt.1 near
    have next : (⟨below + 1, exponent⟩ : Decimal).value / 2 ^ magnitude.exponent =
        below * 10 ^ exponent / 2 ^ magnitude.exponent + 10 ^ exponent / 2 ^ magnitude.exponent := by
      unfold Decimal.value
      push_cast
      ring
    unfold Decimal.value at far
    refine ⟨below + 1, ?_⟩
    rw [attracts_iff, next]
    exact ⟨by linarith, by linarith, .inr ⟨by linarith, by linarith⟩⟩

/-- A decimal that is attracted by a double lies between powers of ten. -/
theorem Attracts.bounds
    {number : ℚ}
    (double : magnitude.IsDouble)
    (positive : 0 < magnitude.significand)
    (near : magnitude.Attracts number) :
    (10 : ℚ) ^ (-400 : Int) < number ∧ number < 10 ^ (400 : Int) := by
  have unit : (0 : ℚ) < 2 ^ magnitude.exponent := zpow_pos two_pos _
  have least : ((2 : ℚ) ^ 1074)⁻¹ <= 2 ^ magnitude.exponent := by
    rw [← zpow_natCast, ← zpow_neg]
    exact zpow_le_zpow_right₀ one_le_two double.least
  have most : (2 : ℚ) ^ magnitude.exponent <= 2 ^ 971 := by
    rw [← zpow_natCast]
    exact zpow_le_zpow_right₀ one_le_two double.most
  have one : (1 : ℚ) <= magnitude.significand := by exact_mod_cast positive
  have short : (magnitude.significand : ℚ) + 1 <= 2 ^ 53 := by exact_mod_cast double.short
  have reach := magnitude.reach_le
  refine ⟨?_, ?_⟩
  · calc (10 : ℚ) ^ (-400 : Int)
        < (2 * 2 ^ 1074)⁻¹ := by
          rw [zpow_neg]
          refine inv_strictAnti₀ (by positivity) ?_
          exact_mod_cast (by decide +kernel : 2 * 2 ^ 1074 < 10 ^ 400)
      _ = 2⁻¹ * (2 ^ 1074)⁻¹ := mul_inv _ _
      _ <= 2⁻¹ * 2 ^ magnitude.exponent := by gcongr
      _ <= number / 2 ^ magnitude.exponent * 2 ^ magnitude.exponent := by
          gcongr
          linarith [near.low]
      _ = number := div_mul_cancel₀ _ unit.ne'
  · calc number
        = number / 2 ^ magnitude.exponent * 2 ^ magnitude.exponent :=
          (div_mul_cancel₀ _ unit.ne').symm
      _ <= 2 ^ 53 * 2 ^ 971 := by
          gcongr
          linarith [near.high]
      _ < 10 ^ (400 : Int) := by
          exact_mod_cast (by decide +kernel : 2 ^ 53 * 2 ^ 971 < 10 ^ 400)

end Magnitude

namespace RoundingInterval

theorem denominator_pos (magnitude : Magnitude) : 0 < (ofMagnitude magnitude).denominator := by
  unfold ofMagnitude
  dsimp only
  rw [Nat.shiftLeft_eq, Nat.one_mul]
  exact Nat.two_pow_pos _

theorem value_ofMagnitude (magnitude : Magnitude) :
    ((ofMagnitude magnitude).value : ℚ) / (ofMagnitude magnitude).denominator =
      magnitude.value := by
  unfold ofMagnitude
  dsimp only
  have scaled := scaled_div Nat.two_pos (4 * magnitude.significand) 1
    (-(magnitude.exponent - 2))
  rw [neg_neg, Nat.one_mul] at scaled
  rw [Nat.shiftLeft_eq, Nat.shiftLeft_eq, Nat.one_mul, Nat.one_mul]
  refine scaled.trans ?_
  unfold Magnitude.value
  push_cast
  rw [div_one, zpow_neg, div_inv_eq_mul, zpow_sub₀ two_ne_zero]
  ring

variable {magnitude : Magnitude}

/-- The interval of a magnitude has the fractions that the magnitude attracts. -/
theorem contains_ofMagnitude
    (positive : 0 < magnitude.significand)
    {numerator denominator : Nat}
    (divisor : 0 < denominator) :
    (ofMagnitude magnitude).contains numerator denominator = true ↔
      magnitude.Attracts ((numerator : ℚ) / denominator) := by
  have scaled := scaled_div Nat.two_pos numerator denominator (magnitude.exponent - 2)
  have room : (0 : ℚ) < ((denominator * 2 ^ (magnitude.exponent - 2).toNat : Nat) : ℚ) := by
    exact_mod_cast Nat.mul_pos divisor (Nat.two_pow_pos _)
  have quarter : (numerator : ℚ) / denominator / 2 ^ (magnitude.exponent - 2) =
      4 * ((numerator : ℚ) / denominator / 2 ^ magnitude.exponent) := by
    rw [zpow_sub₀ two_ne_zero]
    field_simp
    norm_num
  obtain ⟨below, chosen, most, reach⟩ : ∃ below : Nat,
      (if magnitude.significand == 0x10000000000000 && -1074 < magnitude.exponent
        then 1 else 2) = below ∧ below <= 2 ∧ magnitude.reach = below / 4 := by
    unfold Magnitude.reach
    simp only [Bool.and_eq_true, beq_iff_eq, decide_eq_true_eq]
    split
    · exact ⟨1, rfl, by decide, by norm_num⟩
    · exact ⟨2, rfl, by decide, by norm_num⟩
  unfold ofMagnitude contains
  dsimp only
  rw [chosen]
  simp only [Nat.shiftLeft_eq, Nat.one_mul]
  rw [Magnitude.attracts_iff]
  generalize (numerator : ℚ) / denominator / 2 ^ magnitude.exponent = point at *
  rw [Nat.cast_ofNat, quarter] at scaled
  -- Quarters of the unit are compared over one denominator.
  have above (quarters : Nat) :
      quarters * 2 ^ (magnitude.exponent - 2).toNat * denominator <=
          numerator * 2 ^ (-(magnitude.exponent - 2)).toNat ↔
        (quarters : ℚ) / 4 <= point := by
    rw [div_le_iff₀ (by norm_num), mul_comm point, ← scaled, le_div_iff₀ room, Nat.mul_assoc,
      Nat.mul_comm _ denominator]
    exact_mod_cast Iff.rfl
  have beneath (quarters : Nat) :
      numerator * 2 ^ (-(magnitude.exponent - 2)).toNat <=
          quarters * 2 ^ (magnitude.exponent - 2).toNat * denominator ↔
        point <= (quarters : ℚ) / 4 := by
    rw [le_div_iff₀ (by norm_num), mul_comm point, ← scaled, div_le_iff₀ room, Nat.mul_assoc,
      Nat.mul_comm _ denominator]
    exact_mod_cast Iff.rfl
  have low : ((4 * magnitude.significand - below : Nat) : ℚ) / 4 =
      magnitude.significand - magnitude.reach := by
    rw [Nat.cast_sub (by omega), reach]
    push_cast
    ring
  have high : ((4 * magnitude.significand + 2 : Nat) : ℚ) / 4 = magnitude.significand + 1 / 2 := by
    push_cast
    ring
  split
  · next even =>
      rw [Bool.and_eq_true, decide_eq_true_iff, decide_eq_true_iff, above, beneath, low, high]
      exact ⟨fun inside => ⟨inside.1, inside.2, .inl (beq_iff_eq.1 even)⟩,
        fun near => ⟨near.1, near.2.1⟩⟩
  · next odd =>
      rw [Bool.and_eq_true, decide_eq_true_iff, decide_eq_true_iff, ← not_le, beneath,
        ← not_le (b := numerator * _), above, low, high, not_le, not_le]
      exact ⟨fun inside => ⟨inside.1.le, inside.2.le, .inr inside⟩,
        fun near => near.2.2.resolve_left fun even => odd (beq_iff_eq.2 even)⟩

theorem contains_decimal_iff
    (positive : 0 < magnitude.significand)
    {digits : Nat}
    {exponent : Int} :
    (ofMagnitude magnitude).contains (digits * Nat.pow 10 exponent.toNat)
        (Nat.pow 10 (-exponent).toNat) = true ↔
      magnitude.Attracts (⟨digits, exponent⟩ : Decimal).value := by
  rw [← Decimal.fraction_eq_value]
  exact contains_ofMagnitude positive (Nat.pow_pos (by decide))

/-- The neighbours of a magnitude on a grid. -/
theorem neighbours (magnitude : Magnitude) (exponent : Int) :
    ∃ below : Nat, (ofMagnitude magnitude).value * Nat.pow 10 (-exponent).toNat /
        ((ofMagnitude magnitude).denominator * Nat.pow 10 exponent.toNat) = below ∧
      (⟨below, exponent⟩ : Decimal).value <= magnitude.value ∧
      magnitude.value < (⟨below + 1, exponent⟩ : Decimal).value := by
  have divisor := denominator_pos magnitude
  have up : 0 < Nat.pow 10 exponent.toNat := Nat.pow_pos (by decide)
  have down : (0 : ℚ) < (Nat.pow 10 (-exponent).toNat : Nat) := by
    exact_mod_cast Nat.pow_pos (by decide)
  have least := Nat.div_mul_le_self
    ((ofMagnitude magnitude).value * Nat.pow 10 (-exponent).toNat)
    ((ofMagnitude magnitude).denominator * Nat.pow 10 exponent.toNat)
  have most := Nat.lt_div_mul_add (Nat.mul_pos divisor up)
    (a := (ofMagnitude magnitude).value * Nat.pow 10 (-exponent).toNat)
  refine ⟨_, rfl, ?_, ?_⟩
  · rw [← Decimal.fraction_eq_value, ← value_ofMagnitude,
      div_le_div_iff₀ down (by exact_mod_cast divisor)]
    exact_mod_cast (by linarith : _ * Nat.pow 10 exponent.toNat *
      (ofMagnitude magnitude).denominator <= _)
  · rw [← Decimal.fraction_eq_value, ← value_ofMagnitude,
      div_lt_div_iff₀ (by exact_mod_cast divisor) down]
    exact_mod_cast (by linarith : _ < (_ + 1) * Nat.pow 10 exponent.toNat *
      (ofMagnitude magnitude).denominator)

theorem onGrid?_spec
    (positive : 0 < magnitude.significand)
    {exponent : Int}
    {decimal : Decimal}
    (found : (ofMagnitude magnitude).onGrid? exponent = some decimal) :
    decimal.exponent = exponent ∧ magnitude.Attracts decimal.value ∧
      decimal.value <= magnitude.value + 10 ^ exponent := by
  obtain ⟨below, defined, low, -⟩ := neighbours magnitude exponent
  have step : (0 : ℚ) < 10 ^ exponent := zpow_pos (by norm_num) _
  unfold onGrid? at found
  dsimp only at found
  rw [defined] at found
  split at found
  · next lower =>
      obtain rfl := Option.some.inj found
      exact ⟨rfl, (contains_decimal_iff positive).1 (Bool.and_eq_true_iff.1 lower).1,
        low.trans (by linarith)⟩
  · split at found
    · next upper =>
        obtain rfl := Option.some.inj found
        refine ⟨rfl, (contains_decimal_iff positive).1 upper, ?_⟩
        unfold Decimal.value at low ⊢
        push_cast
        linarith
    · cases found

/-- If a grid has a point in the interval then one is found there. -/
theorem isSome_onGrid?
    (positive : 0 < magnitude.significand)
    {exponent : Int}
    {digits : Nat}
    (near : magnitude.Attracts (⟨digits, exponent⟩ : Decimal).value) :
    ((ofMagnitude magnitude).onGrid? exponent).isSome = true := by
  obtain ⟨below, defined, low, high⟩ := neighbours magnitude exponent
  have order {less more : Nat} (lower : less <= more) :
      (⟨less, exponent⟩ : Decimal).value <= (⟨more, exponent⟩ : Decimal).value := by
    unfold Decimal.value
    gcongr
  unfold onGrid?
  dsimp only
  rw [defined]
  rcases Nat.lt_or_ge below digits with above | beneath
  · rw [(contains_decimal_iff positive).2 (near.of_between (.inr ⟨high.le, order above⟩))]
    split <;> rfl
  · rw [(contains_decimal_iff positive).2 (near.of_between (.inl ⟨order beneath, low⟩))]
    split
    · rfl
    · simp_all

/-- A search whose last grid has a point in the interval ends on the first grid that has one. -/
theorem shortestFrom_spec
    {interval : RoundingInterval}
    (point : Int)
    (remaining count : Nat)
    (last : (interval.onGrid? (point - (count + remaining : Nat))).isSome = true) :
    ∃ length : Nat, count <= length ∧
      interval.onGrid? (point - length) = some (shortestFrom interval point remaining count) ∧
      ∀ fewer, count <= fewer -> fewer < length -> interval.onGrid? (point - fewer) = none := by
  induction remaining generalizing count with
  | zero =>
      obtain ⟨decimal, found⟩ := Option.isSome_iff_exists.1 last
      rw [shortestFrom, ← Nat.add_zero count, found]
      exact ⟨count, le_rfl, found, fun fewer _ _ => by omega⟩
  | succ remaining later =>
      rw [shortestFrom]
      split
      · next found => exact ⟨count, le_rfl, found, fun fewer _ _ => by omega⟩
      · next missing =>
          obtain ⟨length, least, found, none⟩ := later (count + 1) (by rwa [Nat.add_right_comm])
          refine ⟨length, by omega, found, fun fewer start less => ?_⟩
          rcases Nat.eq_or_lt_of_le start with rfl | more
          · exact missing
          · exact none fewer more less

end RoundingInterval

/-! ## The shortest decimal -/

/-- Seventeen digits suffice. -/
theorem shortest_spec (positive : 0 < (magnitude number).significand) :
    ∃ point : Int, ∃ length : Nat, ∃ decimal : Decimal, 1 <= length ∧
      (RoundingInterval.ofMagnitude (magnitude number)).onGrid? (point - length) = some decimal ∧
      shortest number = decimal.normalize ∧
      (∀ fewer : Nat, 1 <= fewer -> fewer < length ->
        (RoundingInterval.ofMagnitude (magnitude number)).onGrid? (point - fewer) = none) ∧
      (10 : ℚ) ^ (point - 1) <= (magnitude number).value ∧ (magnitude number).value < 10 ^ point := by
  have short := significand_lt number
  unfold shortest
  dsimp only
  generalize magnitude number = magnitude at *
  have divisor := RoundingInterval.denominator_pos magnitude
  have unit : (0 : ℚ) < 2 ^ magnitude.exponent := zpow_pos two_pos _
  have value := RoundingInterval.value_ofMagnitude magnitude
  have some : 0 < (RoundingInterval.ofMagnitude magnitude).value := by
    refine Nat.pos_of_ne_zero fun none => ?_
    rw [none, Nat.cast_zero, zero_div] at value
    have : (0 : ℚ) < magnitude.value := mul_pos (by exact_mod_cast positive) unit
    linarith
  have large := zpow_decimalPoint_le some divisor
  have less := lt_zpow_decimalPoint some divisor
  rw [value] at large less
  generalize decimalPoint (RoundingInterval.ofMagnitude magnitude).value
    (RoundingInterval.ofMagnitude magnitude).denominator = point at large less ⊢
  -- A step of the last grid is a small part of the unit of the significand.
  have small : (magnitude.significand : ℚ) < (magnitude.reach + 1 / 2) * 10 ^ 16 := by
    have bound : (magnitude.significand : ℚ) < 2 ^ 53 := by exact_mod_cast short
    unfold Magnitude.reach
    split
    · next power => rw [power.1]; norm_num
    · linarith
  have fine : (10 : ℚ) ^ (point - (1 + 16 : Nat)) <
      (magnitude.reach + 1 / 2) * 2 ^ magnitude.exponent :=
    calc (10 : ℚ) ^ (point - (1 + 16 : Nat))
        = 10 ^ (point - 1) / 10 ^ 16 := by
          rw [← zpow_natCast, ← zpow_sub₀ (by norm_num)]
          congr 1
          omega
      _ <= magnitude.significand * 2 ^ magnitude.exponent / 10 ^ 16 := by gcongr; exact large
      _ < (magnitude.reach + 1 / 2) * 2 ^ magnitude.exponent := by
          rw [div_lt_iff₀ (by norm_num)]
          nlinarith
  obtain ⟨digits, near⟩ := Magnitude.exists_attracts fine
  obtain ⟨length, least, found, fewer⟩ := RoundingInterval.shortestFrom_spec point 16 1
    (RoundingInterval.isSome_onGrid? positive near)
  exact ⟨point, length, _, least, found, rfl, fewer, large, less⟩

/-- A finite double attracts its shortest decimal. -/
theorem attracts_shortest (positive : 0 < (magnitude number).significand) :
    (magnitude number).Attracts (shortest number).value := by
  obtain ⟨point, length, decimal, -, found, same, -⟩ := shortest_spec positive
  rw [same, Decimal.value_normalize]
  exact (RoundingInterval.onGrid?_spec positive found).2.1

theorem Magnitude.Attracts.digits_ne_zero
    {magnitude : Magnitude}
    (positive : 0 < magnitude.significand)
    (near : magnitude.Attracts decimal.value) :
    decimal.digits ≠ 0 := by
  intro none
  have low := near.low
  have reach := magnitude.reach_le
  have one : (1 : ℚ) <= magnitude.significand := by exact_mod_cast positive
  rw [Decimal.value, none, Nat.cast_zero, zero_mul, zero_div] at low
  linarith

/-- No decimal that a finite double attracts has fewer digits than the shortest one. -/
theorem decimalLength_shortest_le
    (positive : 0 < (magnitude number).significand)
    (near : (magnitude number).Attracts decimal.value) :
    decimalLength (shortest number).digits <= decimalLength decimal.digits := by
  obtain ⟨point, length, first, some, found, same, fewer, low, high⟩ := shortest_spec positive
  obtain ⟨exponent, attracted, next⟩ := RoundingInterval.onGrid?_spec positive found
  have ten : (1 : ℚ) < 10 := by norm_num
  have nonzero : (10 : ℚ) ≠ 0 := by norm_num
  have shift (length : Nat) : (10 : ℚ) ^ point = 10 ^ length * 10 ^ (point - length) := by
    rw [← zpow_natCast, ← zpow_add₀ nonzero]
    congr 1
    omega
  rw [same]
  refine (?_ : _ <= length).trans ?_
  · -- The digits that are found are no more than a power of ten.
    obtain ⟨count, rfl⟩ : ∃ count, length = count + 1 := ⟨length - 1, by omega⟩
    have step : (0 : ℚ) < 10 ^ (point - (count + 1 : Nat)) := zpow_pos (by norm_num) _
    have most : first.digits <= 10 ^ (count + 1) := by
      rw [Decimal.value, exponent] at next
      rw [shift (count + 1)] at high
      have : (first.digits : ℚ) * 10 ^ (point - (count + 1 : Nat)) <
          (10 ^ (count + 1) + 1) * 10 ^ (point - (count + 1 : Nat)) := by linarith
      have digits := lt_of_mul_lt_mul_right this step.le
      exact Nat.lt_succ_iff.1 (by exact_mod_cast digits)
    refine decimalLength_le count ?_
    rcases Nat.lt_or_eq_of_le most with less | power
    · exact (first.digits_normalize_le (attracted.digits_ne_zero positive) rfl).trans_lt less
    · have one : (⟨1, point⟩ : Decimal).value = first.value := by
        rw [Decimal.value, Decimal.value, power, exponent, shift (count + 1)]
        push_cast
        ring
      exact (first.digits_normalize_le Nat.one_ne_zero one).trans_lt
        (Nat.one_lt_pow (by omega) (by decide))
  · -- A decimal with fewer digits would have been found before.
    by_contra less
    have missing := fewer _ (decimalLength_pos _) (not_le.1 less)
    have none : ∀ digits : Nat, ¬ (magnitude number).Attracts
        (⟨digits, point - (decimalLength decimal.digits : Nat)⟩ : Decimal).value := by
      intro digits other
      have := RoundingInterval.isSome_onGrid? positive other
      rw [missing] at this
      cases this
    rcases le_or_gt ((10 : ℚ) ^ (point - 1)) decimal.value with large | small
    · have bound := (Decimal.value_bounds (near.digits_ne_zero positive)).2
      have above := (zpow_lt_zpow_iff_right₀ ten).1 (large.trans_lt bound)
      obtain ⟨zeros, apart⟩ : ∃ zeros : Nat,
          decimal.exponent = point - (decimalLength decimal.digits : Nat) + zeros :=
        ⟨(decimal.exponent - (point - (decimalLength decimal.digits : Nat))).toNat, by omega⟩
      refine none (decimal.digits * 10 ^ zeros) ?_
      rw [Decimal.value, apart, zpow_add₀ nonzero, zpow_natCast] at near
      rw [Decimal.value]
      push_cast
      convert near using 1
      ring
    · refine none (10 ^ (decimalLength decimal.digits - 1)) (near.of_between (.inl ?_))
      have power : (⟨10 ^ (decimalLength decimal.digits - 1),
          point - (decimalLength decimal.digits : Nat)⟩ : Decimal).value = 10 ^ (point - 1) := by
        have some := decimalLength_pos decimal.digits
        rw [Decimal.value]
        push_cast
        rw [← zpow_natCast, ← zpow_add₀ nonzero]
        congr 1
        omega
      rw [power]
      exact ⟨small.le, low⟩

/-! ## Reading decimals -/

/-- The early answers for decimals far outside the range are right. -/
theorem Decimal.toFloat_eq_ofFraction
    {magnitude : Magnitude}
    (double : magnitude.IsDouble)
    (positive : 0 < magnitude.significand)
    (near : magnitude.Attracts decimal.value) :
    decimal.toFloat = ofFraction (decimal.digits * Nat.pow 10 decimal.exponent.toNat)
      (Nat.pow 10 (-decimal.exponent).toNat) := by
  obtain ⟨low, high⟩ := near.bounds double positive
  have nonzero := near.digits_ne_zero positive
  obtain ⟨least, most⟩ := decimal.value_bounds nonzero
  have ten : (1 : ℚ) < 10 := by norm_num
  have above := (zpow_lt_zpow_iff_right₀ ten).1 (low.trans most)
  have below := (zpow_lt_zpow_iff_right₀ ten).1 (least.trans_lt high)
  unfold Decimal.toFloat
  dsimp only
  rw [if_neg, if_neg (by omega)]
  rw [Bool.or_eq_true, beq_iff_eq, decide_eq_true_eq]
  omega

/-- No decimal is read as not-a-number. -/
@[simp] theorem Decimal.isNaN_toFloat (decimal : Decimal) : decimal.toFloat.isNaN = false := by
  unfold Decimal.toFloat
  dsimp only
  split
  · decide
  · split
    · decide
    · exact isNaN_ofFraction _ _

/-- A decimal that a finite double attracts is read as that double, up to the sign. -/
theorem Decimal.toFloat_of_attracts
    (finite : number.isFinite = true)
    (positive : 0 < (magnitude number).significand)
    (near : (magnitude number).Attracts decimal.value) :
    (if isNegative number then -decimal.toFloat else decimal.toFloat) = number := by
  have double := isDouble_magnitude finite
  have read : decimal.toFloat = Float.ofBits (UInt64.ofNat (magnitude number).fields) := by
    rw [Decimal.toFloat_eq_ofFraction double positive near]
    refine ofFraction_of_attracts double positive (Nat.pow_pos (by decide)) ?_
    rw [Decimal.fraction_eq_value]
    exact near
  rw [read]
  cases negative : isNegative number with
  | true => exact neg_ofBits_fields finite negative
  | false => exact ofBits_fields negative

theorem significand_pos (finite : number.isFinite = true) (nonzero : (number == 0) = false) :
    0 < (magnitude number).significand := by
  have unpacked : number.toModel.unpack.isFinite = true := finite
  cases fields : number.toModel.unpack with
  | notANumber => rw [fields] at unpacked; cases unpacked
  | infinity sign => rw [fields] at unpacked; cases unpacked
  | zero sign =>
      exfalso
      have same : number = ⟨Float.Model.pack (.zero sign)⟩ := by
        refine bits_injective ?_
        rw [bits, ← Float.Model.UnpackedFloat.pack_unpack_of_valid number.toModel.valid]
        exact congrArg (Float.Model.UnpackedFloat.pack .binary64) fields
      rw [same] at nonzero
      cases sign <;> exact absurd nonzero (by decide)
  | finite sign mantissa exponent some =>
      rw [(magnitude_of_unpack fields).1]
      exact some

end Number
end ScriptVM
