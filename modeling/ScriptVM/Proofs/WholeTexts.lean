import ScriptVM.Number.Text
import ScriptVM.Proofs.Doubles

/-!
# The text of a whole number

The shortest decimal of a double that is a whole number has no digit behind the point, so the
number is written with its own digits. This is what lets an index stand for the text of a key.
-/

namespace ScriptVM
namespace Number

variable {value : Float} {number : Nat} {interval : RoundingInterval}

open Float.Model Float.Model.UnpackedFloat

/-! ## Whole doubles -/

/-- An integral magnitude is the multiple of its scale by its integral part. -/
theorem floor_mul_of_isIntegral
    {significand scale : Nat}
    (integral : (⟨significand, 0 - scale⟩ : Magnitude).isIntegral = true) :
    (⟨significand, 0 - scale⟩ : Magnitude).floor * 2 ^ scale = significand := by
  rw [floor_eq_div]
  unfold Magnitude.isIntegral at integral
  dsimp only at integral
  rw [Bool.or_eq_true, decide_eq_true_iff, beq_iff_eq] at integral
  rcases integral with none | whole
  · obtain rfl : scale = 0 := by omega
    simp
  · rw [show (-(0 - (scale : Int))).toNat = scale by omega, Nat.shiftLeft_eq, Nat.one_mul] at whole
    exact Nat.div_mul_cancel (Nat.dvd_of_mod_eq_zero whole)

/-- A whole double is a zero or a positive whole number, scaled down by a power of two. -/
inductive IsWhole (value : Float) : Nat -> Prop
  | zero
    (sign : Sign)
    (unpacked : value.toModel.unpack = .zero sign) :
    IsWhole value 0
  | scaled
    {number : Nat}
    (shift : Nat)
    (positive : 0 < number * 2 ^ shift)
    (unpacked : value.toModel.unpack =
      .finite .positive (number * 2 ^ shift) (0 - shift) positive) :
    IsWhole value number

/-- A whole double that is not negative and less than a whole number truncates to a number below
that, which it is exactly. -/
theorem isWhole_of_lt_ofNat
    {bound : Nat}
    (positive : 0 < bound)
    (small : bound < 2 ^ 53)
    (low : 0 <= value)
    (high : value < Float.ofNat bound)
    (integral : isIntegral value = true) :
    (truncate value).toNat < bound ∧ IsWhole value (truncate value).toNat := by
  have zero : (0 : Float).toModel.unpack = .zero .positive := by rfl
  have above : ((0 : Float).toModel.unpack.le value.toModel.unpack) = true := of_decide_eq_true low
  have below : (value.toModel.unpack.lt (Float.ofNat bound).toModel.unpack) = true :=
    of_decide_eq_true high
  obtain ⟨shift, whole, normal, target⟩ := unpack_ofNat positive small
  rw [zero] at above
  rw [target] at below
  cases unpacked : value.toModel.unpack with
  | notANumber => rw [unpacked] at above; cases above
  | zero sign =>
      rw [truncate_of_unpack_zero unpacked]
      exact ⟨positive, .zero sign unpacked⟩
  | infinity sign =>
      rw [unpacked] at above below
      cases sign with
      | negative => cases above
      | positive => cases below
  | finite sign mantissa exponent nonzero =>
      cases sign with
      | negative => rw [unpacked] at above; cases above
      | positive =>
          obtain ⟨fields, -, -⟩ := magnitude_of_unpack unpacked
          have short : mantissa < 2 ^ 53 := by
            have := significand_lt value
            rwa [fields] at this
          rw [isIntegral, Bool.and_eq_true, fields] at integral
          rw [truncate_of_unpack unpacked, Int.toNat_natCast]
          rw [unpacked] at below
          have order : ((compare exponent (0 - shift)).then
              (compare mantissa (bound * 2 ^ shift))) = .lt := by
            simpa [UnpackedFloat.lt, UnpackedFloat.compare] using below
          rw [Ordering.then_eq_lt, compare_lt_iff_lt, compare_eq_iff_eq, compare_lt_iff_lt] at order
          obtain ⟨scale, rfl⟩ : ∃ scale : Nat, exponent = 0 - scale :=
            ⟨(0 - exponent).toNat, by omega⟩
          have room : mantissa < bound * 2 ^ scale := by
            rcases order with finer | ⟨same, order⟩
            · -- A finer scale leaves room for every significand.
              calc mantissa
                  < 2 * (bound * 2 ^ shift) := by omega
                _ = bound * 2 ^ (shift + 1) := by rw [Nat.pow_succ]; ring
                _ <= bound * 2 ^ scale :=
                    Nat.mul_le_mul_left _ (Nat.pow_le_pow_right (by decide) (by omega))
            · obtain rfl : scale = shift := by omega
              exact order
          have exact := floor_mul_of_isIntegral integral.2
          have part : (⟨mantissa, 0 - scale⟩ : Magnitude).floor < bound := by
            rw [floor_eq_div]
            exact Nat.div_lt_of_lt_mul (Nat.mul_comm bound _ ▸ room)
          refine ⟨part, .scaled scale (exact.symm ▸ nonzero) ?_⟩
          rw [unpacked]
          congr 1
          exact exact.symm

/-- A double that equals a whole number is that number. -/
theorem isWhole_of_beq_ofNat
    (small : number < 2 ^ 53)
    (equal : (value == Float.ofNat number) = true) :
    IsWhole value number := by
  have same : value.toModel.unpack.beq (Float.ofNat number).toModel.unpack = true := equal
  rcases Nat.eq_zero_or_pos number with rfl | positive
  · rw [show (Float.ofNat 0).toModel.unpack = .zero .positive by rfl] at same
    cases unpacked : value.toModel.unpack with
    | zero sign => exact .zero sign unpacked
    | finite sign =>
        rw [unpacked] at same
        cases sign <;> cases same
    | infinity sign =>
        rw [unpacked] at same
        cases sign <;> cases same
    | notANumber =>
        rw [unpacked] at same
        cases same
  · obtain ⟨shift, whole, -, target⟩ := unpack_ofNat positive small
    rw [target] at same
    cases unpacked : value.toModel.unpack with
    | zero sign =>
        rw [unpacked] at same
        cases same
    | infinity sign =>
        rw [unpacked] at same
        cases sign <;> cases same
    | notANumber =>
        rw [unpacked] at same
        cases same
    | finite sign mantissa exponent nonzero =>
        rw [unpacked] at same
        cases sign with
        | negative => cases same
        | positive =>
            have order : ((compare exponent (0 - shift)).then
                (compare mantissa (number * 2 ^ shift))) = .eq := by
              simpa [UnpackedFloat.beq, UnpackedFloat.compare] using same
            rw [Ordering.then_eq_eq, compare_eq_iff_eq, compare_eq_iff_eq] at order
            obtain ⟨rfl, rfl⟩ := order
            exact .scaled shift nonzero unpacked

/-! ## The shortest digits -/

/-- A decimal without a fraction that stands for a natural number. -/
structure Decimal.Denotes (decimal : Decimal) (number : Nat) : Prop where
  whole : 0 <= decimal.exponent
  product : decimal.digits * 10 ^ decimal.exponent.toNat = number

/-- Numbers below a power of ten have no more digits than its exponent. -/
theorem decimalLength_le (count : Nat) (small : number < 10 ^ (count + 1)) :
    decimalLength number <= count + 1 := by
  induction count generalizing number with
  | zero =>
      rw [decimalLength, if_pos (by simpa using small)]
  | succ count step =>
      rw [decimalLength]
      split
      · omega
      · have rest : number / 10 < 10 ^ (count + 1) := by
          rw [Nat.pow_succ] at small
          omega
        exact Nat.succ_le_succ (step rest)

theorem decimalLength_pos (number : Nat) : 0 < decimalLength number := by
  rw [decimalLength]
  split <;> omega

/-- The rounding interval of a whole number has no other whole number in it. -/
structure RoundingInterval.Isolates (interval : RoundingInterval) (number : Nat) : Prop where
  value : interval.value = number * interval.denominator
  positive : 0 < interval.denominator
  alone : ∀ point, interval.contains point 1 = decide (point = number)

theorem isolates_ofMagnitude (shift : Nat) (positive : 0 < number) :
    (RoundingInterval.ofMagnitude ⟨number * 2 ^ shift, 0 - shift⟩).Isolates number := by
  have scale : ((0 : Int) - shift - 2).toNat = 0 := by omega
  have grid : (-((0 : Int) - shift - 2)).toNat = shift + 2 := by omega
  have quarter : 4 * (number * 2 ^ shift) = number * 2 ^ (shift + 2) := by
    rw [Nat.pow_add]
    ring
  have room : 2 ^ 2 <= 2 ^ (shift + 2) := Nat.pow_le_pow_right (by decide) (by omega)
  unfold RoundingInterval.ofMagnitude
  simp only [scale, grid, quarter, Nat.shiftLeft_eq, Nat.pow_zero, Nat.mul_one, Nat.one_mul]
  generalize 2 ^ (shift + 2) = denominator at room
  -- The ends of the interval are no more than half a unit away.
  have near : ∀ (strict : Nat) {below point : Nat}, 1 <= below -> below <= 2 -> strict <= 1 ->
      (number * denominator - below + strict <= point * denominator ∧
        point * denominator + strict <= number * denominator + 2 ↔ point = number) := by
    intro strict below point _ _ _
    constructor
    · rintro ⟨low, high⟩
      have least : point < number + 1 := Nat.lt_of_mul_lt_mul_right (a := denominator) (by
        rw [Nat.add_mul]
        omega)
      have most : number < point + 1 := Nat.lt_of_mul_lt_mul_right (a := denominator) (by
        rw [Nat.add_mul]
        omega)
      omega
    · rintro rfl
      have : 1 * denominator <= point * denominator := Nat.mul_le_mul_right _ positive
      omega
  have ends : ∀ {below}, 1 <= below -> below <= 2 -> ∀ closed,
      RoundingInterval.Isolates ⟨number * denominator, number * denominator - below,
        number * denominator + 2, denominator, closed⟩ number := by
    intro below least most closed
    refine ⟨rfl, Nat.lt_of_lt_of_le (by decide) room, fun point => ?_⟩
    unfold RoundingInterval.contains
    rw [Bool.eq_iff_iff, decide_eq_true_iff]
    cases closed with
    | true =>
        rw [if_pos rfl, Bool.and_eq_true, decide_eq_true_iff, decide_eq_true_iff, Nat.mul_one,
          Nat.mul_one]
        exact near 0 least most (by decide)
    | false =>
        rw [if_neg Bool.false_ne_true, Bool.and_eq_true, decide_eq_true_iff, decide_eq_true_iff,
          Nat.mul_one, Nat.mul_one]
        exact near 1 least most (by decide)
  split
  · exact ends (by decide) (by decide) _
  · exact ends (by decide) (by decide) _

/-- On a grid of whole numbers the interval has at most the number that it isolates. -/
theorem onGrid?_of_isolates
    (isolates : interval.Isolates number)
    (grid : Nat) :
    interval.onGrid? grid =
      if 10 ^ grid ∣ number then some ⟨number / 10 ^ grid, grid⟩ else none := by
  have up : (grid : Int).toNat = grid := by omega
  have down : (-(grid : Int)).toNat = 0 := by omega
  have power : 0 < 10 ^ grid := Nat.pow_pos (by decide)
  have below : interval.value * 1 / (interval.denominator * 10 ^ grid) = number / 10 ^ grid := by
    rw [isolates.value, Nat.mul_one, Nat.mul_comm number,
      Nat.mul_div_mul_left _ _ isolates.positive]
  have above : (number / 10 ^ grid + 1) * 10 ^ grid ≠ number := by
    have := Nat.lt_div_mul_add (a := number) power
    rw [Nat.add_mul]
    omega
  unfold RoundingInterval.onGrid?
  simp only [up, down, Nat.pow_eq, Nat.pow_zero, below, isolates.alone, above, decide_false,
    Bool.false_and, Bool.not_false, Bool.and_true, decide_eq_true_eq]
  simp only [Nat.dvd_iff_div_mul_eq]
  rfl

/-- A search that reaches the grid of the units ends at a decimal of the number. -/
theorem denotes_shortestFrom
    (isolates : interval.Isolates number)
    (point remaining count : Nat)
    (started : count <= point)
    (reached : point <= count + remaining) :
    (shortestFrom interval point remaining count).Denotes number := by
  -- What is found on a grid of whole numbers is the number.
  have found : ∀ {grid : Nat} {decimal}, interval.onGrid? grid = some decimal ->
      decimal.Denotes number := by
    intro grid decimal some
    rw [onGrid?_of_isolates isolates] at some
    split at some
    · next divides =>
        obtain rfl := Option.some.inj some
        exact ⟨Int.natCast_nonneg grid, by simpa using Nat.div_mul_cancel divides⟩
    · cases some
  have grid : ∀ count, count <= point -> (point : Int) - count = (point - count : Nat) := by
    intro count started
    omega
  have units : interval.onGrid? (0 : Nat) = some ⟨number, 0⟩ := by
    simpa using onGrid?_of_isolates isolates 0
  induction remaining generalizing count with
  | zero =>
      obtain rfl : count = point := by omega
      rw [shortestFrom, grid count started, Nat.sub_self, units]
      exact found units
  | succ remaining step =>
      rw [shortestFrom, grid count started]
      split
      · next some => exact found some
      · next none =>
          have missed : count ≠ point := by
            rintro rfl
            rw [Nat.sub_self, units] at none
            cases none
          exact step (count + 1) (by omega) (by omega)

/-- Dropping zeros of the digits keeps the number. -/
theorem Decimal.Denotes.normalize {decimal : Decimal} (denotes : decimal.Denotes number) :
    decimal.normalize.Denotes number := by
  induction decimal using Decimal.normalize.induct with
  | case1 decimal more step =>
      rw [Decimal.normalize, if_pos more]
      refine step ⟨by have := denotes.whole; dsimp only; omega, ?_⟩
      have succ : (decimal.exponent + 1).toNat = decimal.exponent.toNat + 1 := by
        have := denotes.whole
        omega
      dsimp only
      rw [succ, Nat.pow_succ', ← Nat.mul_assoc, Nat.div_mul_cancel (Nat.dvd_of_mod_eq_zero more.2)]
      exact denotes.product
  | case2 decimal last =>
      rw [Decimal.normalize, if_neg last]
      exact denotes

/-- The shortest digits of a whole number below `10 ^ 16` are those of the number. -/
theorem shortest_denotes
    {number shift : Nat}
    (fields : magnitude value = ⟨number * 2 ^ shift, 0 - shift⟩)
    (positive : 0 < number)
    (small : number < 10 ^ 16) :
    (shortest value).Denotes number := by
  have isolates := isolates_ofMagnitude shift positive
  have point : decimalPoint (RoundingInterval.ofMagnitude (magnitude value)).value
      (RoundingInterval.ofMagnitude (magnitude value)).denominator = decimalLength number := by
    rw [fields, isolates.value]
    unfold decimalPoint
    rw [if_pos (Nat.le_mul_of_pos_left _ positive), Nat.mul_div_cancel _ isolates.positive]
  unfold shortest
  dsimp only
  rw [point, fields]
  have least := decimalLength_pos number
  have most := decimalLength_le 15 small
  exact (denotes_shortestFrom isolates _ 16 1 least (by omega)).normalize

/-! ## The text -/

/-- A multiple of a power of ten is written with as many zeros. -/
theorem digitChars_mul_pow (positive : 0 < number) (zeros : Nat) :
    digitChars (number * 10 ^ zeros) = digitChars number ++ List.replicate zeros '0' := by
  unfold digitChars
  induction zeros with
  | zero => simp
  | succ zeros step =>
      have more : 0 < number * 10 ^ zeros := Nat.mul_pos positive (Nat.pow_pos (by decide))
      rw [List.replicate_succ', ← List.append_assoc, ← step]
      have digit := Nat.toDigits_append_toDigits (b := 10) (by decide) more (show 0 < 10 by decide)
      rw [show number * 10 ^ (zeros + 1) = 10 * (number * 10 ^ zeros) + 0 by ring, ← digit]
      rfl

/-- A decimal of a number of at most twenty-one digits is written with the digits of the number. -/
theorem Decimal.Denotes.layout
    {decimal : Decimal}
    (denotes : decimal.Denotes number)
    (positive : 0 < number)
    (small : number < 10 ^ 21) :
    decimal.layout = digitChars number := by
  have whole := denotes.whole
  have digits : 0 < decimal.digits := by
    rcases Nat.eq_zero_or_pos decimal.digits with none | some
    · have product := denotes.product
      rw [none, Nat.zero_mul] at product
      omega
    · exact some
  have written := digitChars_mul_pow digits decimal.exponent.toNat
  rw [denotes.product] at written
  have length : (digitChars number).length =
      (digitChars decimal.digits).length + decimal.exponent.toNat := by
    rw [written, List.length_append, List.length_replicate]
  have short : (digitChars number).length <= 21 :=
    (Nat.length_toDigits_le_iff (by decide) (by decide)).2 small
  have point : decimal.point = (digitChars number).length := by
    unfold Decimal.point
    omega
  unfold Decimal.layout
  rw [if_pos (by rw [point]; simp; omega)]
  unfold Decimal.positional
  rw [if_pos (by rw [point]; omega), written, point]
  congr 2
  omega

/-- A whole double is written with the digits of the number that it is. -/
theorem IsWhole.toText (whole : IsWhole value number) (small : number < 10 ^ 16) :
    Number.toText value = String.ofList (digitChars number) := by
  cases whole with
  | zero sign unpacked =>
      have number : value.isNaN = false := by
        show value.toModel.unpack.isNaN = false
        rw [unpacked]
        rfl
      have zero : (value == 0) = true := by
        show value.toModel.unpack.beq (0 : Float).toModel.unpack = true
        rw [unpacked]
        cases sign <;> rfl
      rw [Number.toText, number, zero]
      rfl
  | scaled shift nonzero unpacked =>
      have defined : value.isNaN = false := by
        show value.toModel.unpack.isNaN = false
        rw [unpacked]
        rfl
      have zero : (value == 0) = false := by
        show value.toModel.unpack.beq (0 : Float).toModel.unpack = false
        rw [unpacked]
        rfl
      have bounded : value.isInf = false := by
        show value.toModel.unpack.isInf = false
        rw [unpacked]
        rfl
      obtain ⟨fields, negative, -⟩ := magnitude_of_unpack unpacked
      have positive : 0 < number := Nat.pos_of_mul_pos_right nonzero
      have digits := (shortest_denotes fields positive small).layout positive
        (Nat.lt_trans small (by decide))
      rw [Number.toText, defined, zero, bounded]
      unfold signed
      rw [digits, negative]
      rfl

end Number
end ScriptVM
