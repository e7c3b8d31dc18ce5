import ScriptVM.Proofs.NumberLiterals

/-!
# Numbers and their texts

The text of a finite number is its shortest digits in one of four layouts, chosen by where the
decimal point stands. It is a decimal literal of the shortest decimal, so it is read as the number
again, and only equal numbers have the same text.
-/

namespace ScriptVM
namespace Number

variable {value : Nat} {text : List Char} {number : Float}

/-! ## Layouts -/

/-- An exponent with its sign. -/
inductive SignedExponent : Int -> List Char -> Prop
  | plus (size : Nat) : SignedExponent size ('+' :: digitChars size)
  | minus (size : Nat) (some : 0 < size) : SignedExponent (-size) ('-' :: digitChars size)

/-- The layouts of digits with a decimal point that many places behind the first digit: a whole
number, a point between the digits, zeros before the digits, and an exponent behind them. -/
inductive Layout (digits : List Char) : Int -> List Char -> Prop
  | whole
    (zeros : Nat)
    (most : digits.length + zeros <= 21) :
    Layout digits (digits.length + zeros) (digits ++ List.replicate zeros '0')
  | pointed
    {before behind : List Char}
    (parts : digits = before ++ behind)
    (some : before ≠ [])
    (rest : behind ≠ [])
    (most : before.length <= 21) :
    Layout digits before.length (before ++ '.' :: behind)
  | leading
    (zeros : Nat)
    (few : zeros < 6) :
    Layout digits (-zeros) ('0' :: '.' :: (List.replicate zeros '0' ++ digits))
  | scaled
    {digit : Char}
    {point : Int}
    {exponent : List Char}
    (single : digits = [digit])
    (far : point <= -6 ∨ 21 < point)
    (power : SignedExponent (point - 1) exponent) :
    Layout digits point (digit :: 'e' :: exponent)
  | pointedScaled
    {digit : Char}
    {others exponent : List Char}
    {point : Int}
    (parts : digits = digit :: others)
    (rest : others ≠ [])
    (far : point <= -6 ∨ 21 < point)
    (power : SignedExponent (point - 1) exponent) :
    Layout digits point (digit :: '.' :: (others ++ 'e' :: exponent))

theorem signedExponent (exponent : Int) :
    SignedExponent exponent ((if 0 <= exponent then '+' else '-') :: digitChars exponent.natAbs) := by
  split
  · next positive =>
      obtain ⟨size, rfl⟩ := Int.eq_ofNat_of_zero_le positive
      exact .plus size
  · next negative =>
      obtain ⟨size, rfl⟩ : ∃ size : Nat, exponent = -(size : Int) := ⟨exponent.natAbs, by omega⟩
      rw [Int.natAbs_neg]
      exact .minus size (by omega)

theorem digitChars_ne_nil (number : Nat) : digitChars number ≠ [] :=
  Nat.toDigits_ne_nil

/-- A decimal is laid out by where its point stands. -/
theorem layout_layout (decimal : Decimal) :
    Layout (digitChars decimal.digits) decimal.point decimal.layout := by
  have some := digitChars_ne_nil decimal.digits
  unfold Decimal.layout
  simp only [Bool.and_eq_true, decide_eq_true_eq]
  split
  · next near =>
      unfold Decimal.positional
      dsimp only
      generalize decimal.point = point at near ⊢
      generalize digitChars decimal.digits = digits at some ⊢
      split
      · next long =>
          obtain ⟨zeros, rfl⟩ : ∃ zeros : Nat, point = digits.length + zeros :=
            ⟨(point - digits.length).toNat, by omega⟩
          rw [add_sub_cancel_left, Int.toNat_natCast]
          exact .whole zeros (by omega)
      · next short =>
          split
          · next positive =>
              obtain ⟨place, rfl⟩ := Int.eq_ofNat_of_zero_le positive.le
              have length : (digits.take place).length = place := by
                rw [List.length_take]
                omega
              rw [Int.toNat_natCast]
              conv in (place : Int) => rw [← length]
              refine .pointed (List.take_append_drop place digits).symm ?_ ?_ (by omega)
              · rw [← List.length_pos_iff]
                omega
              · rw [← List.length_pos_iff, List.length_drop]
                omega
          · next negative =>
              obtain ⟨zeros, rfl⟩ : ∃ zeros : Nat, point = -(zeros : Int) :=
                ⟨(-point).toNat, by omega⟩
              rw [neg_neg, Int.toNat_natCast]
              exact .leading zeros (by omega)
  · next far =>
      have outside : decimal.point <= -6 ∨ 21 < decimal.point := by omega
      unfold Decimal.scientific
      dsimp only
      generalize decimal.point = point at outside ⊢
      generalize digitChars decimal.digits = digits at some ⊢
      split
      · exact absurd rfl some
      · exact .scaled rfl outside (signedExponent _)
      · next digit rest single =>
          exact .pointedScaled rfl (fun none => single none) outside (signedExponent _)

/-! ## The decimal of a text -/

theorem numeral_digitChars (number : Nat) : Numeral 10 (digitChars number) number :=
  numeral_ten_iff.2 ⟨fun _ member => Nat.isDigit_of_mem_toDigits (by decide) (by decide) member,
    digitsValue_digitChars number⟩

theorem Numeral.append
    {first second : List Char}
    {value other : Nat}
    (front : Numeral 10 first value)
    (behind : Numeral 10 second other) :
    Numeral 10 (first ++ second) (value * 10 ^ second.length + other) := by
  obtain ⟨all, rfl⟩ := numeral_ten_iff.1 front
  obtain ⟨also, rfl⟩ := numeral_ten_iff.1 behind
  refine numeral_ten_iff.2 ⟨fun c member => ?_, digitsValue_append first second⟩
  exact (List.mem_append.1 member).elim (all c) (also c)

theorem numeral_zeros (zeros : Nat) : Numeral 10 (List.replicate zeros '0') 0 := by
  refine numeral_ten_iff.2 ⟨fun c member => ?_, ?_⟩
  · obtain rfl := List.eq_of_mem_replicate member
    rfl
  · exact Nat.ofDigitChars_replicate_zero.trans (Nat.mul_zero _)

/-- The parts of a numeral are numerals. -/
theorem Numeral.of_append
    {first second : List Char}
    (numeral : Numeral 10 (first ++ second) value) :
    ∃ front behind, Numeral 10 first front ∧ Numeral 10 second behind ∧
      value = front * 10 ^ second.length + behind := by
  obtain ⟨all, rfl⟩ := numeral_ten_iff.1 numeral
  exact ⟨_, _, numeral_ten_iff.2 ⟨fun c member => all c (List.mem_append_left _ member), rfl⟩,
    numeral_ten_iff.2 ⟨fun c member => all c (List.mem_append_right _ member), rfl⟩,
    digitsValue_append first second⟩

theorem SignedExponent.part {power : Int} (exponent : SignedExponent power text) :
    ExponentPart ('e' :: text) power := by
  cases exponent with
  | plus size =>
      have := ExponentPart.present (.inl rfl) .plus (numeral_digitChars size)
        (digitChars_ne_nil size)
      rwa [one_mul] at this
  | minus size some =>
      have := ExponentPart.present (.inl rfl) .minus (numeral_digitChars size)
        (digitChars_ne_nil size)
      rwa [neg_one_mul] at this

/-- Whatever its layout a text stands for the decimal with its digits and its point. -/
theorem Layout.literal
    {sign digits text : List Char}
    {unit point : Int}
    (signed : SignPart sign unit)
    (numeral : Numeral 10 digits value)
    (some : digits ≠ [])
    (layout : Layout digits point text) :
    DecimalLiteral (sign ++ text) (unit * (value * 10 ^ (point - digits.length))) := by
  have nonzero : (10 : ℚ) ≠ 0 := by norm_num
  -- Of a literal it is enough to know the parts and the product.
  have whole {mantissa exponent : List Char} {number : ℚ} {power : Int}
      (parts : mantissa ++ exponent = text)
      (part : MantissaPart mantissa number)
      (scaled : ExponentPart exponent power)
      (product : number * 10 ^ power = value * 10 ^ (point - digits.length)) :
      DecimalLiteral (sign ++ text) (unit * (value * 10 ^ (point - digits.length))) := by
    rw [← product, ← parts]
    exact .intro signed part scaled
  cases layout with
  | whole zeros most =>
      have padded := numeral.append (numeral_zeros zeros)
      rw [List.length_replicate, Nat.add_zero] at padded
      refine whole (List.append_nil _) (.whole padded (by simp [some])) .absent ?_
      rw [add_sub_cancel_left, zpow_zero, mul_one, zpow_natCast]
      push_cast
      rfl
  | @pointed before behind parts first rest most =>
      subst parts
      obtain ⟨front, back, left, right, rfl⟩ := numeral.of_append
      refine whole (List.append_nil _) (.pointed left first right) .absent ?_
      rw [List.length_append, zpow_zero, mul_one, show
        (before.length : Int) - (before.length + behind.length : Nat) = -(behind.length : Int) by
          push_cast; ring, zpow_neg, zpow_natCast]
      push_cast
      field_simp
  | leading zeros few =>
      have fraction := (numeral_zeros zeros).append numeral
      rw [Nat.zero_mul, Nat.zero_add] at fraction
      have zero : Numeral 10 ['0'] 0 := numeral_zeros 1
      refine whole (List.append_nil _) (.pointed zero (by simp) fraction) .absent ?_
      rw [List.length_append, List.length_replicate, zpow_zero, mul_one, Nat.cast_zero, zero_add,
        show -(zeros : Int) - digits.length = -((zeros + digits.length : Nat) : Int) by
          push_cast; ring, zpow_neg, zpow_natCast]
      exact div_eq_mul_inv _ _
  | @scaled digit point exponent single far power =>
      subst single
      exact whole rfl (.whole numeral (by simp)) power.part rfl
  | @pointedScaled digit others exponent point parts rest far power =>
      subst parts
      have split : Numeral 10 ([digit] ++ others) value := numeral
      obtain ⟨front, back, left, right, rfl⟩ := split.of_append
      refine whole (by simp) (.pointed left (by simp) right) power.part ?_
      rw [List.length_cons, show point - ((others.length + 1 : Nat) : Int) =
        point - 1 - (others.length : Nat) by push_cast; ring,
        zpow_sub₀ nonzero _ (others.length : Int), zpow_natCast]
      push_cast
      field_simp

/-! ## Reading texts -/

theorem Numeral.not_blank (numeral : Numeral 10 text value) :
    ∀ c ∈ text, Text.isBlank c = false := by
  intro c member
  have table : ∀ digit < 10, Text.isBlank digit.digitChar = false := by decide
  obtain ⟨small, same⟩ := digitChar_of_isDigit ((numeral_ten_iff.1 numeral).1 c member)
  rw [← same]
  exact table _ small

theorem SignPart.not_blank {unit : Int} (signed : SignPart text unit) :
    ∀ c ∈ text, Text.isBlank c = false := by
  cases signed with
  | absent => simp
  | plus => exact List.forall_mem_singleton.2 (by decide)
  | minus => exact List.forall_mem_singleton.2 (by decide)

/-- A decimal literal has no blank in it. -/
theorem DecimalLiteral.not_blank {value : ℚ} (literal : DecimalLiteral text value) :
    ∀ c ∈ text, Text.isBlank c = false := by
  have point : Text.isBlank '.' = false := by decide
  have mark : Text.isBlank 'e' = false ∧ Text.isBlank 'E' = false := by decide
  cases literal with
  | intro signed digits scaled =>
      refine List.forall_mem_append.2 ⟨signed.not_blank, List.forall_mem_append.2 ⟨?_, ?_⟩⟩
      · cases digits with
        | whole numeral some => exact numeral.not_blank
        | pointed numeral some behind =>
            exact List.forall_mem_append.2 ⟨numeral.not_blank,
              List.forall_mem_cons.2 ⟨point, behind.not_blank⟩⟩
        | fraction behind some => exact List.forall_mem_cons.2 ⟨point, behind.not_blank⟩
      · cases scaled with
        | absent => simp
        | present marked signed numeral some =>
            refine List.forall_mem_cons.2 ⟨?_, List.forall_mem_append.2
              ⟨signed.not_blank, numeral.not_blank⟩⟩
            rcases marked with rfl | rfl
            · exact mark.1
            · exact mark.2

/-- A decimal literal whose number a finite double attracts is read as that double. -/
theorem ofText_of_literal
    {value : ℚ}
    (finite : number.isFinite = true)
    (positive : 0 < (magnitude number).significand)
    (near : (magnitude number).Attracts value)
    (literal : DecimalLiteral text ((if isNegative number then -1 else 1) * value)) :
    ofText (String.ofList text) = number := by
  have blank := literal.not_blank
  have trims : Trims text text := by
    refine ⟨⟨[], [], (List.append_nil text).symm, by simp⟩, fun c head => ?_, fun c last => ?_⟩
    · exact blank c (List.mem_of_head? head)
    · exact blank c (List.mem_of_getLast? last)
  unfold ofText
  rw [String.toList_ofList, ← trims.eq_trimBlank, literal?_of_decimal literal]
  obtain ⟨low, -⟩ := near.bounds (isDouble_magnitude finite) positive
  have some : 0 < value := (zpow_pos (by norm_num) _).trans low
  obtain ⟨decimal, read⟩ := signedDecimal?_of_literal literal
  have nonneg : 0 <= decimal.value :=
    mul_nonneg (Nat.cast_nonneg _) (zpow_nonneg (by norm_num) _)
  cases negative : isNegative number with
  | true =>
      rw [negative, if_pos rfl, neg_one_mul] at read
      rcases read with ⟨-, opposite⟩ | ⟨read, same⟩
      · linarith
      · have same : decimal.value = value := by linarith
        have back := Decimal.toFloat_of_attracts finite positive (same ▸ near)
        rw [negative, if_pos rfl] at back
        rw [read]
        exact back
  | false =>
      rw [negative, if_neg Bool.false_ne_true, one_mul] at read
      rcases read with ⟨read, same⟩ | ⟨-, opposite⟩
      · have back := Decimal.toFloat_of_attracts finite positive (same ▸ near)
        rw [negative, if_neg Bool.false_ne_true] at back
        rw [read]
        exact back
      · linarith

/-! ## The texts of numbers -/

theorem isNaN_of_isFinite (finite : number.isFinite = true) :
    number.isNaN = false ∧ number.isInf = false := by
  have unpacked : number.toModel.unpack.isFinite = true := finite
  show number.toModel.unpack.isNaN = false ∧ number.toModel.unpack.isInf = false
  cases fields : number.toModel.unpack with
  | notANumber => rw [fields] at unpacked; cases unpacked
  | infinity sign => rw [fields] at unpacked; cases unpacked
  | zero sign => exact ⟨rfl, rfl⟩
  | finite sign mantissa exponent some => exact ⟨rfl, rfl⟩

theorem toText_of_zero (zero : (number == 0) = true) : toText number = "0" := by
  have ordinary : number.isNaN = false := by
    rw [Float.isNaN_eq_decide_eq_nan, decide_eq_false]
    rintro rfl
    rw [Float.nan_beq_eq_false] at zero
    cases zero
  unfold toText
  rw [ordinary, zero]
  rfl

theorem toText_of_nonzero (finite : number.isFinite = true) (nonzero : (number == 0) = false) :
    toText number = signed number Decimal.layout := by
  obtain ⟨ordinary, bounded⟩ := isNaN_of_isFinite finite
  unfold toText
  rw [ordinary, nonzero, bounded]
  rfl

/-- The text of a finite number that is not zero is a literal of its shortest decimal. -/
theorem literal_of_nonzero (finite : number.isFinite = true) (nonzero : (number == 0) = false) :
    ∃ body, Layout (digitChars (shortest number).digits) (shortest number).point body ∧
      toText number = String.ofList ((if isNegative number then ['-'] else []) ++ body) ∧
      DecimalLiteral ((if isNegative number then ['-'] else []) ++ body)
        ((if isNegative number then -1 else 1) * (shortest number).value) := by
  have layout := layout_layout (shortest number)
  refine ⟨(shortest number).layout, layout, ?_, ?_⟩
  · rw [toText_of_nonzero finite nonzero]
    unfold signed
    cases isNegative number <;> rfl
  · have point : (shortest number).point - (digitChars (shortest number).digits).length =
        (shortest number).exponent :=
      add_sub_cancel_left _ _
    have literal {sign : List Char} {unit : Int} (signed : SignPart sign unit) :
        DecimalLiteral (sign ++ (shortest number).layout) (unit * (shortest number).value) := by
      have := layout.literal signed (numeral_digitChars _) (digitChars_ne_nil _)
      rwa [point] at this
    cases isNegative number with
    | true => exact_mod_cast literal .minus
    | false => exact_mod_cast literal .absent

theorem ofText_toText (finite : number.isFinite = true) (nonzero : (number == 0) = false) :
    ofText (toText number) = number := by
  have positive := significand_pos finite nonzero
  obtain ⟨body, -, text, literal⟩ := literal_of_nonzero finite nonzero
  rw [text]
  exact ofText_of_literal finite positive (attracts_shortest positive) literal

theorem ofText_toText_beq (finite : number.isFinite = true) :
    (ofText (toText number) == number) = true := by
  cases zero : number == 0 with
  | true =>
      have read : (ofText "0" == 0) = true := by decide
      rw [toText_of_zero zero]
      exact BEq.trans read (BEq.symm zero)
  | false =>
      rw [ofText_toText finite zero, Float.beq_self_iff]
      rintro rfl
      cases finite

/-- The text of a finite number is its shortest digits, laid out by where their point stands; it
stands for the decimal with these digits and is read as the number, and just the equal numbers have
the same text. -/
theorem texts_read_back
    {number : Float}
    (finite : number.isFinite = true) :
    ((number == 0) = true -> toText number = "0" ∧ DecimalLiteral "0".toList 0) ∧
      ((number == 0) = false ->
        (magnitude number).Attracts (shortest number).value ∧
        (∀ decimal : Decimal, (magnitude number).Attracts decimal.value ->
          decimalLength (shortest number).digits <= decimalLength decimal.digits) ∧
        (∃ body, Layout (digitChars (shortest number).digits) (shortest number).point body ∧
          toText number = String.ofList ((if isNegative number then ['-'] else []) ++ body) ∧
          DecimalLiteral ((if isNegative number then ['-'] else []) ++ body)
            ((if isNegative number then -1 else 1) * (shortest number).value)) ∧
        ofText (toText number) = number) ∧
      (ofText (toText number) == number) = true ∧
      ∀ other : Float, other.isFinite = true ->
        (toText number = toText other ↔ (number == other) = true) := by
  refine ⟨fun zero => ⟨toText_of_zero zero, ?_⟩, fun nonzero => ?_, ofText_toText_beq finite,
    fun other also => ⟨fun same => ?_, fun equal => ?_⟩⟩
  · have zero := DecimalLiteral.intro .absent (.whole (numeral_zeros 1) (by simp)) .absent
    simpa using zero
  · have positive := significand_pos finite nonzero
    exact ⟨attracts_shortest positive, fun decimal near => decimalLength_shortest_le positive near,
      literal_of_nonzero finite nonzero, ofText_toText finite nonzero⟩
  · have back := ofText_toText_beq also
    rw [← same] at back
    exact BEq.trans (BEq.symm (ofText_toText_beq finite)) back
  · obtain ⟨-, -, rfl | ⟨rfl, rfl⟩ | ⟨rfl, rfl⟩⟩ := Float.beq_iff_ne_nan_and_eq.1 equal
    · rfl
    · decide
    · decide

/-- A small negative number has an exponent in its text. -/
theorem texts_read_back_scaled :
    (Float.ofBits 0xbe8421f5f40d8376).isFinite = true ∧
      toText (Float.ofBits 0xbe8421f5f40d8376) = "-1.5e-7" ∧
      (ofText (toText (Float.ofBits 0xbe8421f5f40d8376)) ==
        Float.ofBits 0xbe8421f5f40d8376) = true :=
  ⟨by decide, by decide +kernel, (texts_read_back (by decide)).2.2.1⟩

end Number
end ScriptVM
