import ScriptVM.Proofs.Numerals
import ScriptVM.Proofs.ShortestDecimals

/-!
# The grammar of numeric literals

The literals that are read are stated as a grammar, with the number that each stands for. A text is
a number exactly if what is left of it without the blanks around it is empty, an infinity, a literal
in radix sixteen, eight or two, or a decimal literal.
-/

namespace ScriptVM
namespace Number

variable {text : List Char} {value : ℚ} {mark : Char} {radix : Nat}

/-! ## The grammar -/

/-- An optional sign and the unit that it stands for. -/
inductive SignPart : List Char -> Int -> Prop
  | absent : SignPart [] 1
  | plus : SignPart ['+'] 1
  | minus : SignPart ['-'] (-1)

/-- Decimal digits, with an optional point that has a digit on at least one side. -/
inductive MantissaPart : List Char -> ℚ -> Prop
  | whole
    {digits : List Char}
    {value : Nat}
    (numeral : Numeral 10 digits value)
    (some : digits ≠ []) :
    MantissaPart digits value
  | pointed
    {digits fraction : List Char}
    {value part : Nat}
    (numeral : Numeral 10 digits value)
    (some : digits ≠ [])
    (behind : Numeral 10 fraction part) :
    MantissaPart (digits ++ '.' :: fraction) (value + part / 10 ^ fraction.length)
  | fraction
    {fraction : List Char}
    {part : Nat}
    (behind : Numeral 10 fraction part)
    (some : fraction ≠ []) :
    MantissaPart ('.' :: fraction) (part / 10 ^ fraction.length)

/-- An optional power of ten: a mark, an optional sign and digits. -/
inductive ExponentPart : List Char -> Int -> Prop
  | absent : ExponentPart [] 0
  | present
    {mark : Char}
    {sign digits : List Char}
    {unit : Int}
    {value : Nat}
    (marked : mark = 'e' ∨ mark = 'E')
    (signed : SignPart sign unit)
    (numeral : Numeral 10 digits value)
    (some : digits ≠ []) :
    ExponentPart (mark :: (sign ++ digits)) (unit * value)

/-- A decimal literal and the number that it stands for. -/
inductive DecimalLiteral : List Char -> ℚ -> Prop
  | intro
    {sign mantissa exponent : List Char}
    {unit power : Int}
    {number : ℚ}
    (signed : SignPart sign unit)
    (digits : MantissaPart mantissa number)
    (scaled : ExponentPart exponent power) :
    DecimalLiteral (sign ++ (mantissa ++ exponent)) (unit * (number * 10 ^ power))

/-- The letters that announce a radix, of either case. -/
inductive RadixMark : Char -> Nat -> Prop
  | hexadecimal : RadixMark 'x' 16
  | upperHexadecimal : RadixMark 'X' 16
  | octal : RadixMark 'o' 8
  | upperOctal : RadixMark 'O' 8
  | binary : RadixMark 'b' 2
  | upperBinary : RadixMark 'B' 2

/-- An unsigned literal in another radix than ten, with at least one digit. -/
inductive RadixLiteral : List Char -> Nat -> Prop
  | intro
    {mark : Char}
    {radix value : Nat}
    {digits : List Char}
    (announced : RadixMark mark radix)
    (some : digits ≠ [])
    (numeral : Numeral radix digits value) :
    RadixLiteral ('0' :: mark :: digits) value

/-- The spellings of the infinities. -/
def infinities : List (List Char) :=
  ["Infinity".toList, "+Infinity".toList, "-Infinity".toList]

/-- Words for numbers that are no literals, in letters of whichever case. -/
def words : List (List Char) :=
  ["inf".toList, "infinity".toList, "nan".toList]

/-- What is left of a text without the blanks at its ends. -/
structure Trims (text trimmed : List Char) : Prop where
  around : ∃ before after, text = before ++ trimmed ++ after ∧
    ∀ c ∈ before ++ after, Text.isBlank c = true
  first : ∀ c, trimmed.head? = some c -> Text.isBlank c = false
  last : ∀ c, trimmed.getLast? = some c -> Text.isBlank c = false

/-! ## Trimming -/

theorem trims_trimBlank (text : List Char) : Trims text (Text.trimBlank text) := by
  unfold Text.trimBlank
  have front := List.takeWhile_append_dropWhile (p := Text.isBlank) (l := text)
  generalize rest : text.dropWhile Text.isBlank = behind at front
  have back := List.takeWhile_append_dropWhile (p := Text.isBlank) (l := behind.reverse)
  generalize left : behind.reverse.dropWhile Text.isBlank = middle at back
  have whole : behind = middle.reverse ++ (behind.reverse.takeWhile Text.isBlank).reverse := by
    rw [← List.reverse_append, back, List.reverse_reverse]
  refine ⟨⟨text.takeWhile Text.isBlank, (behind.reverse.takeWhile Text.isBlank).reverse,
    ?_, ?_⟩, ?_, ?_⟩
  · rw [List.append_assoc, ← whole, front]
  · intro c member
    rcases List.mem_append.1 member with before | after
    · exact List.mem_takeWhile_imp before
    · exact List.mem_takeWhile_imp (List.mem_reverse.1 after)
  · intro c head
    have starts : behind.head? = some c := by
      rw [whole, List.head?_append, head]
      rfl
    have := List.head?_dropWhile_not Text.isBlank text
    rw [rest, starts] at this
    exact this
  · intro c ends
    rw [List.getLast?_reverse] at ends
    have := List.head?_dropWhile_not Text.isBlank behind.reverse
    rw [left, ends] at this
    exact this

theorem dropWhile_append_eq
    {text rest : List Char}
    {accepted : Char -> Bool}
    (all : ∀ c ∈ text, accepted c = true)
    (stop : ∀ c, rest.head? = some c -> accepted c = false) :
    (text ++ rest).takeWhile accepted = text ∧ (text ++ rest).dropWhile accepted = rest := by
  rw [List.takeWhile_append_of_pos all, List.dropWhile_append_of_pos all]
  cases rest with
  | nil => exact ⟨List.append_nil text, rfl⟩
  | cons first others =>
      have refused := stop first rfl
      rw [List.takeWhile_cons_of_neg (by rw [refused]; decide),
        List.dropWhile_cons_of_neg (by rw [refused]; decide)]
      exact ⟨List.append_nil text, rfl⟩

/-- Trimming gives the only text that is left without the blanks. -/
theorem Trims.eq_trimBlank {text trimmed : List Char} (trims : Trims text trimmed) :
    trimmed = Text.trimBlank text := by
  obtain ⟨⟨before, after, rfl, blank⟩, first, last⟩ := trims
  have front : ∀ c ∈ before, Text.isBlank c = true := fun c member =>
    blank c (List.mem_append_left _ member)
  have behind : ∀ c ∈ after.reverse, Text.isBlank c = true := fun c member =>
    blank c (List.mem_append_right _ (List.mem_reverse.1 member))
  unfold Text.trimBlank
  cases trimmed with
  | nil =>
      have all : ∀ c ∈ before ++ [] ++ after, Text.isBlank c = true := by
        rwa [List.append_nil]
      rw [List.dropWhile_eq_nil_iff.2 all]
      rfl
  | cons start others =>
      have starts : ∀ c, (start :: others ++ after).head? = some c -> Text.isBlank c = false :=
        fun c head => first c head
      have reversed : (after.reverse ++ (start :: others).reverse).dropWhile Text.isBlank =
          (start :: others).reverse :=
        (dropWhile_append_eq behind fun c head => last c (List.head?_reverse ▸ head)).2
      rw [List.append_assoc, (dropWhile_append_eq front starts).2, List.reverse_append, reversed,
        List.reverse_reverse]

/-! ## Decimal literals -/

/-- What follows the digits of a numeral does not go on with a digit. -/
def Stops (rest : List Char) : Prop :=
  ∀ c, rest.head? = some c -> c.isDigit = false

theorem ExponentPart.stops {power : Int} (exponent : ExponentPart text power) :
    Stops text := by
  intro c head
  cases exponent with
  | absent => cases head
  | present marked _ _ _ =>
      obtain rfl := Option.some.inj head
      rcases marked with rfl | rfl <;> rfl

/-- A numeral starts with a digit, so with no sign. -/
theorem Numeral.unsigned {value : Nat} (numeral : Numeral 10 text value) (some : text ≠ []) :
    ∃ first rest, text = first :: rest ∧ first ≠ '-' ∧ first ≠ '+' := by
  cases text with
  | nil => exact absurd rfl some
  | cons first rest =>
      have digit := (numeral_ten_iff.1 numeral).1 first (.head _)
      refine ⟨first, rest, rfl, ?_, ?_⟩
      · rintro rfl
        cases digit
      · rintro rfl
        cases digit

theorem MantissaPart.unsigned (mantissa : MantissaPart text value) :
    ∃ first rest, text = first :: rest ∧ first ≠ '-' ∧ first ≠ '+' := by
  cases mantissa with
  | whole numeral some => exact numeral.unsigned some
  | pointed numeral some behind =>
      obtain ⟨first, rest, rfl, other⟩ := numeral.unsigned some
      exact ⟨first, _, rfl, other⟩
  | fraction behind some => exact ⟨_, _, rfl, by decide, by decide⟩

/-- Exactly the exponent parts are read, as the powers that they stand for. -/
theorem exponent?_eq_some_iff {power : Int} :
    exponent? text = some power ↔ ExponentPart text power := by
  constructor
  · intro read
    unfold exponent? at read
    split at read
    · cases read
      exact .absent
    · next mark rest =>
        split at read
        · next marked =>
            rw [Bool.or_eq_true, beq_iff_eq, beq_iff_eq] at marked
            split at read
            next negative digits parts =>
              obtain ⟨sign, signed, rfl⟩ : ∃ sign, SignPart sign (if negative then -1 else 1) ∧
                  rest = sign ++ digits := by
                split at parts
                · cases parts
                  exact ⟨_, .minus, rfl⟩
                · cases parts
                  exact ⟨_, .plus, rfl⟩
                · cases parts
                  exact ⟨_, .absent, rfl⟩
              split at read
              · cases read
              · next checked =>
                  simp only [Bool.or_eq_true, List.isEmpty_iff, Bool.not_eq_true',
                    List.all_eq_false, not_or, not_exists, not_and, not_not] at checked
                  have whole : power =
                      (if negative then -1 else 1) * (digitsValue digits : Int) := by
                    cases negative with
                    | true =>
                        rw [if_pos rfl] at read ⊢
                        rw [← Option.some.inj read, neg_one_mul]
                    | false =>
                        rw [if_neg Bool.false_ne_true] at read ⊢
                        rw [← Option.some.inj read, one_mul]
                  rw [whole]
                  exact .present marked signed (numeral_ten_iff.2 ⟨checked.2, rfl⟩) checked.1
        · cases read
  · intro exponent
    cases exponent with
    | absent => rfl
    | @present mark sign digits unit value marked signed numeral some =>
        obtain ⟨all, rfl⟩ := numeral_ten_iff.1 numeral
        obtain ⟨first, rest, rfl, minus, plus⟩ := numeral.unsigned some
        unfold exponent?
        dsimp only
        rw [if_pos (by rw [Bool.or_eq_true, beq_iff_eq, beq_iff_eq]; exact marked)]
        cases signed with
        | absent => simpa [minus, plus] using all
        | plus => simpa using all
        | minus => simpa using all

/-- A mantissa and an exponent part are read as the number that they stand for. -/
theorem unsignedDecimal?_of_parts
    {mantissa exponent : List Char}
    {number : ℚ}
    {power : Int}
    (digits : MantissaPart mantissa number)
    (scaled : ExponentPart exponent power) :
    ∃ decimal, unsignedDecimal? (mantissa ++ exponent) = some decimal ∧
      decimal.value = number * 10 ^ power := by
  have read := exponent?_eq_some_iff.2 scaled
  have stops := scaled.stops
  have nonzero : (10 : ℚ) ≠ 0 := by norm_num
  have point : ∀ rest, Stops ('.' :: rest) := fun rest c head => by
    obtain rfl := Option.some.inj head
    rfl
  cases digits with
  | whole numeral some =>
      obtain ⟨all, rfl⟩ := numeral_ten_iff.1 numeral
      obtain ⟨first, last⟩ := dropWhile_append_eq all stops
      refine ⟨⟨digitsValue mantissa, power⟩, ?_, rfl⟩
      unfold unsignedDecimal?
      rw [first, last]
      dsimp only
      split
      · cases scaled with
        | present marked _ _ _ => rcases marked with marked | marked <;> cases marked
      · simp [read, some]
  | @pointed digits fraction value part numeral some behind =>
      obtain ⟨all, rfl⟩ := numeral_ten_iff.1 numeral
      obtain ⟨also, rfl⟩ := numeral_ten_iff.1 behind
      obtain ⟨first, last⟩ := dropWhile_append_eq all (point (fraction ++ exponent))
      obtain ⟨second, final⟩ := dropWhile_append_eq also stops
      refine ⟨⟨digitsValue (digits ++ fraction), power - fraction.length⟩, ?_, ?_⟩
      · unfold unsignedDecimal?
        rw [List.append_assoc, List.cons_append, first, last]
        simp [read, some, second, final]
      · rw [Decimal.value, digitsValue_append, zpow_sub₀ nonzero, zpow_natCast]
        push_cast
        field_simp
  | @fraction fraction part behind some =>
      obtain ⟨also, rfl⟩ := numeral_ten_iff.1 behind
      obtain ⟨second, final⟩ := dropWhile_append_eq also stops
      refine ⟨⟨digitsValue fraction, power - fraction.length⟩, ?_, ?_⟩
      · unfold unsignedDecimal?
        simp [read, some, second, final]
      · rw [Decimal.value, zpow_sub₀ nonzero, zpow_natCast]
        ring

/-- Nothing else is read as an unsigned decimal literal. -/
theorem parts_of_unsignedDecimal?
    {decimal : Decimal}
    (read : unsignedDecimal? text = some decimal) :
    ∃ mantissa exponent number power, text = mantissa ++ exponent ∧
      MantissaPart mantissa number ∧ ExponentPart exponent power := by
  have taken {text : List Char} :
      Numeral 10 (text.takeWhile Char.isDigit) (digitsValue (text.takeWhile Char.isDigit)) :=
    numeral_ten_iff.2 ⟨fun c member => List.mem_takeWhile_imp member, rfl⟩
  have whole := List.takeWhile_append_dropWhile (p := Char.isDigit) (l := text)
  unfold unsignedDecimal? at read
  dsimp only at read
  split at read
  · next fraction rest parts =>
      dsimp only at read
      split at read
      · cases read
      · next checked =>
          obtain ⟨power, exponent, -⟩ := Option.bind_eq_some_iff.1 read
          have scaled := exponent?_eq_some_iff.1 exponent
          have behind := List.takeWhile_append_dropWhile (p := Char.isDigit) (l := rest)
          rw [parts] at whole
          rw [Bool.and_eq_true, List.isEmpty_iff, List.isEmpty_iff] at checked
          by_cases empty : text.takeWhile Char.isDigit = []
          · refine ⟨'.' :: rest.takeWhile Char.isDigit, rest.dropWhile Char.isDigit, _, power, ?_,
              .fraction taken fun none => checked ⟨empty, none⟩, scaled⟩
            rw [List.cons_append, behind, ← whole, empty, List.nil_append]
          · refine ⟨text.takeWhile Char.isDigit ++ '.' :: rest.takeWhile Char.isDigit,
              rest.dropWhile Char.isDigit, _, power, ?_, .pointed taken empty taken, scaled⟩
            rw [List.append_assoc, List.cons_append, behind, whole]
  · dsimp only at read
    split at read
    · cases read
    · next checked =>
        obtain ⟨power, exponent, -⟩ := Option.bind_eq_some_iff.1 read
        rw [Bool.and_eq_true, List.isEmpty_iff, List.isEmpty_iff] at checked
        exact ⟨text.takeWhile Char.isDigit, text.dropWhile Char.isDigit, _, power, whole.symm,
          .whole taken fun none => checked ⟨none, rfl⟩, exponent?_eq_some_iff.1 exponent⟩

theorem signedDecimal?_of_literal (literal : DecimalLiteral text value) :
    ∃ decimal : Decimal,
      signedDecimal? text = some decimal.toFloat ∧ decimal.value = value ∨
        signedDecimal? text = some (-decimal.toFloat) ∧ decimal.value = -value := by
  cases literal with
  | @intro sign mantissa exponent unit power number signed digits scaled =>
      obtain ⟨decimal, read, value⟩ := unsignedDecimal?_of_parts digits scaled
      refine ⟨decimal, ?_⟩
      cases signed with
      | absent =>
          left
          obtain ⟨first, rest, rfl, minus, plus⟩ := digits.unsigned
          rw [List.nil_append]
          rw [List.cons_append] at read ⊢
          unfold signedDecimal?
          simp [minus, plus, read, value]
      | plus =>
          left
          unfold signedDecimal?
          simp [read, value]
      | minus =>
          right
          unfold signedDecimal?
          simp [read, value]

theorem literal_of_signedDecimal? {number : Float} (read : signedDecimal? text = some number) :
    ∃ value, DecimalLiteral text value := by
  have found {sign rest : List Char} {unit : Int} {apply : Decimal -> Float}
      (signed : SignPart sign unit)
      (read : (unsignedDecimal? rest).map apply = some number) :
      ∃ value, DecimalLiteral (sign ++ rest) value := by
    obtain ⟨decimal, parts, -⟩ := Option.map_eq_some_iff.1 read
    obtain ⟨mantissa, exponent, value, power, rfl, digits, scaled⟩ :=
      parts_of_unsignedDecimal? parts
    exact ⟨_, .intro signed digits scaled⟩
  unfold signedDecimal? at read
  split at read
  · exact found .minus read
  · exact found .plus read
  · exact found .absent read

/-! ## Literals -/

theorem radixOfMark?_eq_some_iff {radix : Nat} :
    radixOfMark? mark = some radix ↔ RadixMark mark radix := by
  constructor
  · intro read
    unfold radixOfMark? at read
    simp only [Bool.or_eq_true, beq_iff_eq] at read
    split_ifs at read with hexadecimal octal binary
    · cases read
      rcases hexadecimal with rfl | rfl
      · exact .hexadecimal
      · exact .upperHexadecimal
    · cases read
      rcases octal with rfl | rfl
      · exact .octal
      · exact .upperOctal
    · cases read
      rcases binary with rfl | rfl
      · exact .binary
      · exact .upperBinary
  · intro announced
    cases announced <;> rfl

theorem RadixMark.le (announced : RadixMark mark radix) : radix <= 16 := by
  cases announced <;> decide

/-- A radix is no part of a decimal literal. -/
theorem signedDecimal?_of_radixMark (announced : RadixMark mark radix) (body : List Char) :
    signedDecimal? ('0' :: mark :: body) = none := by
  cases announced <;> rfl

/-- A literal with an announced radix is read in that radix. -/
theorem literal?_of_radixMark (announced : RadixMark mark radix) (body : List Char) :
    literal? ('0' :: mark :: body) =
      if body = [] then none else (radixValue? radix body).map (ofFraction · 1) := by
  cases announced <;> cases body <;> rfl

theorem literal?_of_decimal (literal : DecimalLiteral text value) :
    literal? text = signedDecimal? text := by
  obtain ⟨number, read⟩ : ∃ number, signedDecimal? text = some number := by
    obtain ⟨decimal, ⟨read, -⟩ | ⟨read, -⟩⟩ := signedDecimal?_of_literal literal
    · exact ⟨_, read⟩
    · exact ⟨_, read⟩
  have other : ∀ word : List Char, signedDecimal? word = none -> (text == word) = false := by
    intro word unread
    refine beq_eq_false_iff_ne.2 ?_
    rintro rfl
    rw [unread] at read
    cases read
  unfold literal?
  rw [other [] rfl, other _ (by decide), other _ (by decide), other _ (by decide)]
  rw [Bool.or_self, if_neg Bool.false_ne_true, if_neg Bool.false_ne_true,
    if_neg Bool.false_ne_true]
  split
  · next mark body =>
      split
      · next radix announced =>
          have := signedDecimal?_of_radixMark (radixOfMark?_eq_some_iff.1 announced) body
          rw [this] at read
          cases read
      · rfl
  · rfl

/-- Exactly the literals of the grammar are read. -/
theorem isSome_literal?_iff {text : List Char} :
    (literal? text).isSome = true ↔
      text = [] ∨ text ∈ infinities ∨ (∃ value, RadixLiteral text value) ∨
        ∃ value, DecimalLiteral text value := by
  constructor
  · intro read
    have decimal (read : (signedDecimal? text).isSome = true) :
        ∃ value, DecimalLiteral text value := by
      obtain ⟨number, found⟩ := Option.isSome_iff_exists.1 read
      exact literal_of_signedDecimal? found
    unfold literal? at read
    simp only [Bool.or_eq_true, beq_iff_eq] at read
    split_ifs at read with empty infinite negative
    · exact .inl empty
    · refine .inr (.inl ?_)
      rcases infinite with rfl | rfl <;> decide
    · refine .inr (.inl ?_)
      rw [negative]
      decide
    · refine .inr (.inr ?_)
      split at read
      · next mark body =>
          split at read
          · next radix announced =>
              rw [radixOfMark?_eq_some_iff] at announced
              split at read
              · cases read
              · next some =>
                  rw [Option.isSome_map, isSome_radixValue?_iff announced.le] at read
                  obtain ⟨value, numeral⟩ := read
                  rw [List.isEmpty_iff] at some
                  exact .inl ⟨value, .intro announced some numeral⟩
          · exact .inr (decimal read)
      · exact .inr (decimal read)
  · rintro (rfl | infinite | ⟨value, literal⟩ | ⟨value, literal⟩)
    · rfl
    · fin_cases infinite <;> rfl
    · cases literal with
      | intro announced some numeral =>
          rw [literal?_of_radixMark announced, if_neg some, Option.isSome_map]
          exact (isSome_radixValue?_iff announced.le).2 ⟨value, numeral⟩
    · rw [literal?_of_decimal literal]
      obtain ⟨decimal, ⟨read, -⟩ | ⟨read, -⟩⟩ := signedDecimal?_of_literal literal
      · rw [read]
        rfl
      · rw [read]
        rfl

/-- No literal is read as not-a-number. -/
theorem isNaN_of_literal? {number : Float} (read : literal? text = some number) :
    number.isNaN = false := by
  have decimal (read : signedDecimal? text = some number) : number.isNaN = false := by
    unfold signedDecimal? at read
    split at read
    all_goals
      obtain ⟨decimal, -, rfl⟩ := Option.map_eq_some_iff.1 read
    · rw [isNaN_neg, Decimal.isNaN_toFloat]
    · exact decimal.isNaN_toFloat
    · exact decimal.isNaN_toFloat
  unfold literal? at read
  split at read
  · cases read
    decide
  · split at read
    · cases read
      decide
    · split at read
      · cases read
        decide
      · split at read
        · split at read
          · split at read
            · cases read
            · obtain ⟨value, -, rfl⟩ := Option.map_eq_some_iff.1 read
              exact isNaN_ofFraction value 1
          · exact decimal read
        · exact decimal read

theorem isNaN_ofText (text : String) :
    (ofText text).isNaN = (literal? (Text.trimBlank text.toList)).isNone := by
  unfold ofText
  cases read : literal? (Text.trimBlank text.toList) with
  | none => decide
  | some number => exact isNaN_of_literal? read

/-- A whole number that fits into a significand is rounded to itself. -/
theorem ofFraction_one {number : Nat} (small : number < 2 ^ 53) :
    ofFraction number 1 = Float.ofNat number := by
  rcases Nat.eq_zero_or_pos number with rfl | positive
  · decide
  · obtain ⟨shift, whole, -, unpacked⟩ := unpack_ofNat positive small
    obtain ⟨fields, sign, finite⟩ := magnitude_of_unpack unpacked
    have value : (magnitude (Float.ofNat number)).value = ((number : Nat) : ℚ) / (1 : Nat) := by
      rw [fields, Magnitude.value, zero_sub, zpow_neg, zpow_natCast]
      push_cast
      field_simp
    have near := (magnitude (Float.ofNat number)).attracts_value
    rw [value] at near
    rw [ofFraction_of_attracts (isDouble_magnitude finite) (by rw [fields]; exact whole)
      Nat.one_pos near]
    exact ofBits_fields (sign.trans rfl)

/-- A literal in another radix than ten is read as its number if that fits into a significand. -/
theorem literal?_of_radixLiteral
    {value : Nat}
    (literal : RadixLiteral text value)
    (small : value < 2 ^ 53) :
    literal? text = some (Float.ofNat value) := by
  cases literal with
  | intro announced some numeral =>
      rw [literal?_of_radixMark announced, if_neg some,
        radixValue?_of_numeral announced.le numeral small, Option.map_some, ofFraction_one small]

/-- No decimal literal and no literal in another radix is a word. -/
theorem not_literal_of_word
    {sign word : List Char}
    {unit : Int}
    (signed : SignPart sign unit)
    (spelled : word.map Char.toLower ∈ words) :
    (¬ ∃ value, RadixLiteral (sign ++ word) value) ∧
      ¬ ∃ value, DecimalLiteral (sign ++ word) value := by
  obtain ⟨first, rest, rfl, letter⟩ : ∃ first rest, word = first :: rest ∧
      (first.toLower = 'i' ∨ first.toLower = 'n') := by
    have heads : ∀ word ∈ words, word.head? = some 'i' ∨ word.head? = some 'n' := by
      decide
    cases word with
    | nil => exact absurd spelled (by decide)
    | cons first rest =>
        exact ⟨first, rest, rfl, (heads _ spelled).imp Option.some.inj Option.some.inj⟩
  have digit : first.isDigit = false := by
    have table : ∀ digit < 10, ¬ (digit.digitChar.toLower = 'i' ∨ digit.digitChar.toLower = 'n') := by
      decide
    rw [Bool.eq_false_iff]
    intro digit
    obtain ⟨small, same⟩ := digitChar_of_isDigit digit
    rw [← same] at letter
    exact table _ small letter
  have other : ∀ c : Char, c.toLower = c -> c ≠ 'i' -> c ≠ 'n' -> first ≠ c := by
    rintro c same vowel consonant rfl
    rw [same] at letter
    exact letter.elim vowel consonant
  have unread : unsignedDecimal? (first :: rest) = none := by
    have point := other '.' rfl (by decide) (by decide)
    unfold unsignedDecimal?
    rw [List.takeWhile_cons_of_neg (by rw [digit]; decide),
      List.dropWhile_cons_of_neg (by rw [digit]; decide)]
    simp [point]
  constructor
  · rintro ⟨value, literal⟩
    generalize whole : sign ++ first :: rest = text at literal
    cases literal with
    | intro announced some numeral =>
        cases signed with
        | absent => exact other '0' rfl (by decide) (by decide) (List.cons.inj whole).1
        | plus => exact absurd (List.cons.inj whole).1 (by decide)
        | minus => exact absurd (List.cons.inj whole).1 (by decide)
  · rintro ⟨value, literal⟩
    have none : signedDecimal? (sign ++ first :: rest) = none := by
      have minus := other '-' rfl (by decide) (by decide)
      have plus := other '+' rfl (by decide) (by decide)
      unfold signedDecimal?
      cases signed with
      | absent => simp [minus, plus, unread]
      | plus => simp [unread]
      | minus => simp [unread]
    obtain ⟨decimal, ⟨read, -⟩ | ⟨read, -⟩⟩ := signedDecimal?_of_literal literal
    · rw [none] at read
      cases read
    · rw [none] at read
      cases read

/-- A text is not-a-number exactly if it is neither blank nor, between blanks, an infinity, a radix
literal or a decimal literal. -/
theorem numbers_are_the_literals (text : String) :
    ∃ trimmed : List Char, (∀ other, Trims text.toList other ↔ other = trimmed) ∧
      ((ofText text).isNaN = true ↔
        trimmed ≠ [] ∧ trimmed ∉ infinities ∧ (¬ ∃ value, RadixLiteral trimmed value) ∧
          ¬ ∃ value, DecimalLiteral trimmed value) ∧
      (trimmed = [] -> ofText text = 0) ∧
      (∀ value, RadixLiteral trimmed value -> value < 2 ^ 53 -> ofText text = Float.ofNat value) ∧
      (∀ sign unit word, SignPart sign unit -> word.map Char.toLower ∈ words ->
        trimmed = sign ++ word -> trimmed ∉ infinities -> (ofText text).isNaN = true) := by
  have read : (ofText text).isNaN = true ↔
      ¬ (literal? (Text.trimBlank text.toList)).isSome = true := by
    rw [isNaN_ofText, Option.isNone_iff_eq_none, Option.not_isSome_iff_eq_none]
  rw [isSome_literal?_iff, not_or, not_or, not_or] at read
  refine ⟨Text.trimBlank text.toList, fun other => ⟨Trims.eq_trimBlank, ?_⟩, read, ?_, ?_, ?_⟩
  · rintro rfl
    exact trims_trimBlank text.toList
  · intro empty
    unfold ofText
    rw [empty]
    rfl
  · intro value literal small
    unfold ofText
    rw [literal?_of_radixLiteral literal small]
    rfl
  · intro sign unit word signed spelled same finite
    obtain ⟨radix, decimal⟩ := not_literal_of_word signed spelled
    rw [← same] at radix decimal
    refine read.2 ⟨?_, finite, radix, decimal⟩
    rintro empty
    rw [empty, eq_comm, List.append_eq_nil_iff] at same
    rw [same.2] at spelled
    exact absurd spelled (by decide)

end Number
end ScriptVM
