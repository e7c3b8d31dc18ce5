import Mathlib
import ScriptVM.Number.Parse
import ScriptVM.Number.Text

/-!
# Numerals

A numeral is a list of digits in a radix, most significant first. The digits of a number in radix
ten are a numeral of it, and a numeral without a leading zero is the digits of its number. A numeral
is read back exactly as long as its number fits into a significand.
-/

namespace ScriptVM
namespace Number

variable {radix digit : Nat} {c : Char}

/-- The character of a digit in a radix up to sixteen; a letter may have either case. -/
def IsDigit (radix : Nat) (c : Char) (digit : Nat) : Prop :=
  digit < radix ∧ (c = digit.digitChar ∨ c = digit.digitChar.toUpper)

/-- Digits in a radix and the number that they stand for. -/
inductive Numeral (radix : Nat) : List Char -> Nat -> Prop
  | nil : Numeral radix [] 0
  | snoc
    {text : List Char}
    {value : Nat}
    {c : Char}
    {digit : Nat}
    (front : Numeral radix text value)
    (last : IsDigit radix c digit) :
    Numeral radix (text ++ [c]) (value * radix + digit)

/-! ## Digits -/

theorem digitValue?_of_isDigit
    (small : radix <= 16)
    (valid : IsDigit radix c digit) :
    digitValue? radix c = some digit := by
  obtain ⟨less, same⟩ := valid
  have table : ∀ digit < 16, digitValue? 16 digit.digitChar = some digit ∧
      digitValue? 16 digit.digitChar.toUpper = some digit := by
    decide
  have value : digitValue? 16 c = some digit := by
    rcases same with rfl | rfl
    · exact (table digit (by omega)).1
    · exact (table digit (by omega)).2
  unfold digitValue? at value ⊢
  dsimp only at value ⊢
  rw [Option.filter_eq_some_iff] at value ⊢
  exact ⟨value.1, decide_eq_true less⟩

theorem isDigit_of_digitValue?
    (small : radix <= 16)
    (read : digitValue? radix c = some digit) :
    IsDigit radix c digit := by
  unfold digitValue? at read
  dsimp only at read
  rw [Option.filter_eq_some_iff, decide_eq_true_eq] at read
  obtain ⟨value, less⟩ := read
  have bound : digit < 16 := by omega
  refine ⟨less, ?_⟩
  rw [← Char.toNat_inj, ← Char.toNat_inj]
  simp only [Bool.and_eq_true, decide_eq_true_eq] at value
  split at value
  · obtain rfl := Option.some.inj value
    left
    rw [Nat.toNat_digitChar_of_lt_ten (by omega)]
    omega
  · split at value
    · obtain rfl := Option.some.inj value
      left
      have letter : ∀ digit < 16, 10 <= digit -> digit.digitChar.toNat = digit + 87 := by decide
      rw [letter _ bound (by omega)]
      omega
    · split at value
      · obtain rfl := Option.some.inj value
        right
        have letter : ∀ digit < 16, 10 <= digit -> digit.digitChar.toUpper.toNat = digit + 55 := by
          decide
        rw [letter _ bound (by omega)]
        omega
      · cases value

theorem digitChar_of_isDigit {c : Char} (digit : c.isDigit = true) :
    c.toNat - 48 < 10 ∧ Nat.digitChar (c.toNat - 48) = c := by
  have bounds : 48 <= c.toNat ∧ c.toNat <= 57 := by
    simp only [Char.isDigit, ge_iff_le, Bool.and_eq_true, decide_eq_true_eq,
      UInt32.le_iff_toNat_le] at digit
    exact digit
  have small : c.toNat - 48 < 10 := by omega
  refine ⟨small, Char.toNat_inj.1 ?_⟩
  rw [Nat.toNat_digitChar_of_lt_ten small]
  omega

theorem isDigit_ten_iff {c : Char} {digit : Nat} :
    IsDigit 10 c digit ↔ c.isDigit = true ∧ c.toNat - 48 = digit := by
  constructor
  · rintro ⟨small, same⟩
    rcases same with rfl | rfl
    · decide +revert
    · decide +revert
  · rintro ⟨valid, rfl⟩
    obtain ⟨small, same⟩ := digitChar_of_isDigit valid
    exact ⟨small, .inl same.symm⟩

/-! ## Decimal numerals -/

theorem digitsValue_snoc (text : List Char) (c : Char) :
    digitsValue (text ++ [c]) = digitsValue text * 10 + (c.toNat - 48) := by
  unfold digitsValue
  rw [List.foldl_append, Nat.mul_comm]
  rfl

theorem digitsValue_append (first second : List Char) :
    digitsValue (first ++ second) =
      digitsValue first * 10 ^ second.length + digitsValue second := by
  refine (Nat.ofDigitChars_append 0).trans (Nat.ofDigitChars_eq_ofDigitChars_zero.trans ?_)
  rw [Nat.mul_comm]
  rfl

theorem numeral_ten_iff {text : List Char} {value : Nat} :
    Numeral 10 text value ↔ (∀ c ∈ text, c.isDigit = true) ∧ digitsValue text = value := by
  constructor
  · intro numeral
    induction numeral with
    | nil => exact ⟨by simp, rfl⟩
    | snoc front last step =>
        obtain ⟨valid, same⟩ := isDigit_ten_iff.1 last
        refine ⟨fun c member => ?_, ?_⟩
        · rcases List.mem_append.1 member with front | last
          · exact step.1 c front
          · obtain rfl := List.mem_singleton.1 last
            exact valid
        · rw [digitsValue_snoc, step.2, same]
  · rintro ⟨valid, rfl⟩
    induction text using List.reverseRecOn with
    | nil => exact .nil
    | append_singleton text c step =>
        rw [digitsValue_snoc]
        exact .snoc (step fun c member => valid c (List.mem_append_left _ member))
          (isDigit_ten_iff.2 ⟨valid c (by simp), rfl⟩)

theorem digitsValue_digitChars (n : Nat) : digitsValue (digitChars n) = n :=
  Nat.ofDigitChars_ten_toDigits

/-- A number is written without leading zeros. -/
theorem head?_digitChars {n : Nat} (long : (digitChars n).length ≠ 1) :
    (digitChars n).head? ≠ some '0' := by
  unfold digitChars at long ⊢
  induction n using Nat.strongRecOn with
  | ind n step =>
      rw [Nat.toDigits_eq_if (by decide)] at long ⊢
      split at long
      · exact absurd rfl long
      · next big =>
          rw [if_neg big, List.head?_append_of_ne_nil _ Nat.toDigits_ne_nil]
          by_cases single : (Nat.toDigits 10 (n / 10)).length = 1
          · have small : n / 10 < 10 := by
              simpa using (Nat.length_toDigits_le_iff (by decide) (by decide)).1
                (Nat.le_of_eq single)
            rw [Nat.toDigits_of_lt_base small]
            intro zero
            have digit := congrArg Char.toNat (Option.some.inj zero)
            rw [Nat.toNat_digitChar_of_lt_ten small] at digit
            change 48 + n / 10 = 48 at digit
            omega
          · exact step (n / 10) (by omega) single

/-- Every digit takes one byte. -/
theorem utf8ByteSize_of_digits {digits : List Char} (all : ∀ c ∈ digits, c.isDigit = true) :
    (String.ofList digits).utf8ByteSize = digits.length := by
  rw [String.utf8ByteSize_ofList]
  induction digits with
  | nil => rfl
  | cons first rest step =>
      have single : first.utf8Size = 1 := by
        have digit := all first (.head _)
        rw [Char.isDigit, Bool.and_eq_true, decide_eq_true_iff, decide_eq_true_iff] at digit
        exact Char.utf8Size_eq_one_iff.2 (UInt32.le_trans digit.2 (by decide))
      rw [String.utf8Len_cons, step fun c member => all c (.tail _ member), single,
        List.length_cons]

/-- Digits without a leading zero are the text of their value. -/
theorem digitChars_digitsValue
    {digits : List Char}
    (some : digits ≠ [])
    (all : ∀ c ∈ digits, c.isDigit = true)
    (canonical : digits.length ≠ 1 -> digits.head? ≠ Option.some '0') :
    digitChars (digitsValue digits) = digits := by
  unfold digitChars
  -- The last digit is the remainder of the value, so the induction is from the end.
  induction digits using List.reverseRecOn with
  | nil => exact absurd rfl some
  | append_singleton front last step =>
      obtain ⟨small, same⟩ := digitChar_of_isDigit (all last (by simp))
      have value : digitsValue (front ++ [last]) = 10 * digitsValue front + (last.toNat - 48) := by
        simp [digitsValue]
      rw [value]
      cases front with
      | nil =>
          simp only [digitsValue, List.foldl_nil, Nat.mul_zero, Nat.zero_add, List.nil_append]
          rw [Nat.toDigits_of_lt_base small, same]
      | cons first rest =>
          have leading : first ≠ '0' := by
            rintro rfl
            exact canonical (by simp) rfl
          have shorter := step (List.cons_ne_nil first rest)
            (fun c member => all c (List.mem_append_left _ member))
            (fun _ zero => leading (Option.some.inj zero))
          have positive : 0 < digitsValue (first :: rest) := by
            refine Nat.pos_of_ne_zero fun zero => leading ?_
            rw [zero, Nat.toDigits_zero] at shorter
            exact (List.cons.inj shorter).1.symm
          rw [← Nat.toDigits_append_toDigits (by decide) positive small, shorter,
            Nat.toDigits_of_lt_base small, same]

/-! ## Reading numerals -/

theorem radixValue?_snoc (radix : Nat) (text : List Char) (c : Char) :
    radixValue? radix (text ++ [c]) = (radixValue? radix text).bind fun value =>
      (digitValue? radix c).map fun digit => roundToSignificand (value * radix + digit) := by
  unfold radixValue?
  rw [List.foldlM_append]
  refine congrArg (Option.bind _) (funext fun value => ?_)
  cases read : digitValue? radix c <;> simp [read]

/-- Just the digits of the radix are read. -/
theorem isSome_radixValue?_iff {radix : Nat} (small : radix <= 16) {text : List Char} :
    (radixValue? radix text).isSome = true ↔ ∃ value, Numeral radix text value := by
  constructor
  · intro some
    induction text using List.reverseRecOn with
    | nil => exact ⟨0, .nil⟩
    | append_singleton text c step =>
        rw [radixValue?_snoc] at some
        cases front : radixValue? radix text with
        | none => rw [front] at some; cases some
        | some rounded =>
            obtain ⟨value, numeral⟩ := step (by rw [front]; rfl)
            cases last : digitValue? radix c with
            | none => rw [front, last] at some; cases some
            | some digit =>
                exact ⟨_, .snoc numeral (isDigit_of_digitValue? small last)⟩
  · rintro ⟨value, numeral⟩
    induction numeral with
    | nil => rfl
    | snoc front last step =>
        obtain ⟨rounded, read⟩ := Option.isSome_iff_exists.1 step
        rw [radixValue?_snoc, read, digitValue?_of_isDigit small last]
        rfl

/-- A number that fits into a significand is not rounded. -/
theorem roundToSignificand_of_lt {number : Nat} (small : number < 2 ^ 53) :
    roundToSignificand number = number := by
  have short : number.log2 - 52 = 0 := by
    rcases Nat.eq_zero_or_pos number with rfl | positive
    · rfl
    · have := (Nat.log2_lt positive.ne').2 small
      omega
  unfold roundToSignificand divideToEven
  rw [short]
  simp [Nat.mod_one]

theorem radixValue?_of_numeral
    {radix : Nat}
    (small : radix <= 16)
    {text : List Char}
    {value : Nat}
    (numeral : Numeral radix text value)
    (exact : value < 2 ^ 53) :
    radixValue? radix text = some value := by
  induction numeral with
  | nil => rfl
  | @snoc text value c digit front last step =>
      -- The number of the leading digits fits too.
      have less : value < 2 ^ 53 := by
        have := Nat.le_mul_of_pos_right value (Nat.zero_lt_of_lt last.1)
        omega
      rw [radixValue?_snoc, step less, digitValue?_of_isDigit small last]
      exact congrArg some (roundToSignificand_of_lt exact)

end Number
end ScriptVM
