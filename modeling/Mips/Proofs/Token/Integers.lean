import Mips.Proofs.Outcome
import Mips.Proofs.Text.Numeral
import Mips.Proofs.Token.Literal
import Mips.Proofs.Token.Spans

/-!
Integers in a text. Digits are read one by one into 64 bits, and what they denote is compared with the bounds of a word behind
the last of them, so that digits of any number and in any of the three bases are taken for the integer that they denote or are
refused as too large. Main statements: `magnitude_of_digits`, `integerLiteral_of_isLiteral` and `integers_read`.
-/

namespace Mips.Token

open Text

/-- Digits of base ten, or of base sixteen or two behind the mark of the base, that denote the number. -/
inductive IsUnsigned : List Char → Nat → Prop where
  | decimal {characters : List Char} {number : Nat} (numeral : IsNumeral 10 characters number) : IsUnsigned characters number
  | hexadecimal {mark : Char} (marks : mark = 'x' ∨ mark = 'X') {digits : List Char} {number : Nat}
      (numeral : IsNumeral 16 digits number) : IsUnsigned ('0' :: mark :: digits) number
  | binary {mark : Char} (marks : mark = 'b' ∨ mark = 'B') {digits : List Char} {number : Nat}
      (numeral : IsNumeral 2 digits number) : IsUnsigned ('0' :: mark :: digits) number

/-- The characters are digits, with a minus before them or without, and denote the number. -/
inductive IsLiteral : List Char → Int → Prop where
  | unsigned {characters : List Char} {number : Nat} (isUnsigned : IsUnsigned characters number) :
    IsLiteral characters number
  | negative {characters : List Char} {number : Nat} (isUnsigned : IsUnsigned characters number) :
    IsLiteral ('-' :: characters) (-number)

/-- The characters look like an integer: a minus or none, a decimal digit of any script, and any letters and digits. -/
inductive LooksInteger : List Char → Prop where
  | unsigned {first : Char} {rest : List Char} (digital : isDecimalDigit first = true)
      (parts : ∀ c ∈ rest, isWordCharacter c = true) : LooksInteger (first :: rest)
  | negative {first : Char} {rest : List Char} (digital : isDecimalDigit first = true)
      (parts : ∀ c ∈ rest, isWordCharacter c = true) : LooksInteger ('-' :: first :: rest)

/-- Digits are read as the number that they denote, or are refused if it takes more than 64 bits. -/
theorem magnitude_of_digits {base before value : Nat} {invalid : LexError} {characters : List Char} (positive : 0 < base)
    (read : readDigits? base before characters = some value) (small : before < 0x10000000000000000) :
    magnitude base invalid before characters =
      if value < 0x10000000000000000 then .ok value else .error .outOfRange := by
  induction characters generalizing before with
  | nil =>
    cases read
    rw [if_pos small]
    rfl
  | cons c rest ih =>
    simp only [readDigits?, bind, Option.bind_eq_some_iff] at read
    obtain ⟨digit, known, read⟩ := read
    have grown := le_of_readDigits? positive read
    simp only [magnitude, known]
    split
    next fits => exact ih read fits
    next large => rw [if_neg (by omega)]

theorem readDigits?_of_magnitude {base before value : Nat} {invalid : LexError} {characters : List Char}
    (read : magnitude base invalid before characters = .ok value) : readDigits? base before characters = some value := by
  induction characters generalizing before with
  | nil =>
    cases read
    rfl
  | cons c rest ih =>
    unfold magnitude at read
    split at read
    next => cases read
    next digit known =>
      dsimp only at read
      split at read
      · simp only [readDigits?, known, bind, Option.bind_some]
        exact ih read
      · cases read

section Numeral

variable {base number : Nat} {characters : List Char}

/-- The digits of a numeral have values in its base. -/
theorem digitValue?_of_isNumeral (bounded : base ≤ 16) (numeral : IsNumeral base characters number) :
    ∀ c ∈ characters, (digitValue? base c).isSome = true := by
  obtain ⟨-, values, digits, -⟩ := numeral
  induction digits with
  | nil => simp
  | cons digit _ ih =>
    refine List.forall_mem_cons.2 ⟨?_, ih⟩
    rw [(digitValue?_eq_some_iff bounded).2 digit]
    rfl

theorem magnitude_of_isNumeral (positive : 0 < base) (bounded : base ≤ 16) (invalid : LexError)
    (numeral : IsNumeral base characters number) :
    magnitude base invalid 0 characters =
      if number < 0x10000000000000000 then .ok number else .error .outOfRange := by
  apply magnitude_of_digits positive ?_ (by decide)
  rw [← (readNumeral?_eq_some_iff bounded).2 numeral, readNumeral?, if_neg (by simpa using numeral.1)]

theorem isNumeral_of_magnitude (bounded : base ≤ 16) {invalid : LexError} (present : characters ≠ [])
    (read : magnitude base invalid 0 characters = .ok number) : IsNumeral base characters number := by
  rw [← readNumeral?_eq_some_iff bounded, readNumeral?, if_neg (by simpa using present)]
  exact readDigits?_of_magnitude read

end Numeral

section Unsigned

variable {characters : List Char} {number : Nat}

theorem unsignedLiteral_of_isUnsigned (isUnsigned : IsUnsigned characters number) :
    unsignedLiteral characters = if number < 0x10000000000000000 then .ok number else .error .outOfRange := by
  cases isUnsigned with
  | decimal numeral =>
    have known := digitValue?_of_isNumeral (by decide) numeral
    have read := magnitude_of_isNumeral (by decide) (by decide) .invalidDecimal numeral
    have present := numeral.1
    unfold unsignedLiteral
    split
    case h_1 | h_2 | h_3 | h_4 =>
      -- The marks of the other bases are no decimal digits.
      have mark := (List.forall_mem_cons.1 (List.forall_mem_cons.1 known).2).1
      exact absurd mark (by decide)
    case h_5 => rw [if_neg (by simpa using present), read]
  | hexadecimal marks numeral =>
    have read := magnitude_of_isNumeral (by decide) (by decide) .invalidHex numeral
    rcases marks with rfl | rfl <;> simp only [unsignedLiteral] <;> rw [if_neg (by simpa using numeral.1), read]
  | binary marks numeral =>
    have read := magnitude_of_isNumeral (by decide) (by decide) .invalidBinary numeral
    rcases marks with rfl | rfl <;> simp only [unsignedLiteral] <;> rw [if_neg (by simpa using numeral.1), read]

theorem isUnsigned_of_unsignedLiteral (read : unsignedLiteral characters = .ok number) : IsUnsigned characters number := by
  unfold unsignedLiteral at read
  split at read
  case h_1 | h_2 =>
    split at read
    · cases read
    next present => exact .hexadecimal (by simp) (isNumeral_of_magnitude (by decide) (by simpa using present) read)
  case h_3 | h_4 =>
    split at read
    · cases read
    next present => exact .binary (by simp) (isNumeral_of_magnitude (by decide) (by simpa using present) read)
  case h_5 =>
    split at read
    · cases read
    next present => exact .decimal (isNumeral_of_magnitude (by decide) (by simpa using present) read)

/-- What digits begin with is a decimal digit, and the rest of them could stand in any word. -/
theorem IsUnsigned.head (isUnsigned : IsUnsigned characters number) :
    ∃ first rest, characters = first :: rest ∧ isDecimalDigit first = true ∧ ∀ c ∈ rest, isWordCharacter c = true := by
  have table : ∀ value < 16, isWordCharacter (digit value) = true ∧ isWordCharacter (digit value).toUpper = true := by
    decide +kernel
  have parts {base : Nat} (bounded : base ≤ 16) {digits : List Char} (numeral : IsNumeral base digits number) :
      ∀ c ∈ digits, isWordCharacter c = true := by
    obtain ⟨-, values, digits, -⟩ := numeral
    induction digits with
    | nil => simp
    | @cons c value _ _ digit _ ih =>
      obtain ⟨small, written⟩ := digit
      obtain ⟨lower, upper⟩ := table value (by omega)
      refine List.forall_mem_cons.2 ⟨?_, ih⟩
      rcases written with rfl | rfl
      · exact lower
      · exact upper
  cases isUnsigned with
  | decimal numeral =>
    have words := parts (by decide) numeral
    obtain ⟨present, values, digits, -⟩ := numeral
    cases digits with
    | nil => exact absurd rfl present
    | @cons c value rest _ digit _ =>
      have decimal : ∀ value < 10, isDecimalDigit (Text.digit value) = true ∧
          isDecimalDigit (Text.digit value).toUpper = true := by
        decide +kernel
      obtain ⟨lower, upper⟩ := decimal value digit.1
      refine ⟨c, rest, rfl, ?_, (List.forall_mem_cons.1 words).2⟩
      rcases digit.2 with rfl | rfl
      · exact lower
      · exact upper
  | hexadecimal marks numeral =>
    refine ⟨'0', _, rfl, by decide, List.forall_mem_cons.2 ⟨?_, parts (by decide) numeral⟩⟩
    rcases marks with rfl | rfl <;> decide +kernel
  | binary marks numeral =>
    refine ⟨'0', _, rfl, by decide, List.forall_mem_cons.2 ⟨?_, parts (by decide) numeral⟩⟩
    rcases marks with rfl | rfl <;> decide +kernel

end Unsigned

/-- A decimal digit is no sign. -/
theorem plain_of_isDecimalDigit {first : Char} (digital : isDecimalDigit first = true) : first ∉ signs := by
  have apart : (signs.all fun sign => !isDecimalDigit sign) = true := by decide
  intro member
  have other := List.all_eq_true.1 apart first member
  rw [digital] at other
  cases other

section Literal

variable {characters : List Char} {number : Int}

theorem looksInteger_of_isLiteral (isLiteral : IsLiteral characters number) : LooksInteger characters := by
  cases isLiteral with
  | unsigned isUnsigned =>
    obtain ⟨first, rest, rfl, digital, parts⟩ := isUnsigned.head
    exact .unsigned digital parts
  | negative isUnsigned =>
    obtain ⟨first, rest, rfl, digital, parts⟩ := isUnsigned.head
    exact .negative digital parts

/-- An integer is read as the number that it denotes if a word holds that, and is refused as out of range if none does. -/
theorem integerLiteral_of_isLiteral (isLiteral : IsLiteral characters number) :
    integerLiteral characters =
      if -0x80000000 ≤ number ∧ number ≤ 0xFFFFFFFF then .ok number else .error .outOfRange := by
  cases isLiteral with
  | @unsigned _ value isUnsigned =>
    have read := unsignedLiteral_of_isUnsigned isUnsigned
    obtain ⟨first, rest, rfl, digital, -⟩ := isUnsigned.head
    have bare : first ≠ '-' := by
      rintro rfl
      exact absurd digital (by decide)
    unfold integerLiteral
    split
    case h_1 same =>
      cases same
      exact absurd rfl bare
    case h_2 =>
      rw [read]
      by_cases small : value < 0x100000000
      · rw [if_pos (by omega), if_pos (by omega)]
        simp only [bind, Except.bind]
        rw [if_pos small]
      · rw [if_neg (by omega : ¬(-0x80000000 ≤ (value : Int) ∧ (value : Int) ≤ 0xFFFFFFFF))]
        split
        · simp only [bind, Except.bind]
          rw [if_neg small]
        · rfl
  | @negative _ value isUnsigned =>
    simp only [integerLiteral, unsignedLiteral_of_isUnsigned isUnsigned]
    by_cases small : value ≤ 0x80000000
    · rw [if_pos (by omega), if_pos (by omega)]
      simp only [bind, Except.bind]
      rw [if_pos small]
    · rw [if_neg (by omega : ¬(-0x80000000 ≤ -(value : Int) ∧ -(value : Int) ≤ 0xFFFFFFFF))]
      split
      · simp only [bind, Except.bind]
        rw [if_neg small]
      · rfl

theorem isLiteral_of_integerLiteral (read : integerLiteral characters = .ok number) : IsLiteral characters number := by
  unfold integerLiteral at read
  split at read
  · obtain ⟨value, unsigned, same⟩ := bind_eq_ok_iff.1 read
    split at same
    · cases same
      exact .negative (isUnsigned_of_unsignedLiteral unsigned)
    · cases same
  · obtain ⟨value, unsigned, same⟩ := bind_eq_ok_iff.1 read
    split at same
    · cases same
      exact .unsigned (isUnsigned_of_unsignedLiteral unsigned)
    · cases same

end Literal

/-- What looks like an integer is one item, which means what its characters are read as. -/
theorem isItem_of_looksInteger {characters rest : List Char} (looks : LooksInteger characters)
    (ends : ∀ c, rest.head? = some c → isWordCharacter c = false) :
    IsItem characters (integerMeaning characters) rest := by
  cases looks with
  | @unsigned first word digital parts =>
    have plain := plain_of_isDecimalDigit digital
    apply isItem_of_lexeme (isGap_of_plain plain)
    rw [lexeme_of_plain plain, if_pos digital, lexemeWhile_append parts ends]
    simp
  | @negative first word digital parts =>
    apply isItem_of_lexeme (by decide)
    simp only [List.cons_append, lexeme, if_pos digital, lexemeWhile_append parts ends]
    simp [Nat.add_comm]

/--
A text that denotes an integer, in front of something that could not belong to it, is one integer with the value that it
denotes if that is between `-2^31` and `2^32 - 1`, and one error, that it is out of range, if not. Every other text that looks
like an integer is one error.
-/
theorem integers_read (characters rest : List Char) (ends : ∀ c, rest.head? = some c → isWordCharacter c = false) :
    (∀ number, IsLiteral characters number →
      IsItem characters
        (if -0x80000000 ≤ number ∧ number ≤ 0xFFFFFFFF then .ok (.integer number) else .error .outOfRange) rest) ∧
      (LooksInteger characters → (∀ number, ¬IsLiteral characters number) →
        ∃ error, IsItem characters (.error error) rest) := by
  constructor
  · intro number isLiteral
    have item := isItem_of_looksInteger (looksInteger_of_isLiteral isLiteral) ends
    rw [integerMeaning, integerLiteral_of_isLiteral isLiteral] at item
    split at item
    next holds => rwa [if_pos holds]
    next large => rwa [if_neg large]
  · intro looks other
    have item := isItem_of_looksInteger looks ends
    unfold integerMeaning at item
    cases read : integerLiteral characters with
    | ok number => exact absurd (isLiteral_of_integerLiteral read) (other number)
    | error error =>
      rw [read] at item
      exact ⟨error, item⟩

/-- The least number that a word holds, in hexadecimal digits. -/
theorem integers_read_least :
    (∀ c, [',', '1'].head? = some c → isWordCharacter c = false) ∧
      IsLiteral ['-', '0', 'X', '0', '8', '0', '0', '0', '0', '0', '0', '0'] (-2147483648) ∧
        IsItem ['-', '0', 'X', '0', '8', '0', '0', '0', '0', '0', '0', '0'] (.ok (.integer (-2147483648))) [',', '1'] := by
  have ends : ∀ c, [',', '1'].head? = some c → isWordCharacter c = false := by
    rintro _ ⟨⟩
    decide +kernel
  have numeral : IsNumeral 16 ['0', '8', '0', '0', '0', '0', '0', '0', '0'] 2147483648 :=
    (readNumeral?_eq_some_iff (by decide)).1 (by decide)
  have isLiteral := IsLiteral.negative (.hexadecimal (.inr rfl) numeral)
  exact ⟨ends, isLiteral, (integers_read _ _ ends).1 _ isLiteral⟩

end Mips.Token
