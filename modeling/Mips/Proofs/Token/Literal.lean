import Mips.Proofs.Text.Numeral
import Mips.Proofs.Token.Reading

/-!
Numbers that were written are read again. Main statements: `reads_decimal`, `reads_hex`.
-/

namespace Mips.Token

open Text

theorem le_of_readDigits? {base before value : Nat} {characters : List Char} (positive : 0 < base)
    (read : readDigits? base before characters = some value) : before ≤ value := by
  induction characters generalizing before with
  | nil =>
    cases read
    exact Nat.le_refl _
  | cons c rest ih =>
    simp only [readDigits?, bind, Option.bind_eq_some_iff] at read
    obtain ⟨digit, _, read⟩ := read
    have grown := ih read
    have scaled := Nat.le_mul_of_pos_left before positive
    omega

/-- Digits are read as the number that they denote, if it fits 64 bits. -/
theorem magnitude_of_readDigits? {base before value : Nat} {invalid : LexError} {characters : List Char}
    (positive : 0 < base) (fits : value < 0x10000000000000000)
    (read : readDigits? base before characters = some value) :
    magnitude base invalid before characters = .ok value := by
  induction characters generalizing before with
  | nil =>
    cases read
    rfl
  | cons c rest ih =>
    simp only [readDigits?, bind, Option.bind_eq_some_iff] at read
    obtain ⟨digit, known, read⟩ := read
    have bounded := le_of_readDigits? positive read
    simp only [magnitude, known]
    rw [if_pos (by omega)]
    exact ih read

/-- What is known of the digits of decimal numbers. -/
theorem decimal_digit {number : Nat} {c : Char} (member : c ∈ digits 10 number) :
    isDecimalDigit c = true ∧ isWordCharacter c = true ∧ c ∉ signs ∧ c ≠ 'x' ∧ c ≠ 'X' ∧ c ≠ 'b' ∧ c ≠ 'B' := by
  have table : ∀ value < 10, isDecimalDigit (digit value) = true ∧ isWordCharacter (digit value) = true ∧
      digit value ∉ signs ∧ digit value ≠ 'x' ∧ digit value ≠ 'X' ∧ digit value ≠ 'b' ∧ digit value ≠ 'B' := by
    decide +kernel
  obtain ⟨value, small, rfl⟩ := exists_digit_of_mem (by decide) member
  exact table value small

theorem unsignedLiteral_digits {number : Nat} (fits : number < 0x10000000000000000) :
    unsignedLiteral (digits 10 number) = .ok number := by
  have read := readDigits?_digits (by decide : 2 ≤ 10) (by decide) number
  have known : ∀ c ∈ digits 10 number, c ≠ 'x' ∧ c ≠ 'X' ∧ c ≠ 'b' ∧ c ≠ 'B' := by
    intro c member
    exact (decimal_digit member).2.2.2
  have nonempty := digits_ne_nil 10 number
  generalize digits 10 number = characters at read known nonempty
  unfold unsignedLiteral
  split
  case h_1 | h_2 | h_3 | h_4 => simp at known
  case h_5 =>
    rw [if_neg (by simpa using nonempty)]
    exact magnitude_of_readDigits? (by decide) fits read

/-- A number without a sign is read as itself, if it fits a word. -/
theorem integerLiteral_of_unsigned {number : Nat} {characters : List Char} (unsigned : '-' ∉ characters.head?)
    (read : unsignedLiteral characters = .ok number) (fits : number < 0x100000000) :
    integerLiteral characters = .ok (number : Int) := by
  unfold integerLiteral
  split
  case h_1 => simp at unsigned
  case h_2 =>
    simp only [read, bind, Except.bind]
    rw [if_pos fits]

/-- A decimal number is read as itself, if a word stands for it. -/
theorem integerLiteral_signedDigits {number : Int} (holds : Word.holds number = true) :
    integerLiteral (signedDigits 10 number) = .ok number := by
  simp only [Word.holds, Bool.and_eq_true, decide_eq_true_eq] at holds
  have read : unsignedLiteral (digits 10 number.natAbs) = .ok number.natAbs :=
    unsignedLiteral_digits (by omega)
  unfold signedDigits
  by_cases negative : number < 0
  · rw [if_pos negative]
    simp only [integerLiteral, read, bind, Except.bind]
    rw [if_pos (by omega)]
    congr 1
    omega
  · rw [if_neg negative]
    have unsigned : '-' ∉ (digits 10 number.natAbs).head? := by
      intro minus
      exact absurd (by decide) (decimal_digit (List.mem_of_mem_head? minus)).2.2.1
    have same : (number.natAbs : Int) = number := by omega
    rw [integerLiteral_of_unsigned unsigned read (by omega), same]

/-- A text of digits is read as the number that it denotes. -/
theorem reads_digits {first : Char} {rest : List Char} {number : Int} (digital : isDecimalDigit first = true)
    (plain : first ∉ signs) (parts : ∀ c ∈ rest, isWordCharacter c = true)
    (means : integerLiteral (first :: rest) = .ok number) : Reads (first :: rest) [.integer number] := by
  have begins : ∀ follows, lexeme first ([] ++ follows) =
      lexemeWhile isWordCharacter [first] follows integerMeaning := by
    intro follows
    rw [List.nil_append, lexeme_of_plain plain, if_pos digital]
  have meaning : integerMeaning (first :: rest) = .ok (.integer number) := by
    rw [integerMeaning, means]
    rfl
  exact reads_word [] begins (isGap_of_plain plain) parts (fun _ => isWordCharacter_of_endsWord) meaning

/-- A minus sign and digits are read as the number that they denote. -/
theorem reads_minus {first : Char} {rest : List Char} {number : Int} (digital : isDecimalDigit first = true)
    (parts : ∀ c ∈ rest, isWordCharacter c = true) (means : integerLiteral ('-' :: first :: rest) = .ok number) :
    Reads ('-' :: first :: rest) [.integer number] := by
  have begins : ∀ follows, lexeme '-' ([first] ++ follows) =
      lexemeWhile isWordCharacter ['-', first] follows integerMeaning := by
    intro follows
    simp only [List.singleton_append, lexeme]
    rw [if_pos digital]
  have meaning : integerMeaning ('-' :: [first] ++ rest) = .ok (.integer number) := by
    rw [integerMeaning]
    simp only [List.cons_append, List.nil_append, means]
    rfl
  exact reads_word [first] begins (by decide) parts (fun _ => isWordCharacter_of_endsWord) meaning

/-- The decimal text of a number is read as the number, if a word stands for it. -/
theorem reads_decimal {number : Int} (holds : Word.holds number = true) :
    Reads (decimal number).toList [.integer number] := by
  have means := integerLiteral_signedDigits holds
  rw [decimal, String.toList_ofList]
  cases shape : digits 10 number.natAbs with
  | nil => exact absurd shape (digits_ne_nil 10 number.natAbs)
  | cons first rest =>
    have known : ∀ c ∈ first :: rest, isDecimalDigit c = true ∧ isWordCharacter c = true ∧ c ∉ signs := by
      intro c member
      rw [← shape] at member
      have facts := decimal_digit member
      exact ⟨facts.1, facts.2.1, facts.2.2.1⟩
    obtain ⟨digital, _, plain⟩ := known first List.mem_cons_self
    have parts : ∀ c ∈ rest, isWordCharacter c = true := by
      intro c member
      exact (known c (List.mem_cons_of_mem _ member)).2.1
    unfold signedDigits at means ⊢
    rw [shape] at means ⊢
    by_cases negative : number < 0
    · rw [if_pos negative] at means ⊢
      exact reads_minus digital parts means
    · rw [if_neg negative] at means ⊢
      exact reads_digits digital plain parts means

theorem reads_natural {number : Nat} (small : number < 0x100000000) :
    Reads (natural number).toList [.integer number] := by
  have same : natural number = decimal number := by
    rw [natural, decimal, signedDigits, if_neg (by omega), Int.natAbs_natCast]
  rw [same]
  apply reads_decimal
  simp only [Word.holds, Bool.and_eq_true, decide_eq_true_eq]
  omega

/-- What is known of the digits of hexadecimal words. -/
theorem hex_digit {word : Word} {c : Char} (member : c ∈ padLeft 8 (digits 16 word.toNat)) :
    isWordCharacter c = true := by
  have table : ∀ value < 16, isWordCharacter (digit value) = true := by decide +kernel
  rcases List.mem_append.1 member with zero | later
  · rw [List.eq_of_mem_replicate zero]
    decide +kernel
  · obtain ⟨value, small, rfl⟩ := exists_digit_of_mem (by decide) later
    exact table value small

/-- The hexadecimal text of a word is read as the word without a sign. -/
theorem reads_hex (word : Word) : Reads (hex word).toList [.integer word.toNat] := by
  have bounded := word.toNat_lt
  have shape : (hex word).toList = '0' :: 'x' :: padLeft 8 (digits 16 word.toNat) := by
    rw [hex, hexDigits, String.toList_append, String.toList_ofList]
    simp
  have nonempty : padLeft 8 (digits 16 word.toNat) ≠ [] := by
    simp [padLeft, digits_ne_nil]
  have read : readDigits? 16 0 (padLeft 8 (digits 16 word.toNat)) = some word.toNat := by
    rw [padLeft, readDigits?_zeros 16 _ (by decide)]
    exact readDigits?_digits (by decide) (by decide) word.toNat
  have literal : unsignedLiteral ('0' :: 'x' :: padLeft 8 (digits 16 word.toNat)) = .ok word.toNat := by
    generalize padLeft 8 (digits 16 word.toNat) = characters at nonempty read
    simp only [unsignedLiteral]
    rw [if_neg (by simpa using nonempty)]
    exact magnitude_of_readDigits? (by decide) (by omega) read
  have means : integerLiteral ('0' :: 'x' :: padLeft 8 (digits 16 word.toNat)) = .ok (word.toNat : Int) :=
    integerLiteral_of_unsigned (by simp) literal (by omega)
  rw [shape]
  refine reads_digits (by decide) (by decide) ?_ means
  intro c member
  rcases List.mem_cons.1 member with rfl | digit
  · decide +kernel
  · exact hex_digit digit

end Mips.Token
