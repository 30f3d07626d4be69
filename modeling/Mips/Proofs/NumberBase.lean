import Mips.NumberBase
import Mips.Proofs.Text.Numeral
import Mips.Proofs.Word

/-!
Words that were shown are read again. Each base but that of characters shows a word by a numeral of the word as a number
without a sign or with one, so that no two words look alike. Main statement: `format_read`.
-/

namespace Mips.NumberBase

open Text

/-- Whether words are shown with a sign. -/
def isSigned : NumberBase → Bool
  | .ternary | .quaternary | .quinary | .senary | .decimal => true
  | .binary | .octal | .hexadecimal | .ascii => false

/-- The number that is shown of a word. -/
def value (base : NumberBase) (word : Word) : Int := if base.isSigned then word.signed else word.toNat

/-- The number of a numeral with a minus in front of it or without. -/
def readSigned? (radix : Nat) : List Char → Option Int
  | '-' :: digits => (readNumeral? radix digits).map fun number => -Int.ofNat number
  | digits => (readNumeral? radix digits).map Int.ofNat

/--
The number that the characters show in a base: a numeral, behind its mark in base 16 and perhaps behind a minus in a signed
one.
-/
def read? (base : NumberBase) (characters : List Char) : Option Int :=
  match base with
  | .binary | .octal => (readNumeral? base.radix characters).map Int.ofNat
  | .hexadecimal =>
    match characters with
    | '0' :: 'x' :: digits => (readNumeral? base.radix digits).map Int.ofNat
    | _ => none
  | .ternary | .quaternary | .quinary | .senary | .decimal => readSigned? base.radix characters
  | .ascii => none

/-- The characters begin with a zero only if they are nothing else. -/
def Trimmed (digits : List Char) : Prop := digits.head? = some '0' → digits = ['0']

/-- A signed numeral without a leading zero, and without a minus in front of zero. -/
inductive Canonical : List Char → Prop where
  | positive {digits : List Char} (trimmed : Trimmed digits) (unsigned : digits.head? ≠ some '-') : Canonical digits
  | negative {digits : List Char} (trimmed : Trimmed digits) (nonzero : digits ≠ ['0']) : Canonical ('-' :: digits)

section Signed

variable {radix : Nat} (positive : 2 ≤ radix) (bounded : radix ≤ 16)

include positive

/-- No digit looks like a minus. -/
theorem head?_digits_ne_minus (bounded : radix ≤ 16) (number : Nat) : (digits radix number).head? ≠ some '-' := by
  intro minus
  have table : ∀ value < 16, digit value ≠ '-' := by decide
  obtain ⟨value, small, same⟩ := exists_digit_of_mem positive (List.mem_of_mem_head? minus)
  exact table value (by omega) same.symm

include bounded

theorem trimmed_digits (number : Nat) : Trimmed (digits radix number) := by
  obtain ⟨first, rest, shape, leading⟩ := exists_digits_eq_cons positive bounded number
  intro zero
  rw [shape] at zero ⊢
  cases zero
  rw [(leading rfl).2]

/-- Only zero is shown as zero. -/
theorem digits_ne_zero {number : Nat} (nonzero : number ≠ 0) : digits radix number ≠ ['0'] := by
  obtain ⟨first, rest, shape, leading⟩ := exists_digits_eq_cons positive bounded number
  intro zero
  rw [shape] at zero
  cases zero
  exact nonzero (leading rfl).1

theorem canonical_signedDigits (number : Int) : Canonical (signedDigits radix number) := by
  have trimmed := trimmed_digits positive bounded number.natAbs
  unfold signedDigits
  split
  next below => exact .negative trimmed (digits_ne_zero positive bounded (by omega))
  next => exact .positive trimmed (head?_digits_ne_minus positive bounded number.natAbs)

/-- The magnitude is written behind the sign, also that of the least number. -/
theorem readSigned?_signedDigits (number : Int) : readSigned? radix (signedDigits radix number) = some number := by
  have read := readNumeral?_digits positive bounded number.natAbs
  unfold signedDigits
  split
  next below =>
    have size : -(number.natAbs : Int) = number := by omega
    rw [readSigned?, read, Option.map_some]
    exact congrArg some size
  next above =>
    have unsigned := head?_digits_ne_minus positive bounded number.natAbs
    have size : (number.natAbs : Int) = number := by omega
    rw [readSigned?, read, Option.map_some]
    · exact congrArg some size
    · intro others shape
      rw [shape] at unsigned
      exact unsigned rfl

end Signed

theorem radix_of_isSigned {base : NumberBase} (signed : base.isSigned = true) : 2 ≤ base.radix ∧ base.radix ≤ 16 := by
  cases base <;> first | decide | cases signed

theorem toList_format_of_isSigned {base : NumberBase} (signed : base.isSigned = true) (word : Word) :
    (base.format word).toList = signedDigits base.radix word.signed := by
  cases base with
  | ternary | quaternary | quinary | senary | decimal => exact String.toList_ofList
  | binary | octal | hexadecimal | ascii => cases signed

theorem read?_format {base : NumberBase} (numeric : base ≠ .ascii) (word : Word) :
    base.read? (base.format word).toList = some (base.value word) := by
  cases base with
  | binary =>
    rw [format, bits, String.toList_ofList, read?, radix, readNumeral?_padLeft (by decide) (by decide)]
    rfl
  | octal =>
    rw [format, String.toList_ofList, read?, radix, readNumeral?_digits (by decide) (by decide)]
    rfl
  | hexadecimal =>
    have shape : (hex word).toList = '0' :: 'x' :: padLeft 8 (digits 16 word.toNat) := by
      rw [hex, hexDigits, String.toList_append, String.toList_ofList]
      simp
    rw [format, shape, read?, radix, readNumeral?_padLeft (by decide) (by decide)]
    rfl
  | ascii => exact absurd rfl numeric
  | ternary | quaternary | quinary | senary | decimal =>
    rw [format, String.toList_ofList, read?, radix, readSigned?_signedDigits (by decide) (by decide)]
    rfl

theorem value_injective (base : NumberBase) : Function.Injective base.value := by
  intro first second same
  unfold value at same
  split at same
  · rw [← Word.ofInt_signed first, same, Word.ofInt_signed]
  · exact UInt32.toNat_inj.1 (Int.ofNat_inj.1 same)

/--
In every base but that of characters the text of a word is read as the number that is shown of it, which is the word with its
sign or without; a number with its sign has no leading zero, and zero no minus; and no two words have one text.
-/
theorem format_read (base : NumberBase) (numeric : base ≠ .ascii) :
    (∀ word, base.read? (base.format word).toList = some (base.value word)) ∧
      (base.isSigned = true → ∀ word, Canonical (base.format word).toList) ∧
        ∀ first second, base.format first = base.format second → first = second := by
  refine ⟨read?_format numeric, ?_, ?_⟩
  · intro signed word
    obtain ⟨positive, bounded⟩ := radix_of_isSigned signed
    rw [toList_format_of_isSigned signed word]
    exact canonical_signedDigits positive bounded word.signed
  · intro first second same
    have shown := read?_format numeric first
    rw [same, read?_format numeric second] at shown
    exact value_injective base (Option.some.inj shown).symm

/-- The least number in base 4, which has no positive counterpart. -/
theorem format_read_least :
    NumberBase.quaternary ≠ .ascii ∧ quaternary.format 0x80000000 = "-2000000000000000" ∧
      quaternary.read? "-2000000000000000".toList = some (-0x80000000) := by
  have shown : quaternary.format 0x80000000 = "-2000000000000000" := by decide +kernel
  have numeric : NumberBase.quaternary ≠ .ascii := by decide
  have read := (format_read .quaternary numeric).1 0x80000000
  rw [shown] at read
  exact ⟨numeric, shown, read⟩

end Mips.NumberBase
