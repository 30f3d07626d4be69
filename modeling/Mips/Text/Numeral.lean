import Mips.Word

/-!
Numbers as text: positional digits in a base between 2 and 16, written with the letters `a` to `f`
and read with either case. Main statement: `readNumeral?_digits`, by which reading inverts writing.
-/

namespace Mips.Text

/-- Whether the character is one of `0` to `9`. -/
def isAsciiDigit (c : Char) : Bool := '0' ≤ c && c ≤ '9'

/-- The digit of this value below 16. -/
def digit (value : Nat) : Char :=
  if value < 10 then Char.ofNat (48 + value) else Char.ofNat (87 + value)

/-- The value of a character as a digit of the base. -/
def digitValue? (base : Nat) (c : Char) : Option Nat :=
  let value :=
    if '0' ≤ c && c ≤ '9' then c.toNat - 48
    else if 'a' ≤ c && c ≤ 'z' then c.toNat - 87
    else if 'A' ≤ c && c ≤ 'Z' then c.toNat - 55
    else base
  if value < base then some value else none

/-- The digits of a number, most significant first and without leading zeros. -/
def digits (base number : Nat) : List Char :=
  if _ : base < 2 ∨ number < base then [digit number]
  else digits base (number / base) ++ [digit (number % base)]
termination_by number
decreasing_by exact Nat.div_lt_self (by omega) (by omega)

/-- The characters filled up on the left with zeros to at least this many. -/
def padLeft (width : Nat) (characters : List Char) : List Char :=
  List.replicate (width - characters.length) '0' ++ characters

/-- The value of a list of digits read after a number with value `before`. -/
def readDigits? (base : Nat) (before : Nat) : List Char → Option Nat
  | [] => some before
  | c :: rest => do readDigits? base (base * before + (← digitValue? base c)) rest

def readNumeral? (base : Nat) (characters : List Char) : Option Nat :=
  if characters.isEmpty then none else readDigits? base 0 characters

/-- The digits of the number's magnitude, after a minus sign if it is negative. -/
def signedDigits (base : Nat) (number : Int) : List Char :=
  if number < 0 then '-' :: digits base number.natAbs else digits base number.natAbs

def natural (number : Nat) : String := String.ofList (digits 10 number)

def decimal (number : Int) : String := String.ofList (signedDigits 10 number)

def hexDigits (word : Word) : String := String.ofList (padLeft 8 (digits 16 word.toNat))

/-- The word as `0x` and eight hexadecimal digits. -/
def hex (word : Word) : String := "0x" ++ hexDigits word

/-- The word as all of its 32 bits. -/
def bits (word : Word) : String := String.ofList (padLeft 32 (digits 2 word.toNat))

theorem digitValue?_digit {base value : Nat} (small : value < base) (bounded : base ≤ 16) :
    digitValue? base (digit value) = some value := by
  have table : ∀ base ≤ 16, ∀ value < base, digitValue? base (digit value) = some value := by
    decide +kernel
  exact table base bounded value small

theorem readDigits?_append (base before : Nat) (first second : List Char) :
    readDigits? base before (first ++ second) =
      (readDigits? base before first).bind fun value => readDigits? base value second := by
  induction first generalizing before with
  | nil => rfl
  | cons c rest ih =>
    simp only [List.cons_append, readDigits?]
    cases digitValue? base c with
    | none => rfl
    | some value => exact ih _

theorem readDigits?_digits {base : Nat} (positive : 2 ≤ base) (bounded : base ≤ 16) (number : Nat) :
    readDigits? base 0 (digits base number) = some number := by
  induction number using Nat.strongRecOn with
  | _ number ih =>
    rw [digits]
    split
    next small =>
      have below : number < base := by omega
      simp [readDigits?, digitValue?_digit below bounded]
    next large =>
      have smaller : number / base < number := Nat.div_lt_self (by omega) (by omega)
      rw [readDigits?_append, ih _ smaller]
      simp [readDigits?, digitValue?_digit (Nat.mod_lt number (by omega : 0 < base)) bounded,
        Nat.div_add_mod]

theorem digits_ne_nil (base number : Nat) : digits base number ≠ [] := by
  rw [digits]
  split <;> simp

/-- Reading inverts writing. -/
theorem readNumeral?_digits {base : Nat} (positive : 2 ≤ base) (bounded : base ≤ 16) (number : Nat) :
    readNumeral? base (digits base number) = some number := by
  simp [readNumeral?, digits_ne_nil, readDigits?_digits positive bounded]

end Mips.Text
