import Mips.Text.Numeral

/-!
The ways in which a word can be shown.
-/

namespace Mips

/-- A base in which words are shown. -/
inductive NumberBase where
  | binary
  | ternary
  | quaternary
  | quinary
  | senary
  | octal
  | decimal
  | hexadecimal
  /-- The bytes of the word as characters. -/
  | ascii
  deriving DecidableEq, Repr

namespace NumberBase

def all : List NumberBase :=
  [.binary, .ternary, .quaternary, .quinary, .senary, .octal, .decimal, .hexadecimal, .ascii]

/-- The number of the base, which is zero for characters. -/
def radix : NumberBase → Nat
  | .binary => 2
  | .ternary => 3
  | .quaternary => 4
  | .quinary => 5
  | .senary => 6
  | .octal => 8
  | .decimal => 10
  | .hexadecimal => 16
  | .ascii => 0

def ofRadix? (radix : Nat) : Option NumberBase := all.find? fun base => base.radix = radix

def name : NumberBase → String
  | .binary => "Binary"
  | .ternary => "Ternary"
  | .quaternary => "Quaternary"
  | .quinary => "Quinary"
  | .senary => "Senary"
  | .octal => "Octal"
  | .decimal => "Decimal"
  | .hexadecimal => "Hexadecimal"
  | .ascii => "ASCII"

def byteText (byte : UInt8) : List Char :=
  if byte = 0 then ['\\', '0']
  else if byte = 10 then ['\\', 'n']
  else if byte = 9 then ['\\', 't']
  else if byte = 13 then ['\\', 'r']
  else if 0x20 ≤ byte ∧ byte ≤ 0x7E then [Char.ofNat byte.toNat]
  else ['.']

/--
The word in the base: all of its bits, eight hexadecimal digits, an unsigned octal number, a signed number in the
other bases, or its bytes from the most significant one on.
-/
def format (base : NumberBase) (word : Word) : String :=
  match base with
  | .binary => Text.bits word
  | .hexadecimal => Text.hex word
  | .octal => String.ofList (Text.digits 8 word.toNat)
  | .ascii => String.ofList (word.bytes.reverse.flatMap byteText)
  | .ternary | .quaternary | .quinary | .senary | .decimal =>
    String.ofList (Text.signedDigits base.radix word.signed)

/-- The word as an unsigned number, in decimal unless the base is hexadecimal. -/
def formatUnsigned (base : NumberBase) (word : Word) : String :=
  match base with
  | .hexadecimal => Text.hex word
  | _ => Text.natural word.toNat

instance : Inhabited NumberBase := ⟨.hexadecimal⟩

theorem ofRadix?_radix (base : NumberBase) : ofRadix? base.radix = some base := by
  cases base <;> rfl

end NumberBase

end Mips
