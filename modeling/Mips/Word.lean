/-!
Machine words: 32 bits, read either as an unsigned number or as a signed one, and the
four bytes that a word holds in memory.
-/

namespace Mips

abbrev Word := UInt32

abbrev Address := UInt32

namespace Word

/-- The word as a signed number, between `-2^31` and `2^31 - 1`. -/
def signed (word : Word) : Int := word.toBitVec.toInt

/-- The word congruent to `n` modulo `2^32`. -/
def ofInt (n : Int) : Word := UInt32.ofInt n

/-- Whether `n` is a signed or an unsigned 32-bit number, so that a word stands for it. -/
def holds (n : Int) : Bool := -0x80000000 ≤ n && n ≤ 0xFFFFFFFF

/-- The low `bits` bits of the word, copied upwards from their highest one. -/
def signExtend (bits : Nat) (word : Word) : Word :=
  ofInt ((word.toNat : Int).bmod (Nat.pow 2 bits))

/-- The word shifted right by `amount`, filling with its sign. -/
def shiftRightSigned (word : Word) (amount : Nat) : Word := ofInt (word.signed >>> amount)

/-- How many of the leading bits of the word are zero. -/
def leadingZeros (word : Word) : Nat :=
  if word = 0 then 32 else 31 - word.toNat.log2

/-- The address of the word that holds the byte at `address`. -/
def align (address : Address) : Address := address &&& 0xFFFFFFFC

/-- Whether `address` is a multiple of four. -/
def isAligned (address : Address) : Bool := address % 4 == 0

/-- The bytes of the word, least significant first. -/
def bytes (word : Word) : List UInt8 :=
  [word.toUInt8, (word >>> 8).toUInt8, (word >>> 16).toUInt8, (word >>> 24).toUInt8]

/-- The word whose high half is `high` and whose low half is `low`. -/
def join (high low : Word) : UInt64 := (high.toUInt64 <<< 32) ||| low.toUInt64

def high (pair : UInt64) : Word := (pair >>> 32).toUInt32

def low (pair : UInt64) : Word := pair.toUInt32

@[simp] theorem length_bytes (word : Word) : word.bytes.length = 4 := rfl

end Word

end Mips
