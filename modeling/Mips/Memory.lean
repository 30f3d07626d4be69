import Mips.Layout
import Mips.Text.Numeral
import Std.Data.ExtTreeMap

/-!
Memory. Words are kept under their aligned addresses, with the least significant byte first. A word that was
never written is absent: it reads as zero, but it is no instruction.
-/

namespace Mips

open Std (ExtTreeMap)

/-- How many bytes an access moves. -/
inductive Width where
  | byte
  | half
  | word
  deriving DecidableEq, Repr

namespace Width

def bytes : Width → Word
  | .byte => 1
  | .half => 2
  | .word => 4

/-- A word whose low bytes, as many as the width has, are all ones. -/
def mask : Width → Word
  | .byte => 0xFF
  | .half => 0xFFFF
  | .word => 0xFFFFFFFF

end Width

/-- Why memory cannot be accessed at an address. -/
inductive MemoryError where
  | misaligned (address : Address)
  | inaccessible (address : Address)
  deriving DecidableEq, Repr

namespace MemoryError

def address : MemoryError → Address
  | .misaligned address | .inaccessible address => address

def message : MemoryError → String
  | .misaligned address =>
    "address " ++ Text.hex address ++ " is not aligned on a boundary of its access width"
  | .inaccessible address => "address " ++ Text.hex address ++ " is out of range or not accessible"

def help : MemoryError → String
  | .misaligned _ => "words must be accessed at multiples of 4 and halfwords at multiples of 2"
  | .inaccessible _ => "the text segment can only be accessed if self-modifying code is enabled"

end MemoryError

/-- The words that are present, and the rules for accessing them. -/
structure Memory where
  words : ExtTreeMap Address Word
  layout : Layout
  /-- Whether text segments can be read and written and other segments executed. -/
  selfModifying : Bool

/-- How many bits lie below the byte at an address in its word. -/
def bitOffset (address : Address) : Word := 8 * (address &&& 3)

/-- The bytes at an address of a word, as an unsigned number. -/
def extract (width : Width) (address : Address) (word : Word) : Word :=
  (word >>> bitOffset address) &&& width.mask

/-- The word with the bytes at an address replaced by the low bytes of a value. -/
def merge (width : Width) (address : Address) (value word : Word) : Word :=
  let mask := width.mask <<< bitOffset address
  (word &&& ~~~mask) ||| ((value <<< bitOffset address) &&& mask)

namespace Memory

def empty (layout : Layout) (selfModifying : Bool) : Memory := ⟨∅, layout, selfModifying⟩

/-- The word that holds the byte at an address, if it is present. -/
def word? (memory : Memory) (address : Address) : Option Word := memory.words[Word.align address]?

/-- The word that holds the byte at an address; an absent word is zero. -/
def wordAt (memory : Memory) (address : Address) : Word := (memory.word? address).getD 0

def byteAt (memory : Memory) (address : Address) : UInt8 :=
  (extract .byte address (memory.wordAt address)).toUInt8

/-- Memory in which the word under an aligned address is as given, present or absent. -/
def assign (memory : Memory) (address : Address) (content : Option Word) : Memory :=
  match content with
  | some word => { memory with words := memory.words.insert address word }
  | none => { memory with words := memory.words.erase address }

/-- Memory in which the word that holds the byte at an address has changed. -/
def setWord (memory : Memory) (address : Address) (word : Word) : Memory :=
  memory.assign (Word.align address) (some word)

def setBytesOf (memory : Memory) (width : Width) (address : Address) (value : Word) : Memory :=
  memory.setWord address (merge width address value (memory.wordAt address))

def setByte (memory : Memory) (address : Address) (byte : UInt8) : Memory :=
  memory.setWord address <|
    (memory.wordAt address &&& ~~~(0xFF <<< bitOffset address)) ||| (byte.toUInt32 <<< bitOffset address)

/-- Memory in which the bytes from an address on have changed. -/
def setBytes (memory : Memory) (address : Address) : List UInt8 → Memory
  | [] => memory
  | byte :: rest => (memory.setByte address byte).setBytes (address + 1) rest

/-- Memory in which the words from an address on have changed. -/
def setWords (memory : Memory) (address : Address) : List Word → Memory
  | [] => memory
  | word :: rest => (memory.setWord address word).setWords (address + 4) rest

/-- Why a load or store of this width is not allowed at an address. -/
def dataError? (memory : Memory) (width : Width) (address : Address) : Option MemoryError :=
  if address % width.bytes ≠ 0 then some (.misaligned address)
  else
    match memory.layout.segmentOf address with
    | none => some (.inaccessible address)
    | some segment =>
      if segment.isText && !memory.selfModifying then some (.inaccessible address) else none

/-- The value at an address, as an unsigned number, with only its alignment checked. -/
def peek (memory : Memory) (width : Width) (address : Address) : Except MemoryError Word :=
  if address % width.bytes ≠ 0 then .error (.misaligned address)
  else .ok (extract width address (memory.wordAt address))

/-- Memory with a value stored at an address, with only its alignment checked. -/
def poke (memory : Memory) (width : Width) (address : Address) (value : Word) :
    Except MemoryError Memory :=
  if address % width.bytes ≠ 0 then .error (.misaligned address)
  else .ok (memory.setBytesOf width address value)

/-- The value that a load gives, as an unsigned number. -/
def read (memory : Memory) (width : Width) (address : Address) : Except MemoryError Word :=
  match memory.dataError? width address with
  | some error => .error error
  | none => .ok (extract width address (memory.wordAt address))

def stored (memory : Memory) (width : Width) (address : Address) (value : Word) :
    Except MemoryError (Address × Word) :=
  match memory.dataError? width address with
  | some error => .error error
  | none => .ok (Word.align address, merge width address value (memory.wordAt address))

/-- The word fetched as an instruction, if it is present. -/
def fetch (memory : Memory) (address : Address) : Except MemoryError (Option Word) :=
  if !Word.isAligned address then .error (.misaligned address)
  else
    match memory.layout.segmentOf address with
    | none => .error (.inaccessible address)
    | some segment =>
      if !segment.isText && !memory.selfModifying then .error (.inaccessible address)
      else .ok memory.words[address]?

end Memory

end Mips
