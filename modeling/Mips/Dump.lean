import Mips.Memory
import Mips.Text.Utf8

/-!
Writing out a range of memory as a file.
-/

namespace Mips

/-- How a range of memory is written out. -/
inductive DumpFormat where
  | binary
  /-- Each word as eight hexadecimal digits on a line of its own. -/
  | hexText
  /-- Each word as 32 bits on a line of its own. -/
  | binaryText
  deriving DecidableEq, Repr

namespace DumpFormat

def all : List DumpFormat := [.binary, .hexText, .binaryText]

def name : DumpFormat → String
  | .binary => "binary"
  | .hexText => "hex"
  | .binaryText => "binary-text"

def fileExtension : DumpFormat → String
  | .binary => "bin"
  | .hexText => "hex"
  | .binaryText => "txt"

/-- The format with this name, in letters of either case. -/
def ofName? (name : String) : Option DumpFormat :=
  all.find? fun format => format.name = name.toLower

def wordBytes (format : DumpFormat) (word : Word) : List UInt8 :=
  match format with
  | .binary => word.bytes
  | .hexText => Text.Utf8.ofText (Text.hexDigits word ++ "\n")
  | .binaryText => Text.Utf8.ofText (Text.bits word ++ "\n")

end DumpFormat

/-- The words that hold the bytes from an address up to another one. -/
def Memory.wordRange (memory : Memory) (start stop : Address) : List Word :=
  let first := start.toNat / 4
  let last := (stop.toNat + 3) / 4
  (List.range (last - first)).map fun index => memory.wordAt (UInt32.ofNat (4 * (first + index)))

/-- The words that hold the bytes from an address up to another one, in a format. -/
def DumpFormat.dump (format : DumpFormat) (memory : Memory) (start stop : Address) : List UInt8 :=
  (memory.wordRange start stop).flatMap format.wordBytes

end Mips
