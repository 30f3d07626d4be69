import Mips.Mnemonic
import Mips.Register
import Mips.Span

/-!
What a line of assembly says: the labels it defines, and at most one instruction or directive.
-/

namespace Mips

/-- A name for an address, and the byte offset in its line where it is written. -/
structure Label where
  name : String
  start : Nat
  deriving DecidableEq, Repr

def Label.span (label : Label) : Span := ⟨label.start, label.start + label.name.utf8ByteSize⟩

/-- What an instruction works on. -/
inductive Operand where
  | register (value : Register)
  | immediate (value : Int)
  /-- The address of a label and a number to add to it. -/
  | label (target : Label) (addend : Int)
  /-- The content of a base register, to which a number and perhaps the address of a label are added. -/
  | based (label : Option Label) (offset : Int) (base : Register)
  deriving DecidableEq, Repr

/-- An instruction as it is written, which may stand for several of the machine. -/
structure WrittenInstruction where
  mnemonic : Mnemonic
  operands : List Operand
  deriving DecidableEq, Repr

/-- A value of a data directive. -/
inductive DataValue where
  | integer (value : Int)
  | label (target : Label) (addend : Int)
  deriving DecidableEq, Repr

/-- A value of a data directive and how often it is repeated. -/
structure DataItem where
  value : DataValue
  count : Nat
  deriving DecidableEq, Repr

/-- An instruction to the assembler. -/
inductive Directive where
  /-- Continue in the text segment, perhaps from an address. -/
  | text (address : Option Word)
  /-- Continue in the data segment, perhaps from an address. -/
  | data (address : Option Word)
  /-- Continue in the kernel text segment, perhaps from an address. -/
  | ktext (address : Option Word)
  /-- Continue in the kernel data segment, perhaps from an address. -/
  | kdata (address : Option Word)
  | word (items : List DataItem)
  | half (items : List DataItem)
  | byte (items : List DataItem)
  | ascii (content : String)
  /-- A string followed by a zero byte. -/
  | asciiz (content : String)
  | space (size : Nat)
  /-- Continue at a multiple of this power of two. -/
  | align (exponent : Nat)
  | globl (labels : List Label)
  /-- Reserve this many bytes under a name known to every file. -/
  | external (label : Label) (size : Nat)
  /-- An option, which has no effect. -/
  | set (option : String)
  deriving DecidableEq, Repr

namespace Directive

/-- The name of the directive, without its dot. -/
def name : Directive → String
  | .text _ => "text"
  | .data _ => "data"
  | .ktext _ => "ktext"
  | .kdata _ => "kdata"
  | .word _ => "word"
  | .half _ => "half"
  | .byte _ => "byte"
  | .ascii _ => "ascii"
  | .asciiz _ => "asciiz"
  | .space _ => "space"
  | .align _ => "align"
  | .globl _ => "globl"
  | .external .. => "extern"
  | .set _ => "set"

/-- Whether the directive fills or reserves bytes of a data segment. -/
def isData : Directive → Bool
  | .word _ | .half _ | .byte _ | .ascii _ | .asciiz _ | .space _ => true
  | _ => false

end Directive

/-- The instruction or directive of a line. -/
inductive Content where
  | instruction (written : WrittenInstruction)
  | directive (written : Directive)
  deriving DecidableEq, Repr

/-- What a line says; `span` is the part of the line that the instruction or directive takes. -/
structure Statement where
  line : Nat
  labels : List Label
  content : Option Content
  span : Span
  deriving DecidableEq, Repr

end Mips
