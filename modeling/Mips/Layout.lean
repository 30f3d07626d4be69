import Mips.Text.Numeral

/-!
How the address space is divided into segments.
-/

namespace Mips

/-- A part of the address space with its own rules of access. -/
inductive Segment where
  | text
  | data
  | heap
  | stack
  | kernelText
  | kernelData
  deriving DecidableEq, Repr

namespace Segment

def name : Segment → String
  | .text => ".text"
  | .data => ".data"
  | .heap => "heap"
  | .stack => "stack"
  | .kernelText => ".ktext"
  | .kernelData => ".kdata"

def isText : Segment → Bool
  | .text | .kernelText => true
  | _ => false

end Segment

/--
The addresses that bound the segments. Each segment ends where the next begins, except that the stack ends
with `userHigh` and the kernel data with the address space.
-/
structure Layout where
  textBase : Address
  /-- Where the data segment begins, with the symbols that are reserved by name. -/
  externBase : Address
  globalPointer : Address
  /-- Where the data directives begin in the data segment. -/
  dataBase : Address
  heapBase : Address
  stackLimit : Address
  stackPointer : Address
  stackBase : Address
  /-- The last address of the stack. -/
  userHigh : Address
  ktextBase : Address
  /-- Where execution continues after a fault. -/
  exceptionHandler : Address
  kdataBase : Address
  deriving DecidableEq, Repr

namespace Layout

/-- The layout of a full 32-bit address space. -/
def standard : Layout where
  textBase := 0x00400000
  externBase := 0x10000000
  globalPointer := 0x10008000
  dataBase := 0x10010000
  heapBase := 0x10040000
  stackLimit := 0x7FC00000
  stackPointer := 0x7FFFEFFC
  stackBase := 0x7FFFFFFC
  userHigh := 0x7FFFFFFF
  ktextBase := 0x80000000
  exceptionHandler := 0x80000180
  kdataBase := 0x90000000

/-- A layout whose user addresses all fit into 16 bits. -/
def compact : Layout where
  textBase := 0x00000000
  externBase := 0x00001000
  globalPointer := 0x00001800
  dataBase := 0x00002000
  heapBase := 0x00003000
  stackLimit := 0x00003000
  stackPointer := 0x00003FFC
  stackBase := 0x00003FFC
  userHigh := 0x00003FFF
  ktextBase := 0x00004000
  exceptionHandler := 0x00004180
  kdataBase := 0x00005000

/-- The segment an address lies in, if it is mapped. -/
def segmentOf (layout : Layout) (address : Address) : Option Segment :=
  if address < layout.textBase then none
  else if address < layout.externBase then some .text
  else if address < layout.heapBase then some .data
  else if address < layout.stackLimit then some .heap
  else if address ≤ layout.userHigh then some .stack
  else if address < layout.ktextBase then none
  else if address < layout.kdataBase then some .kernelText
  else some .kernelData

def segmentBase (layout : Layout) : Segment → Address
  | .text => layout.textBase
  | .data => layout.dataBase
  | .heap => layout.heapBase
  | .stack => layout.stackLimit
  | .kernelText => layout.ktextBase
  | .kernelData => layout.kdataBase

/-- What makes a layout unusable. -/
inductive Flaw where
  | unordered (lower upper : String)
  | misaligned (name : String) (address : Address)
  deriving DecidableEq, Repr

def Flaw.message : Flaw → String
  | .unordered lower upper => "memory layout has " ++ lower ++ " above " ++ upper
  | .misaligned name address =>
    "memory layout has misaligned " ++ name ++ " (" ++ Text.hex address ++ ")"

def Flaw.help : Flaw → String
  | .unordered .. =>
    "segments must be ordered: text, extern, data, heap, stack, kernel text, kernel data"
  | .misaligned .. => "segment boundaries must be multiples of 4"

/-- The addresses that have to be multiples of four, with their names. -/
def boundaries (layout : Layout) : List (String × Address) :=
  [("text_base", layout.textBase), ("extern_base", layout.externBase),
   ("global_pointer", layout.globalPointer), ("data_base", layout.dataBase),
   ("heap_base", layout.heapBase), ("stack_limit", layout.stackLimit),
   ("stack_pointer", layout.stackPointer), ("stack_base", layout.stackBase),
   ("ktext_base", layout.ktextBase), ("exception_handler", layout.exceptionHandler),
   ("kdata_base", layout.kdataBase)]

/-- Two addresses that have to be in order, with their names; `strict` if they may not be equal. -/
structure Precedence where
  lower : String × Address
  upper : String × Address
  strict : Bool

def Precedence.holds (pair : Precedence) : Bool :=
  if pair.strict then pair.lower.2 < pair.upper.2
  else pair.lower.2 ≤ pair.upper.2

def precedences (layout : Layout) : List Precedence :=
  [⟨("text_base", layout.textBase), ("extern_base", layout.externBase), true⟩,
   ⟨("extern_base", layout.externBase), ("data_base", layout.dataBase), false⟩,
   ⟨("extern_base", layout.externBase), ("global_pointer", layout.globalPointer), false⟩,
   ⟨("data_base", layout.dataBase), ("heap_base", layout.heapBase), true⟩,
   ⟨("heap_base", layout.heapBase), ("stack_limit", layout.stackLimit), false⟩,
   ⟨("stack_limit", layout.stackLimit), ("stack_pointer", layout.stackPointer), false⟩,
   ⟨("stack_pointer", layout.stackPointer), ("stack_base", layout.stackBase), false⟩,
   ⟨("stack_base", layout.stackBase), ("user_high", layout.userHigh), true⟩,
   ⟨("user_high", layout.userHigh), ("ktext_base", layout.ktextBase), true⟩,
   ⟨("ktext_base", layout.ktextBase), ("exception_handler", layout.exceptionHandler), false⟩,
   ⟨("exception_handler", layout.exceptionHandler), ("kdata_base", layout.kdataBase), true⟩]

/-- The first flaw of a layout: addresses that are misaligned come before those that are out of order. -/
def flaw? (layout : Layout) : Option Flaw :=
  match layout.boundaries.find? fun boundary => !Word.isAligned boundary.2 with
  | some (name, address) => some (.misaligned name address)
  | none =>
    (layout.precedences.find? fun pair => !pair.holds).map fun pair =>
      .unordered pair.lower.1 pair.upper.1

def Valid (layout : Layout) : Prop := layout.flaw? = none

instance (layout : Layout) : Decidable layout.Valid := inferInstanceAs (Decidable (_ = none))

theorem valid_standard : standard.Valid := by decide

theorem valid_compact : compact.Valid := by decide

end Layout

end Mips
