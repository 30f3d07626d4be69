import Mips.Expansion
import Mips.Settings
import Mips.Symbol

/-!
Giving addresses to statements. Statements are placed one after another in the segment that the last
directive switched to; a label is bound to the address of the next statement that takes one, and to the
end of the segment if there is none in its file.
-/

namespace Mips

/-- A part of memory that statements are placed in. -/
inductive Area where
  | text
  | data
  | kernelText
  | kernelData
  deriving DecidableEq, Repr

namespace Area

def segment : Area → Segment
  | .text => .text
  | .data => .data
  | .kernelText => .kernelText
  | .kernelData => .kernelData

def isText (area : Area) : Bool := area.segment.isText

def start (layout : Layout) (area : Area) : Nat := (layout.segmentBase area.segment).toNat

def stop (layout : Layout) : Area → Nat
  | .text => layout.externBase.toNat
  | .data => layout.heapBase.toNat
  | .kernelText => layout.kdataBase.toNat
  | .kernelData => 0x100000000

end Area

/-- Where the next statement of each area is placed. -/
structure Counters where
  text : Nat
  data : Nat
  kernelText : Nat
  kernelData : Nat
  deriving DecidableEq, Repr

namespace Counters

def get (counters : Counters) : Area → Nat
  | .text => counters.text
  | .data => counters.data
  | .kernelText => counters.kernelText
  | .kernelData => counters.kernelData

def set (counters : Counters) (area : Area) (value : Nat) : Counters :=
  match area with
  | .text => { counters with text := value }
  | .data => { counters with data := value }
  | .kernelText => { counters with kernelText := value }
  | .kernelData => { counters with kernelData := value }

@[simp] theorem get_set (counters : Counters) (area other : Area) (value : Nat) :
    (counters.set area value).get other = if other = area then value else counters.get other := by
  cases area <;> cases other <;> rfl

end Counters

/-- A problem and the part of the sources it concerns. -/
structure Finding where
  file : Nat
  line : Nat
  span : Span
  problem : Problem

/-- A statement that takes an address. -/
structure Placed where
  file : Nat
  statement : Statement
  address : Address

/-- A label that a file shares with the others, and the line that says so. -/
structure Export where
  file : Nat
  line : Nat
  label : Label

/-- What is known after some statements have been placed; lists begin with the latest entry. -/
structure Placement where
  area : Area
  counters : Counters
  /-- Where the next symbol that is reserved by name is placed. -/
  externCounter : Nat
  symbols : SymbolTable
  /-- The labels of this file that no address has been found for yet, and their lines. -/
  pending : List (Label × Nat)
  exports : List Export
  placed : List Placed
  findings : List Finding

/-- The least multiple of the alignment that is not below the address. -/
def alignUp (address alignment : Nat) : Nat := (address + alignment - 1) / alignment * alignment

namespace Directive

def itemCount : List DataItem → Nat
  | [] => 0
  | item :: rest => item.count + itemCount rest

def alignment : Directive → Nat
  | .word _ => 4
  | .half _ => 2
  | _ => 1

def size : Directive → Nat
  | .word items => 4 * itemCount items
  | .half items => 2 * itemCount items
  | .byte items => itemCount items
  | .ascii content => content.utf8ByteSize
  | .asciiz content => content.utf8ByteSize + 1
  | .space size => size
  | _ => 0

end Directive

namespace Placement

def initial (layout : Layout) : Placement where
  area := .text
  counters :=
    ⟨Area.start layout .text, Area.start layout .data, Area.start layout .kernelText,
     Area.start layout .kernelData⟩
  externCounter := layout.externBase.toNat
  symbols := .empty
  pending := []
  exports := []
  placed := []
  findings := []

def counter (placement : Placement) : Nat := placement.counters.get placement.area

def withCounter (placement : Placement) (value : Nat) : Placement :=
  { placement with counters := placement.counters.set placement.area value }

def report (placement : Placement) (file line : Nat) (span : Span) (problem : Problem) : Placement :=
  { placement with findings := ⟨file, line, span, problem⟩ :: placement.findings }

def reject (placement : Placement) (file : Nat) (statement : Statement) (problem : Problem) : Placement :=
  placement.report file statement.line statement.span problem

/-- Binds a label of a file to the counter of the current area, unless the file has defined it before. -/
def define (placement : Placement) (file : Nat) (label : Label) (line : Nat) : Placement :=
  match placement.symbols.local? file label.name with
  | some _ => placement.report file line label.span (.duplicateLabel label.name)
  | none =>
    { placement with
      symbols := placement.symbols.insertLocal
        ⟨label.name, UInt32.ofNat placement.counter, placement.area.segment, false, file⟩ }

/-- Binds the pending labels, in the order in which they are written. -/
def bind (placement : Placement) (file : Nat) : Placement :=
  placement.pending.reverse.foldl (fun placement pending => placement.define file pending.1 pending.2)
    { placement with pending := [] }

/-- Switches to an area, perhaps at an address, which has to lie in it. -/
def switch (placement : Placement) (layout : Layout) (file : Nat) (statement : Statement) (area : Area)
    (address : Option Address) : Placement :=
  let switched := { placement with area := area }
  match address with
  | none => switched
  | some address =>
    if layout.segmentOf address = some area.segment && (!area.isText || Word.isAligned address) then
      switched.withCounter address.toNat
    else switched.reject file statement (.invalidSegmentAddress address area.segment)

/-- Reserves memory under a global name, unless that has been done before. -/
def reserve (placement : Placement) (layout : Layout) (file : Nat) (statement : Statement)
    (label : Label) (size : Nat) : Placement :=
  match placement.symbols.global? label.name with
  | some _ => placement
  | none =>
    let start := alignUp placement.externCounter 4
    if layout.dataBase.toNat < start + size then placement.reject file statement (.segmentOverflow .data)
    else
      { placement with
        externCounter := start + size
        symbols := placement.symbols.insertGlobal ⟨label.name, UInt32.ofNat start, .data, true, file⟩ }

/-- Binds the pending labels and gives the statement this many bytes of the current area. -/
def allocate (placement : Placement) (layout : Layout) (file : Nat) (statement : Statement)
    (size : Nat) : Placement :=
  let bound := placement.bind file
  let start := bound.counter
  if bound.area.stop layout < start + size then
    bound.reject file statement (.segmentOverflow bound.area.segment)
  else
    { bound.withCounter (start + size) with
      placed := ⟨file, statement, UInt32.ofNat start⟩ :: bound.placed }

/-- The context in which statements are placed, where no address of a label is known. -/
def sizingContext (placement : Placement) (settings : Settings) : ExpansionContext :=
  ⟨UInt32.ofNat placement.counter, settings.extendedAssembler, settings.delayedBranching, none⟩

def placeInstruction (placement : Placement) (settings : Settings) (file : Nat) (statement : Statement)
    (written : WrittenInstruction) : Placement :=
  if !placement.area.isText then placement.reject file statement .instructionInData
  else
    match written.expand (placement.sizingContext settings) with
    | .ok instructions => placement.allocate settings.layout file statement (4 * instructions.length)
    | .error problem => (placement.bind file).reject file statement problem

def placeDirective (placement : Placement) (settings : Settings) (file : Nat) (statement : Statement)
    (directive : Directive) : Placement :=
  let layout := settings.layout
  match directive with
  | .text address => placement.switch layout file statement .text address
  | .data address => placement.switch layout file statement .data address
  | .ktext address => placement.switch layout file statement .kernelText address
  | .kdata address => placement.switch layout file statement .kernelData address
  | .align exponent => placement.withCounter (alignUp placement.counter (Nat.pow 2 exponent))
  | .globl labels =>
    { placement with
      exports := (labels.map fun label => ⟨file, statement.line, label⟩).reverse ++ placement.exports }
  | .external label size => placement.reserve layout file statement label size
  | .set _ => placement.reject file statement (.directiveIgnored "set")
  | directive =>
    if placement.area.isText then placement.reject file statement (.dataInText directive.name)
    else
      (placement.withCounter (alignUp placement.counter directive.alignment)).allocate layout file
        statement directive.size

def place (settings : Settings) (file : Nat) (placement : Placement) (statement : Statement) :
    Placement :=
  let placement :=
    { placement with
      pending := (statement.labels.map fun label => (label, statement.line)).reverse ++ placement.pending }
  match statement.content with
  | none => placement
  | some (.instruction written) => placement.placeInstruction settings file statement written
  | some (.directive directive) => placement.placeDirective settings file statement directive

/-- Places the statements of a file, which begins in the text segment. -/
def placeFile (placement : Placement) (settings : Settings) (file : Nat) (statements : List Statement) :
    Placement :=
  (statements.foldl (place settings file) { placement with area := .text, pending := [] }).bind file

/-- Places the statements of files that are counted from `file`. -/
def placeFiles (placement : Placement) (settings : Settings) (file : Nat) :
    List (List Statement) → Placement
  | [] => placement
  | statements :: rest => (placement.placeFile settings file statements).placeFiles settings (file + 1) rest

/-- Makes a label of a file global; it may be said more than once, but not by two files. -/
def share (placement : Placement) (shared : Export) : Placement :=
  let name := shared.label.name
  match placement.symbols.local? shared.file name with
  | some symbol =>
    let erased := placement.symbols.eraseLocal shared.file name
    match placement.symbols.global? name with
    | some _ =>
      { placement with symbols := erased }.report shared.file shared.line shared.label.span
        (.duplicateLabel name)
    | none => { placement with symbols := erased.insertGlobal { symbol with isGlobal := true } }
  | none =>
    if (placement.symbols.global? name).any fun symbol => symbol.file = shared.file then placement
    else placement.report shared.file shared.line shared.label.span (.undefinedLabel name)

/-- Makes the shared labels global, in the order in which they were said to be. -/
def shareAll (placement : Placement) : Placement := placement.exports.reverse.foldl share placement

def ofFiles (settings : Settings) (files : List (List Statement)) : Placement :=
  ((initial settings.layout).placeFiles settings 0 files).shareAll

end Placement

end Mips
