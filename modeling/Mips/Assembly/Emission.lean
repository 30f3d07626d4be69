import Mips.Assembly.Placement
import Mips.Program
import Mips.Text.Utf8

/-!
Turning placed statements into instructions and bytes, now that the address of every label is known.
-/

namespace Mips

open Std (ExtTreeMap)

namespace Statement

def references (statement : Statement) : List Label :=
  match statement.content with
  | some (.instruction written) => written.operands.filterMap fun operand =>
      match operand with
      | .label target _ => some target
      | .based target _ _ => target
      | _ => none
  | some (.directive (.word items)) => items.filterMap fun item =>
      match item.value with
      | .label target _ => some target
      | .integer _ => none
  | _ => []

/-- Where the statement refers to a label of this name, or the whole statement. -/
def referenceSpan (statement : Statement) (name : String) : Span :=
  ((statement.references.find? fun label => label.name = name).map Label.span).getD statement.span

/-- The part of the line that a problem of the statement concerns. -/
def problemSpan (statement : Statement) (problem : Problem) : Span :=
  match problem with
  | .undefinedLabel name => statement.referenceSpan name
  | _ => statement.span

end Statement

/-- The warning that a number does not fit so many bits, neither with nor without a sign. -/
def truncation (value : Int) (bits : Nat) : List Problem :=
  if -(Nat.pow 2 (bits - 1) : Int) ≤ value && value < Nat.pow 2 bits then []
  else [.valueTruncated value bits]

def DataValue.word (resolve : Label → Except Problem Address) : DataValue → Except Problem Word
  | .integer value => .ok (Word.ofInt value)
  | .label target addend => (resolve target).map fun address => address + Word.ofInt addend

def DataItem.lowBytes (width : Nat) (item : DataItem) : List UInt8 :=
  match item.value with
  | .integer value => (List.replicate item.count ((Word.ofInt value).bytes.take width)).flatten
  | .label .. => []

/-- The warnings about a number that is stored in so many bits. -/
def DataItem.truncations (bits : Nat) (item : DataItem) : List Problem :=
  match item.value with
  | .integer value => truncation value bits
  | .label .. => []

/-- The bytes that a data directive emits, and warnings; reserved bytes are not emitted. -/
def Directive.bytes (resolve : Label → Except Problem Address) :
    Directive → Except Problem (List UInt8 × List Problem)
  | .word items => do
    let words ← items.mapM fun item => do
      let word ← item.value.word resolve
      pure (List.replicate item.count word.bytes).flatten
    return (words.flatten, [])
  | .half items => .ok (items.flatMap (DataItem.lowBytes 2), items.flatMap (DataItem.truncations 16))
  | .byte items => .ok (items.flatMap (DataItem.lowBytes 1), items.flatMap (DataItem.truncations 8))
  | .ascii content => .ok (Text.Utf8.ofText content, [])
  | .asciiz content => .ok (Text.Utf8.ofText content ++ [0], [])
  | _ => .ok ([], [])

/-- The consecutive addresses from one on, with the bytes that lie there. -/
def addressed (start : Address) : List UInt8 → List (Address × UInt8)
  | [] => []
  | byte :: rest => (start, byte) :: addressed (start + 1) rest

/-- What has been emitted for some statements; findings begin with the latest one. -/
structure Emission where
  statements : ExtTreeMap Address ProgramStatement
  data : ExtTreeMap Address UInt8
  findings : List Finding

namespace Emission

def initial : Emission := ⟨∅, ∅, []⟩

def reject (emission : Emission) (placed : Placed) (problem : Problem) : Emission :=
  { emission with
    findings :=
      ⟨placed.file, placed.statement.line, placed.statement.problemSpan problem, problem⟩ ::
        emission.findings }

/-- Emits the instructions of a statement from an address on, the first of them with the source line. -/
def emitInstructions (placed : Placed) (emission : Emission) (address : Address)
    (source : Option String) : List Instruction → Emission
  | [] => emission
  | instruction :: rest =>
    let emission :=
      if emission.statements.contains address then emission.reject placed (.overlap address)
      else
        { emission with
          statements := emission.statements.insert address
            ⟨address, instruction, placed.file, placed.statement.line, source⟩ }
    emitInstructions placed emission (address + 4) none rest

/-- Emits bytes from the address of a statement on, unless one of them has been emitted before. -/
def emitBytes (emission : Emission) (placed : Placed) (bytes : List UInt8) : Emission :=
  let cells := addressed placed.address bytes
  match cells.find? fun cell => emission.data.contains cell.1 with
  | some (address, _) => emission.reject placed (.overlap address)
  | none =>
    { emission with data := cells.foldl (fun data cell => data.insert cell.1 cell.2) emission.data }

def resolve (symbols : SymbolTable) (file : Nat) (label : Label) : Except Problem Address :=
  match symbols.lookup? file label.name with
  | some symbol => .ok symbol.address
  | none => .error (.undefinedLabel label.name)

/-- Emits a placed statement, given the lines of each source. -/
def emit (settings : Settings) (symbols : SymbolTable) (sources : List (Array String))
    (emission : Emission) (placed : Placed) : Emission :=
  let resolve := resolve symbols placed.file
  match placed.statement.content with
  | none => emission
  | some (.instruction written) =>
    let context : ExpansionContext :=
      ⟨placed.address, settings.extendedAssembler, settings.delayedBranching, some resolve⟩
    match written.expand context with
    | .error problem => emission.reject placed problem
    | .ok instructions =>
      let source := (sources[placed.file]?.getD #[])[placed.statement.line - 1]?
      emitInstructions placed emission placed.address source instructions
  | some (.directive directive) =>
    match directive.bytes resolve with
    | .error problem => emission.reject placed problem
    | .ok (bytes, warnings) => (warnings.foldl (fun emission => emission.reject placed) emission).emitBytes
        placed bytes

end Emission

end Mips
