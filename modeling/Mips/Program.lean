import Mips.Diagnostic
import Mips.Instruction.Disassembly
import Mips.Symbol

/-!
Assembled programs.
-/

namespace Mips

open Std (ExtTreeMap)

/-- A machine instruction of a program and where it comes from. -/
structure ProgramStatement where
  address : Address
  instruction : Instruction
  file : Nat
  line : Nat
  /-- The source line, for the first instruction of the line. -/
  source : Option String

def ProgramStatement.text (statement : ProgramStatement) : String :=
  statement.instruction.disassembly statement.address

/-- A program that can be loaded into a machine. -/
structure Program where
  statements : ExtTreeMap Address ProgramStatement
  /-- The bytes that the data directives fill. -/
  data : ExtTreeMap Address UInt8
  symbols : SymbolTable
  entry : Address
  warnings : List Diagnostic
  files : List String

namespace Program

def statementAt? (program : Program) (address : Address) : Option ProgramStatement :=
  program.statements[address]?

def statementList (program : Program) : List ProgramStatement :=
  program.statements.toList.map Prod.snd

end Program

/-- Bytes at consecutive addresses, grouped into runs that are as long as possible. -/
def byteRuns : List (Address × UInt8) → List (Address × List UInt8)
  | [] => []
  | (address, byte) :: rest =>
    match byteRuns rest with
    | (start, bytes) :: runs =>
      if start = address + 1 && address + 1 ≠ 0 then (address, byte :: bytes) :: runs
      else (address, [byte]) :: (start, bytes) :: runs
    | [] => [(address, [byte])]

end Mips
