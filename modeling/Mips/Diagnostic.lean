import Mips.Layout
import Mips.Mnemonic
import Mips.Span
import Mips.Statement.SyntaxError

/-!
What the assembler reports about its sources.
-/

namespace Mips

/-- How bad a report is: an error makes assembly fail. -/
inductive Severity where
  | error
  | warning
  deriving DecidableEq, Repr

def Severity.name : Severity → String
  | .error => "error"
  | .warning => "warning"

/-- What can be wrong with a statement. -/
inductive Problem where
  | unreadable (error : SyntaxError)
  | duplicateLabel (name : String)
  | undefinedLabel (name : String)
  /-- A number that does not fit its field of so many bits. -/
  | immediateOutOfRange (value : Int) (bits : Nat) (signed : Bool)
  /-- A branch over so many words. -/
  | branchOutOfRange (offset : Int)
  | misalignedTarget (address : Address)
  | jumpOutOfRegion (address : Address)
  | extendedDisabled (mnemonic : Mnemonic)
  | operandMismatch (mnemonic : Mnemonic)
  | instructionInData
  /-- A data directive of this name in a text segment. -/
  | dataInText (directive : String)
  | invalidSegmentAddress (address : Address) (segment : Segment)
  | segmentOverflow (segment : Segment)
  /-- An address that was given to two statements. -/
  | overlap (address : Address)
  | directiveIgnored (directive : String)
  /-- A number that was cut down to so many bits. -/
  | valueTruncated (value : Int) (bits : Nat)
  deriving DecidableEq, Repr

namespace Problem

def severity : Problem → Severity
  | .directiveIgnored _ | .valueTruncated .. => .warning
  | _ => .error

def message : Problem → String
  | .unreadable error => error.message
  | .duplicateLabel name => "label '" ++ name ++ "' was defined multiple times"
  | .undefinedLabel name => "label '" ++ name ++ "' is not defined"
  | .immediateOutOfRange value bits signed =>
    "immediate " ++ Text.decimal value ++ " does not fit in " ++ (if signed then "a signed " else "an unsigned ") ++
      Text.natural bits ++ "-bit field"
  | .branchOutOfRange offset => "branch offset of " ++ Text.decimal offset ++ " words is out of range"
  | .misalignedTarget address => "target address " ++ Text.hex address ++ " is not word-aligned"
  | .jumpOutOfRegion address => "jump target " ++ Text.hex address ++ " is out of range of this jump"
  | .extendedDisabled mnemonic =>
    "'" ++ mnemonic.name ++ "' with these operands requires the extended assembler"
  | .operandMismatch mnemonic =>
    "invalid operands for '" ++ mnemonic.name ++ "', expected " ++ mnemonic.signature
  | .instructionInData => "instructions cannot appear in a data segment"
  | .dataInText directive => "." ++ directive ++ " cannot appear in a text segment"
  | .invalidSegmentAddress address segment =>
    "address " ++ Text.hex address ++ " is not a valid " ++ segment.name ++ " address"
  | .segmentOverflow segment => segment.name ++ " segment is full"
  | .overlap address => "address " ++ Text.hex address ++ " was assigned more than once"
  | .directiveIgnored directive => "." ++ directive ++ " is ignored"
  | .valueTruncated value bits =>
    "value " ++ Text.decimal value ++ " was truncated to " ++ Text.natural bits ++ " bits"

def help : Problem → Option String
  | .unreadable error => error.help
  | .duplicateLabel _ =>
    some "labels must be unique within a file, and global labels must be unique across all files"
  | .undefinedLabel _ => some "labels from another file must be declared with .globl in that file"
  | .immediateOutOfRange .. => some "enable the extended assembler to load large immediates through $at"
  | .branchOutOfRange _ =>
    some "branches can only reach 32768 instructions in either direction, try a jump instead"
  | .jumpOutOfRegion _ => some "try jr with a register holding the target address"
  | .extendedDisabled _ => some "enable the extended assembler in the settings"
  | .instructionInData => some "try adding a .text directive before this instruction"
  | .dataInText _ => some "try adding a .data directive before this directive"
  | .overlap _ => some "try moving the starting address of one of these segments"
  | .misalignedTarget _ | .operandMismatch _ | .invalidSegmentAddress .. | .segmentOverflow _
  | .directiveIgnored _ | .valueTruncated .. => none

end Problem

/-- A problem and the part of the sources it concerns; files are counted from 0 and lines from 1. -/
structure Diagnostic where
  file : Nat
  fileName : String
  line : Nat
  span : Span
  severity : Severity
  problem : Problem
  deriving DecidableEq, Repr

namespace Diagnostic

def text (diagnostic : Diagnostic) : String :=
  diagnostic.fileName ++ ":" ++ Text.natural diagnostic.line ++ ": " ++ diagnostic.severity.name ++
    ": " ++ diagnostic.problem.message

/-- Whether the first diagnostic stands in an earlier file or line than the second, or in the same one. -/
def notAfter (first second : Diagnostic) : Bool :=
  first.file < second.file || (first.file == second.file && first.line ≤ second.line)

def promoted (diagnostic : Diagnostic) : Diagnostic := { diagnostic with severity := .error }

/-- The diagnostics, one on a line. -/
def report (diagnostics : List Diagnostic) : String := "\n".intercalate (diagnostics.map text)

end Diagnostic

end Mips
