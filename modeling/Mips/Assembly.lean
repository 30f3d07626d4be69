import Mips.Assembly.Emission
import Mips.Statement.Parser

/-!
Assembling source files into a program. All problems of all files are reported at once, in the order of
files and lines.
-/

namespace Mips

namespace Assembly

/-- The errors of a file that are found by reading it. -/
def syntaxFindings (file : Nat) (errors : List SourceError) : List Finding :=
  errors.map fun error => ⟨file, error.line, error.span, .unreadable error.error⟩

/-- What is found by reading files that are counted from `file`. -/
def readingFindings (file : Nat) : List (List SourceError) → List Finding
  | [] => []
  | errors :: rest => syntaxFindings file errors ++ readingFindings (file + 1) rest

def diagnostic (sources : List Source) (finding : Finding) : Diagnostic where
  file := finding.file
  fileName := (sources[finding.file]?.map Source.name).getD ""
  line := finding.line
  span := finding.span
  severity := finding.problem.severity
  problem := finding.problem

/-- Where the program starts: at the global label `main`, if there is one and it is asked for. -/
def entry (settings : Settings) (symbols : SymbolTable) : Address :=
  if settings.startAtMain then
    ((symbols.global? "main").map Symbol.address).getD settings.layout.textBase
  else settings.layout.textBase

def emission (settings : Settings) (sources : List Source) (placement : Placement) : Emission :=
  placement.placed.reverse.foldl
    (Emission.emit settings placement.symbols (sources.map fun source => (lines source.text).toArray)) .initial

def diagnostics (settings : Settings) (sources : List Source) (findings : List Finding) :
    List Diagnostic :=
  let sorted := (findings.map (diagnostic sources)).mergeSort Diagnostic.notAfter
  if settings.warningsAreErrors then sorted.map Diagnostic.promoted else sorted

end Assembly

open Assembly in
/-- The program of the sources, or all diagnostics if one of them is an error. -/
def assemble (settings : Settings) (sources : List Source) : Except (List Diagnostic) Program :=
  let parsed := sources.map fun source => parseLines source.text
  let placement := Placement.ofFiles settings (parsed.map Prod.fst)
  let emission := emission settings sources placement
  let findings := readingFindings 0 (parsed.map Prod.snd) ++ placement.findings.reverse ++
    emission.findings.reverse
  let diagnostics := diagnostics settings sources findings
  if diagnostics.any fun diagnostic => diagnostic.severity = .error then .error diagnostics
  else .ok
    { statements := emission.statements
      data := emission.data
      symbols := placement.symbols
      entry := entry settings placement.symbols
      warnings := diagnostics
      files := sources.map Source.name }

end Mips
