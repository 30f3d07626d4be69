import Mips.Token

/-!
What can be wrong with a line of assembly.
-/

namespace Mips

/-- Why a line is no statement. -/
inductive SyntaxError where
  | lexical (error : LexError)
  /-- A token that cannot stand here, described, and a description of what can. -/
  | unexpectedToken (found expected : String)
  | unexpectedEnd (expected : String)
  | unknownDirective (name : String)
  | unsupportedDirective (name : String)
  | unknownInstruction (name : String)
  /-- A number outside its range, which is described. -/
  | invalidArgument (expected : String)
  | invalidDefinition
  deriving DecidableEq, Repr

namespace SyntaxError

def message : SyntaxError → String
  | .lexical error => error.message
  | .unexpectedToken found expected => "unexpected " ++ found ++ ", expected " ++ expected
  | .unexpectedEnd expected => "unexpected end of line, expected " ++ expected
  | .unknownDirective name => "unknown directive ." ++ name
  | .unsupportedDirective name => "unsupported directive ." ++ name
  | .unknownInstruction name => "unknown instruction '" ++ name ++ "'"
  | .invalidArgument expected => "invalid argument, expected " ++ expected
  | .invalidDefinition => "invalid .eqv definition"

def help : SyntaxError → Option String
  | .lexical error => error.help
  | .unknownDirective _ =>
    some "see the list of supported directives, such as .text, .data, .word, .asciiz"
  | .unsupportedDirective name =>
    if name = "float" || name = "double" then
      some "floating point is not supported by this simulator"
    else
      some "macros and file inclusion are not supported; assemble multiple files instead"
  | .unknownInstruction name =>
    if name.toList.contains '.' then some "floating point instructions are not supported" else none
  | .invalidDefinition => some "an .eqv directive has the form \u0060.eqv NAME value\u0060"
  | .unexpectedToken .. | .unexpectedEnd _ | .invalidArgument _ => none

end SyntaxError

end Mips
