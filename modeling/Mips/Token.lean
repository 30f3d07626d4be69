import Mips.Register

/-!
The words and signs of assembly source, and what can be wrong with one.
-/

namespace Mips

/-- A unit of meaning in a line of assembly. -/
inductive Token where
  | integer (value : Int)
  | register (value : Register)
  | identifier (name : String)
  /-- A directive, named in lowercase and without its dot. -/
  | directive (name : String)
  | text (content : String)
  | colon
  | comma
  | leftParenthesis
  | rightParenthesis
  | plus
  | minus
  | comment
  | newLine
  deriving DecidableEq, Repr

/-- A token in words, for error messages. -/
def Token.description : Token → String
  | .integer value => "integer " ++ Text.decimal value
  | .register value => "register " ++ value.text
  | .identifier name => "identifier '" ++ name ++ "'"
  | .directive name => "directive ." ++ name
  | .text _ => "string literal"
  | .colon => "':'"
  | .comma => "','"
  | .leftParenthesis => "'('"
  | .rightParenthesis => "')'"
  | .plus => "'+'"
  | .minus => "'-'"
  | .comment => "comment"
  | .newLine => "new line"

/-- Why a part of a line is no token. -/
inductive LexError where
  | outOfRange
  | invalidDecimal
  | invalidHex
  | invalidBinary
  | emptyHex
  | emptyBinary
  | unreadableInteger
  | unclosedString
  | invalidCharacter
  | invalidRegister
  | invalidSymbol
  deriving DecidableEq, Repr

namespace LexError

/-- A symbol that starts no token is the error when nothing more is known. -/
instance : Inhabited LexError := ⟨.invalidSymbol⟩

/-- All errors, in the order of their definition. -/
def all : List LexError :=
  [.outOfRange, .invalidDecimal, .invalidHex, .invalidBinary, .emptyHex, .emptyBinary,
   .unreadableInteger, .unclosedString, .invalidCharacter, .invalidRegister, .invalidSymbol]

def message : LexError → String
  | .outOfRange => "numeric token does not fit 32-bit word"
  | .invalidDecimal => "invalid decimal literal"
  | .invalidHex | .emptyHex => "invalid hex literal"
  | .invalidBinary | .emptyBinary => "invalid binary literal"
  | .unreadableInteger => "could not parse integer"
  | .unclosedString => "unclosed string literal"
  | .invalidCharacter => "invalid character literal"
  | .invalidRegister => "invalid register"
  | .invalidSymbol => "unrecognized symbol"

def help : LexError → Option String
  | .outOfRange => some "the range for a word is [-2147483648, 4294967295]"
  | .invalidDecimal => some "a decimal literal only consists of digits 0-9"
  | .invalidHex => some "a hex literal starts with '0x' and consists of 0-9, A-F"
  | .invalidBinary => some "a binary literal starts with '0b' and consists of 0-1"
  | .emptyHex => some "there should be hex digits (0-9, A-F) here"
  | .emptyBinary => some "there should be binary digits (0-1) here"
  | .unreadableInteger => none
  | .unclosedString => some "add a quote to the end of the string literal"
  | .invalidCharacter => some "valid escapes are \\n, \\r, \\t, \\0, \\\\, \\', and \\\""
  | .invalidRegister =>
    some "this must be $0-$31 or a register name such as $t0 (floating point registers are not supported)"
  | .invalidSymbol => some "this char does not occur in any token in MIPS assembly"

end LexError

end Mips
