/-!
Source files and their lines.
-/

namespace Mips

/-- A file of assembly source. -/
structure Source where
  name : String
  text : String
  deriving DecidableEq, Repr

/-- The line whose characters are given last to first, without the carriage return before its end. -/
def endedLine : List Char → List Char
  | '\r' :: reversed => reversed.reverse
  | reversed => reversed.reverse

/--
The lines of a text after the characters of `reversed`, which are given last to first. A line feed, alone
or after a carriage return, ends a line, and the last line may lack it.
-/
def linesFrom (reversed : List Char) : List Char → List (List Char)
  | [] => if reversed.isEmpty then [] else [reversed.reverse]
  | '\n' :: rest => endedLine reversed :: linesFrom [] rest
  | c :: rest => linesFrom (c :: reversed) rest

def lines (text : String) : List String := (linesFrom [] text.toList).map String.ofList

end Mips
