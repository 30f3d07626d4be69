import Mips.Text.Numeral
import Mips.Text.Printable

/-!
Texts in double quotes, as error messages show them: quotes, backslashes and the common controls are
escaped with a backslash, and a character that cannot be shown by itself is given by its number.
-/

namespace Mips.Text

def escaped (c : Char) : List Char :=
  match c with
  | '\x00' => ['\\', '0']
  | '\t' => ['\\', 't']
  | '\r' => ['\\', 'r']
  | '\n' => ['\\', 'n']
  | '\\' => ['\\', '\\']
  | '"' => ['\\', '"']
  | c =>
    if isGraphemeExtender c || isUnprintable c then
      ['\\', 'u', '\x7b'] ++ digits 16 c.toNat ++ ['\x7d']
    else [c]

def quoted (characters : List Char) : List Char := '"' :: characters.flatMap escaped ++ ['"']

end Mips.Text
