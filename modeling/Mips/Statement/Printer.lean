import Mips.Instruction.Disassembly
import Mips.Statement

/-!
Instructions as they are written in assembly.
-/

namespace Mips

/-- A number after a label: nothing for zero, and otherwise its sign and digits. -/
def addendText (addend : Int) : String :=
  if addend = 0 then "" else if addend < 0 then Text.decimal addend else "+" ++ Text.decimal addend

def Operand.text : Operand → String
  | .register value => value.text
  | .immediate value => Text.decimal value
  | .label target addend => target.name ++ addendText addend
  | .based (some target) offset base => target.name ++ addendText offset ++ "(" ++ base.text ++ ")"
  | .based none offset base =>
    (if offset = 0 then "" else Text.decimal offset) ++ "(" ++ base.text ++ ")"

def WrittenInstruction.text (written : WrittenInstruction) : String :=
  Instruction.line written.mnemonic.name (written.operands.map Operand.text)

end Mips
