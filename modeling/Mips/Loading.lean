import Mips.Machine
import Mips.Program
import Mips.Settings

/-!
Loading a program into a machine.
-/

namespace Mips

variable [Generator]

def Program.fill (program : Program) (memory : Memory) : Memory :=
  let withCode := program.statementList.foldl
    (fun memory statement => memory.setWord statement.address statement.instruction.word) memory
  program.data.toList.foldl (fun memory (address, byte) => memory.setByte address byte) withCode

def Machine.blank (settings : Settings) : Machine :=
  .initial settings.layout settings.selfModifyingCode settings.layout.textBase

/-- The machine in which a program is loaded, with the arguments of the settings on its stack. -/
def Machine.load (settings : Settings) (program : Program) : Machine :=
  let start := Machine.initial settings.layout settings.selfModifyingCode program.entry
  { start with memory := program.fill start.memory }.storeArguments settings.programArguments

end Mips
