import Mips.Operation

/-!
The names that instructions are written with: those of the machine operations, and those of the
instructions that stand for short sequences of machine operations.
Main statement: `ofName?_name`, by which the names are distinct.
-/

namespace Mips

/-- An instruction that the machine does not have, named by its mnemonic. -/
inductive Pseudo where
  | li | la | move | not | neg | negu | abs | b | bal | beqz | bnez | blt | bltu | bgt | bgtu
  | ble | bleu | bge | bgeu | seq | sne | sgt | sgtu | sge | sgeu | sle | sleu | rol | ror | subi
  | subiu | rem | remu
  deriving DecidableEq, Repr

namespace Pseudo

def all : List Pseudo :=
  [.li, .la, .move, .not, .neg, .negu, .abs, .b, .bal, .beqz, .bnez, .blt, .bltu, .bgt, .bgtu,
   .ble, .bleu, .bge, .bgeu, .seq, .sne, .sgt, .sgtu, .sge, .sgeu, .sle, .sleu, .rol, .ror, .subi,
   .subiu, .rem, .remu]

def description : Pseudo → String × String
  | .li => ("li", "$rd, 32-bit immediate")
  | .la => ("la", "$rd, label or $rd, offset($base)")
  | .move => ("move", "$rd, $rs")
  | .not => ("not", "$rd, $rs")
  | .neg => ("neg", "$rd, $rs")
  | .negu => ("negu", "$rd, $rs")
  | .abs => ("abs", "$rd, $rs")
  | .b => ("b", "label")
  | .bal => ("bal", "label")
  | .beqz => ("beqz", "$rs, label")
  | .bnez => ("bnez", "$rs, label")
  | .blt => ("blt", "$rs, $rt or immediate, label")
  | .bltu => ("bltu", "$rs, $rt or immediate, label")
  | .bgt => ("bgt", "$rs, $rt or immediate, label")
  | .bgtu => ("bgtu", "$rs, $rt or immediate, label")
  | .ble => ("ble", "$rs, $rt or immediate, label")
  | .bleu => ("bleu", "$rs, $rt or immediate, label")
  | .bge => ("bge", "$rs, $rt or immediate, label")
  | .bgeu => ("bgeu", "$rs, $rt or immediate, label")
  | .seq => ("seq", "$rd, $rs, $rt or immediate")
  | .sne => ("sne", "$rd, $rs, $rt or immediate")
  | .sgt => ("sgt", "$rd, $rs, $rt or immediate")
  | .sgtu => ("sgtu", "$rd, $rs, $rt or immediate")
  | .sge => ("sge", "$rd, $rs, $rt or immediate")
  | .sgeu => ("sgeu", "$rd, $rs, $rt or immediate")
  | .sle => ("sle", "$rd, $rs, $rt or immediate")
  | .sleu => ("sleu", "$rd, $rs, $rt or immediate")
  | .rol => ("rol", "$rd, $rs, $rt or shamt")
  | .ror => ("ror", "$rd, $rs, $rt or shamt")
  | .subi => ("subi", "$rt, $rs, 32-bit immediate")
  | .subiu => ("subiu", "$rt, $rs, 32-bit immediate")
  | .rem => ("rem", "$rd, $rs, $rt or immediate")
  | .remu => ("remu", "$rd, $rs, $rt or immediate")

def name (pseudo : Pseudo) : String := pseudo.description.1
def signature (pseudo : Pseudo) : String := pseudo.description.2

def ofName? (name : String) : Option Pseudo := all.find? fun pseudo => pseudo.name = name

end Pseudo

/-- The first word of an instruction in assembly. -/
inductive Mnemonic where
  | nop
  | machine (operation : Operation)
  | pseudo (instruction : Pseudo)
  deriving DecidableEq, Repr

namespace Mnemonic

def name : Mnemonic → String
  | .nop => "nop"
  | .machine operation => operation.mnemonic
  | .pseudo instruction => instruction.name

def signature : Mnemonic → String
  | .nop => Format.bare.signature
  | .machine operation => operation.format.signature
  | .pseudo instruction => instruction.signature

def ofName? (name : String) : Option Mnemonic :=
  if name = "nop" then some .nop
  else ((Operation.ofMnemonic? name).map .machine).or ((Pseudo.ofName? name).map .pseudo)

/-- The operands that instructions of this name accept, in words; an unknown name accepts none in particular. -/
def signatureOf (name : String) : String := ((ofName? name).map signature).getD "valid operands"

theorem ofName?_name (mnemonic : Mnemonic) : ofName? mnemonic.name = some mnemonic := by
  cases mnemonic with
  | nop => rfl
  | machine operation => cases operation <;> decide +kernel
  | pseudo instruction => cases instruction <;> decide +kernel

end Mnemonic

end Mips
