import Mips.Operation
import Mips.Register

/-!
Machine instructions: an operation together with the whole word that encodes it, so that encoding
what was decoded gives the same word. Main statement: `decode?_eq_some_iff`.
-/

namespace Mips

/-- An operation and the word whose remaining fields are its operands. -/
structure Instruction where
  operation : Operation
  word : Word
  deriving DecidableEq, Repr

namespace Instruction

/-- The instruction that does nothing, encoded as zero. -/
def nop : Instruction := ⟨.sll, 0⟩

def registerField (register : Register) : Word := UInt32.ofNat register.number

/-- An instruction with three register fields and a shift amount, of which the low five bits count. -/
def ofRegisters (operation : Operation) (rd rs rt : Register) (shamt : Word) : Instruction :=
  ⟨operation, operation.encoding.base ||| (registerField rs <<< 21) ||| (registerField rt <<< 16)
    ||| (registerField rd <<< 11) ||| ((shamt &&& 0x1F) <<< 6)⟩

/-- An instruction with two register fields and a 16-bit immediate. -/
def ofImmediate (operation : Operation) (rs rt : Register) (immediate : UInt16) : Instruction :=
  ⟨operation, operation.encoding.base ||| (registerField rs <<< 21) ||| (registerField rt <<< 16)
    ||| immediate.toUInt32⟩

/-- An instruction with a word index, of which the low 26 bits count. -/
def ofTarget (operation : Operation) (target : Word) : Instruction :=
  ⟨operation, operation.encoding.base ||| (target &&& 0x03FFFFFF)⟩

/-- An instruction with a code, of which the low 20 bits count. -/
def ofCode (operation : Operation) (code : Word) : Instruction :=
  ⟨operation, operation.encoding.base ||| ((code &&& 0xFFFFF) <<< 6)⟩

/-- The instruction that a word encodes, if its identifying fields belong to an operation. -/
def decode? (word : Word) : Option Instruction :=
  (Encoding.ofWord word).operation?.map fun operation => ⟨operation, word⟩

theorem decode?_eq_some_iff {word : Word} {instruction : Instruction} :
    decode? word = some instruction ↔
      instruction.word = word ∧ instruction.operation.encoding = Encoding.ofWord word := by
  simp only [decode?, Option.map_eq_some_iff, Encoding.operation?_eq_some_iff]
  constructor
  · rintro ⟨operation, same, rfl⟩
    exact ⟨rfl, same⟩
  · rintro ⟨rfl, same⟩
    exact ⟨_, same, rfl⟩

def rs (instruction : Instruction) : Register := .ofField ((instruction.word >>> 21) &&& 0x1F)
def rt (instruction : Instruction) : Register := .ofField ((instruction.word >>> 16) &&& 0x1F)
def rd (instruction : Instruction) : Register := .ofField ((instruction.word >>> 11) &&& 0x1F)

/-- The shift amount, below 32. -/
def shamt (instruction : Instruction) : Word := (instruction.word >>> 6) &&& 0x1F

/-- The 16-bit immediate as an unsigned number. -/
def immediate (instruction : Instruction) : Word := instruction.word &&& 0xFFFF

/-- The 16-bit immediate as a word, copied upwards from its sign. -/
def extended (instruction : Instruction) : Word := instruction.word.signExtend 16

/-- The 16-bit immediate as a signed number. -/
def signedImmediate (instruction : Instruction) : Int := instruction.extended.signed

/-- The 26-bit word index of a jump. -/
def target (instruction : Instruction) : Word := instruction.word &&& 0x03FFFFFF

/-- The 20-bit code of a system call or breakpoint. -/
def code (instruction : Instruction) : Word := (instruction.word >>> 6) &&& 0xFFFFF

/-- Where a branch at `pc` goes when it is taken. -/
def branchTarget (instruction : Instruction) (pc : Address) : Address :=
  pc + 4 + instruction.extended * 4

/-- Where a jump at `pc` goes; it stays in the 256 MiB region of the instruction after it. -/
def jumpTarget (instruction : Instruction) (pc : Address) : Address :=
  ((pc + 4) &&& 0xF0000000) ||| (instruction.target * 4)

end Instruction

end Mips
