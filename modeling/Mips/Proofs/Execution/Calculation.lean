import Mips.Proofs.Execution.Straight
import Mips.Proofs.Instruction.Canonical

/-!
What single instructions compute of two words. Main statements: `performs_ofRegisters` and `performs_ofImmediate`, by
which an operation computes the same of registers as it does of a register and a number.
-/

namespace Mips

variable [Generator]

/-- What is computed of two words, as a number that need not fit into a word. -/
structure Calculation where
  compute : Word → Word → Int
  /-- Whether it is an error if the number does not fit into a word with a sign. -/
  checked : Bool := false
  /-- Whether `HI` and `LO` hold the number, too. -/
  wide : Bool := false

namespace Calculation

def sum : Calculation where
  compute first second := first.signed + second.signed

def difference : Calculation where
  compute first second := first.signed - second.signed

def product : Calculation where
  compute first second := first.signed * second.signed
  wide := true

/-- One if the words are related, and zero otherwise. -/
def flag (related : Word → Word → Bool) : Calculation where
  compute first second := if related first second then 1 else 0

/-- The word that is made of the bits of the words. -/
def bits (combine : Word → Word → Word) : Calculation where
  compute first second := (combine first second).toNat

def guarded (calculation : Calculation) : Calculation := { calculation with checked := true }

def result (calculation : Calculation) (destination : Register) (first second : Word) : Result :=
  ⟨destination, calculation.compute first second, calculation.checked, calculation.wide⟩

end Calculation

open Calculation in
/-- What an operation computes of two words, be they in registers or the second one an immediate. -/
def Operation.calculation? : Operation → Option Calculation
  | .add | .addi => some sum.guarded
  | .addu | .addiu => some sum
  | .sub => some difference.guarded
  | .subu => some difference
  | .mul => some product
  | .and | .andi => some (bits (· &&& ·))
  | .or | .ori => some (bits (· ||| ·))
  | .xor | .xori => some (bits (· ^^^ ·))
  | .nor => some (bits fun first second => ~~~(first ||| second))
  | .slt | .slti => some (flag fun first second => first.signed < second.signed)
  | .sltu | .sltiu => some (flag fun first second => first < second)
  | _ => none

namespace Calculation

/-- What an instruction does that computes this of two words. -/
def effect (calculation : Calculation) (destination : Register) (first second : Word) : Except Interruption Effect :=
  let result := calculation.result destination first second
  if result.Fits then .ok { assignments := result.assignments } else .error (.atOnce .overflow)

variable (destination : Register) (first second : Word)

theorem effect_of_word {calculation : Calculation} (unchecked : calculation.checked = false)
    (narrow : calculation.wide = false) {word : Word} (same : Word.ofInt (calculation.compute first second) = word) :
    calculation.effect destination first second = Effect.set destination word := by
  have fits : (calculation.result destination first second).Fits := by
    intro checked
    cases unchecked.symm.trans checked
  rw [effect, if_pos fits, Result.assignments, Effect.set, ← same]
  simp only [result, narrow]
  rfl

theorem effect_sum : sum.effect destination first second = Effect.set destination (first + second) :=
  effect_of_word _ _ _ rfl rfl (by rw [sum, Word.ofInt_add, Word.ofInt_signed, Word.ofInt_signed])

theorem effect_difference : difference.effect destination first second = Effect.set destination (first - second) :=
  effect_of_word _ _ _ rfl rfl (by rw [difference, Word.ofInt_sub, Word.ofInt_signed, Word.ofInt_signed])

theorem effect_bits (combine : Word → Word → Word) :
    (bits combine).effect destination first second = Effect.set destination (combine first second) :=
  effect_of_word _ _ _ rfl rfl (Word.ofInt_toNat _)

theorem effect_flag (related : Word → Word → Bool) :
    (flag related).effect destination first second = Effect.setFlag destination (related first second) := by
  refine effect_of_word _ _ _ rfl rfl ?_
  simp only [flag]
  cases related first second <;> rfl

theorem effect_product :
    product.effect destination first second =
      let pair := signedProduct first second
      .ok { assignments := [.hi (Word.high pair), .lo (Word.low pair), .register destination (Word.low pair)] } := by
  have fits : (product.result destination first second).Fits := by
    intro checked
    cases checked
  have word : Word.ofInt (first.signed * second.signed) = Word.low (signedProduct first second) :=
    (Word.low_ofInt _).symm
  rw [effect, if_pos fits]
  change Except.ok (⟨[_, _, .register destination (Word.ofInt (first.signed * second.signed))], _, _⟩ : Effect) = _
  rw [word]
  rfl

theorem effect_guarded (calculation : Calculation) (narrow : calculation.wide = false) :
    calculation.guarded.effect destination first second =
      Effect.setChecked destination (calculation.compute first second) := by
  simp only [effect, guarded, result, Result.Fits, Result.assignments, narrow, Effect.setChecked, forall_const]
  rfl

end Calculation

namespace Instruction

variable {machine : Machine} {operation : Operation} {calculation : Calculation}

theorem performs_of_effect {instruction : Instruction} {destination : Register} {first second : Word}
    (same : ∀ pc delayed, instruction.effect machine pc delayed = calculation.effect destination first second) :
    instruction.Performs machine (calculation.result destination first second) where
  fits fits pc delayed := by rw [same, Calculation.effect, if_pos fits]
  exceeds exceeds pc delayed := by rw [same, Calculation.effect, if_neg exceeds]

theorem effect_ofRegisters (known : operation.calculation? = some calculation)
    (layout : operation.format = .threeRegisters) (rd rs rt : Register) (shamt : Word) (pc : Address)
    (delayed : Bool) :
    (ofRegisters operation rd rs rt shamt).effect machine pc delayed =
      calculation.effect rd (machine.get rs) (machine.get rt) := by
  have same : (ofRegisters operation rd rs rt shamt).operation = operation := rfl
  have source : (ofRegisters operation rd rs rt shamt).rs = rs :=
    rs_ofRegisters (by rw [layout]; decide) (by rw [layout]; decide)
  have value : (ofRegisters operation rd rs rt shamt).rt = rt :=
    rt_ofRegisters (by rw [layout]; decide) (by rw [layout]; decide)
  unfold effect
  simp only [same, source, value, rd_ofRegisters]
  cases operation with
  | add =>
    cases known
    exact (Calculation.sum.effect_guarded _ _ _ rfl).symm
  | sub =>
    cases known
    exact (Calculation.difference.effect_guarded _ _ _ rfl).symm
  | addu =>
    cases known
    exact (Calculation.effect_sum ..).symm
  | subu =>
    cases known
    exact (Calculation.effect_difference ..).symm
  | mul =>
    cases known
    exact (Calculation.effect_product ..).symm
  | and | or | xor | nor =>
    cases known
    simp only [Calculation.effect_bits]
  | slt | sltu =>
    cases known
    simp only [Calculation.effect_flag]
  | addi | addiu | slti | sltiu | andi | ori | xori => cases layout
  | _ => cases known

/-- An instruction on two registers computes this of them. -/
theorem performs_ofRegisters (known : operation.calculation? = some calculation)
    (layout : operation.format = .threeRegisters) (rd rs rt : Register) (shamt : Word) :
    (ofRegisters operation rd rs rt shamt).Performs machine
      (calculation.result rd (machine.get rs) (machine.get rt)) :=
  performs_of_effect (effect_ofRegisters known layout rd rs rt shamt)

/-- The word that an operation makes of its immediate. -/
def widen (operation : Operation) (immediate : UInt16) : Word :=
  if operation.format = .signedImmediate then Word.signExtend 16 immediate.toUInt32 else immediate.toUInt32

theorem effect_ofImmediate (known : operation.calculation? = some calculation)
    (layout : operation.format = .signedImmediate ∨ operation.format = .unsignedImmediate)
    (rt rs : Register) (field : UInt16) (pc : Address) (delayed : Bool) :
    (ofImmediate operation rs rt field).effect machine pc delayed =
      calculation.effect rt (machine.get rs) (widen operation field) := by
  have shown : operation.format.ShowsImmediate rs rt := by rcases layout with layout | layout <;> rw [layout] <;> trivial
  have same : (ofImmediate operation rs rt field).operation = operation := rfl
  have source : (ofImmediate operation rs rt field).rs = rs :=
    rs_ofImmediate (by rintro other; simp [other] at layout) (by rintro other; simp [other] at layout)
  have target : (ofImmediate operation rs rt field).rt = rt :=
    rt_ofImmediate (by rintro other; simp [other] at layout) (by rintro other; simp [other] at layout)
  unfold effect
  simp only [same, source, target, signedImmediate, extended_ofImmediate (base_half shown),
    immediate_ofImmediate (base_half shown)]
  cases operation with
  | addi =>
    cases known
    exact (Calculation.sum.effect_guarded _ _ _ rfl).symm
  | addiu =>
    cases known
    exact (Calculation.effect_sum ..).symm
  | andi | ori | xori =>
    cases known
    simp only [Calculation.effect_bits]
    rfl
  | slti | sltiu =>
    cases known
    simp only [Calculation.effect_flag]
    rfl
  | add | addu | sub | subu | mul | and | or | xor | nor | slt | sltu => rcases layout with layout | layout <;> cases layout
  | _ => cases known

/-- An instruction on a register and an immediate computes the same as one on two registers. -/
theorem performs_ofImmediate (known : operation.calculation? = some calculation)
    (layout : operation.format = .signedImmediate ∨ operation.format = .unsignedImmediate)
    (rt rs : Register) (field : UInt16) :
    (ofImmediate operation rs rt field).Performs machine
      (calculation.result rt (machine.get rs) (widen operation field)) :=
  performs_of_effect (effect_ofImmediate known layout rt rs field)

end Instruction

end Mips
