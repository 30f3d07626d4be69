import Mips.Execution
import Mips.Proofs.Instruction.Canonical

/-!
What single branches decide on. Main statements: `branches_ofImmediate` and `branchTarget_ofImmediate`.
-/

namespace Mips

/-- The relation of two registers on which a branch is taken that compares them. -/
def Operation.relation? : Operation → Option (Word → Word → Bool)
  | .beq => some fun first second => first = second
  | .bne => some fun first second => first ≠ second
  | _ => none

theorem Operation.format_of_relation? {operation : Operation} {related : Word → Word → Bool}
    (known : operation.relation? = some related) : operation.format = .branchTwo := by
  cases operation <;> first | rfl | cases known

namespace Instruction

variable [Generator]

/-- The address to return to after a branch at `pc`, which lies behind the delay slot if there is one. -/
def link (pc : Address) (delayed : Bool) : Address := if delayed then pc + 8 else pc + 4

/-- What a branch assigns, if anything: the address to return to. -/
def linking (links : Bool) (back : Address) : List Assignment := if links then [.register .ra back] else []

/--
Wherever the instruction is, it leads to its target if it is taken, and else to the address behind it. All that it may
assign is the address to return to.
-/
def Branches (instruction : Instruction) (machine : Machine) (taken links : Bool) : Prop :=
  ∀ pc delayed, instruction.effect machine pc delayed = .ok
    { assignments := linking links (link pc delayed)
      flow := if taken then .branch (instruction.branchTarget pc) else .next }

variable {machine : Machine} {operation : Operation} {rs rt : Register}

theorem branches_ofImmediate (machine : Machine) {related : Word → Word → Bool}
    (known : operation.relation? = some related) (rs rt : Register) (field : UInt16) :
    (ofImmediate operation rs rt field).Branches machine (related (machine.get rs) (machine.get rt)) false := by
  intro pc delayed
  have layout := Operation.format_of_relation? known
  have source : (ofImmediate operation rs rt field).rs = rs :=
    rs_ofImmediate (by rw [layout]; decide) (by rw [layout]; decide)
  have value : (ofImmediate operation rs rt field).rt = rt :=
    rt_ofImmediate (by rw [layout]; decide) (by rw [layout]; decide)
  have same : (ofImmediate operation rs rt field).operation = operation := rfl
  simp only [effect, same, source, value]
  cases operation with
  | beq | bne =>
    cases known
    rfl
  | _ => cases known

/-- A register that holds zero is not negative, so that this branch is always taken. -/
theorem branches_bgezal (zero : machine.get rs = 0) (field : UInt16) :
    (ofImmediate .bgezal rs .zero field).Branches machine true true := by
  intro pc delayed
  have source : (ofImmediate .bgezal rs .zero field).rs = rs := rs_ofImmediate (by decide) (by decide)
  have same : (ofImmediate .bgezal rs .zero field).operation = .bgezal := rfl
  simp only [effect, same, source, zero]
  rfl

omit [Generator] in
theorem branchTarget_ofImmediate (shown : operation.format.ShowsImmediate rs rt) (field : UInt16) (pc : Address) :
    (ofImmediate operation rs rt field).branchTarget pc = pc + 4 + Word.signExtend 16 field.toUInt32 * 4 := by
  rw [branchTarget, extended_ofImmediate (base_half shown)]

end Instruction

end Mips
