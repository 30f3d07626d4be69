import Mips.Execution
import Mips.Proofs.Execution.Services

/-!
What the effect of an instruction may be. It stores only where the rules for accessing memory allow it, it changes
coprocessor 0 only if it is a move there or a return from a handler, and a fault comes before everything that it would have
assigned. Main statement: `Instruction.limited_effect`.
-/

namespace Mips

variable [Generator]

/--
What the instruction may assign: a word that a store may change, a register of coprocessor 0 if it is a move there, or
else the status alone, the end of the heap if it calls the service that gives out the heap, and a random stream if it
calls one that begins it anew or draws from it.
-/
def Assignment.Allowed (instruction : Instruction) (machine : Machine) : Assignment → Prop
  | .memory address _ => machine.memory.Storable address
  | .cop0 number value =>
    number = Cop0.status ∨
      instruction.operation = .mtc0 ∧ number = instruction.rd.number ∧ value = machine.get instruction.rt
  | .heapBreak _ =>
    instruction.operation = .syscall ∧ Service.ofNumber? (machine.get .v0) = some .allocate
  | .stream .. =>
    instruction.operation = .syscall ∧
      ∃ service, Service.ofNumber? (machine.get .v0) = some service ∧ service.OnStreams
  | _ => True

/-- Nothing but this is assigned, and nothing at all if a service is called. -/
structure Effect.Within (condition : Assignment → Prop) (effect : Effect) : Prop where
  each : ∀ assignment ∈ effect.assignments, condition assignment
  calls : effect.flow = .service → effect.assignments = []

/-- The effect keeps within the condition; if there is a fault, then nothing was assigned before it. -/
structure Effect.Limited (condition : Assignment → Prop) (outcome : Except Interruption Effect) : Prop where
  ends : Ends (Effect.Within condition) Interruption.Clean outcome

namespace Effect

variable {condition : Assignment → Prop} {instruction : Instruction} {machine : Machine}

theorem limited_error (fault : Fault) : Limited condition (.error (.atOnce fault)) :=
  ⟨Interruption.clean_atOnce fault⟩

theorem limited_ok {effect : Effect} (each : ∀ assignment ∈ effect.assignments, condition assignment)
    (calls : effect.flow = .service → effect.assignments = []) : Limited condition (.ok effect) :=
  ⟨⟨each, calls⟩⟩

theorem limited_set (target : Register) (value : Word) :
    Limited (Assignment.Allowed instruction machine) (set target value) :=
  limited_ok (by simp [Assignment.Allowed]) (by simp)

theorem limited_setChecked (target : Register) (value : Int) :
    Limited (Assignment.Allowed instruction machine) (setChecked target value) := by
  unfold setChecked
  split
  · exact limited_set target _
  · exact limited_error _

theorem limited_setPair (value : UInt64) : Limited (Assignment.Allowed instruction machine) (setPair value) :=
  limited_ok (by simp [Assignment.Allowed]) (by simp)

theorem limited_nothing : Limited (Assignment.Allowed instruction machine) nothing :=
  limited_ok (by simp) (by simp)

theorem limited_trapIf (held : Bool) : Limited (Assignment.Allowed instruction machine) (trapIf held) := by
  cases held with
  | false => exact limited_nothing
  | true => exact limited_error _

theorem limited_branchIf (taken : Bool) (target : Address) :
    Limited (Assignment.Allowed instruction machine) (branchIf taken target) :=
  limited_ok (by simp) fun _ => rfl

theorem limited_linkIf (taken : Bool) (target : Address) (register : Register) (link : Address) :
    Limited (Assignment.Allowed instruction machine) (linkIf taken target register link) :=
  limited_ok (by simp [Assignment.Allowed]) (by cases taken <;> simp)

theorem limited_jumpTo (target : Address) {assignments : List Assignment}
    (each : ∀ assignment ∈ assignments, condition assignment) : Limited condition (jumpTo target assignments) := by
  unfold jumpTo
  split
  · exact limited_ok each (by simp)
  · exact limited_error _

theorem limited_load (memory : Memory) (width : Width) (signed : Bool) (target : Register) (address : Address) :
    Limited (Assignment.Allowed instruction machine) (load memory width signed target address) := by
  unfold load
  split
  · exact limited_error _
  · exact limited_ok (by simp [Assignment.Allowed]) (by simp)

/-- A store changes a word that it may change. -/
theorem limited_store (width : Width) (address : Address) (value : Word) :
    Limited (Assignment.Allowed instruction machine) (store machine.memory width address value) := by
  unfold store Memory.stored
  cases refused : machine.memory.dataError? width address with
  | some error => exact limited_error _
  | none =>
    refine limited_ok ?_ (by simp)
    simp only [List.mem_singleton, forall_eq]
    exact ⟨width, address, refused, rfl⟩

end Effect

open Effect in
/-- What an instruction assigns is allowed to it, and it faults before it assigns anything. -/
theorem Instruction.limited_effect (instruction : Instruction) (machine : Machine) (pc : Address) (delayed : Bool) :
    Limited (Assignment.Allowed instruction machine) (instruction.effect machine pc delayed) := by
  unfold Instruction.effect
  cases operation : instruction.operation with
  | eret => exact limited_ok (by simp [Machine.returning, Assignment.Allowed]) (by simp)
  | mtc0 => exact limited_ok (by simp [Assignment.Allowed, operation]) (by simp)
  | syscall => exact limited_ok (by simp) fun _ => rfl
  | breakpoint => exact limited_error _
  | jr => exact limited_jumpTo _ (by simp)
  | jalr => exact limited_jumpTo _ (by simp [Assignment.Allowed])
  | movz | movn =>
    dsimp only
    split
    · exact limited_set _ _
    · exact limited_nothing
  | mult | multu | madd | maddu | msub | msubu => exact limited_setPair _
  | div | divu =>
    dsimp only
    split
    · exact limited_nothing
    · exact limited_ok (by simp [Assignment.Allowed]) (by simp)
  | add | sub | addi => exact limited_setChecked _ _
  | tge | tgeu | tlt | tltu | teq | tne | tgei | tgeiu | tlti | tltiu | teqi | tnei => exact limited_trapIf _
  | lb | lh | lw | lbu | lhu => exact limited_load _ _ _ _ _
  | sb | sh | sw => exact limited_store _ _ _
  | j | beq | bne | blez | bgtz | bltz | bgez => exact limited_branchIf _ _
  | jal | bltzal | bgezal => exact limited_linkIf _ _ _ _
  | mthi | mtlo | mul => exact limited_ok (by simp [Assignment.Allowed]) (by simp)
  | _ => exact limited_set _ _

end Mips
