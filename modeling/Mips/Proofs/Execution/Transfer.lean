import Mips.Proofs.Execution.Straight
import Mips.Proofs.Instruction.Canonical

/-!
Loads and stores. What one does depends on the address that it reaches, but not on how that is written. Main statements:
`effect_ofImmediate_of_transfer?`, `cases_of_effect` and `badAddress?_of_effect`.
-/

namespace Mips

/-- A move of some bytes between a register and memory. -/
inductive Transfer where
  /-- A load, which copies the sign upwards if `signed` holds. -/
  | load (width : Width) (signed : Bool)
  | store (width : Width)
  deriving DecidableEq, Repr

/-- What a load or store moves. -/
def Operation.transfer? : Operation → Option Transfer
  | .lb => some (.load .byte true)
  | .lh => some (.load .half true)
  | .lw => some (.load .word false)
  | .lbu => some (.load .byte false)
  | .lhu => some (.load .half false)
  | .sb => some (.store .byte)
  | .sh => some (.store .half)
  | .sw => some (.store .word)
  | _ => none

theorem Operation.format_of_transfer? {operation : Operation} {transfer : Transfer}
    (known : operation.transfer? = some transfer) : operation.format = .memory := by
  cases operation <;> first | rfl | cases known

namespace Transfer

def width : Transfer → Width
  | .load width _ | .store width => width

theorem address_of_dataError? {memory : Memory} {width : Width} {address : Address} {error : MemoryError}
    (refused : memory.dataError? width address = some error) : error.address = address := by
  unfold Memory.dataError? at refused
  split at refused
  · cases refused
    rfl
  split at refused
  · cases refused
    rfl
  split at refused
  · cases refused
    rfl
  · cases refused

theorem badAddress?_ofMemory (access : Access) (error : MemoryError) :
    (Fault.ofMemory access error).badAddress? = some error.address := by
  cases error <;> rfl

variable [Generator]

/-- What a load or store of a register does that reaches an address. -/
def effect (transfer : Transfer) (machine : Machine) (register : Register) (address : Address) : Except Interruption Effect :=
  match transfer with
  | .load width signed => Effect.load machine.memory width signed register address
  | .store width => Effect.store machine.memory width address (machine.get register)

variable {transfer : Transfer} {machine : Machine} {register : Register} {address : Address}

/-- A register that is not stored does not matter to a load or store. -/
theorem effect_set {other : Register} (unread : ∀ width, transfer = .store width → register ≠ other) (value : Word) :
    transfer.effect (machine.set other value) register address = transfer.effect machine register address := by
  cases transfer with
  | load width signed => rw [effect, effect, machine.memory_set]
  | store width => rw [effect, effect, machine.memory_set, machine.get_set_ne (unread width rfl).symm value]

/-- What there is to a load or store that does not fault: it makes one access, to the address that it reaches. -/
theorem cases_of_effect {effect : Effect} (done : transfer.effect machine register address = .ok effect) :
    (∃ width signed value, transfer = .load width signed ∧
      effect = { assignments := [.register register value], access := some (address, { read := true }) }) ∨
    ∃ width word modified, transfer = .store width ∧
      effect =
        { assignments := [.memory (Word.align address) (some word)]
          access := some (address, { written := true, modified := modified }) } := by
  cases transfer with
  | load width signed =>
    unfold Transfer.effect Effect.load at done
    dsimp only at done
    split at done
    · cases done
    · cases done
      exact .inl ⟨width, signed, _, rfl, rfl⟩
  | store width =>
    unfold Transfer.effect Effect.store Memory.stored at done
    cases refused : machine.memory.dataError? width address with
    | some error =>
      simp only [refused] at done
      cases done
    | none =>
      simp only [refused] at done
      cases done
      exact .inr ⟨width, _, _, rfl, rfl⟩

/-- Only a load changes a register, and only its own. -/
theorem get_assignAll_of_effect {effect : Effect} (done : transfer.effect machine register address = .ok effect)
    {other : Register} (apart : other = register → ∃ width, transfer = .store width) (start : Machine) :
    (start.assignAll effect.assignments).get other = start.get other := by
  rcases cases_of_effect done with ⟨width, signed, value, rfl, rfl⟩ | ⟨width, word, modified, rfl, rfl⟩
  · refine start.get_set_ne (fun same => ?_) value
    obtain ⟨width, stores⟩ := apart same.symm
    cases stores
  · rfl

/-- A load or store that faults does so for the address that it was to reach. -/
theorem badAddress?_of_effect {fault : Fault} {made : List Assignment}
    (failed : transfer.effect machine register address = .error ⟨fault, made⟩) : fault.badAddress? = some address := by
  have refused : ∃ error access, machine.memory.dataError? transfer.width address = some error ∧
      fault = .ofMemory access error := by
    cases transfer with
    | load width signed =>
      unfold Transfer.effect Effect.load Memory.read at failed
      cases refused : machine.memory.dataError? width address with
      | none =>
        simp only [refused] at failed
        cases failed
      | some error =>
        simp only [refused] at failed
        cases failed
        exact ⟨error, .load, refused, rfl⟩
    | store width =>
      unfold Transfer.effect Effect.store Memory.stored at failed
      cases refused : machine.memory.dataError? width address with
      | none =>
        simp only [refused] at failed
        cases failed
      | some error =>
        simp only [refused] at failed
        cases failed
        exact ⟨error, .store, refused, rfl⟩
  obtain ⟨error, access, refused, rfl⟩ := refused
  rw [badAddress?_ofMemory, address_of_dataError? refused]

end Transfer

/-- The instruction does what a load or store does at the sum of its base register and its offset. -/
theorem Instruction.effect_ofImmediate_of_transfer? [Generator] {operation : Operation} {transfer : Transfer}
    (known : operation.transfer? = some transfer) (base register : Register) (field : UInt16) (machine : Machine)
    (pc : Address) (delayed : Bool) :
    (ofImmediate operation base register field).effect machine pc delayed =
      transfer.effect machine register (machine.get base + Word.signExtend 16 field.toUInt32) := by
  have layout := Operation.format_of_transfer? known
  have shown : operation.format.ShowsImmediate base register := by rw [layout]; trivial
  have same : (ofImmediate operation base register field).operation = operation := rfl
  have source : (ofImmediate operation base register field).rs = base :=
    rs_ofImmediate (by rw [layout]; decide) (by rw [layout]; decide)
  have target : (ofImmediate operation base register field).rt = register :=
    rt_ofImmediate (by rw [layout]; decide) (by rw [layout]; decide)
  unfold Instruction.effect
  simp only [same, source, target, extended_ofImmediate (base_half shown)]
  cases operation with
  | lb | lh | lw | lbu | lhu | sb | sh | sw =>
    cases known
    rfl
  | _ => cases known

end Mips
