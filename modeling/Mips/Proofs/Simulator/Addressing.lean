import Mips.Proofs.Expansion.Addressing
import Mips.Proofs.Simulator.StraightLine

/-!
Written loads and stores in a simulator. Whatever one is expanded to, it makes the one access that its operand stands for.
Main statement: `transfers_of_expand`.
-/

namespace Mips.Simulator

variable [Generator] {κ : Type} [Console κ]

/--
The simulator comes to the last instruction of a load or store without any access to memory, and has changed nothing
until then but `$at`. Then it does what the operation does at the address, however that is written.
-/
structure Transfers (outside : Outside) (before : List Instruction) (last : Instruction) (transfer : Transfer)
    (register : Register) (address : Address) (scratch : Word) (simulator middle : Simulator κ) : Prop where
  executes : Executes outside before simulator middle
  undisturbed : simulator.Undisturbed middle
  arrives : middle.machine =
    (simulator.machine.set .scratch scratch).moved (Word.behind simulator.machine.pc before.length)
  plain : ∀ base field pc delayed, simulator.machine.get base + Word.signExtend 16 field.toUInt32 = address →
    (Instruction.ofImmediate last.operation base register field).effect simulator.machine pc delayed =
      transfer.effect simulator.machine register address
  /-- The access is made if nothing forbids it, and no register changes but `$at` and the one that is loaded. -/
  completes : ∀ effect, transfer.effect simulator.machine register address = .ok effect → ∃ set after,
    effect.access = some (address, set) ∧ Executes outside [last] middle after ∧
      after.accesses = simulator.accesses.add address set ∧ after.console = simulator.console ∧
      after.machine = ((simulator.machine.set .scratch scratch).assignAll effect.assignments).moved
        (Word.behind simulator.machine.pc (before.length + 1)) ∧
      ∀ other, other ≠ .scratch → (other = register → ∃ width, transfer = .store width) →
        after.machine.get other = simulator.machine.get other
  /-- The fault that forbids it is raised, and it is one for the address. -/
  fails : ∀ fault made, transfer.effect simulator.machine register address = .error ⟨fault, made⟩ →
    fault.badAddress? = some address ∧ middle.Raises outside true fault

theorem transfers_of_reaches (outside : Outside) {simulator : Simulator κ} {operation : Operation} {transfer : Transfer}
    {before : List Instruction} {base register : Register} {field : UInt16} {address : Address}
    (known : operation.transfer? = some transfer) (spared : ∀ width, transfer = .store width → register ≠ .scratch)
    (reaches : Expansion.Reaches before base field simulator.machine address)
    (canonical : AllCanonical (before ++ [Expansion.immediate operation base register field]))
    (arrived : simulator.machine.pending = none)
    (contained : simulator.machine.memory.Contains simulator.machine.pc
      (before ++ [Expansion.immediate operation base register field])) :
    ∃ scratch middle, Transfers outside before (Expansion.immediate operation base register field) transfer register
      address scratch simulator middle := by
  obtain ⟨scratch, leads, same⟩ := reaches
  obtain ⟨middle, executes, undisturbed, ends, arrivedThere, found⟩ :=
    arrives_of_leads outside leads canonical arrived contained
  have executed : (Expansion.immediate operation base register field).effect middle.machine middle.machine.pc
      middle.settings.delayedBranching = transfer.effect simulator.machine register address := by
    rw [ends, Instruction.effect_moved, Expansion.immediate, Instruction.effect_ofImmediate_of_transfer? known, same,
      Transfer.effect_set spared]
  refine ⟨scratch, middle, executes, undisturbed, ends, ?_, ?_, ?_⟩
  · rintro other offset pc delayed rfl
    exact Instruction.effect_ofImmediate_of_transfer? known other register offset _ pc delayed
  · intro effect done
    have others := fun other (apart : other ≠ .scratch) unloaded =>
      (Transfer.get_assignAll_of_effect done unloaded (simulator.machine.set .scratch scratch)).trans
        (simulator.machine.get_set_ne (Ne.symm apart) scratch)
    -- Nothing that is assigned concerns the address of the machine, so that it does not matter which one that is.
    obtain ⟨set, flow, access, moves⟩ : ∃ set, effect.flow = .next ∧ effect.access = some (address, set) ∧
        ∀ (machine : Machine) pc,
          (machine.moved pc).assignAll effect.assignments = (machine.assignAll effect.assignments).moved pc := by
      rcases Transfer.cases_of_effect done with ⟨_, _, value, -, rfl⟩ | ⟨_, word, _, -, rfl⟩
      · exact ⟨_, rfl, rfl, fun machine => (machine.computing_assignAll (by simp [Assignment.isComputed])).2⟩
      · exact ⟨_, rfl, rfl, fun _ _ => rfl⟩
    obtain ⟨runs, advanced⟩ := advance_of_effect outside found arrivedThere (executed.trans done) (by simp [flow])
    have machine : (middle.advance outside).2.machine =
        ((simulator.machine.set .scratch scratch).assignAll effect.assignments).moved
          (Word.behind simulator.machine.pc (before.length + 1)) := by
      rw [advanced, flow, Word.behind_add_four]
      refine (Machine.assignAll_append _ _ _).trans ?_
      rw [ends, moves]
      rfl
    refine ⟨set, (middle.advance outside).2, access, .single runs (by rw [advanced]), ?_, ?_, machine,
      fun other apart unloaded => (congrArg (·.get other) machine).trans (others other apart unloaded)⟩
    · rw [advanced, ← undisturbed.accesses]
      simp only [apply, emit, access]
    · rw [advanced]
      exact undisturbed.console
  · intro fault made failed
    have raised := executed.trans failed
    rw [← Step.ready_of_arrived arrivedThere] at raised
    exact ⟨Transfer.badAddress?_of_effect failed, Step.raises_of_effect _ found raised⟩

/--
A written load or store is expanded exactly if it has the operands for it. Wherever the instructions are that it is
expanded to, outside a delay slot they make one access, with the operation that is written and to the address that the
operand stands for, if `$at` is neither the base nor stored.
-/
theorem transfers_of_expand {written : WrittenInstruction} {context : ExpansionContext}
    {resolve : Label → Except Problem Address} {transfer : Transfer}
    (known : written.mnemonic.transfer? = some transfer) (resolved : context.resolve? = some resolve)
    (spares : written.Unread transfer .scratch) :
    (context.extended = true →
        ((∃ instructions, written.expand context = .ok instructions) ↔
          ∃ reference, written.reference? resolve = some reference)) ∧
      ∀ instructions, written.expand context = .ok instructions →
        ∃ reference before last, written.reference? resolve = some reference ∧ instructions = before ++ [last] ∧
          written.mnemonic = .machine last.operation ∧
          ∀ (simulator : Simulator κ) (outside : Outside),
            simulator.machine.pending = none → simulator.machine.memory.Contains simulator.machine.pc instructions →
              ∃ scratch middle, Transfers outside before last transfer reference.register
                (reference.address simulator.machine) scratch simulator middle := by
  obtain ⟨mnemonic, operands⟩ := written
  cases mnemonic with
  | nop | pseudo => cases known
  | machine operation =>
    have refers : ∀ instructions, (WrittenInstruction.mk (.machine operation) operands).expand context = .ok instructions →
        Expansion.Addresses operation operands resolve instructions :=
      fun instructions expanded => Expansion.addresses_expand known resolved spares expanded
    have named : ∀ instructions, (WrittenInstruction.mk (.machine operation) operands).expand context = .ok instructions →
        ∃ reference, (WrittenInstruction.mk (.machine operation) operands).reference? resolve = some reference := by
      intro instructions expanded
      obtain ⟨register, operand, address, rfl, fits, read, -⟩ := refers instructions expanded
      exact ⟨_, WrittenInstruction.reference?_eq_some known fits read⟩
    refine ⟨?_, ?_⟩
    · intro allowed
      constructor
      · rintro ⟨instructions, expanded⟩
        exact named instructions expanded
      · rintro ⟨reference, called⟩
        exact Expansion.succeeds_reference allowed resolved called
    · intro instructions expanded
      obtain ⟨register, operand, address, rfl, fits, read, before, base, field, rfl, reaches⟩ :=
        refers instructions expanded
      refine ⟨⟨transfer, register, address⟩, before, _, WrittenInstruction.reference?_eq_some known fits read, rfl, rfl, ?_⟩
      intro simulator outside arrived contained
      exact transfers_of_reaches outside known (fun _ stores => spares.of_store stores) (reaches _)
        (canonical_of_expand expanded) arrived contained

end Mips.Simulator

namespace Mips.Simulator

/-- The lower half of the address is negative as an offset, so that the upper half is one more than it seems. -/
theorem transfers_of_store :
    let written : WrittenInstruction :=
      ⟨.machine .sw, [.register .sp, .based (some ⟨"buffer", 0⟩) 0x18000 .zero]⟩
    let context : ExpansionContext := ⟨0x00400000, true, false, some fun _ => .ok 0x10000000⟩
    let upper : Instruction := .ofImmediate .lui .zero .scratch 0x1002
    let addition : Instruction := .ofRegisters .addu .scratch .scratch .zero 0
    let store : Instruction := .ofImmediate .sw .scratch .sp 0x8000
    let program := Program.ofInstructions [(0x00400000, upper), (0x00400004, addition), (0x00400008, store)]
    let outside : Outside := ⟨fun _ => ⟨0, RandomStream.ofSeed⟩, fun _ _ => []⟩
    let simulator := loaded {} program
    written.expand context = .ok [upper, addition, store] ∧
      ∃ after, Executes outside [upper, addition, store] simulator after ∧
        after.machine.memory = simulator.machine.memory.setWord 0x10018000 (simulator.machine.get .sp) := by
  intro written context upper addition store program outside simulator
  have expanded : written.expand context = .ok [upper, addition, store] := by rfl
  have arrived : simulator.machine.pending = none := by decide +kernel
  have contained : simulator.machine.memory.Contains simulator.machine.pc [upper, addition, store] :=
    ⟨eq_ok_of_toOption (by decide +kernel), eq_ok_of_toOption (by decide +kernel),
      eq_ok_of_toOption (by decide +kernel), trivial⟩
  have known : written.mnemonic.transfer? = some (.store .word) := by rfl
  have resolved : context.resolve? = some fun _ => .ok 0x10000000 := by rfl
  have spares : written.Unread (.store .word) .scratch := by decide
  obtain ⟨-, transfers⟩ := transfers_of_expand (κ := SilentConsole) known resolved spares
  obtain ⟨reference, before, last, named, split, -, transfers⟩ := transfers _ expanded
  obtain rfl := Option.some.inj named
  have parts : [upper, addition] ++ [store] = before ++ [last] := split
  obtain ⟨rfl, same⟩ := List.append_inj' parts rfl
  obtain rfl := List.head_eq_of_cons_eq same
  obtain ⟨scratch, middle, transferred⟩ := transfers simulator outside arrived contained
  have address : (0x10000000 : Address) + Word.ofInt 0x18000 + simulator.machine.get .zero = 0x10018000 := by
    rw [Machine.get_zero]
    decide
  have assigned : ((Transfer.store .word).effect simulator.machine .sp 0x10018000).toOption.map Effect.assignments =
      some [.memory 0x10018000 (some (simulator.machine.get .sp))] := by
    decide +kernel
  cases done : (Transfer.store .word).effect simulator.machine .sp 0x10018000 with
  | error fault =>
    rw [done] at assigned
    cases assigned
  | ok effect =>
    rw [done] at assigned
    obtain ⟨set, after, -, executes, -, -, machine, -⟩ := transferred.completes effect ((congrArg _ address).trans done)
    refine ⟨expanded, after, transferred.executes.append executes, ?_⟩
    have aligned : Word.align 0x10018000 = 0x10018000 := by decide
    have stored (start : Machine) (content : Option Word) (pc : Address) :
        ((start.assignAll [.memory 0x10018000 content]).moved pc).memory = start.memory.assign 0x10018000 content := rfl
    rw [machine, Option.some.inj assigned, stored, Machine.memory_set, Memory.setWord, aligned]

end Mips.Simulator
