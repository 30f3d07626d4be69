import Mips.Proofs.Execution.Course
import Mips.Proofs.Expansion.Destination
import Mips.Proofs.Expansion.Direct

/-!
Where the branch or jump goes that a statement with a label as its target becomes. It is the last instruction of the
statement, and its fields are computed for the address that it has there. Main statements: `aimed_of_expand` and
`goal_of_aims`.
-/

namespace Mips

/-- The operation goes to a target that its own fields say. -/
def Operation.aims (operation : Operation) : Bool :=
  match operation.format with
  | .branchTwo | .branchOne | .jump => true
  | _ => false

example : Operation.all.filter Operation.aims =
    [.bltz, .bgez, .bltzal, .bgezal, .j, .jal, .beq, .bne, .blez, .bgtz] := by decide

theorem Operation.format_of_aims {operation : Operation} (aims : operation.aims = true) :
    operation.format = .branchTwo ∨ operation.format = .branchOne ∨ operation.format = .jump := by
  cases operation <;> first | decide | cases aims

/-- The last operand says where to go. -/
def Mnemonic.aims : Mnemonic → Bool
  | .nop => false
  | .machine operation => operation.aims
  | .pseudo instruction =>
    match instruction with
    | .b | .bal | .beqz | .bnez | .blt | .bltu | .bge | .bgeu | .bgt | .bgtu | .ble | .bleu => true
    | _ => false

/-- The target is said by its word index, and not by how far away it is. -/
def Mnemonic.jumps : Mnemonic → Bool
  | .machine operation => operation.format = .jump
  | _ => false

/-- The label that a branch or jump names as its target, and the number that is added to its address. -/
def WrittenInstruction.aim? (written : WrittenInstruction) : Option (Label × Int) :=
  if written.mnemonic.aims then
    match written.operands.getLast? with
    | some (.label named addend) => some (named, addend)
    | _ => none
  else none

namespace Instruction

/-- Where the fields of a branch or jump at `pc` say to go. -/
def goal (instruction : Instruction) (pc : Address) : Address :=
  if instruction.operation.format = .jump then instruction.jumpTarget pc else instruction.branchTarget pc

/-- A machine that does not go on behind a branch or jump goes where the fields say. -/
theorem goal_of_destination? [Generator] {instruction : Instruction} {machine : Machine} {destination : Address}
    (aims : instruction.operation.aims = true) (led : instruction.destination? machine = some destination) :
    instruction.goal machine.pc = destination := by
  obtain ⟨operation, word⟩ := instruction
  unfold destination? at led
  dsimp only at led
  cases operation with
  | j | jal =>
    cases led
    rfl
  | beq | bne | blez | bgtz | bltz | bltzal | bgez | bgezal =>
    exact Option.some.inj (Option.ite_none_right_eq_some.1 led).2
  | _ => cases aims

end Instruction

/-- The target can be said at `pc`: it is a word, and it lies near enough for a branch or in the region for a jump. -/
structure InReach (jumps : Bool) (pc target : Address) : Prop where
  aligned : Word.isAligned target = true
  near : jumps = false → -0x8000 ≤ ((target.toNat : Int) - pc.toNat - 4) / 4 ∧
    ((target.toNat : Int) - pc.toNat - 4) / 4 ≤ 0x7FFF
  region : jumps = true → target.toNat / 0x10000000 = (pc + 4).toNat / 0x10000000

namespace Expansion

open Instruction

/-- The fields of the instruction are what is computed for the target, from the address that the instruction has. -/
inductive Aims (context : ExpansionContext) (target : Target) : Bool → Address → Instruction → Prop where
  | branch {pc : Address} {operation : Operation} {rs rt : Register} {offset : UInt16}
      (shown : operation.format.ShowsImmediate rs rt)
      (branches : operation.format = .branchTwo ∨ operation.format = .branchOne)
      (found : branchOffset context pc target = .ok offset) :
    Aims context target false pc (.ofImmediate operation rs rt offset)
  | jump {operation : Operation} {index : Word} (jumps : operation.format = .jump)
      (found : jumpIndex context target = .ok index) :
    Aims context target true context.pc (.ofTarget operation index)

/-- The last of these instructions goes to the target, and no other one says where to go. -/
def Aimed (context : ExpansionContext) (target : Target) (jumps : Bool) (instructions : List Instruction) : Prop :=
  ∃ before last, instructions = before ++ [last] ∧
    Aims context target jumps (context.pc + 4 * UInt32.ofNat before.length) last ∧
    ∀ instruction ∈ before, instruction.operation.aims = false

variable {context : ExpansionContext} {operation : Operation} {target : Target} {instruction : Instruction}
  {instructions loading : List Instruction} {jumps : Bool}

theorem aimed_of_aims (aims : Aims context target jumps context.pc instruction) :
    Aimed context target jumps [instruction] := by
  refine ⟨[], instruction, rfl, ?_, List.forall_mem_nil _⟩
  have start : context.pc + 4 * UInt32.ofNat 0 = context.pc := by simp
  rwa [List.length_nil, start]

/-- A branch that is emitted behind instructions goes to its target from where it lies. -/
theorem aimed_of_thenBranch {rs rt : Register}
    (computes : ∀ instruction ∈ loading, instruction.operation.aims = false)
    (expanded : thenBranch context loading operation rs rt target = .ok instructions)
    (shown : operation.format.ShowsImmediate rs rt)
    (branches : operation.format = .branchTwo ∨ operation.format = .branchOne) :
    Aimed context target false instructions := by
  obtain ⟨offset, found, rfl⟩ := map_eq_ok_iff.1 expanded
  exact ⟨loading, _, rfl, .branch shown branches found, computes⟩

theorem aims_of_load {rd : Register} {value : Int} (loaded : load rd value = .ok loading) :
    ∀ instruction ∈ loading, instruction.operation.aims = false := by
  unfold load at loaded
  split at loaded
  · cases loaded
    exact List.forall_mem_singleton.2 rfl
  · split at loaded
    · cases loaded
      exact List.forall_mem_singleton.2 rfl
    · obtain ⟨word, -, rfl⟩ := map_eq_ok_iff.1 loaded
      exact List.forall_mem_cons.2 ⟨rfl, List.forall_mem_singleton.2 rfl⟩

theorem aims_of_source? {operand : Operand} {rt : Register} (loaded : source? operand = .ok (some (loading, rt))) :
    ∀ instruction ∈ loading, instruction.operation.aims = false := by
  cases operand with
  | register source =>
    cases loaded
    exact List.forall_mem_nil _
  | immediate value =>
    obtain ⟨found, loads, same⟩ := map_eq_ok_iff.1 loaded
    cases same
    exact aims_of_load loads
  | label | based => cases loaded

theorem aims_compare (comparison : Comparison) (rd rs rt : Register) :
    (comparison.compare rd rs rt).operation.aims = false := by
  obtain ⟨unsigned, swapped⟩ := comparison
  cases unsigned <;> cases swapped <;> rfl

theorem format_of_branchComparison? {pseudo : Pseudo} {comparison : Comparison}
    (known : branchComparison? pseudo = some (comparison, operation)) : operation.format = .branchTwo := by
  cases pseudo with
  | blt | bltu | bge | bgeu | bgt | bgtu | ble | bleu =>
    cases known
    rfl
  | _ => cases known

section Label

variable {named : Label} {addend : Int} {operands : List Operand}
  (last : operands.getLast? = some (.label named addend))

include last

theorem aimed_of_encode? (aims : operation.aims = true)
    (encoded : encode? context operation operands = .ok (some instruction)) :
    Aimed context (.label named addend) (operation.format = .jump) [instruction] := by
  unfold encode? at encoded
  dsimp only at encoded
  split at encoded
  case h_17 format rs rt operand layout =>
    obtain rfl : operand = .label named addend := by simpa using last
    obtain ⟨offset, found, same⟩ := map_eq_ok_iff.1 encoded
    cases same
    rw [layout]
    exact aimed_of_aims (.branch (by rw [layout]; trivial) (.inl layout) found)
  case h_18 format rs operand layout =>
    obtain rfl : operand = .label named addend := by simpa using last
    obtain ⟨offset, found, same⟩ := map_eq_ok_iff.1 encoded
    cases same
    rw [layout]
    exact aimed_of_aims (.branch (by rw [layout]; rfl) (.inr layout) found)
  case h_19 format operand layout =>
    obtain rfl : operand = .label named addend := by simpa using last
    obtain ⟨index, found, same⟩ := map_eq_ok_iff.1 encoded
    cases same
    rw [layout]
    exact aimed_of_aims (.jump layout found)
  case h_22 => cases encoded
  all_goals
    next layout => simp [Operation.aims, layout] at aims

theorem aimed_of_extended? (aims : operation.aims = true)
    (expanded : extended? context operation operands = .ok (some instructions)) :
    Aimed context (.label named addend) (operation.format = .jump) instructions := by
  unfold extended? at expanded
  split at expanded
  case h_1 rs value operand | h_2 rs value operand =>
    obtain rfl : operand = .label named addend := by simpa using last
    unfold extended?.compareWith at expanded
    dsimp only [Operand.target?] at expanded
    obtain ⟨loading, loaded, rest⟩ := bind_eq_ok_iff.1 expanded
    obtain ⟨found, branched, same⟩ := map_eq_ok_iff.1 rest
    cases same
    exact aimed_of_thenBranch (aims_of_load loaded) branched trivial (.inl rfl)
  case h_3 | h_4 => cases aims
  case h_5 =>
    rcases Operation.format_of_aims aims with layout | layout | layout <;>
      rw [layout] at expanded <;>
      cases expanded

theorem aimed_of_pseudo? {pseudo : Pseudo} (aims : (Mnemonic.pseudo pseudo).aims = true)
    (expanded : pseudo? context pseudo operands = .ok (some instructions)) :
    Aimed context (.label named addend) false instructions := by
  unfold pseudo? at expanded
  dsimp only at expanded
  split at expanded
  case h_10 operand | h_12 rs operand | h_13 rs operand =>
    obtain rfl : operand = .label named addend := by simpa using last
    obtain ⟨found, branched, same⟩ := map_eq_ok_iff.1 expanded
    cases same
    exact aimed_of_thenBranch (List.forall_mem_nil _) branched trivial (.inl rfl)
  case h_11 operand =>
    obtain rfl : operand = .label named addend := by simpa using last
    obtain ⟨found, branched, same⟩ := map_eq_ok_iff.1 expanded
    cases same
    exact aimed_of_thenBranch (List.forall_mem_nil _) branched rfl (.inr rfl)
  case h_22 first second third _ _ _ _ _ _ _ _ =>
    obtain rfl : third = .label named addend := by simpa using last
    split at expanded
    next comparison operation known =>
      dsimp only [Operand.target?] at expanded
      obtain ⟨result, loaded, rest⟩ := bind_eq_ok_iff.1 expanded
      cases result with
      | none => cases rest
      | some result =>
        obtain ⟨found, branched, same⟩ := map_eq_ok_iff.1 rest
        cases same
        have layout := format_of_branchComparison? known
        refine aimed_of_thenBranch ?_ branched (by rw [layout]; trivial) (.inl layout)
        rw [List.forall_mem_append, List.forall_mem_singleton]
        exact ⟨aims_of_source? loaded, aims_compare ..⟩
    next unknown =>
      -- The other pseudo-instructions with three operands set a register, and have no target.
      split at expanded
      next rs => split at expanded <;> cases expanded
      next => cases expanded
  case h_23 => cases expanded
  all_goals cases aims

theorem unabbreviated?_of_label (operation : Operation) : unabbreviated? operation operands = none := by
  unfold unabbreviated?
  split
  next => cases last
  next => cases last
  next => rfl

/-- What a written branch or jump becomes are instructions that only compute, and behind them one that goes there. -/
theorem aimed_of_mnemonic {mnemonic : Mnemonic} (aims : mnemonic.aims = true)
    (expanded : (WrittenInstruction.mk mnemonic operands).expand context = .ok instructions) :
    Aimed context (.label named addend) mnemonic.jumps instructions := by
  cases mnemonic with
  | nop => cases aims
  | machine operation =>
    rcases ok_of_settle expanded with ⟨instruction, encoded, rfl⟩ | found
    · exact aimed_of_encode? last aims encoded
    · rw [machine?, unabbreviated?_of_label last] at found
      exact aimed_of_extended? last aims found
  | pseudo pseudo =>
    have settled : settle context (.pseudo pseudo) (.ok none) (pseudo? context pseudo operands) = .ok instructions :=
      expanded
    rcases ok_of_settle settled with ⟨_, impossible, -⟩ | found
    · cases impossible
    · exact aimed_of_pseudo? last aims found

end Label

/-- What a written branch or jump becomes is aimed at the label that is written as its target. -/
theorem aimed_of_expand {written : WrittenInstruction} {named : Label} {addend : Int}
    (aims : written.aim? = some (named, addend)) (expanded : written.expand context = .ok instructions) :
    Aimed context (.label named addend) written.mnemonic.jumps instructions := by
  obtain ⟨aiming, found⟩ := Option.ite_none_right_eq_some.1 aims
  split at found
  next last =>
    cases found
    exact aimed_of_mnemonic last aiming expanded
  next => cases found

theorem region_eq_iff (first second : Address) :
    first &&& 0xF0000000 = second &&& 0xF0000000 ↔ first.toNat / 0x10000000 = second.toNat / 0x10000000 := by
  rw [← UInt32.toNat_inj, toNat_region, toNat_region]
  omega

/-- The word index of an aligned address in the region of the next instruction leads back to it. -/
theorem jumpTarget_ofTarget (jumps : operation.format = .jump) {pc address : Address}
    (aligned : Word.isAligned address = true) (region : address.toNat / 0x10000000 = (pc + 4).toNat / 0x10000000) :
    (ofTarget operation ((address >>> 2) &&& 0x03FFFFFF)).jumpTarget pc = address := by
  have free : operation.encoding.base &&& 0x03FFFFFF = 0 := by
    cases operation <;> first | rfl | cases jumps
  have index : ((address >>> 2) &&& 0x03FFFFFF).toNat = address.toNat / 4 % 0x4000000 := by
    have masked := Word.toNat_and_mask (address >>> 2) 26 0x03FFFFFF rfl
    rw [masked, UInt32.toNat_shiftRight, Nat.shiftRight_eq_div_pow]
    rfl
  have bounded := address.toNat_lt
  rw [Word.isAligned_iff] at aligned
  rw [← UInt32.toNat_inj, toNat_jumpTarget, target_ofTarget free, UInt32.and_assoc, UInt32.and_self, index]
  omega

section Goal

variable {resolve : Label → Except Problem Address} (resolved : context.resolve? = some resolve) {named : Label}
  {addend : Int} {pc : Address}

include resolved

/-- The offset of a branch leads to the address of its label and the number that is added to it. -/
theorem goal_of_branchOffset {offset : UInt16} (found : branchOffset context pc (.label named addend) = .ok offset) :
    ∃ start, resolve named = .ok start ∧ InReach false pc (start + Word.ofInt addend) ∧
      (Word.isAligned pc = true → pc + 4 + Word.signExtend 16 offset.toUInt32 * 4 = start + Word.ofInt addend) := by
  cases known : resolve named with
  | error problem =>
    simp only [branchOffset, address?, resolved, known] at found
    cases found
  | ok start =>
    refine ⟨start, rfl, ?_, ?_⟩
    · rw [branchOffset_label resolved known] at found
      dsimp only at found
      split at found
      next aligned =>
        split at found
        next fits => exact ⟨aligned, fun _ => by simpa [fitsSigned] using fits, fun jumps => absurd jumps Bool.false_ne_true⟩
        next => cases found
      next => cases found
    · intro aligned
      have destination := destination?_of_branchOffset resolved aligned found
      rw [Target.destination?, known] at destination
      exact (Option.some.inj destination).symm

theorem jumpIndex_label {start : Address} (known : resolve named = .ok start) :
    jumpIndex context (.label named addend) =
      let address := start + Word.ofInt addend
      if Word.isAligned address then
        if address &&& 0xF0000000 = (context.pc + 4) &&& 0xF0000000 then .ok ((address >>> 2) &&& 0x03FFFFFF)
        else .error (.jumpOutOfRegion address)
      else .error (.misalignedTarget address) := by
  simp only [jumpIndex, address?, resolved, known, Except.map, bind, Except.bind]
  cases Word.isAligned (start + Word.ofInt addend) with
  | false => rfl
  | true =>
    by_cases region : (start + Word.ofInt addend) &&& 0xF0000000 = (context.pc + 4) &&& 0xF0000000
    · simp [region]
      rfl
    · simp [region]
      rfl

/-- The word index of a jump leads to the address of its label and the number that is added to it. -/
theorem goal_of_jumpIndex {index : Word} (jumps : operation.format = .jump)
    (found : jumpIndex context (.label named addend) = .ok index) :
    ∃ start, resolve named = .ok start ∧ InReach true context.pc (start + Word.ofInt addend) ∧
      (ofTarget operation index).jumpTarget context.pc = start + Word.ofInt addend := by
  cases known : resolve named with
  | error problem =>
    simp only [jumpIndex, address?, resolved, known] at found
    cases found
  | ok start =>
    rw [jumpIndex_label resolved known] at found
    dsimp only at found
    split at found
    next aligned =>
      split at found
      next same =>
        have region := (region_eq_iff _ _).1 same
        cases found
        exact ⟨start, rfl, ⟨aligned, fun branches => absurd branches.symm Bool.false_ne_true, fun _ => region⟩,
          jumpTarget_ofTarget jumps aligned region⟩
      next => cases found
    next => cases found

/--
An instruction that is aimed at a label goes to the address of the label and the number that is added to it, and that
address is in its reach. Only a branch that does not lie at a multiple of four would go elsewhere.
-/
theorem goal_of_aims (aims : Aims context (.label named addend) jumps pc instruction) :
    ∃ start, resolve named = .ok start ∧ InReach jumps pc (start + Word.ofInt addend) ∧
      instruction.operation.aims = true ∧
      (instruction.operation.format = .jump ∨ Word.isAligned pc = true →
        instruction.goal pc = start + Word.ofInt addend) := by
  cases aims with
  | @branch _ operation rs rt offset shown branches found =>
    obtain ⟨start, known, reach, leads⟩ := goal_of_branchOffset resolved found
    have stays : (ofImmediate operation rs rt offset).operation.format ≠ .jump := by
      rcases branches with layout | layout <;> exact fun jump => nomatch layout.symm.trans jump
    refine ⟨start, known, reach, ?_, ?_⟩
    · rw [Operation.aims, Instruction.ofImmediate]
      rcases branches with layout | layout <;> rw [layout]
    · rintro (jump | aligned)
      · exact absurd jump stays
      · rw [goal, if_neg stays, branchTarget_ofImmediate shown, leads aligned]
  | jump layout found =>
    obtain ⟨start, known, reach, leads⟩ := goal_of_jumpIndex resolved layout found
    refine ⟨start, known, reach, ?_, fun _ => ?_⟩
    · rw [Operation.aims, Instruction.ofTarget, layout]
    · exact (if_pos layout).trans leads

end Goal

end Expansion

end Mips
