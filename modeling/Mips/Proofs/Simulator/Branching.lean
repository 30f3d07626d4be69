import Mips.Proofs.Expansion.Destination
import Mips.Proofs.Simulator.Alignment
import Mips.Proofs.Simulator.StraightLine

/-!
Written branches in a simulator. Whatever one is expanded to, its last instruction branches exactly if the operands are
related as its name says. Main statement: `branches_of_expand`.
-/

namespace Mips

variable [Generator]

/-- The position behind a branch that is taken or not, where this address is due next if it is not. -/
def Position.branched (next target : Address) (taken delayed : Bool) : Position :=
  if taken then if delayed then ⟨next, some target⟩ else ⟨target, none⟩ else ⟨next, none⟩

namespace Machine

/-- The machine at another position in its program. -/
def placed (machine : Machine) (position : Position) : Machine :=
  { machine with pc := position.pc, pending := position.pending }

theorem assignAll_steering {machine : Machine} (arrived : machine.pending = none) (next target : Address)
    (taken delayed : Bool) :
    machine.assignAll (Flow.steering (if taken then .branch target else .next) delayed next) =
      machine.placed (.branched next target taken delayed) := by
  cases machine
  cases arrived
  cases taken <;> cases delayed <;> rfl

/-- The second machine is the first one but for its position, for `$at`, and for `$ra` if a branch links. -/
structure Passes (before after : Machine) (links : Bool) (back : Address) : Prop where
  kept : after = { before with registers := after.registers, pc := after.pc, pending := after.pending }
  link : links = true → after.get .ra = back
  others : ∀ register, register ≠ .scratch → (register = .ra → links = false) →
    after.get register = before.get register

theorem passes_placed (machine : Machine) (scratch : Word) (links : Bool) (back : Address) (position : Position) :
    machine.Passes
      (((machine.set .scratch scratch).assignAll (Instruction.linking links back)).placed position) links back := by
  cases links with
  | false =>
    refine ⟨?_, fun linked => absurd linked Bool.false_ne_true, fun register other _ => ?_⟩
    · rw [Instruction.linking, if_neg Bool.false_ne_true, assignAll, set_eq]
      rfl
    · exact machine.get_set_ne other.symm scratch
  | true =>
    have linked : (machine.set .scratch scratch).assignAll (Instruction.linking true back) =
        (machine.set .scratch scratch).set .ra back := rfl
    rw [linked]
    refine ⟨?_, fun _ => get_set_self _ (by decide) back, fun register other apart => ?_⟩
    · rw [set_eq, set_eq]
      rfl
    · have different : Register.ra ≠ register := fun same => absurd (apart same.symm).symm Bool.false_ne_true
      exact (get_set_ne _ different back).trans (machine.get_set_ne other.symm scratch)

end Machine

namespace Simulator

variable {κ : Type} [Console κ]

/--
The simulator executes the instructions, of which the last is a branch to the target that may be taken. If it is, then the
target is due at once or behind the delay slot, and else execution goes on behind the instructions. Nothing else changes
but `$at`, and `$ra` if the branch links.
-/
structure Branches (outside : Outside) (instructions : List Instruction) (taken links : Bool) (target : Address)
    (simulator after : Simulator κ) : Prop where
  executes : Executes outside instructions simulator after
  undisturbed : simulator.Undisturbed after
  position : after.machine.position =
    .branched (Word.behind simulator.machine.pc instructions.length) target taken simulator.settings.delayedBranching
  passes : simulator.machine.Passes after.machine links
    (Instruction.link (Word.behind simulator.machine.pc (instructions.length - 1)) simulator.settings.delayedBranching)

/-- Wherever an instruction branches, a simulator that comes to it does so. -/
theorem advance_of_branches {simulator : Simulator κ} (outside : Outside) {instruction : Instruction}
    {taken links : Bool} (found : simulator.machine.instruction? = some instruction)
    (arrived : simulator.machine.pending = none) (branches : instruction.Branches simulator.machine taken links) :
    ∃ after, Executes outside [instruction] simulator after ∧ simulator.Undisturbed after ∧
      after.machine =
        (simulator.machine.assignAll (Instruction.linking links
          (Instruction.link simulator.machine.pc simulator.settings.delayedBranching))).placed
          (.branched (simulator.machine.pc + 4) (instruction.branchTarget simulator.machine.pc) taken
            simulator.settings.delayedBranching) := by
  have quiet : (if taken then Flow.branch (instruction.branchTarget simulator.machine.pc) else .next) ≠ .service := by
    cases taken <;> nofun
  obtain ⟨runs, advanced⟩ := advance_of_effect outside found arrived (branches _ _) quiet
  refine ⟨_, .single runs advanced, ⟨rfl, rfl, rfl⟩, (Machine.assignAll_append _ _ _).trans ?_⟩
  apply Machine.assignAll_steering
  cases links
  · exact arrived
  · exact arrived

/-- A simulator that executes what decides on a branch outside a delay slot branches as decided. -/
theorem branches_of_decides (outside : Outside) {simulator : Simulator κ} {before : List Instruction}
    {last : Instruction} {scratch : Word} {taken links : Bool}
    (leads : Leads before simulator.machine (simulator.machine.set .scratch scratch))
    (branches : last.Branches (simulator.machine.set .scratch scratch) taken links)
    (canonical : AllCanonical (before ++ [last])) (arrived : simulator.machine.pending = none)
    (contained : simulator.machine.memory.Contains simulator.machine.pc (before ++ [last])) :
    ∃ after, Branches outside (before ++ [last]) taken links
      (last.branchTarget (Word.behind simulator.machine.pc before.length)) simulator after := by
  obtain ⟨middle, executes, undisturbed, ends, arrivedThere, found⟩ :=
    arrives_of_leads outside leads canonical arrived contained
  have branchesThere : last.Branches middle.machine taken links := by
    intro pc delayed
    rw [ends, Instruction.effect_moved]
    exact branches pc delayed
  obtain ⟨after, executesLast, undisturbedLast, branched⟩ := advance_of_branches outside found arrivedThere branchesThere
  have computed (back : Address) : ∀ assignment ∈ Instruction.linking links back, assignment.isComputed = true := by
    cases links <;> simp [Instruction.linking, Assignment.isComputed]
  have pc : middle.machine.pc = Word.behind simulator.machine.pc before.length := congrArg Machine.pc ends
  rw [pc, undisturbed.settings, ← Word.behind_add_four, ends, (Machine.computing_assignAll _ (computed _)).2] at branched
  refine ⟨after, executes.append executesLast, undisturbed.trans undisturbedLast, ?_, ?_⟩
  · rw [branched, List.length_append]
    rfl
  · rw [branched, List.length_append]
    exact simulator.machine.passes_placed scratch links _ _

/--
A written branch that has the operands for it is expanded exactly if its target can be reached. Wherever the instructions
are that it is expanded to, outside a delay slot the last of them branches if and only if the operands are related as the
name of the branch says, provided that it does not name `$at`. If the instructions are where they were made for, then the
branch leads where its target says.
-/
theorem branches_of_expand {written : WrittenInstruction} {context : ExpansionContext}
    {resolve : Label → Except Problem Address} {related : Word → Word → Bool}
    (known : written.mnemonic.relation? = some related) (resolved : context.resolve? = some resolve)
    (spares : written.Spares .scratch) :
    (context.extended = true → ∀ decision, written.decision? = some decision → ∃ count,
        (∀ instructions, written.expand context = .ok instructions → instructions.length = count + 1) ∧
          ((∃ instructions, written.expand context = .ok instructions) ↔
            ∃ offset, Expansion.branchOffset context (Word.behind context.pc count) decision.target = .ok offset)) ∧
      ∀ instructions, written.expand context = .ok instructions →
        ∃ decision before last, written.decision? = some decision ∧ instructions = before ++ [last] ∧
          ∀ (simulator : Simulator κ) (outside : Outside),
            simulator.machine.pending = none → simulator.machine.memory.Contains simulator.machine.pc instructions →
              let pc := Word.behind simulator.machine.pc before.length
              (simulator.machine.pc = context.pc →
                  decision.target.destination? resolve pc = some (last.branchTarget pc)) ∧
                ∃ after, Branches outside instructions (decision.taken simulator.machine) written.mnemonic.links
                  (last.branchTarget pc) simulator after := by
  have realized : ∀ decision, written.decision? = some decision → Expansion.Realizes written context decision :=
    fun decision named => Expansion.realizes_of_decision? context named spares
  refine ⟨?_, ?_⟩
  · intro allowed decision named
    obtain ⟨before, operation, rs, rt, expands, -⟩ := realized decision named
    have settled := expands.resolve_right fun refused => nomatch refused.1.symm.trans allowed
    refine ⟨before.length, ?_, ?_⟩
    · intro instructions expanded
      obtain ⟨offset, -, rfl⟩ := map_eq_ok_iff.1 (settled.symm.trans expanded)
      simp
    · rw [settled]
      constructor
      · rintro ⟨instructions, expanded⟩
        obtain ⟨offset, found, -⟩ := map_eq_ok_iff.1 expanded
        exact ⟨offset, found⟩
      · rintro ⟨offset, found⟩
        exact ⟨_, map_eq_ok_iff.2 ⟨offset, found, rfl⟩⟩
  · intro instructions expanded
    obtain ⟨decision, named⟩ := Expansion.decision?_of_expand known expanded
    obtain ⟨before, operation, rs, rt, expands, decides⟩ := realized decision named
    have settled := expands.resolve_right fun ⟨_, problem, refused⟩ => nomatch refused.symm.trans expanded
    obtain ⟨offset, found, rfl⟩ := map_eq_ok_iff.1 (settled.symm.trans expanded)
    refine ⟨decision, before, _, named, rfl, ?_⟩
    intro simulator outside arrived contained
    obtain ⟨shown, scratch, leads, branches⟩ := decides simulator.machine
    refine ⟨?_, branches_of_decides outside leads (branches offset) (canonical_of_expand expanded) arrived
      contained⟩
    intro here
    obtain ⟨-, present, -⟩ := Memory.contains_append.1 contained
    have target := Instruction.branchTarget_ofImmediate shown offset (Word.behind simulator.machine.pc before.length)
    rw [Expansion.immediate, target]
    exact Expansion.destination?_of_branchOffset resolved (Memory.isAligned_of_fetch present) (here ▸ found)

end Simulator

end Mips

namespace Mips.Simulator

/-- The stack pointer is below `-5` as an unsigned number, and the branch waits for its delay slot. -/
theorem branches_of_negative :
    let written : WrittenInstruction := ⟨.pseudo .bltu, [.register .sp, .immediate (-5), .immediate 3]⟩
    let context : ExpansionContext := ⟨0x00400000, true, true, some fun _ => .ok 0⟩
    let loading : Instruction := .ofImmediate .addiu .zero .scratch 0xFFFB
    let comparison : Instruction := .ofRegisters .sltu .scratch .sp .scratch 0
    let branch : Instruction := .ofImmediate .bne .scratch .zero 3
    let program := Program.ofInstructions [(0x00400000, loading), (0x00400004, comparison), (0x00400008, branch)]
    let outside : Outside := ⟨fun _ => ⟨0, RandomStream.ofSeed⟩, fun _ _ => []⟩
    let simulator := loaded { delayedBranching := true } program
    written.expand context = .ok [loading, comparison, branch] ∧
      ∃ after, Executes outside [loading, comparison, branch] simulator after ∧ after.machine.pc = 0x0040000C ∧
        after.machine.pending = some 0x00400018 := by
  intro written context loading comparison branch program outside simulator
  have expanded : written.expand context = .ok [loading, comparison, branch] := by rfl
  have arrived : simulator.machine.pending = none := by decide +kernel
  have contained : simulator.machine.memory.Contains simulator.machine.pc [loading, comparison, branch] :=
    ⟨eq_ok_of_toOption (by decide +kernel), eq_ok_of_toOption (by decide +kernel),
      eq_ok_of_toOption (by decide +kernel), trivial⟩
  have known : written.mnemonic.relation? = some fun first second => decide (first < second) := by rfl
  have resolved : context.resolve? = some fun _ => .ok 0 := by rfl
  have spares : written.Spares .scratch := by decide
  obtain ⟨-, branches⟩ := branches_of_expand (κ := SilentConsole) known resolved spares
  obtain ⟨decision, before, last, named, split, branches⟩ := branches _ expanded
  obtain rfl := Option.some.inj named
  have parts : [loading, comparison] ++ [branch] = before ++ [last] := split
  obtain ⟨rfl, same⟩ := List.append_inj' parts rfl
  obtain rfl := List.head_eq_of_cons_eq same
  obtain ⟨-, after, branched⟩ := branches simulator outside arrived contained
  have pcStart : simulator.machine.pc = 0x00400000 := by decide +kernel
  have below : simulator.machine.get .sp < Word.ofInt (-5) := by decide +kernel
  have taken : Decision.taken ⟨fun first second => first < second, .sp, fun _ => Word.ofInt (-5), .number 3⟩
      simulator.machine = true := decide_eq_true below
  have position : after.machine.position = ⟨0x0040000C, some 0x00400018⟩ := by
    have target : branch.branchTarget (Word.behind 0x00400000 2) = 0x00400018 := by decide +kernel
    have delayed : simulator.settings.delayedBranching = true := rfl
    rw [branched.position, taken, pcStart, delayed]
    exact congrArg (fun target => Position.mk 0x0040000C (some target)) target
  exact ⟨expanded, after, branched.executes, congrArg Position.pc position, congrArg Position.pending position⟩

end Mips.Simulator
