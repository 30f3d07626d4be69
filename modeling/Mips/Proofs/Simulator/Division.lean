import Mips.Proofs.Expansion.Division
import Mips.Proofs.Simulator.Branching

/-!
Written divisions with three operands in a simulator. By zero they come to a break before anything has changed, and by
another divisor they leave the quotient or the remainder in a register and go on behind themselves. Main statement:
`divides_of_expand`.
-/

namespace Mips

variable [Generator]

namespace Machine

/--
The second machine is the first one after a division, wherever they are: `HI` and `LO` hold the remainder and the quotient,
the destination holds what is wanted of them, unless that is the register that holds zero, and nothing else differs
but `$at`.
-/
structure Divides (before after : Machine) (division : Division) (rd : Register) (dividend divisor : Word) : Prop where
  kept : after =
    { before with registers := after.registers, hi := after.hi, lo := after.lo, pc := after.pc }
  exact : division.Exact dividend divisor after.lo after.hi
  destination : rd ≠ .zero → after.get rd = if division.remains then after.hi else after.lo
  others : ∀ register, (register = rd → register = .zero) → register ≠ .scratch →
    after.get register = before.get register

theorem divides_divided (machine : Machine) (division : Division) (rd : Register) (dividend : Word) {divisor : Word}
    (nonzero : divisor ≠ 0) (scratch : Word) (pc : Address) :
    machine.Divides ((Expansion.divided division rd dividend divisor (machine.set .scratch scratch)).moved pc)
      division rd dividend divisor := by
  have exact := division.exact dividend nonzero
  unfold Expansion.divided
  constructor
  case kept =>
    rw [set_eq, set_eq]
    rfl
  case exact =>
    rw [moved, hi_set, lo_set]
    exact exact
  case destination =>
    intro real
    rw [moved, hi_set, lo_set]
    exact get_set_self _ real _
  case others =>
    intro register apart other
    have kept : (machine.set .scratch scratch).get register = machine.get register :=
      machine.get_set_ne other.symm scratch
    rw [← kept]
    by_cases same : register = rd
    · rw [← same, apart same]
      rfl
    · exact get_set_ne _ (Ne.symm same) _

theorem placed_of_arrived {machine : Machine} (arrived : machine.pending = none) (pc : Address) :
    machine.placed ⟨pc, none⟩ = machine.moved pc := by
  cases machine
  cases arrived
  rfl

end Machine

namespace Simulator

variable {κ : Type} [Console κ]

/-- An instruction in a delay slot that assigns something runs, and leads to where the branch does. -/
theorem advance_in_slot {simulator : Simulator κ} (outside : Outside) {instruction : Instruction}
    {assignments : List Assignment} {target : Address} (found : simulator.machine.instruction? = some instruction)
    (pending : simulator.machine.pending = some target)
    (assigns : instruction.Assigns (Step.ready simulator.machine) assignments) :
    simulator.Runs outside instruction ∧ (simulator.advance outside).1 = none ∧
      simulator.Undisturbed (simulator.advance outside).2 ∧
      (simulator.advance outside).2.machine = ((Step.ready simulator.machine).assignAll assignments).moved target := by
  have executed := assigns simulator.machine.pc simulator.settings.delayedBranching
  have taken : Step.beforeFault simulator.machine true = [.pending none] := by simp [Step.beforeFault, pending]
  have next : simulator.nextStep? outside = _ := Step.ofMachine_of_effect found executed (by simp)
  rw [taken, Machine.next_of_pending pending] at next
  rw [advance_of_some next]
  refine ⟨Step.runs_of_effect found executed (by simp), rfl, ⟨rfl, rfl, rfl⟩, ?_⟩
  exact (Machine.assignAll_append _ _ _).trans rfl

omit [Generator] in
/-- The branch of a guard leads as far behind it as its offset says. -/
theorem branchTarget_guard (rt : Register) (pc : Address) :
    (Expansion.immediate .bne rt .zero 1).branchTarget pc = Word.behind pc 2 ∧
      (Expansion.immediate .bne rt .zero 2).branchTarget pc = Word.behind pc 3 := by
  have known : Operation.relation? .bne = some fun first second => decide (first ≠ second) := rfl
  have target (field : UInt16) : (Expansion.immediate .bne rt .zero field).branchTarget pc =
      pc + 4 + Word.signExtend 16 field.toUInt32 * 4 :=
    Instruction.branchTarget_ofImmediate (Expansion.shown_of_relation? known rt .zero) field pc
  constructor
  · rw [target, UInt32.add_assoc]
    rfl
  · rw [target, UInt32.add_assoc]
    rfl

/-- If the divisor is not zero, then a guard goes on behind its break, and has changed nothing. -/
theorem executes_guarding (outside : Outside) {simulator : Simulator κ} {rt : Register}
    (divisor : simulator.machine.get rt ≠ 0) (arrived : simulator.machine.pending = none)
    (canonical : AllCanonical (Expansion.guarding simulator.settings.delayedBranching rt))
    (contained : simulator.machine.memory.Contains simulator.machine.pc
      (Expansion.guarding simulator.settings.delayedBranching rt)) :
    ∃ after, Executes outside (Expansion.guarding simulator.settings.delayedBranching rt) simulator after ∧
      simulator.Undisturbed after ∧
      after.machine = simulator.machine.moved (Word.behind simulator.machine.pc
        ((Expansion.guarding simulator.settings.delayedBranching rt).length + 1)) := by
  have taken (field : UInt16) : (Expansion.immediate .bne rt .zero field).Branches simulator.machine true false := by
    have branches := Expansion.branches_guard simulator.machine rt field
    rwa [decide_eq_true divisor] at branches
  obtain ⟨near, far⟩ := branchTarget_guard rt simulator.machine.pc
  unfold Expansion.guarding at canonical contained ⊢
  cases delayed : simulator.settings.delayedBranching with
  | false =>
    rw [delayed] at canonical contained
    have found : simulator.machine.instruction? = some (Expansion.immediate .bne rt .zero 1) :=
      Machine.instruction?_eq_some_iff.2 ⟨contained.1, Instruction.decode?_of_isCanonical (canonical _ (.head _))⟩
    obtain ⟨after, executes, undisturbed, branched⟩ := advance_of_branches outside found arrived (taken 1)
    rw [near, delayed] at branched
    exact ⟨after, executes, undisturbed, branched.trans (Machine.placed_of_arrived arrived _)⟩
  | true =>
    rw [delayed] at canonical contained
    obtain ⟨present, filled, -⟩ := contained
    have found : simulator.machine.instruction? = some (Expansion.immediate .bne rt .zero 2) :=
      Machine.instruction?_eq_some_iff.2 ⟨present, Instruction.decode?_of_isCanonical (canonical _ (.head _))⟩
    obtain ⟨between, executes, undisturbed, branched⟩ := advance_of_branches outside found arrived (taken 2)
    rw [far, delayed] at branched
    have ready : Step.ready between.machine = simulator.machine.moved (simulator.machine.pc + 4) := by
      rw [branched]
      exact Machine.placed_of_arrived arrived _
    have filler : between.machine.instruction? = some .nop := by
      refine Machine.instruction?_eq_some_iff.2 ⟨?_, Instruction.decode?_of_isCanonical Instruction.isCanonical_nop⟩
      rw [branched]
      exact filled
    have pending : between.machine.pending = some (Word.behind simulator.machine.pc 3) := by
      rw [branched]
      rfl
    obtain ⟨runs, continues, undisturbedLater, ends⟩ :=
      advance_in_slot outside filler pending (Expansion.assigns_nop _)
    refine ⟨_, executes.append (.cons runs continues (.nil _)), undisturbed.trans undisturbedLater, ?_⟩
    rw [ends, ready]
    rfl

/--
The simulator executes some of the instructions and then has divided, at the address behind all of them; if the divisor is
zero, then it executes the first of them and breaks, before anything but the address has changed.
-/
structure Divides (simulator : Simulator κ) (outside : Outside) (instructions : List Instruction) (division : Division)
    (rd : Register) (dividend divisor : Word) : Prop where
  breaks : divisor = 0 → ∃ before rest after, instructions = before ++ .ofCode .breakpoint 0 :: rest ∧
    Executes outside before simulator after ∧ simulator.Undisturbed after ∧
    after.machine = simulator.machine.moved (Word.behind simulator.machine.pc before.length) ∧
    after.Raises outside true (.breakpoint 0)
  completes : divisor ≠ 0 → ∃ executed after, executed.Sublist instructions ∧
    Executes outside executed simulator after ∧ simulator.Undisturbed after ∧
    simulator.machine.Divides after.machine division rd dividend divisor ∧
    after.machine.pc = Word.behind simulator.machine.pc instructions.length ∧ after.machine.pending = none

section Divides

variable {simulator : Simulator κ} {division : Division} {rd rs rt : Register}

theorem divides_guarded (outside : Outside) (arrived : simulator.machine.pending = none)
    (canonical : AllCanonical ((Expansion.guarding simulator.settings.delayedBranching rt ++ [.ofCode .breakpoint 0]) ++
      Expansion.dividing division rd rs rt))
    (contained : simulator.machine.memory.Contains simulator.machine.pc
      ((Expansion.guarding simulator.settings.delayedBranching rt ++ [.ofCode .breakpoint 0]) ++
        Expansion.dividing division rd rs rt)) :
    simulator.Divides outside ((Expansion.guarding simulator.settings.delayedBranching rt ++ [.ofCode .breakpoint 0]) ++
      Expansion.dividing division rd rs rt) division rd (simulator.machine.get rs) (simulator.machine.get rt) := by
  obtain ⟨containedGuard, containedBody⟩ := Memory.contains_append.1 contained
  have canonicalGuard := fun instruction among => canonical instruction (List.mem_append_left _ among)
  have canonicalBody := fun instruction among => canonical instruction (List.mem_append_right _ among)
  constructor
  case breaks =>
    intro divisor
    have leads := Expansion.leads_guarding divisor simulator.settings.delayedBranching
    obtain ⟨middle, executes, undisturbed, ends, arrivedThere, found⟩ :=
      arrives_of_leads outside leads canonicalGuard arrived containedGuard
    refine ⟨_, _, middle, List.append_assoc .., executes, undisturbed, ends, ?_⟩
    exact Step.raises_of_effect _ found (Expansion.effect_break _ _ _)
  case completes =>
    intro nonzero
    obtain ⟨between, executes, undisturbed, passed⟩ := executes_guarding outside nonzero arrived
      (fun instruction among => canonicalGuard instruction (List.mem_append_left _ among))
      (Memory.contains_append.1 containedGuard).1
    rw [List.length_append] at containedBody
    obtain ⟨computing, after, executesBody, undisturbedBody, ends⟩ :=
      executes_of_leads outside (Expansion.leads_dividing division rd rs nonzero) canonicalBody passed arrived
        containedBody
    have divides := simulator.machine.divides_divided division rd (simulator.machine.get rs) nonzero
      (simulator.machine.get .scratch) after.machine.pc
    rw [Machine.set_get] at divides
    refine ⟨_, after, (List.sublist_append_left _ _).append_right _, executes.append executesBody,
      undisturbed.trans undisturbedBody, ?_, ?_, ?_⟩
    · rw [ends] at divides ⊢
      exact divides
    · have pc := congrArg Machine.pc ends
      rw [List.length_append, List.length_append, ← Word.behind_behind]
      exact pc
    · rw [ends]
      exact computing.pending.trans arrived

theorem divides_loaded (outside : Outside) {value : Int} {loading : List Instruction}
    (loaded : Expansion.load .scratch value = .ok loading) (nonzero : value ≠ 0) (spared : rs ≠ .scratch)
    (arrived : simulator.machine.pending = none)
    (canonical : AllCanonical (loading ++ Expansion.dividing division rd rs .scratch))
    (contained : simulator.machine.memory.Contains simulator.machine.pc
      (loading ++ Expansion.dividing division rd rs .scratch)) :
    simulator.Divides outside (loading ++ Expansion.dividing division rd rs .scratch) division rd
      (simulator.machine.get rs) (Word.ofInt value) := by
  have divisor := Expansion.ofInt_ne_zero (Expansion.holds_of_load loaded) nonzero
  refine ⟨fun none => absurd none divisor, fun _ => ?_⟩
  have held : (simulator.machine.set .scratch (Word.ofInt value)).get .scratch = Word.ofInt value :=
    Machine.get_set_self _ Expansion.scratch_ne_zero _
  have kept : (simulator.machine.set .scratch (Word.ofInt value)).get rs = simulator.machine.get rs :=
    Machine.get_set_ne _ spared.symm _
  have divides := Expansion.leads_dividing division rd rs (held.symm ▸ divisor : Machine.get _ .scratch ≠ 0)
  rw [held, kept] at divides
  obtain ⟨computing, after, executes, undisturbed, ends⟩ := executes_of_leads outside
    ((Expansion.leads_load_scratch loaded).append divides) canonical rfl arrived contained
  refine ⟨_, after, List.Sublist.refl _, executes, undisturbed, ?_, congrArg Machine.pc ends, ?_⟩
  · rw [ends]
    exact simulator.machine.divides_divided division rd _ divisor _ _
  · rw [ends]
    exact computing.pending.trans arrived

end Divides

/--
A written division with three operands, of which the last is not the number zero, is expanded exactly if that is a
register or a word. Wherever the instructions are that it is expanded to, outside a delay slot they break if the divisor
is zero, and else divide, provided that the division does not name `$at`.
-/
theorem divides_of_expand {written : WrittenInstruction} {context : ExpansionContext} {division : Division}
    {rd rs : Register} {divisor : Operand} (named : written.division? = some (division, rd, rs, divisor))
    (spares : written.Spares .scratch) (nonzero : divisor ≠ .immediate 0) :
    (context.extended = true →
        ((∃ instructions, written.expand context = .ok instructions) ↔ ∃ value, divisor.value? = some value)) ∧
      ∀ instructions, written.expand context = .ok instructions →
        ∃ value, divisor.value? = some value ∧
          ∀ (simulator : Simulator κ) (outside : Outside),
            simulator.machine.pending = none → simulator.settings.delayedBranching = context.delayed →
              simulator.machine.memory.Contains simulator.machine.pc instructions →
                simulator.Divides outside instructions division rd (simulator.machine.get rs)
                  (value simulator.machine) := by
  refine ⟨Expansion.succeeds_division_iff named, ?_⟩
  intro instructions expanded
  have canonical := canonical_of_expand expanded
  have spared : rs ≠ .scratch := by
    obtain ⟨-, operands⟩ := WrittenInstruction.of_division? named
    exact spares.of_register (by simp [operands])
  rcases Expansion.of_divide (Expansion.divide_of_expand named expanded) with
    ⟨rt, rfl, rfl⟩ | ⟨value, loading, rfl, loaded, rfl⟩
  · refine ⟨_, rfl, ?_⟩
    intro simulator outside arrived delayed contained
    rw [← delayed] at canonical contained ⊢
    exact divides_guarded outside arrived canonical contained
  · refine ⟨_, if_pos (Expansion.holds_of_load loaded), ?_⟩
    intro simulator outside arrived _ contained
    have real : value ≠ 0 := fun none => nonzero (congrArg Operand.immediate none)
    exact divides_loaded outside loaded real spared arrived canonical contained

end Simulator

end Mips

namespace Mips.Simulator

/-- The stack pointer leaves a remainder by the global pointer, and the break is skipped by way of the delay slot. -/
theorem divides_pointers :
    let written : WrittenInstruction := ⟨.pseudo .rem, [.register .a0, .register .sp, .register .gp]⟩
    let context : ExpansionContext := ⟨0x00400000, true, true, some fun _ => .ok 0⟩
    let guard : Instruction := .ofImmediate .bne .gp .zero 2
    let division : Instruction := .ofRegisters .div .zero .sp .gp 0
    let moving : Instruction := .ofRegisters .mfhi .a0 .zero .zero 0
    let instructions := [guard, .nop, .ofCode .breakpoint 0, division, moving]
    let program := Program.ofInstructions
      [(0x00400000, guard), (0x00400004, .nop), (0x00400008, .ofCode .breakpoint 0), (0x0040000C, division),
        (0x00400010, moving)]
    let outside : Outside := ⟨fun _ => ⟨0, RandomStream.ofSeed⟩, fun _ _ => []⟩
    let simulator := loaded { delayedBranching := true } program
    written.expand context = .ok instructions ∧
      ∃ executed after, Executes outside executed simulator after ∧ after.machine.pc = 0x00400014 ∧
        after.machine.get .a0 = simulator.machine.get .sp % simulator.machine.get .gp := by
  intro written context guard division moving instructions program outside simulator
  have expanded : written.expand context = .ok instructions := by rfl
  have arrived : simulator.machine.pending = none := by decide +kernel
  have delayed : simulator.settings.delayedBranching = context.delayed := by rfl
  have contained : simulator.machine.memory.Contains simulator.machine.pc instructions :=
    ⟨eq_ok_of_toOption (by decide +kernel), eq_ok_of_toOption (by decide +kernel),
      eq_ok_of_toOption (by decide +kernel), eq_ok_of_toOption (by decide +kernel),
      eq_ok_of_toOption (by decide +kernel), trivial⟩
  have named : written.division? = some (⟨true, true⟩, .a0, .sp, .register .gp) := by rfl
  have spares : written.Spares .scratch := by decide
  obtain ⟨-, divides⟩ := divides_of_expand (κ := SilentConsole) named spares (by simp)
  obtain ⟨value, read, divides⟩ := divides _ expanded
  obtain rfl := Option.some.inj read
  obtain ⟨executed, after, -, executes, -, result, pc, -⟩ :=
    (divides simulator outside arrived delayed contained).completes (by decide +kernel)
  have pcStart : simulator.machine.pc = 0x00400000 := by decide +kernel
  refine ⟨expanded, executed, after, executes, ?_, ?_⟩
  · rw [pc, pcStart]
    rfl
  · have rest : after.machine.hi.signed =
        (simulator.machine.get .sp).signed.tmod (simulator.machine.get .gp).signed := result.exact.rest
    have moved : after.machine.get .a0 = after.machine.hi := result.destination (by decide)
    rw [moved, ← Word.ofInt_signed after.machine.hi, rest]
    decide +kernel

end Mips.Simulator
