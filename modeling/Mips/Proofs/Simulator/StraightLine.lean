import Mips.Proofs.Expansion.Acceptance
import Mips.Proofs.Expansion.Canonical
import Mips.Proofs.Instruction.Decoding
import Mips.Proofs.Simulator.DelaySlot

/-!
Straight-line code in a simulator. Whatever instructions lead to outside a delay slot, a simulator comes to that
executes them, at the address behind them. So what written instructions are expanded to computes what they name.
Main statements: `executes_of_leads` and `obtains_of_expand`.
-/

namespace Mips

/-- The words of these instructions follow one another in memory from the address on. -/
def Memory.Contains (memory : Memory) : Address → List Instruction → Prop
  | _, [] => True
  | address, instruction :: rest =>
    memory.fetch address = .ok (some instruction.word) ∧ memory.Contains (address + 4) rest

/-- The address behind so many instructions. -/
def Word.behind (address : Address) (count : Nat) : Address := address + 4 * UInt32.ofNat count

namespace Word

@[simp] theorem behind_zero (address : Address) : behind address 0 = address := by
  simp [behind]

theorem behind_succ (address : Address) (count : Nat) : behind address (count + 1) = behind (address + 4) count := by
  unfold behind
  rw [UInt32.ofNat_add, UInt32.mul_add, UInt32.add_comm (4 * UInt32.ofNat count), UInt32.add_assoc]
  rfl

theorem behind_behind (address : Address) (first second : Nat) :
    behind (behind address first) second = behind address (first + second) := by
  unfold behind
  rw [UInt32.ofNat_add, UInt32.mul_add, UInt32.add_assoc]

theorem behind_add_four (address : Address) (count : Nat) : behind address (count + 1) = behind address count + 4 := by
  unfold behind
  rw [UInt32.ofNat_add, UInt32.mul_add, UInt32.add_assoc]
  rfl

end Word

namespace Memory

theorem contains_append {memory : Memory} {address : Address} {first rest : List Instruction} :
    memory.Contains address (first ++ rest) ↔
      memory.Contains address first ∧ memory.Contains (Word.behind address first.length) rest := by
  induction first generalizing address with
  | nil => simp [Contains]
  | cons instruction others ih => simp [Contains, ih, Word.behind_succ, and_assoc]

end Memory

theorem Step.ready_of_arrived [Generator] {machine : Machine} (arrived : machine.pending = none) : ready machine = machine := by
  rw [ready, ← arrived]

namespace Simulator

variable [Generator] {κ : Type} [Console κ]

/-- The simulator executes these instructions one after another, none of them faults, and the program goes on. -/
inductive Executes (outside : Outside) : List Instruction → Simulator κ → Simulator κ → Prop where
  | nil (simulator : Simulator κ) : Executes outside [] simulator simulator
  | cons {instruction : Instruction} {rest : List Instruction} {simulator after : Simulator κ}
      (runs : simulator.Runs outside instruction) (continues : (simulator.advance outside).1 = none)
      (later : Executes outside rest (simulator.advance outside).2 after) :
    Executes outside (instruction :: rest) simulator after

theorem Executes.append {outside : Outside} {first rest : List Instruction} {simulator between after : Simulator κ}
    (executes : Executes outside first simulator between) (later : Executes outside rest between after) :
    Executes outside (first ++ rest) simulator after := by
  induction executes with
  | nil => exact later
  | cons runs continues _ ih => exact .cons runs continues (ih later)

theorem Executes.single {outside : Outside} {instruction : Instruction} {simulator after : Simulator κ}
    (runs : simulator.Runs outside instruction) (advanced : simulator.advance outside = (none, after)) :
    Executes outside [instruction] simulator after := by
  have continues : (simulator.advance outside).1 = none := congrArg Prod.fst advanced
  have executes := Executes.cons runs continues (.nil _)
  rwa [congrArg Prod.snd advanced] at executes

/-- The second simulator is the first one after instructions that neither load nor store nor use the console. -/
structure Undisturbed (before after : Simulator κ) : Prop where
  settings : after.settings = before.settings
  accesses : after.accesses = before.accesses
  console : after.console = before.console

omit [Console κ] in
theorem Undisturbed.trans {before between after : Simulator κ} (first : Undisturbed before between)
    (second : Undisturbed between after) : Undisturbed before after where
  settings := second.settings.trans first.settings
  accesses := second.accesses.trans first.accesses
  console := second.console.trans first.console

/-- An instruction that calls no service runs, and its step is its effect with what that makes of the address. -/
theorem advance_of_effect {simulator : Simulator κ} (outside : Outside) {instruction : Instruction} {effect : Effect}
    (found : simulator.machine.instruction? = some instruction) (arrived : simulator.machine.pending = none)
    (executed : instruction.effect simulator.machine simulator.machine.pc simulator.settings.delayedBranching =
      .ok effect) (quiet : effect.flow ≠ .service) :
    simulator.Runs outside instruction ∧ simulator.advance outside =
      (none, simulator.apply outside
        { assignments := effect.assignments ++
            effect.flow.steering simulator.settings.delayedBranching (simulator.machine.pc + 4)
          ending := .completed, console := simulator.console, access := effect.access }) := by
  have ready : Step.ready simulator.machine = simulator.machine := Step.ready_of_arrived arrived
  have none : Step.beforeFault simulator.machine true = [] := by simp [Step.beforeFault, arrived]
  have next : simulator.nextStep? outside = _ := Step.ofMachine_of_effect found (ready.symm ▸ executed) quiet
  rw [none, Machine.next_of_arrived arrived] at next
  refine ⟨Step.runs_of_effect found (ready.symm ▸ executed) quiet, ?_⟩
  rw [advance_of_some next]
  rfl

/-- An instruction that assigns something runs, and leads to the address behind it. -/
theorem advance_of_assigns {simulator : Simulator κ} (outside : Outside) {instruction : Instruction}
    {assignments : List Assignment} (found : simulator.machine.instruction? = some instruction)
    (arrived : simulator.machine.pending = none) (assigns : instruction.Assigns simulator.machine assignments) :
    simulator.Runs outside instruction ∧ (simulator.advance outside).1 = none ∧
      simulator.Undisturbed (simulator.advance outside).2 ∧
      (simulator.advance outside).2.machine =
        (simulator.machine.assignAll assignments).moved (simulator.machine.pc + 4) := by
  obtain ⟨runs, advanced⟩ := advance_of_effect outside found arrived (assigns _ _) (by simp)
  rw [advanced]
  exact ⟨runs, rfl, ⟨rfl, rfl, rfl⟩, Machine.assignAll_append _ _ _⟩

/--
Whatever canonical instructions lead to, a simulator comes to that executes them outside a delay slot, at the address
behind them.
-/
theorem executes_of_leads (outside : Outside) {instructions : List Instruction} {machine final : Machine}
    (leads : Leads instructions machine final) (canonical : AllCanonical instructions)
    {simulator : Simulator κ} {pc : Address} (starts : simulator.machine = machine.moved pc)
    (arrived : machine.pending = none) (contained : machine.memory.Contains pc instructions) :
    machine.Computing final ∧ ∃ after, Executes outside instructions simulator after ∧
      simulator.Undisturbed after ∧ after.machine = final.moved (Word.behind pc instructions.length) := by
  -- By induction on what the instructions lead to: each is fetched and decoded where the one before it led.
  induction leads generalizing simulator pc with
  | nil machine =>
    exact ⟨rfl, simulator, .nil simulator, ⟨rfl, rfl, rfl⟩, by rw [starts, List.length_nil, Word.behind_zero]⟩
  | @cons instruction rest machine final assignments assigns computed later ih =>
    obtain ⟨first, others⟩ := List.forall_mem_cons.1 canonical
    obtain ⟨present, following⟩ := contained
    have found : simulator.machine.instruction? = some instruction := by
      rw [starts]
      exact Machine.instruction?_eq_some_iff.2 ⟨present, Instruction.decode?_of_isCanonical first⟩
    have assignsHere : instruction.Assigns simulator.machine assignments := by
      intro address delayed
      rw [starts, Instruction.effect_moved]
      exact assigns address delayed
    obtain ⟨kept, commutes⟩ := machine.computing_assignAll computed
    obtain ⟨runs, continues, undisturbed, advanced⟩ :=
      advance_of_assigns outside found (starts ▸ arrived) assignsHere
    have next : (simulator.advance outside).2.machine = (machine.assignAll assignments).moved (pc + 4) := by
      rw [advanced, starts, commutes]
      rfl
    obtain ⟨keptLater, after, executes, undisturbedLater, ends⟩ :=
      ih others next (kept.pending.trans arrived) (kept.memory ▸ following)
    refine ⟨kept.trans keptLater, after, .cons runs continues executes, undisturbed.trans undisturbedLater, ?_⟩
    rw [ends, List.length_cons, Word.behind_succ]

/--
Whatever canonical instructions lead to, a simulator comes to that executes them outside a delay slot, and there it finds
the instruction behind them.
-/
theorem arrives_of_leads (outside : Outside) {before : List Instruction} {last : Instruction}
    {simulator : Simulator κ} {final : Machine} (leads : Leads before simulator.machine final)
    (canonical : AllCanonical (before ++ [last])) (arrived : simulator.machine.pending = none)
    (contained : simulator.machine.memory.Contains simulator.machine.pc (before ++ [last])) :
    ∃ middle, Executes outside before simulator middle ∧ simulator.Undisturbed middle ∧
      middle.machine = final.moved (Word.behind simulator.machine.pc before.length) ∧
      middle.machine.pending = none ∧ middle.machine.instruction? = some last := by
  obtain ⟨containedBefore, present, -⟩ := Memory.contains_append.1 contained
  have canonicalBefore : AllCanonical before := fun instruction among => canonical _ (List.mem_append_left _ among)
  have canonicalLast : last.IsCanonical := canonical _ (List.mem_append_right _ (.head _))
  obtain ⟨kept, middle, executes, undisturbed, ends⟩ :=
    executes_of_leads outside leads canonicalBefore rfl arrived containedBefore
  refine ⟨middle, executes, undisturbed, ends, ?_, ?_⟩
  · rw [ends]
    exact kept.pending.trans arrived
  · refine Machine.instruction?_eq_some_iff.2 ⟨?_, Instruction.decode?_of_isCanonical canonicalLast⟩
    rw [ends]
    exact kept.memory ▸ present

/--
The simulator executes these instructions and then has their result, at the address behind them; if it does not fit,
then all of them but the last are executed, which changes `$at` alone, and the last one overflows.
-/
structure Obtains (simulator : Simulator κ) (outside : Outside) (instructions : List Instruction) (result : Result) :
    Prop where
  fits : result.Fits → ∃ after, Executes outside instructions simulator after ∧
    simulator.machine.Gains after.machine result ∧
    after.machine.pc = Word.behind simulator.machine.pc instructions.length
  exceeds : ¬ result.Fits → ∃ before last scratch after, instructions = before ++ [last] ∧
    Executes outside before simulator after ∧
    after.machine = (simulator.machine.set .scratch scratch).moved (Word.behind simulator.machine.pc before.length) ∧
    after.Raises outside true .overflow

/-- A simulator that executes what delivers a result outside a delay slot obtains it. -/
theorem obtains_of_delivers (outside : Outside) {simulator : Simulator κ} {instructions : List Instruction}
    {result : Result} (delivers : Delivers instructions simulator.machine result)
    (canonical : AllCanonical instructions) (arrived : simulator.machine.pending = none)
    (contained : simulator.machine.memory.Contains simulator.machine.pc instructions) :
    simulator.Obtains outside instructions result := by
  cases delivers with
  | completes fits scratch leads =>
    obtain ⟨-, after, executes, -, ends⟩ := executes_of_leads outside leads canonical rfl arrived contained
    refine ⟨fun _ => ⟨after, executes, ?_, congrArg Machine.pc ends⟩, fun exceeds => absurd fits exceeds⟩
    rw [ends]
    exact simulator.machine.gains_assignAll result scratch _
  | @overflows exceeds before last split scratch leads raises =>
    subst split
    obtain ⟨after, executes, -, ends, arrivedAfter, found⟩ := arrives_of_leads outside leads canonical arrived contained
    refine ⟨fun fits => absurd fits exceeds, fun _ => ⟨before, last, scratch, after, rfl, executes, ends, ?_⟩⟩
    have failed : last.effect (Step.ready after.machine) after.machine.pc after.settings.delayedBranching =
        .error (.atOnce .overflow) := by
      rw [Step.ready_of_arrived arrivedAfter, ends, Instruction.effect_moved]
      exact raises _ _
    exact Step.raises_of_effect last found failed

/--
A written instruction that leaves a value in a register is expanded exactly if it has the operands for it. Wherever the
instructions are that it is expanded to, outside a delay slot they have the result that it names, if it does not name
`$at`.
-/
theorem obtains_of_expand {written : WrittenInstruction} {context : ExpansionContext}
    {resolve : Label → Except Problem Address} {calculation : Calculation}
    (known : written.mnemonic.calculation? = some calculation) (resolved : context.resolve? = some resolve)
    (spares : written.Spares .scratch) :
    (context.extended = true →
        ((∃ instructions, written.expand context = .ok instructions) ↔
          ∃ computation, written.computation? resolve = some computation)) ∧
      ∀ instructions, written.expand context = .ok instructions →
        ∃ computation, written.computation? resolve = some computation ∧
          ∀ (simulator : Simulator κ) (outside : Outside),
            simulator.machine.pending = none → simulator.machine.memory.Contains simulator.machine.pc instructions →
              simulator.Obtains outside instructions (computation.result simulator.machine) := by
  have computes : ∀ instructions, written.expand context = .ok instructions → ∀ machine : Machine,
      Expansion.Computes written resolve instructions machine :=
    fun instructions expanded machine => computes_expand known resolved expanded spares
  have named : ∀ instructions, written.expand context = .ok instructions →
      ∃ computation, written.computation? resolve = some computation := by
    intro instructions expanded
    obtain ⟨computation, named, -⟩ := computes instructions expanded (.blank {})
    exact ⟨computation, named⟩
  refine ⟨?_, ?_⟩
  · intro allowed
    constructor
    · rintro ⟨instructions, expanded⟩
      exact named instructions expanded
    · rintro ⟨computation, named⟩
      exact succeeds_expand allowed resolved named
  · intro instructions expanded
    obtain ⟨computation, called⟩ := named instructions expanded
    refine ⟨computation, called, ?_⟩
    intro simulator outside arrived contained
    obtain ⟨same, called', delivers⟩ := computes instructions expanded simulator.machine
    obtain rfl : same = computation := Option.some.inj (called'.symm.trans called)
    have canonical : AllCanonical instructions := by
      have yields := allCanonical_expand written context
      rwa [expanded] at yields
    exact obtains_of_delivers outside delivers canonical arrived contained

end Simulator

end Mips

namespace Mips.Simulator

/-- Subtracting a number of 32 bits from the stack pointer takes three instructions. -/
theorem obtains_of_difference :
    let written : WrittenInstruction := ⟨.machine .sub, [.register .a0, .register .sp, .immediate 0x12345678]⟩
    let context : ExpansionContext := ⟨0x00400000, true, false, some fun _ => .ok 0⟩
    let upper : Instruction := .ofImmediate .lui .zero .scratch 0x1234
    let lower : Instruction := .ofImmediate .ori .scratch .scratch 0x5678
    let subtraction : Instruction := .ofRegisters .sub .a0 .sp .scratch 0
    let program := Program.ofInstructions [(0x00400000, upper), (0x00400004, lower), (0x00400008, subtraction)]
    let outside : Outside := ⟨fun _ => ⟨0, RandomStream.ofSeed⟩, fun _ _ => []⟩
    let simulator := loaded {} program
    written.expand context = .ok [upper, lower, subtraction] ∧
      ∃ after, Executes outside [upper, lower, subtraction] simulator after ∧ after.machine.pc = 0x0040000C ∧
        after.machine.get .a0 = simulator.machine.get .sp - 0x12345678 := by
  intro written context upper lower subtraction program outside simulator
  have expanded : written.expand context = .ok [upper, lower, subtraction] := by rfl
  have arrived : simulator.machine.pending = none := by decide +kernel
  have contained : simulator.machine.memory.Contains simulator.machine.pc [upper, lower, subtraction] :=
    ⟨eq_ok_of_toOption (by decide +kernel), eq_ok_of_toOption (by decide +kernel),
      eq_ok_of_toOption (by decide +kernel), trivial⟩
  have known : written.mnemonic.calculation? = some Calculation.difference.guarded := by rfl
  have resolved : context.resolve? = some fun _ => .ok 0 := by rfl
  have spares : written.Spares .scratch := by decide
  obtain ⟨-, obtains⟩ := obtains_of_expand (κ := SilentConsole) known resolved spares
  obtain ⟨computation, called, obtains⟩ := obtains _ expanded
  obtain rfl := Option.some.inj called
  obtain ⟨fits, -⟩ := obtains simulator outside arrived contained
  obtain ⟨after, executes, gains, pc⟩ := fits (by decide +kernel)
  have pcStart : simulator.machine.pc = 0x00400000 := by decide +kernel
  refine ⟨expanded, after, executes, ?_, ?_⟩
  · rw [pc, pcStart]
    rfl
  · have holds : after.machine.get .a0 =
        Word.ofInt ((simulator.machine.get .sp).signed - (Word.ofInt 0x12345678).signed) :=
      gains.destination (by decide)
    rw [holds, Word.ofInt_sub, Word.ofInt_signed, Word.ofInt_signed]
    rfl

end Mips.Simulator
