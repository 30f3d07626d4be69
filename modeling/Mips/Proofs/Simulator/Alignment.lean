import Mips.Proofs.Assembly.Labels
import Mips.Proofs.Execution.Changes
import Mips.Proofs.Memory.Access
import Mips.Proofs.Simulator.Session

/-!
Whether execution stays at multiples of four. Branches lead to such addresses, and a jump that would not faults; but a
program starts at `main` wherever that lies, and the return from a fault leads wherever a program has told it to. Main
statements: `raises_of_misaligned_destination` and `aligned_of_session`.
-/

namespace Mips

open Relation (ReflTransGen)

namespace Instruction

variable (instruction : Instruction) {pc : Address}

theorem isAligned_branchTarget (aligned : Word.isAligned pc = true) :
    Word.isAligned (instruction.branchTarget pc) = true :=
  Word.isAligned_add (Word.isAligned_add aligned rfl) (Word.isAligned_mul_four _)

theorem isAligned_jumpTarget : Word.isAligned (instruction.jumpTarget pc) = true := by
  apply Word.isAligned_or _ (Word.isAligned_mul_four _)
  have mask := Word.toNat_and_three ((pc + 4) &&& 0xF0000000)
  rw [UInt32.and_assoc] at mask
  rw [Word.isAligned_iff, ← mask]
  exact congrArg UInt32.toNat UInt32.and_zero

/-- The instruction jumps to an address in a register. -/
def jumpsToRegister : Bool := instruction.operation = .jr || instruction.operation = .jalr

/-- Only a jump to a register leads to an address that is no multiple of four. -/
theorem jumpsToRegister_of_misaligned [Generator] {machine : Machine} {target : Address}
    (aligned : Word.isAligned machine.pc = true) (led : instruction.destination? machine = some target)
    (misaligned : Word.isAligned target = false) :
    instruction.jumpsToRegister = true ∧ target = machine.get instruction.rs := by
  have branches {condition : Prop} [Decidable condition] {other : Address} (even : Word.isAligned other = true)
      (taken : (if condition then some other else none) = some target) : False := by
    split at taken
    · cases taken
      exact absurd (misaligned.symm.trans even) (by decide)
    · cases taken
  have branch := instruction.isAligned_branchTarget aligned
  have jump : Word.isAligned (instruction.jumpTarget machine.pc) = true := instruction.isAligned_jumpTarget
  unfold destination? at led
  unfold jumpsToRegister
  cases operation : instruction.operation with
  | jr | jalr =>
    rw [operation] at led
    exact ⟨rfl, (Option.some.inj led).symm⟩
  | j | jal =>
    rw [operation] at led
    cases led
    exact absurd (misaligned.symm.trans jump) (by decide)
  | beq | bne | blez | bgtz | bltz | bltzal | bgez | bgezal =>
    rw [operation] at led
    exact (branches branch led).elim
  | _ =>
    rw [operation] at led
    cases led

end Instruction

namespace Machine

variable [Generator]

/-- The next instruction returns from a fault to an address that is no multiple of four. -/
def Misreturns (machine : Machine) : Prop :=
  machine.instruction?.any (·.operation = .eret) = true ∧ Word.isAligned (machine.getCop0 Cop0.epc) = false

instance (machine : Machine) : Decidable machine.Misreturns := inferInstanceAs (Decidable (_ ∧ _))

/-- The next instruction moves an address that is no multiple of four to where a fault returns to. -/
def Misdirects (machine : Machine) : Prop :=
  machine.instruction?.any (fun instruction =>
    instruction.operation = .mtc0 && instruction.rd.number = Cop0.epc &&
      !Word.isAligned (machine.get instruction.rt)) = true

/-- Where the machine is and where a pending branch leads are multiples of four. -/
structure OnWords (machine : Machine) : Prop where
  pc : Word.isAligned machine.pc = true
  pending : ∀ target, machine.pending = some target → Word.isAligned target = true

theorem OnWords.next {machine : Machine} (on : machine.OnWords) : Word.isAligned machine.next = true := by
  unfold Machine.next Position.next position
  cases pending : machine.pending with
  | none => exact Word.isAligned_add on.pc rfl
  | some target => exact on.pending target pending

end Machine

namespace Step

variable [Generator] {κ : Type} [Console κ] {machine : Machine} {delayed : Bool} {console : κ} {surroundings : Surroundings}

/-- A branch or jump to an address that is no multiple of four faults. -/
theorem raises_of_misaligned_destination {target : Address} (led : machine.destination? = some target)
    (misaligned : Word.isAligned target = false) :
    Raises machine delayed console surroundings true (.misaligned target .fetch) := by
  obtain ⟨instruction, found, led⟩ := Option.bind_eq_some_iff.1 led
  obtain ⟨present, decoded⟩ := Machine.instruction?_eq_some_iff.1 found
  obtain ⟨jumps, same⟩ :=
    instruction.jumpsToRegister_of_misaligned (Memory.isAligned_of_fetch present) led misaligned
  have refused : Word.isAligned ((ready machine).get instruction.rs) = false := same ▸ misaligned
  have failed : instruction.effect (ready machine) machine.pc delayed = .error (.atOnce (.misaligned target .fetch)) := by
    rw [Instruction.jumpsToRegister, Bool.or_eq_true, decide_eq_true_eq, decide_eq_true_eq] at jumps
    rcases jumps with operation | operation <;>
      simp only [Instruction.effect, operation, Effect.jumpTo, refused, Bool.false_eq_true, if_false, same] <;> rfl
  exact .execute present decoded failed

/-- An instruction that runs leads to a multiple of four if it leads anywhere but behind itself. -/
theorem isAligned_destination {instruction : Instruction} {target : Address}
    (runs : Runs machine delayed console surroundings instruction)
    (led : instruction.destination? machine = some target) : Word.isAligned target = true := by
  cases aligned : Word.isAligned target with
  | true => rfl
  | false =>
    have branches : machine.destination? = some target := by
      rw [Machine.destination?, runs.found]
      exact led
    exact absurd (raises_of_misaligned_destination branches aligned) (runs.unfaulted _ _)

/-- A step leaves only a pending branch to a multiple of four. -/
theorem pending_of_step {step : Step κ} (found : ofMachine machine delayed console surroundings = some step)
    (before : ∀ target, machine.pending = some target → Word.isAligned target = true) :
    ∀ target, (machine.assignAll step.assignments).pending = some target → Word.isAligned target = true := by
  intro target pending
  rcases raises_or_runs found with ⟨fetched, fault, raised⟩ | ⟨instruction, runs⟩
  · obtain ⟨other, same, -, precise⟩ := faultsPrecisely_of_raises raised
    cases found.symm.trans same
    cases loaded : machine.handlerLoaded with
    | true =>
      rw [(precise.handled loaded).kept] at pending
      cases pending
    | false =>
      rw [precise.unhandled loaded] at pending
      cases fetched with
      | true => cases pending
      | false => exact before target pending
  · obtain ⟨other, same, -, position⟩ := position_of_runs runs
    cases found.symm.trans same
    have leaves : (instruction.leaves machine delayed).pending = some target :=
      (congrArg Position.pending position).symm.trans pending
    exact isAligned_destination runs (Instruction.of_pending_leaves leaves).2.1

/-- A step stays at multiples of four, unless it returns from a fault to another address. -/
theorem onWords_of_step {step : Step κ} (found : ofMachine machine delayed console surroundings = some step)
    (handler : Word.isAligned machine.memory.layout.exceptionHandler = true) (on : machine.OnWords)
    (proper : ¬machine.Misreturns) : (machine.assignAll step.assignments).OnWords := by
  refine ⟨?_, pending_of_step found on.pending⟩
  rcases raises_or_runs found with ⟨fetched, fault, raised⟩ | ⟨instruction, runs⟩
  · obtain ⟨other, same, -, precise⟩ := faultsPrecisely_of_raises raised
    cases found.symm.trans same
    cases loaded : machine.handlerLoaded with
    | true =>
      rw [(precise.handled loaded).kept]
      exact handler
    | false =>
      rw [precise.unhandled loaded]
      exact on.pc
  · obtain ⟨other, same, -, position⟩ := position_of_runs runs
    cases found.symm.trans same
    have leaves : (machine.assignAll step.assignments).pc = (instruction.leaves machine delayed).pc :=
      congrArg Position.pc position
    rw [leaves, Instruction.leaves]
    split
    next returns =>
      cases aligned : Word.isAligned (machine.getCop0 Cop0.epc) with
      | true => rfl
      | false =>
        refine absurd ⟨?_, aligned⟩ proper
        rw [runs.found]
        exact decide_eq_true returns
    next =>
      cases led : instruction.destination? machine with
      | none => exact on.next
      | some target =>
        cases delayed with
        | true => exact on.next
        | false => exact isAligned_destination runs led

/-- A fault returns to a multiple of four, unless the step moves another address there. -/
theorem isAligned_epc_of_step {step : Step κ} (found : ofMachine machine delayed console surroundings = some step)
    (pc : Word.isAligned machine.pc = true) (epc : Word.isAligned (machine.getCop0 Cop0.epc) = true)
    (proper : ¬machine.Misdirects) :
    Word.isAligned ((machine.assignAll step.assignments).getCop0 Cop0.epc) = true := by
  rcases raises_or_runs found with ⟨fetched, fault, raised⟩ | ⟨instruction, runs⟩
  · obtain ⟨other, same, -, precise⟩ := faultsPrecisely_of_raises raised
    cases found.symm.trans same
    cases loaded : machine.handlerLoaded with
    | true =>
      rw [(precise.handled loaded).epc]
      split
      · exact Word.isAligned_sub pc rfl
      · exact pc
    | false =>
      rw [precise.unhandled loaded]
      exact epc
  · rcases epc_of_runs runs found with kept | ⟨moves, number, moved⟩
    · rw [kept]
      exact epc
    · rw [moved]
      cases aligned : Word.isAligned (machine.get instruction.rt) with
      | true => rfl
      | false =>
        refine absurd ?_ proper
        rw [Machine.Misdirects, runs.found]
        simp [moves, number, aligned]

end Step

/-- The program starts at an instruction or at a multiple of four. -/
def Program.StartsOnWord (program : Program) (settings : Settings) : Prop :=
  settings.startAtMain = true → ∀ symbol, program.symbols.global? "main" = some symbol →
    symbol.segment.isText = true ∨ Word.isAligned symbol.address = true

theorem isAligned_entry {settings : Settings} {sources : List Source} {program : Program}
    (valid : settings.layout.Valid) (assembled : assemble settings sources = .ok program)
    (fits : program.StartsOnWord settings) :
    Word.isAligned program.entry = true := by
  have base : Word.isAligned settings.layout.textBase = true :=
    (Word.isAligned_iff _).2 ((Layout.ordered_of_valid valid).aligned ("text_base", _) (by simp [Layout.boundaries]))
  have proper := aligned_of_assemble valid assembled
  have same : program.entry = Assembly.entry settings program.symbols := by
    unfold assemble at assembled
    dsimp only at assembled
    split at assembled
    · cases assembled
    · cases assembled
      rfl
  rw [same, Assembly.entry]
  split
  next starts =>
    cases found : program.symbols.global? "main" with
    | none => exact base
    | some symbol =>
      rcases fits starts symbol found with text | aligned
      · exact proper.shared "main" symbol found text
      · exact aligned
  next => exact base

namespace Machine

variable [Generator] {settings : Settings} {program : Program} {machine : Machine} {past : List Machine}

/-- No branch is pending to an address that is no multiple of four. -/
theorem Trail.pending (trail : Trail settings program machine past) :
    ∀ target, machine.pending = some target → Word.isAligned target = true := by
  induction trail with
  | load =>
    intro target pending
    have arrived : (Machine.load settings program).pending = none :=
      congrArg Position.pending (position_load settings program)
    cases arrived.symm.trans pending
  | step trail console surroundings found ih => exact Step.pending_of_step found ih

/-- A program that starts at a multiple of four stays there, unless it returns from a fault to another address. -/
theorem Trail.onWords (trail : Trail settings program machine past) (valid : settings.layout.Valid)
    (begun : Word.isAligned program.entry = true) (proper : ∀ earlier ∈ past, ¬earlier.Misreturns) :
    machine.OnWords := by
  have handler : Word.isAligned settings.layout.exceptionHandler = true :=
    (Word.isAligned_iff _).2
      ((Layout.ordered_of_valid valid).aligned ("exception_handler", _) (by simp [Layout.boundaries]))
  -- By induction on the trail: one step from each of the earlier machines.
  induction trail with
  | load =>
    refine ⟨?_, Trail.load.pending⟩
    have start : (Machine.load settings program).pc = program.entry :=
      congrArg Position.pc (position_load settings program)
    rw [start]
    exact begun
  | step trail console surroundings found ih =>
    rw [List.forall_mem_cons] at proper
    rw [← trail.rules.1] at handler
    exact Step.onWords_of_step found handler (ih proper.2) proper.1

/-- Faults return to multiples of four, unless the program moves another address to where they return to. -/
theorem Trail.returns (trail : Trail settings program machine past) (valid : settings.layout.Valid)
    (begun : Word.isAligned program.entry = true) (proper : ∀ earlier ∈ past, ¬earlier.Misdirects) :
    Word.isAligned (machine.getCop0 Cop0.epc) = true ∧ ∀ earlier ∈ past, ¬earlier.Misreturns := by
  induction trail with
  | load =>
    obtain ⟨-, -, cop0⟩ := rules_load settings program
    rw [getCop0, cop0]
    exact ⟨by decide, List.forall_mem_nil _⟩
  | step trail console surroundings found ih =>
    rw [List.forall_mem_cons] at proper
    obtain ⟨epc, returns⟩ := ih proper.2
    have on := trail.onWords valid begun returns
    refine ⟨Step.isAligned_epc_of_step found on.pc epc proper.1, List.forall_mem_cons.2 ⟨?_, returns⟩⟩
    rintro ⟨-, misaligned⟩
    exact absurd (misaligned.symm.trans epc) (by decide)

end Machine

namespace Simulator

variable [Generator] {κ : Type} [Console κ]

/--
After any calls on a loaded program a pending branch leads to a multiple of four. Execution is at a multiple of four, too,
unless the program starts at a label `main` that lies elsewhere in a data segment, or has returned from a fault to another
address; and it returns to another address only if it has moved one there. A branch or jump that would lead to another
address faults, and leaves the machine precisely as a fault does.
-/
theorem aligned_of_session {settings : Settings} {tree : FileTree} {console : κ} {fresh simulator : Simulator κ}
    {sources : List Source} {program : Program} {past : List Machine}
    (created : create settings tree console = .ok fresh) (assembled : Mips.assemble settings sources = .ok program)
    (session : ReflTransGen Called (fresh.load program, []) (simulator, past)) :
    (∀ target, simulator.machine.pending = some target → Word.isAligned target = true) ∧
      (program.StartsOnWord settings →
        ((∀ machine ∈ past, ¬machine.Misreturns) → Word.isAligned simulator.machine.pc = true) ∧
          ((∀ machine ∈ past, ¬machine.Misdirects) → ∀ machine ∈ past, ¬machine.Misreturns)) ∧
      ∀ outside target, simulator.machine.destination? = some target → Word.isAligned target = false →
        simulator.Raises outside true (.misaligned target .fetch) ∧
          (simulator.advance outside).1 =
            (if simulator.machine.handlerLoaded then none
            else some (.fault ⟨.misaligned target .fetch, simulator.machine.pc⟩)) ∧
          simulator.machine.FaultsPrecisely (simulator.advance outside).2.machine true (.misaligned target .fetch) := by
  obtain ⟨valid, same⟩ := settings_of_create created
  have layout := Settings.layout_of_valid valid
  have on := onTrail_of_session session
  rw [same] at on
  refine ⟨on.trail.pending, ?_, ?_⟩
  · intro fits
    have begun := isAligned_entry layout assembled fits
    exact ⟨fun proper => (on.trail.onWords layout begun proper).pc,
      fun proper => (on.trail.returns layout begun proper).2⟩
  · intro outside target led misaligned
    have raised : simulator.Raises outside true (.misaligned target .fetch) :=
      Step.raises_of_misaligned_destination led misaligned
    exact ⟨raised, advance_of_raises raised⟩

end Simulator

end Mips

namespace Mips.Simulator

open Relation (ReflTransGen)

/-- A jump to a misaligned address in a register faults where it is, at the second instruction of `main`. -/
theorem aligned_at_jump :
    let sources : List Source := [⟨"jump.s", ".globl main\nmain: addiu $t0, $zero, 2\njr $t0\n"⟩]
    let outside : Outside := ⟨fun _ => ⟨0, RandomStream.ofSeed⟩, fun _ _ => []⟩
    ∃ program, Mips.assemble {} sources = .ok program ∧
      let simulator := ((loaded {} program).step outside).2
      Word.isAligned simulator.machine.pc = true ∧ simulator.Raises outside true (.misaligned 2 .fetch) ∧
        (simulator.advance outside).1 = some (.fault ⟨.misaligned 2 .fetch, simulator.machine.pc⟩) := by
  intro sources outside
  have computed : ((Mips.assemble {} sources).toOption.any fun program =>
      let start := loaded {} program
      let simulator := (start.step outside).2
      (start.nextStep? outside).isSome && !decide start.machine.Misreturns &&
        ((program.symbols.global? "main").map Symbol.segment = some .text &&
        (simulator.machine.destination? = some 2 && !simulator.machine.handlerLoaded))) = true := by
    decide +kernel
  obtain ⟨program, held, facts⟩ := (Option.any_eq_true _ _).1 computed
  simp only [Bool.and_eq_true, Bool.not_eq_true', decide_eq_true_eq, decide_eq_false_iff_not] at facts
  obtain ⟨⟨executes, proper⟩, main, led, absent⟩ := facts
  have assembled := eq_ok_of_toOption held
  let start := loaded {} program
  let simulator := (start.step outside).2
  have created : create {} ⟨[], []⟩ ({} : SilentConsole) = .ok ⟨{}, .blank {}, .empty 2000, {}, .empty, .empty, {},
    none, none, .idle, none, 0, 0⟩ := rfl
  have session : ReflTransGen Called (start, []) (simulator, start.executedByStep outside ++ []) :=
    .single (.step start [] outside)
  have past : start.executedByStep outside ++ [] = [start.machine] := by
    have ready : start.runError? = none := rfl
    rw [executedByStep, ready, Option.isNone_none, if_pos rfl, executing_of_isSome executes]
    rfl
  rw [past] at session
  obtain ⟨-, stays, jumps⟩ := aligned_of_session created assembled session
  obtain ⟨raised, ending, -⟩ := jumps outside 2 led rfl
  rw [absent] at ending
  have starts : program.StartsOnWord {} := by
    intro _ symbol found
    rw [found] at main
    exact .inl (Option.some.inj main ▸ rfl)
  refine ⟨program, assembled, (stays starts).1 ?_, raised, ending⟩
  intro machine member
  rw [List.mem_singleton.1 member]
  exact proper

/--
A return from a fault that did not happen leads wherever the program has said, and execution is no longer at a multiple
of four.
-/
theorem misaligned_after_return :
    let sources : List Source := [⟨"return.s", "addiu $t0, $zero, 2\nmtc0 $t0, $14\neret\n"⟩]
    let outside : Outside := ⟨fun _ => ⟨0, RandomStream.ofSeed⟩, fun _ _ => []⟩
    ∃ program past, Mips.assemble {} sources = .ok program ∧
      let simulator := ((((loaded {} program).step outside).2.step outside).2.step outside).2
      ReflTransGen Called (loaded {} program, []) (simulator, past) ∧ simulator.machine.pc = 2 := by
  intro sources outside
  have computed : ((Mips.assemble {} sources).toOption.any fun program =>
      (((((loaded {} program).step outside).2.step outside).2.step outside).2).machine.pc = 2) = true := by
    decide +kernel
  obtain ⟨program, held, misaligned⟩ := (Option.any_eq_true _ _).1 computed
  let first := ((loaded {} program).step outside).2
  let second := (first.step outside).2
  have session := ((ReflTransGen.single (Called.step (loaded {} program) [] outside)).tail
    (.step first _ outside)).tail (.step second _ outside)
  exact ⟨program, _, eq_ok_of_toOption held, session, of_decide_eq_true misaligned⟩

end Mips.Simulator
