import Mips.Proofs.Execution.Services
import Mips.Proofs.Simulator.PreciseFault

/-!
Where execution goes: an instruction that does not fault leads from the address it is at to the one that is due
next, and decides what is due after that. Main statement: `position_of_runs`.
-/

namespace Mips

variable [Generator]

/-- Where a machine is in its program: at an address, and perhaps between a branch and where it leads. -/
structure Position where
  pc : Address
  pending : Option Address
  deriving DecidableEq

/-- The address that execution comes to after the instruction at this position. -/
def Position.next (position : Position) : Address := position.pending.getD (position.pc + 4)

/-- Whether the assignment changes where the machine is in its program. -/
def Assignment.steers : Assignment → Bool
  | .pc _ | .pending _ => true
  | _ => false

namespace Machine

def position (machine : Machine) : Position := ⟨machine.pc, machine.pending⟩

def next (machine : Machine) : Address := machine.position.next

theorem next_of_arrived {machine : Machine} (arrived : machine.pending = none) : machine.next = machine.pc + 4 := by
  rw [next, Position.next, position, arrived]
  rfl

theorem next_of_pending {machine : Machine} {target : Address} (pending : machine.pending = some target) :
    machine.next = target := by
  rw [next, Position.next, position, pending]
  rfl

/-- What an assignment does to the position depends on the position alone. -/
theorem position_assign_congr {first second : Machine} (same : first.position = second.position)
    (assignment : Assignment) : (first.assign assignment).position = (second.assign assignment).position := by
  obtain ⟨samePc, samePending⟩ := Position.mk.injEq .. ▸ same
  cases assignment with
  | stream number content => cases content <;> exact same
  | pc value => simp only [assign, position, samePending]
  | pending target => simp only [assign, position, samePc]
  | register | memory | hi | lo | cop0 | heapBreak => exact same

theorem position_assignAll_congr {first second : Machine} (same : first.position = second.position)
    (assignments : List Assignment) :
    (first.assignAll assignments).position = (second.assignAll assignments).position := by
  induction assignments generalizing first second with
  | nil => exact same
  | cons assignment rest ih => exact ih (position_assign_congr same assignment)

theorem position_assign_of_not_steers (machine : Machine) {assignment : Assignment}
    (aimless : assignment.steers = false) : (machine.assign assignment).position = machine.position := by
  cases assignment with
  | stream number content => cases content <;> rfl
  | pc | pending => cases aimless
  | register | memory | hi | lo | cop0 | heapBreak => rfl

theorem position_assignAll_of_not_steers (machine : Machine) {assignments : List Assignment}
    (aimless : ∀ assignment ∈ assignments, assignment.steers = false) :
    (machine.assignAll assignments).position = machine.position :=
  view_assignAll position (·.steers = false) (fun machine _ => machine.position_assign_of_not_steers) machine aimless

/-- What comes before assignments that steer counts only if it steers itself. -/
theorem position_assignAll_append (machine : Machine) {assignments : List Assignment}
    (aimless : ∀ assignment ∈ assignments, assignment.steers = false) (rest : List Assignment) :
    (machine.assignAll (assignments ++ rest)).position = (machine.assignAll rest).position := by
  rw [assignAll_append]
  exact position_assignAll_congr (machine.position_assignAll_of_not_steers aimless) rest

end Machine

/-- A branch to a target, if there is one. -/
def Flow.toward : Option Address → Flow
  | some target => .branch target
  | none => .next

namespace Instruction

/-- Where the instruction of the machine branches or jumps to, unless it goes on behind itself. -/
def destination? (instruction : Instruction) (machine : Machine) : Option Address :=
  let source := machine.get instruction.rs
  let value := machine.get instruction.rt
  let branch := instruction.branchTarget machine.pc
  let jump := instruction.jumpTarget machine.pc
  match instruction.operation with
  | .j | .jal => some jump
  | .jr | .jalr => some source
  | .beq => if source = value then some branch else none
  | .bne => if source ≠ value then some branch else none
  | .blez => if source.signed ≤ 0 then some branch else none
  | .bgtz => if 0 < source.signed then some branch else none
  | .bltz | .bltzal => if source.signed < 0 then some branch else none
  | .bgez | .bgezal => if 0 ≤ source.signed then some branch else none
  | _ => none

/-- How execution continues after the instruction, if it does not fault. -/
def flow (instruction : Instruction) (machine : Machine) : Flow :=
  match instruction.operation with
  | .eret => .assigned
  | .syscall => .service
  | _ => .toward (instruction.destination? machine)

end Instruction

namespace Effect

/-- Unless there is a fault, execution continues this way, and no assignment decides where. -/
structure Continues (flow : Flow) (outcome : Except Interruption Effect) : Prop where
  of_ok : ∀ effect, outcome = .ok effect →
    effect.flow = flow ∧ ∀ assignment ∈ effect.assignments, assignment.steers = false

theorem continues_error (flow : Flow) (interruption : Interruption) : Continues flow (.error interruption) :=
  ⟨fun _ impossible => by cases impossible⟩

theorem continues_ok {flow : Flow} {assignments : List Assignment} (access : Option (Address × AccessSet))
    (aimless : ∀ assignment ∈ assignments, assignment.steers = false) :
    Continues flow (.ok ⟨assignments, flow, access⟩) := by
  constructor
  rintro effect ⟨⟩
  exact ⟨rfl, aimless⟩

theorem continues_set (target : Register) (value : Word) : Continues .next (set target value) :=
  continues_ok none (by simp [Assignment.steers])

theorem continues_setChecked (target : Register) (value : Int) : Continues .next (setChecked target value) := by
  unfold setChecked
  split
  · exact continues_set target _
  · exact continues_error _ _

theorem continues_setPair (value : UInt64) : Continues .next (setPair value) :=
  continues_ok none (by simp [Assignment.steers])

theorem continues_setDivision (remainder quotient : Word) : Continues .next (setDivision remainder quotient) :=
  continues_ok none (by simp [Assignment.steers])

theorem continues_nothing : Continues .next nothing := continues_ok none (by simp)

theorem continues_trapIf (condition : Bool) : Continues .next (trapIf condition) := by
  cases condition with
  | false => exact continues_nothing
  | true => exact continues_error _ _

theorem continues_branchIf (condition : Prop) [Decidable condition] (target : Address) :
    Continues (.toward (if condition then some target else none)) (branchIf condition target) := by
  by_cases held : condition <;> simp only [branchIf, held, decide_true, decide_false] <;>
    exact continues_ok none (by simp)

theorem continues_linkIf (condition : Prop) [Decidable condition] (target : Address) (register : Register)
    (link : Address) :
    Continues (.toward (if condition then some target else none)) (linkIf condition target register link) := by
  by_cases held : condition <;> simp only [linkIf, held, decide_true, decide_false] <;>
    exact continues_ok none (by simp [Assignment.steers])

theorem continues_jumpTo (target : Address) {assignments : List Assignment}
    (aimless : ∀ assignment ∈ assignments, assignment.steers = false) :
    Continues (.toward (some target)) (jumpTo target assignments) := by
  unfold jumpTo
  split
  · exact continues_ok none aimless
  · exact continues_error _ _

theorem continues_load (memory : Memory) (width : Width) (signed : Bool) (target : Register) (address : Address) :
    Continues .next (load memory width signed target address) := by
  unfold load
  split
  · exact continues_error _ _
  · exact continues_ok _ (by simp [Assignment.steers])

theorem continues_store (memory : Memory) (width : Width) (address : Address) (value : Word) :
    Continues .next (store memory width address value) := by
  unfold store
  split
  · exact continues_error _ _
  · exact continues_ok _ (by simp [Assignment.steers])

end Effect

open Effect in
/-- An instruction continues as its operation and the registers say; only a return assigns the address itself. -/
theorem Instruction.continues_effect (instruction : Instruction) (machine : Machine) (delayed : Bool)
    (stays : instruction.operation ≠ .eret) :
    Continues (instruction.flow machine) (instruction.effect machine machine.pc delayed) := by
  unfold Instruction.effect Instruction.flow Instruction.destination?
  cases operation : instruction.operation with
  | eret => exact absurd operation stays
  | syscall => exact continues_ok none (by simp)
  | breakpoint => exact continues_error _ _
  | j => exact continues_branchIf True _
  | jal => exact continues_linkIf True _ _ _
  | jr => exact continues_jumpTo _ (by simp)
  | jalr => exact continues_jumpTo _ (by simp [Assignment.steers])
  | beq | bne | blez | bgtz | bltz | bgez => exact continues_branchIf _ _
  | bltzal | bgezal => exact continues_linkIf _ _ _ _
  | movz | movn =>
    dsimp only
    split
    · exact continues_set _ _
    · exact continues_nothing
  | mtc0 | mthi | mtlo | mul => exact continues_ok none (by simp [Assignment.steers])
  | mult | multu | madd | maddu | msub | msubu => exact continues_setPair _
  | div | divu =>
    dsimp only
    split
    · exact continues_nothing
    · exact continues_setDivision _ _
  | add | sub | addi => exact continues_setChecked _ _
  | tge | tgeu | tlt | tltu | teq | tne | tgei | tgeiu | tlti | tltiu | teqi | tnei => exact continues_trapIf _
  | lb | lh | lw | lbu | lhu => exact continues_load _ _ _ _ _
  | sb | sh | sw => exact continues_store _ _ _ _
  | _ => exact continues_set _ _

/-- The assignments by which execution continues in this way, unless a service is called. -/
def Flow.steering (flow : Flow) (delayed : Bool) (next : Address) : List Assignment :=
  match flow with
  | .next => [.pc next]
  | .branch target => if delayed then [.pending (some target), .pc next] else [.pc target]
  | .assigned | .service => []

/-- Only a system call calls a service. -/
theorem Instruction.calls_of_effect (instruction : Instruction) {machine : Machine} {delayed : Bool} {effect : Effect}
    (executed : instruction.effect machine machine.pc delayed = .ok effect) (called : effect.flow = .service) :
    instruction.operation = .syscall := by
  by_cases returns : instruction.operation = .eret
  · simp only [Instruction.effect, returns] at executed
    cases executed
    cases called
  · have continues := ((instruction.continues_effect machine delayed returns).of_ok effect executed).1
    rw [called, flow] at continues
    split at continues
    next => cases continues
    next calls => exact calls
    next => cases led : instruction.destination? machine <;> rw [led] at continues <;> cases continues

namespace Service

variable {κ : Type}

theorem not_steers_of_call [Console κ] {machine : Machine} {console : κ} {surroundings : Surroundings}
    {assignments : List Assignment}
    (resumed : (call machine console surroundings).ending = .ok (.resume assignments)) :
    ∀ assignment ∈ assignments, assignment.steers = false := by
  intro assignment member
  obtain ⟨service, -, each⟩ := served_of_call resumed
  have served := each assignment member
  cases assignment with
  | pc | pending => cases served
  | _ => rfl

end Service

namespace Instruction

/-- Where the machine is after an instruction that does not fault. -/
def leaves (instruction : Instruction) (machine : Machine) (delayed : Bool) : Position :=
  if instruction.operation = .eret then ⟨machine.getCop0 Cop0.epc, none⟩
  else
    match instruction.destination? machine with
    | none => ⟨machine.next, none⟩
    | some target => if delayed then ⟨machine.next, some target⟩ else ⟨target, none⟩

/-- A branch is pending only after an instruction that branched with a delay. -/
theorem of_pending_leaves {instruction : Instruction} {machine : Machine} {delayed : Bool} {target : Address}
    (pending : (instruction.leaves machine delayed).pending = some target) :
    delayed = true ∧ instruction.destination? machine = some target ∧
      (instruction.leaves machine delayed).pc = machine.next := by
  unfold leaves at pending ⊢
  split at pending
  · cases pending
  next stays =>
    rw [if_neg stays]
    cases led : instruction.destination? machine with
    | none =>
      rw [led] at pending
      cases pending
    | some destination =>
      rw [led] at pending
      cases delayed with
      | false => cases pending
      | true =>
        cases pending
        exact ⟨rfl, rfl, rfl⟩

end Instruction

namespace Machine

/-- The instruction that the machine executes next, if one can be fetched and decoded. -/
def instruction? (machine : Machine) : Option Instruction :=
  match machine.memory.fetch machine.pc with
  | .ok (some word) => Instruction.decode? word
  | _ => none

theorem instruction?_eq_some_iff {machine : Machine} {instruction : Instruction} :
    machine.instruction? = some instruction ↔
      machine.memory.fetch machine.pc = .ok (some instruction.word) ∧
        Instruction.decode? instruction.word = some instruction := by
  unfold instruction?
  constructor
  · intro found
    split at found
    next word present =>
      obtain ⟨rfl, _⟩ := Instruction.decode?_eq_some_iff.1 found
      exact ⟨present, found⟩
    next => cases found
  · rintro ⟨present, decoded⟩
    simp only [present, decoded]

/-- Where the machine branches or jumps to with its next instruction. -/
def destination? (machine : Machine) : Option Address :=
  machine.instruction?.bind fun instruction => instruction.destination? machine

end Machine

namespace Step

variable {κ : Type} [Console κ] {machine : Machine} {delayed : Bool} {console : κ} {surroundings : Surroundings}

/-- The machine executes this instruction next, and no fault arises. -/
structure Runs (machine : Machine) (delayed : Bool) (console : κ) (surroundings : Surroundings)
    (instruction : Instruction) : Prop where
  found : machine.instruction? = some instruction
  unfaulted : ∀ fetched fault, ¬ Raises machine delayed console surroundings fetched fault

/-- An instruction runs that has an effect and calls no service. -/
theorem runs_of_effect {instruction : Instruction} {effect : Effect}
    (found : machine.instruction? = some instruction)
    (executed : instruction.effect (ready machine) machine.pc delayed = .ok effect)
    (quiet : effect.flow ≠ .service) : Runs machine delayed console surroundings instruction := by
  obtain ⟨present, decoded⟩ := Machine.instruction?_eq_some_iff.1 found
  refine ⟨found, ?_⟩
  intro fetched fault raised
  cases raised with
  | fetch refused => cases present.symm.trans refused
  | decode present' unknown =>
    cases present.symm.trans present'
    cases decoded.symm.trans unknown
  | execute present' decoded' failed =>
    cases present.symm.trans present'
    cases decoded.symm.trans decoded'
    cases executed.symm.trans failed
  | serve present' decoded' executed' called _ =>
    cases present.symm.trans present'
    cases decoded.symm.trans decoded'
    cases executed.symm.trans executed'
    exact quiet called

/-- The step of an instruction that calls no service is its effect, with what that makes of the address. -/
theorem ofMachine_of_effect {instruction : Instruction} {effect : Effect}
    (found : machine.instruction? = some instruction)
    (executed : instruction.effect (ready machine) machine.pc delayed = .ok effect)
    (quiet : effect.flow ≠ .service) :
    ofMachine machine delayed console surroundings = some
      { assignments := beforeFault machine true ++ effect.assignments ++ effect.flow.steering delayed machine.next
        ending := .completed, console, access := effect.access } := by
  obtain ⟨present, decoded⟩ := Machine.instruction?_eq_some_iff.1 found
  have taken : machine.assignAll (if machine.pending.isSome then [.pending none] else []) = ready machine :=
    assignAll_beforeFault machine true
  simp only [ofMachine, present, ofWord, decoded, taken, executed]
  obtain ⟨assignments, flow, access⟩ := effect
  cases flow with
  | service => exact absurd rfl quiet
  | next | branch => rfl
  | assigned => simp [Flow.steering, beforeFault]

/-- An instruction runs if evaluating it gives an effect that calls no service. -/
theorem runs_of_quiet {instruction : Instruction} (found : machine.instruction? = some instruction)
    (quiet : ((instruction.effect (ready machine) machine.pc delayed).toOption.any
      fun effect => effect.flow ≠ .service) = true) : Runs machine delayed console surroundings instruction := by
  cases executed : instruction.effect (ready machine) machine.pc delayed with
  | error interruption =>
    rw [executed] at quiet
    cases quiet
  | ok effect =>
    rw [executed] at quiet
    exact runs_of_effect found executed (of_decide_eq_true quiet)

theorem raises_of_effect (instruction : Instruction) {fault : Fault} {made : List Assignment}
    (found : machine.instruction? = some instruction)
    (failed : instruction.effect (ready machine) machine.pc delayed = .error ⟨fault, made⟩) :
    Raises machine delayed console surroundings true fault := by
  obtain ⟨present, decoded⟩ := Machine.instruction?_eq_some_iff.1 found
  exact .execute present decoded failed

/-- If there is an instruction to execute, then either it faults or it runs. -/
theorem raises_or_runs {step : Step κ} (found : ofMachine machine delayed console surroundings = some step) :
    (∃ fetched fault, Raises machine delayed console surroundings fetched fault) ∨
      ∃ instruction, Runs machine delayed console surroundings instruction := by
  by_cases raised : ∃ fetched fault, Raises machine delayed console surroundings fetched fault
  · exact .inl raised
  have unfaulted : ∀ fetched fault, ¬ Raises machine delayed console surroundings fetched fault :=
    fun fetched fault arises => raised ⟨fetched, fault, arises⟩
  unfold ofMachine at found
  split at found
  next error refused => exact absurd (.fetch refused) (unfaulted _ _)
  next => cases found
  next word present =>
    cases decoded : Instruction.decode? word with
    | none => exact absurd (.decode present decoded) (unfaulted _ _)
    | some instruction =>
      obtain ⟨rfl, _⟩ := Instruction.decode?_eq_some_iff.1 decoded
      exact .inr ⟨instruction, Machine.instruction?_eq_some_iff.2 ⟨present, decoded⟩, unfaulted⟩

omit [Console κ] in
/-- Of what an executed instruction assigns, only what steers at the end decides where the machine is then. -/
theorem position_executed (machine : Machine) {assignments : List Assignment}
    (aimless : ∀ assignment ∈ assignments, assignment.steers = false) (rest : List Assignment) :
    (machine.assignAll (beforeFault machine true ++ assignments ++ rest)).position =
      ((ready machine).assignAll rest).position := by
  have same : machine.assignAll (beforeFault machine true) = ready machine := assignAll_beforeFault machine true
  rw [List.append_assoc, Machine.assignAll_append, same, Machine.position_assignAll_append _ aimless]

/-- Where an instruction that runs leads the machine. -/
theorem position_of_runs {instruction : Instruction}
    (runs : Runs machine delayed console surroundings instruction) :
    ∃ step, ofMachine machine delayed console surroundings = some step ∧
      (∀ report, step.ending ≠ .faulted report) ∧
      (machine.assignAll step.assignments).position = instruction.leaves machine delayed := by
  obtain ⟨found, unfaulted⟩ := runs
  obtain ⟨present, decoded⟩ := Machine.instruction?_eq_some_iff.1 found
  have same : machine.assignAll (if machine.pending.isSome then [.pending none] else []) = ready machine :=
    assignAll_beforeFault machine true
  simp only [ofMachine, present, ofWord, decoded, same]
  cases executed : instruction.effect (ready machine) machine.pc delayed with
  | error interruption => exact absurd (.execute present decoded executed) (unfaulted _ _)
  | ok effect =>
    dsimp only
    by_cases returns : instruction.operation = .eret
    · have effect_eq : effect = { assignments := (ready machine).returning, flow := .assigned } := by
        simp only [Instruction.effect, returns] at executed
        exact (Except.ok.inj executed).symm
      subst effect_eq
      refine ⟨_, rfl, by simp, ?_⟩
      rw [Machine.assignAll_append, same, Instruction.leaves, if_pos returns]
      rfl
    obtain ⟨flow, aimless⟩ :=
      (instruction.continues_effect (ready machine) delayed returns).of_ok effect executed
    by_cases calls : instruction.operation = .syscall
    · have stays : instruction.destination? machine = none := by simp only [Instruction.destination?, calls]
      simp only [Instruction.flow, calls] at flow
      simp only [flow, Instruction.leaves, if_neg returns, stays]
      cases served : (Service.call (ready machine) console surroundings).ending with
      | error interruption => exact absurd (.serve present decoded executed flow served) (unfaulted _ _)
      | ok ending =>
        cases ending with
        | exit code => exact ⟨_, rfl, by simp, position_executed machine aimless _⟩
        | resume assigned =>
          refine ⟨_, rfl, by simp, ?_⟩
          dsimp only
          rw [List.append_assoc]
          exact (position_executed machine aimless _).trans
            ((ready machine).position_assignAll_append (Service.not_steers_of_call served) _)
    · have toward : effect.flow = .toward (instruction.destination? machine) := by
        rw [flow]
        unfold Instruction.flow
        split <;> first | contradiction | rfl
      simp only [Instruction.leaves, if_neg returns, toward]
      cases instruction.destination? machine with
      | none => exact ⟨_, rfl, by simp [Flow.toward], position_executed machine aimless _⟩
      | some target =>
        refine ⟨_, rfl, by simp [Flow.toward], (position_executed machine aimless _).trans ?_⟩
        cases delayed <;> rfl

end Step

end Mips
