import Mips.ChaCha
import Mips.Proofs.Execution.Effects
import Mips.Simulator.Stepping

/-!
Faults are precise: an instruction that faults changes nothing but what tells the handler of the fault, and
without a handler it changes nothing at all, except that a pending branch is lost. Main statement:
`precise_of_raises`.
-/

namespace Mips

variable [Generator]

namespace Step

variable {κ : Type} [Console κ]

/-- The machine in which an instruction executes: the branch that was pending has been taken. -/
def ready (machine : Machine) : Machine := { machine with pending := none }

/--
The next instruction of the machine raises a fault: when it is fetched, when its word is decoded, when it
executes, or when the service that it calls cannot do what was asked for. The flag tells whether it was fetched.
-/
inductive Raises (machine : Machine) (delayed : Bool) (console : κ) (surroundings : Surroundings) :
    (fetched : Bool) → Fault → Prop where
  | fetch {error : MemoryError} (refused : machine.memory.fetch machine.pc = .error error) :
    Raises machine delayed console surroundings false (.ofMemory .fetch error)
  | decode {word : Word} (found : machine.memory.fetch machine.pc = .ok (some word))
      (unknown : Instruction.decode? word = none) :
    Raises machine delayed console surroundings true (.reserved word)
  | execute {word : Word} {instruction : Instruction} {fault : Fault} {made : List Assignment}
      (found : machine.memory.fetch machine.pc = .ok (some word))
      (decoded : Instruction.decode? word = some instruction)
      (failed : instruction.effect (ready machine) machine.pc delayed = .error ⟨fault, made⟩) :
    Raises machine delayed console surroundings true fault
  | serve {word : Word} {instruction : Instruction} {effect : Effect} {fault : Fault} {made : List Assignment}
      (found : machine.memory.fetch machine.pc = .ok (some word))
      (decoded : Instruction.decode? word = some instruction)
      (executed : instruction.effect (ready machine) machine.pc delayed = .ok effect)
      (called : effect.flow = .service)
      (failed : (Service.call (ready machine) console surroundings).ending = .error ⟨fault, made⟩) :
    Raises machine delayed console surroundings true fault

/--
The assignments that were made before a fault: an instruction that was fetched has taken the pending branch, and neither it
nor the service that it calls has assigned anything else.
-/
def beforeFault (machine : Machine) (fetched : Bool) : List Assignment :=
  if fetched && machine.pending.isSome then [.pending none] else []

theorem assignAll_beforeFault (machine : Machine) (fetched : Bool) :
    machine.assignAll (beforeFault machine fetched) =
      { machine with pending := if fetched then none else machine.pending } := by
  unfold beforeFault
  cases fetched with
  | false => rfl
  | true =>
    cases pending : machine.pending with
    | none =>
      cases machine
      cases pending
      rfl
    | some target => rfl

/-- A fault is all that there is to the step of an instruction that raises it. -/
theorem ofMachine_of_raises {machine : Machine} {delayed : Bool} {console : κ}
    {surroundings : Surroundings} {fetched : Bool} {fault : Fault}
    (raised : Raises machine delayed console surroundings fetched fault) :
    ∃ console' printed, ofMachine machine delayed console surroundings =
      some (raise machine (beforeFault machine fetched) fault console' printed) := by
  have taken : machine.assignAll (beforeFault machine true) = ready machine :=
    assignAll_beforeFault machine true
  cases raised with
  | fetch refused => exact ⟨console, none, by simp only [ofMachine, refused]; rfl⟩
  | decode found unknown => exact ⟨console, none, by simp only [ofMachine, found, ofWord, unknown]; rfl⟩
  | @execute word instruction fault made found decoded failed =>
    have first : made = [] := (instruction.limited_effect _ _ _).ends.of_error failed
    rw [← taken] at failed
    simp only [beforeFault, Bool.true_and] at failed ⊢
    exact ⟨console, none, by simp only [ofMachine, found, ofWord, decoded, failed, first, List.append_nil]⟩
  | @serve word instruction effect fault made found decoded executed called failed =>
    have silent := ((instruction.limited_effect _ _ _).ends.of_ok executed).calls called
    have first : made = [] := Service.clean_of_call failed
    rw [← taken] at executed failed
    simp only [beforeFault, Bool.true_and] at executed failed ⊢
    exact ⟨_, _, by
      simp only [ofMachine, found, ofWord, decoded, executed, called, failed, silent, first, List.append_nil]
      rfl⟩

end Step

namespace Machine

/--
The second machine is the first one at its handler after a fault: coprocessor 0 tells of the fault, no branch is
pending, and nothing else differs.
-/
structure EntersHandler (before after : Machine) (fault : Fault) : Prop where
  kept : after =
    { before with cop0 := after.cop0, pending := none, pc := before.memory.layout.exceptionHandler }
  epc : after.getCop0 Cop0.epc = if before.pending.isSome then before.pc - 4 else before.pc
  code : (after.getCop0 Cop0.cause >>> 2) &&& 0x1F = fault.code
  branchDelay : after.getCop0 Cop0.cause &&& Cop0.branchDelay ≠ 0 ↔ before.pending.isSome = true
  badAddress : after.getCop0 Cop0.badAddress = fault.badAddress?.getD (before.getCop0 Cop0.badAddress)
  status : after.getCop0 Cop0.status = before.getCop0 Cop0.status ||| Cop0.exceptionLevel
  others : ∀ number, number ≠ Cop0.epc → number ≠ Cop0.cause → number ≠ Cop0.badAddress →
    number ≠ Cop0.status → after.getCop0 number = before.getCop0 number

/--
The second machine is what a fault leaves of the first one: the machine at its handler, or if there is no handler
the same machine, in which an instruction that was fetched has taken the pending branch.
-/
structure FaultsPrecisely (before after : Machine) (fetched : Bool) (fault : Fault) : Prop where
  handled : before.handlerLoaded = true → before.EntersHandler after fault
  unhandled : before.handlerLoaded = false →
    after = { before with pending := if fetched then none else before.pending }

/-- A fault changes nothing but coprocessor 0 and where execution continues. -/
theorem FaultsPrecisely.kept {before after : Machine} {fetched : Bool} {fault : Fault}
    (precise : before.FaultsPrecisely after fetched fault) :
    ∃ cop0 pending pc, after = { before with cop0, pending, pc } := by
  cases loaded : before.handlerLoaded with
  | false => exact ⟨_, _, _, precise.unhandled loaded⟩
  | true => exact ⟨_, _, _, (precise.handled loaded).kept⟩

/-- The cause register that a fault is recorded in. -/
def causeOf (fault : Fault) (inDelaySlot : Bool) : Word :=
  (if inDelaySlot then Cop0.branchDelay else 0) ||| (fault.code <<< 2)

omit [Generator] in
/-- The cause register holds the number of the fault, and the highest bit tells of a delay slot. -/
theorem causeOf_fields (fault : Fault) (inDelaySlot : Bool) :
    (causeOf fault inDelaySlot >>> 2) &&& 0x1F = fault.code ∧
      (causeOf fault inDelaySlot &&& Cop0.branchDelay ≠ 0 ↔ inDelaySlot = true) := by
  have known : fault.code ∈ ([4, 5, 8, 9, 10, 12, 13] : List Word) := by
    cases fault with
    | misaligned address access | inaccessible address access => cases access <;> simp [Fault.code]
    | overflow | reserved _ | breakpoint _ | trap | unknownService _ | service _ => simp [Fault.code]
  unfold causeOf
  generalize fault.code = code at known
  simp only [List.mem_cons, List.not_mem_nil, or_false] at known
  rcases known with rfl | rfl | rfl | rfl | rfl | rfl | rfl <;> cases inDelaySlot <;> decide +kernel

/-- What the handling of a fault assigns, as one change of coprocessor 0, of the pending branch and of the address. -/
theorem assignAll_handling (machine : Machine) (fault : Fault) (pc : Address) (inDelaySlot : Bool) :
    machine.assignAll (machine.handling fault pc inDelaySlot) =
      { machine with
        cop0 :=
          let told := (machine.cop0.set Cop0.epc (if inDelaySlot then pc - 4 else pc)).set Cop0.cause
            (causeOf fault inDelaySlot)
          let located := match fault.badAddress? with
            | some address => told.set Cop0.badAddress address
            | none => told
          located.set Cop0.status (machine.getCop0 Cop0.status ||| Cop0.exceptionLevel)
        pending := none
        pc := machine.memory.layout.exceptionHandler } := by
  obtain ⟨registers, pc, hi, lo, cop0, memory, pending, heapBreak, streams⟩ := machine
  cases located : fault.badAddress? <;> cases pending <;>
    simp [handling, located, assignAll, assign, causeOf]

/-- Coprocessor 0 after a fault, register by register. -/
theorem getCop0_handling (machine : Machine) (fault : Fault) (pc : Address) (inDelaySlot : Bool)
    (number : Fin 32) :
    (machine.assignAll (machine.handling fault pc inDelaySlot)).getCop0 number =
      if number = Cop0.status then machine.getCop0 Cop0.status ||| Cop0.exceptionLevel
      else if number = Cop0.badAddress then fault.badAddress?.getD (machine.getCop0 Cop0.badAddress)
      else if number = Cop0.cause then causeOf fault inDelaySlot
      else if number = Cop0.epc then if inDelaySlot then pc - 4 else pc
      else machine.getCop0 number := by
  have flipped : ∀ other : Fin 32, (other = number) = (number = other) := fun other => propext eq_comm
  rw [assignAll_handling]
  cases fault.badAddress? with
  | some address => simp only [getCop0, Bank.get_set, flipped, Option.getD_some]
  | none =>
    simp only [getCop0, Bank.get_set, flipped, Option.getD_none]
    by_cases isStatus : number = Cop0.status
    · simp only [if_pos isStatus]
    · by_cases isBad : number = Cop0.badAddress
      · subst isBad
        simp [show Cop0.badAddress ≠ Cop0.cause by decide, show Cop0.badAddress ≠ Cop0.epc by decide]
      · simp only [if_neg isBad]

/-- The handling of a fault takes the machine to its handler, whether or not the pending branch was taken before. -/
theorem entersHandler_handling (machine : Machine) (fault : Fault) (pending : Option Address) :
    let taken : Machine := { machine with pending := pending }
    machine.EntersHandler
      (taken.assignAll (taken.handling fault machine.pc machine.pending.isSome)) fault := by
  intro taken
  have same : ∀ number, taken.getCop0 number = machine.getCop0 number := fun _ => rfl
  have registers := taken.getCop0_handling fault machine.pc machine.pending.isSome
  simp only [same] at registers
  have fields := causeOf_fields fault machine.pending.isSome
  have cause := registers Cop0.cause
  rw [if_neg (by decide), if_neg (by decide), if_pos rfl] at cause
  constructor
  case kept => rw [assignAll_handling]
  case epc =>
    have epc := registers Cop0.epc
    rwa [if_neg (by decide), if_neg (by decide), if_neg (by decide), if_pos rfl] at epc
  case code => rw [cause, fields.1]
  case branchDelay => rw [cause, fields.2]
  case badAddress =>
    have badAddress := registers Cop0.badAddress
    rwa [if_neg (by decide), if_pos rfl] at badAddress
  case status =>
    have status := registers Cop0.status
    rwa [if_pos rfl] at status
  case others =>
    intro number notEpc notCause notBad notStatus
    rw [registers number, if_neg notStatus, if_neg notBad, if_neg notCause, if_neg notEpc]

end Machine

namespace Step

variable {κ : Type}

theorem raise_of_handler {machine : Machine} {assignments : List Assignment} {fault : Fault}
    {console : κ} {printed : Option String}
    (loaded : (machine.assignAll assignments).handlerLoaded = true) :
    raise machine assignments fault console printed =
      { assignments := assignments ++
          (machine.assignAll assignments).handling fault machine.pc machine.pending.isSome
        ending := .completed
        console, printed } := by
  simp only [raise, Machine.dispatch, if_pos loaded]

theorem raise_of_no_handler {machine : Machine} {assignments : List Assignment} {fault : Fault}
    {console : κ} {printed : Option String}
    (absent : (machine.assignAll assignments).handlerLoaded = false) :
    raise machine assignments fault console printed =
      { assignments, ending := .faulted ⟨fault, machine.pc⟩, console, printed } := by
  simp [raise, Machine.dispatch, absent]

theorem faulted_of_raise {machine : Machine} {assignments : List Assignment} {fault : Fault} {console : κ}
    {printed : Option String} {report : FaultReport}
    (faulted : (raise machine assignments fault console printed).ending = .faulted report) :
    report = ⟨fault, machine.pc⟩ := by
  cases loaded : (machine.assignAll assignments).handlerLoaded with
  | true =>
    rw [raise_of_handler loaded] at faulted
    cases faulted
  | false =>
    rw [raise_of_no_handler loaded] at faulted
    exact (StepEnd.faulted.inj faulted).symm

/-- The step of an instruction that faults changes precisely what it should, and fails if there is no handler. -/
theorem faultsPrecisely_of_raises [Console κ] {machine : Machine} {delayed : Bool} {console : κ}
    {surroundings : Surroundings} {fetched : Bool} {fault : Fault}
    (raised : Raises machine delayed console surroundings fetched fault) :
    ∃ step, ofMachine machine delayed console surroundings = some step ∧
      step.ending = (if machine.handlerLoaded then .completed else .faulted ⟨fault, machine.pc⟩) ∧
      machine.FaultsPrecisely (machine.assignAll step.assignments) fetched fault := by
  obtain ⟨console', printed, found⟩ := ofMachine_of_raises raised
  refine ⟨_, found, ?_⟩
  have kept := assignAll_beforeFault machine fetched
  -- Taking the pending branch writes no memory, so it cannot load or unload a handler.
  have handler : (machine.assignAll (beforeFault machine fetched)).handlerLoaded = machine.handlerLoaded := by
    rw [kept]
    rfl
  cases loaded : machine.handlerLoaded with
  | false =>
    rw [raise_of_no_handler (handler.trans loaded)]
    refine ⟨rfl, ?_, ?_⟩
    · intro present
      rw [loaded] at present
      cases present
    · intro _
      exact kept
  | true =>
    rw [raise_of_handler (handler.trans loaded)]
    refine ⟨rfl, ?_, ?_⟩
    · intro _
      have arrives := machine.entersHandler_handling fault (if fetched then none else machine.pending)
      rw [← kept] at arrives
      dsimp only at arrives
      rw [← Machine.assignAll_append] at arrives
      exact arrives
    · intro absent
      rw [loaded] at absent
      cases absent

/-- A step reports a fault only of an instruction that raises it. -/
theorem raises_of_ofMachine [Console κ] {machine : Machine} {delayed : Bool} {console : κ}
    {surroundings : Surroundings} {step : Step κ} {report : FaultReport}
    (found : ofMachine machine delayed console surroundings = some step)
    (faulted : step.ending = .faulted report) :
    ∃ fetched, Raises machine delayed console surroundings fetched report.fault ∧ report.pc = machine.pc := by
  have taken : machine.assignAll (if machine.pending.isSome then [.pending none] else []) = ready machine :=
    assignAll_beforeFault machine true
  unfold ofMachine at found
  split at found
  next error refused =>
    cases found
    rw [faulted_of_raise faulted]
    exact ⟨false, .fetch refused, rfl⟩
  next => cases found
  next word present =>
    cases found
    simp only [ofWord, taken] at faulted
    split at faulted
    next unknown =>
      rw [faulted_of_raise faulted]
      exact ⟨true, .decode present unknown, rfl⟩
    next instruction decoded =>
      split at faulted
      next interruption failed =>
        rw [faulted_of_raise faulted]
        exact ⟨true, .execute present decoded failed, rfl⟩
      next effect executed =>
        split at faulted
        next => cases faulted
        next => cases faulted
        next => cases faulted
        next called =>
          split at faulted
          next interruption failed =>
            rw [faulted_of_raise faulted]
            exact ⟨true, .serve present decoded executed called failed, rfl⟩
          next => cases faulted
          next => cases faulted

end Step

namespace Simulator

variable {κ : Type} [Console κ]

/-- The next instruction of the simulator raises a fault. -/
def Raises (simulator : Simulator κ) (outside : Outside) (fetched : Bool) (fault : Fault) : Prop :=
  Step.Raises simulator.machine simulator.settings.delayedBranching simulator.console
    (outside.surroundings simulator.moment) fetched fault

/-- An instruction that faults changes precisely what it should, and ends the program if there is no handler. -/
theorem advance_of_raises {simulator : Simulator κ} {outside : Outside} {fetched : Bool} {fault : Fault}
    (raised : simulator.Raises outside fetched fault) :
    (simulator.advance outside).1 =
        (if simulator.machine.handlerLoaded then none else some (.fault ⟨fault, simulator.machine.pc⟩)) ∧
      simulator.machine.FaultsPrecisely (simulator.advance outside).2.machine fetched fault := by
  obtain ⟨step, found, ending, precise⟩ := Step.faultsPrecisely_of_raises raised
  have advanced := advance_of_some found
  cases loaded : simulator.machine.handlerLoaded with
  | false =>
    simp only [ending, loaded, Bool.false_eq_true, if_false] at advanced
    rw [advanced]
    refine ⟨rfl, ?_⟩
    rw [machine_terminate]
    exact precise
  | true =>
    simp only [ending, loaded, if_true] at advanced
    rw [advanced]
    exact ⟨rfl, precise⟩

/-- A fault is reported only of an instruction that raises it. -/
theorem raises_of_advance {simulator : Simulator κ} {outside : Outside} {report : FaultReport}
    (reported : (simulator.advance outside).1 = some (.fault report)) :
    ∃ fetched, simulator.Raises outside fetched report.fault ∧ report.pc = simulator.machine.pc := by
  cases found : simulator.nextStep? outside with
  | none =>
    rw [advance_of_none found] at reported
    cases reported
  | some step =>
    rw [advance_of_some found] at reported
    have faulted : step.ending = .faulted report := by
      cases ending : step.ending <;> rw [ending] at reported <;> cases reported
      rfl
    exact Step.raises_of_ofMachine found faulted

/--
An instruction that faults leaves of the machine precisely what it should, whether it is executed as part of a run
or by itself. Its fault is reported exactly if there is no handler.
-/
theorem precise_of_raises {simulator : Simulator κ} {outside : Outside} {fetched : Bool} {fault : Fault}
    (raised : simulator.Raises outside fetched fault) :
    let report : FaultReport := ⟨fault, simulator.machine.pc⟩
    let handled := simulator.machine.handlerLoaded
    ((simulator.advance outside).1 = (if handled then none else some (.fault report)) ∧
        simulator.machine.FaultsPrecisely (simulator.advance outside).2.machine fetched fault) ∧
      (simulator.runError? = none →
        (simulator.step outside).1 = (if handled then .ok .paused else .error (.fault report)) ∧
          simulator.machine.FaultsPrecisely (simulator.step outside).2.machine fetched fault) := by
  intro report handled
  refine ⟨advance_of_raises raised, ?_⟩
  intro ready
  have watched : { simulator with accesses := .empty }.Raises outside fetched fault := raised
  obtain ⟨ending, precise⟩ := advance_of_raises watched
  simp only [step, ready]
  change _ = (if handled then none else some (Termination.fault report)) at ending
  cases loaded : handled with
  | false =>
    rw [loaded, if_neg (by decide)] at ending
    simp only [ending]
    exact ⟨rfl, precise⟩
  | true =>
    rw [loaded, if_pos rfl] at ending
    simp only [ending]
    refine ⟨rfl, ?_⟩
    rw [machine_setState]
    exact precise

end Simulator

end Mips

namespace Mips.Simulator

/-- A store to a misaligned address in a delay slot leaves the machine as it was, without the pending branch. -/
theorem step_of_misaligned_store :
    let store : ProgramStatement := ⟨0x00400000, .ofImmediate .sw .zero .ra 2, 0, 1, none⟩
    let statements : Std.ExtTreeMap Address ProgramStatement := ∅
    let program : Program := ⟨statements.insert store.address store, ∅, .empty, store.address, [], []⟩
    let outside : Outside := ⟨fun _ => ⟨0, RandomStream.ofSeed⟩, fun _ _ => []⟩
    let loaded : Machine := .load {} program
    let machine : Machine := { loaded with pending := some 0x00400010 }
    let simulator : Simulator SilentConsole := ⟨{}, machine, .empty 2000, {}, .empty, .empty, {},
      none, some program, .ready, none, 0, 0⟩
    simulator.Raises outside true (.misaligned 2 .store) ∧
      (simulator.step outside).1 = .error (.fault ⟨.misaligned 2 .store, 0x00400000⟩) ∧
      (simulator.step outside).2.machine = { machine with pending := none } := by
  intro store statements program outside loaded machine simulator
  have raised : simulator.Raises outside true (.misaligned 2 .store) := by
    have present : machine.memory.words[machine.pc]? = some store.instruction.word := by decide +kernel
    have aligned : Word.isAligned machine.pc = true := by decide +kernel
    have segment : machine.memory.layout.segmentOf machine.pc = some .text := by decide +kernel
    have found : machine.memory.fetch machine.pc = .ok (some store.instruction.word) := by
      simp [Memory.fetch, aligned, segment, present, Segment.isText]
    have decoded : Instruction.decode? store.instruction.word = some store.instruction := by decide +kernel
    have sum : (Step.ready machine).get store.instruction.rs + store.instruction.extended = 2 := by
      decide +kernel
    have failed : store.instruction.effect (Step.ready machine) machine.pc false =
        .error (.atOnce (.misaligned 2 .store)) := by
      have operation : store.instruction.operation = .sw := rfl
      simp only [Instruction.effect, operation, sum, Effect.store]
      rfl
    exact .execute found decoded failed
  have absent : simulator.machine.handlerLoaded = false := by decide +kernel
  obtain ⟨-, alone⟩ := precise_of_raises raised
  obtain ⟨told, precise⟩ := alone rfl
  rw [absent] at told
  exact ⟨raised, told, precise.unhandled absent⟩

end Mips.Simulator
