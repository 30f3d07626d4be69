import Mips.Proofs.Execution.Course

/-!
The step of an instruction that calls a service. What the service did is all that there is to it: its assignments and
the address behind the instruction, or its fault. Main statement: `ofMachine_of_service`.
-/

namespace Mips

variable [Generator]

/-- The service that the next instruction of the machine calls, if it calls one that is known. -/
def Machine.service? (machine : Machine) : Option Service :=
  machine.instruction?.bind fun instruction =>
    if instruction.operation = .syscall then Service.ofNumber? (machine.get .v0) else none

theorem Machine.service?_eq_some_iff {machine : Machine} {service : Service} :
    machine.service? = some service ↔ ∃ instruction, machine.instruction? = some instruction ∧
      instruction.operation = .syscall ∧ Service.ofNumber? (machine.get .v0) = some service := by
  simp only [service?, Option.bind_eq_some_iff, Option.ite_none_right_eq_some]

theorem Instruction.effect_of_calls {instruction : Instruction} (calls : instruction.operation = .syscall)
    (machine : Machine) (pc : Address) (delayed : Bool) :
    instruction.effect machine pc delayed = .ok { assignments := [], flow := .service } := by
  simp only [effect, calls]

namespace Step

variable {κ : Type}

/-- The step of an instruction that called a service, by what the service did. -/
def serving (machine : Machine) (result : ServiceResult κ) : Step κ :=
  match result.ending with
  | .error interruption =>
    raise machine (beforeFault machine true ++ interruption.assignments) interruption result.console result.printed
  | .ok (.resume assigned) =>
    { assignments := beforeFault machine true ++ assigned ++ [.pc machine.next], ending := .completed
      console := result.console, printed := result.printed }
  | .ok (.exit code) =>
    { assignments := beforeFault machine true ++ [.pc machine.next], ending := .exited code
      console := result.console, printed := result.printed }

variable [Console κ] {machine : Machine} {delayed : Bool} {console : κ} {surroundings : Surroundings}
  {service : Service}

/-- A call of a service does what the service does, in the machine in which no branch is pending any more. -/
theorem ofMachine_of_service (called : machine.service? = some service) :
    ofMachine machine delayed console surroundings =
      some (serving machine (service.perform (ready machine) console surroundings)) := by
  obtain ⟨instruction, found, calls, chosen⟩ := Machine.service?_eq_some_iff.1 called
  obtain ⟨present, decoded⟩ := Machine.instruction?_eq_some_iff.1 found
  have taken : machine.assignAll (if machine.pending.isSome then [.pending none] else []) = ready machine :=
    assignAll_beforeFault machine true
  have executed := Instruction.effect_of_calls calls (ready machine) machine.pc delayed
  have same : Service.ofNumber? ((ready machine).get .v0) = some service := chosen
  simp only [ofMachine, present, ofWord, decoded, taken, executed, Service.call, same, List.append_nil, serving]
  cases (service.perform (ready machine) console surroundings).ending with
  | error interruption => rfl
  | ok ending => cases ending <;> rfl

/-- The fault of a service is raised by its call. -/
theorem raises_of_service (called : machine.service? = some service) {fault : Fault} {made : List Assignment}
    (failed : (service.perform (ready machine) console surroundings).ending = .error ⟨fault, made⟩) :
    Raises machine delayed console surroundings true fault := by
  obtain ⟨instruction, found, calls, chosen⟩ := Machine.service?_eq_some_iff.1 called
  obtain ⟨present, decoded⟩ := Machine.instruction?_eq_some_iff.1 found
  have executed := Instruction.effect_of_calls calls (ready machine) machine.pc delayed
  have same : Service.ofNumber? ((ready machine).get .v0) = some service := chosen
  have called : (Service.call (ready machine) console surroundings).ending = .error ⟨fault, made⟩ := by
    rw [Service.call, same]
    exact failed
  exact .serve present decoded executed rfl called

/-- A service that resumes execution leaves the machine as it assigned, behind the call. -/
theorem resumes_of_service (delayed : Bool) (called : machine.service? = some service) {assigned : List Assignment}
    (resumed : (service.perform (ready machine) console surroundings).ending = .ok (.resume assigned)) :
    ∃ step, ofMachine machine delayed console surroundings = some step ∧ step.ending = .completed ∧
      step.console = (service.perform (ready machine) console surroundings).console ∧
      step.printed = (service.perform (ready machine) console surroundings).printed ∧
      machine.assignAll step.assignments =
        ((ready machine).assignAll assigned).assign (.pc machine.next) := by
  refine ⟨_, ofMachine_of_service called, ?_⟩
  rw [serving, resumed]
  refine ⟨rfl, rfl, rfl, ?_⟩
  have taken : machine.assignAll (beforeFault machine true) = ready machine := assignAll_beforeFault machine true
  dsimp only
  rw [Machine.assignAll_append, Machine.assignAll_append, taken]
  rfl

end Step

/-- A service that resumes execution completes the instruction, and leaves the simulator behind it as it assigned. -/
theorem Simulator.advance_of_service {κ : Type} [Console κ] {simulator : Simulator κ} {outside : Outside}
    {service : Service} (called : simulator.machine.service? = some service) {assigned : List Assignment}
    (resumed : (service.perform (Step.ready simulator.machine) simulator.console
      (outside.surroundings simulator.moment)).ending = .ok (.resume assigned)) :
    (simulator.advance outside).1 = none ∧
      (simulator.advance outside).2.console = (service.perform (Step.ready simulator.machine) simulator.console
        (outside.surroundings simulator.moment)).console ∧
      (simulator.advance outside).2.machine =
        ((Step.ready simulator.machine).assignAll assigned).assign (.pc simulator.machine.next) := by
  obtain ⟨step, found, completed, console, -, same⟩ :=
    Step.resumes_of_service simulator.settings.delayedBranching called resumed
  have advanced : simulator.advance outside = (none, simulator.apply outside step) := by
    rw [advance_of_some found, completed]
  rw [advanced]
  exact ⟨rfl, console, same⟩

end Mips
