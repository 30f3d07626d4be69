import Mips.Proofs.Execution.Course

/-!
What an instruction may change. It stores only where the rules for accessing memory allow it, and coprocessor 0 changes
only with a move to it, with the handling of a fault, and with the return from it. Main statements:
`word_of_step` and `epc_of_runs`.
-/

namespace Mips

variable [Generator]

/-- The assignment does not concern memory, or only a word that a store may change. -/
def Assignment.Confined (memory : Memory) : Assignment → Prop
  | .memory address _ => memory.Storable address
  | _ => True

theorem Assignment.Allowed.confined {instruction : Instruction} {machine : Machine} {assignment : Assignment}
    (allowed : assignment.Allowed instruction machine) : assignment.Confined machine.memory := by
  cases assignment with
  | memory => exact allowed
  | _ => trivial

namespace Machine

/-- No assignment changes the rules for accessing memory. -/
theorem rules_assign (machine : Machine) (assignment : Assignment) :
    (machine.assign assignment).memory.layout = machine.memory.layout ∧
      (machine.assign assignment).memory.selfModifying = machine.memory.selfModifying := by
  cases assignment with
  | memory address content => cases content <;> exact ⟨rfl, rfl⟩
  | stream number content => cases content <;> exact ⟨rfl, rfl⟩
  | _ => exact ⟨rfl, rfl⟩

theorem rules_assignAll (machine : Machine) (assignments : List Assignment) :
    (machine.assignAll assignments).memory.layout = machine.memory.layout ∧
      (machine.assignAll assignments).memory.selfModifying = machine.memory.selfModifying := by
  constructor
  · exact view_assignAll (·.memory.layout) (fun _ => True)
      (fun machine assignment _ => (machine.rules_assign assignment).1) machine fun _ _ => trivial
  · exact view_assignAll (·.memory.selfModifying) (fun _ => True)
      (fun machine assignment _ => (machine.rules_assign assignment).2) machine fun _ _ => trivial

/-- A word that no store may change stays. -/
theorem word_assignAll (machine : Machine) {memory : Memory} {assignments : List Assignment}
    (confined : ∀ assignment ∈ assignments, assignment.Confined memory) {address : Address}
    (guarded : ¬memory.Storable address) :
    (machine.assignAll assignments).memory.words[address]? = machine.memory.words[address]? := by
  refine view_assignAll (fun machine => machine.memory.words[address]?) (Assignment.Confined memory) ?_ machine confined
  intro machine assignment inside
  cases assignment with
  | memory place content =>
    have different : place ≠ address := fun same => guarded (same ▸ inside)
    cases content with
    | some word =>
      simp only [assign, Memory.assign, Std.ExtTreeMap.getElem?_insert, Std.LawfulEqCmp.compare_eq_iff_eq,
        if_neg different]
    | none =>
      simp only [assign, Memory.assign, Std.ExtTreeMap.getElem?_erase, Std.LawfulEqCmp.compare_eq_iff_eq,
        if_neg different]
  | stream number content => cases content <;> rfl
  | _ => rfl

/-- A register of coprocessor 0 holds what it held or what it was assigned. -/
theorem getCop0_assignAll (machine : Machine) (assignments : List Assignment) (number : Fin 32) :
    (machine.assignAll assignments).getCop0 number = machine.getCop0 number ∨
      ∃ value, .cop0 number value ∈ assignments ∧ (machine.assignAll assignments).getCop0 number = value := by
  induction assignments generalizing machine with
  | nil => exact .inl rfl
  | cons assignment rest ih =>
    rcases ih (machine.assign assignment) with kept | ⟨value, later, same⟩
    · rw [assignAll, kept]
      cases assignment with
      | cop0 other value =>
        simp only [assign, getCop0, Bank.get_set]
        split
        next same => exact .inr ⟨value, same ▸ List.mem_cons_self, rfl⟩
        next => exact .inl rfl
      | stream other content => cases content <;> exact .inl rfl
      | _ => exact .inl rfl
    · exact .inr ⟨value, List.mem_cons_of_mem _ later, same⟩

end Machine

namespace Step

variable {κ : Type} [Console κ] {machine : Machine} {delayed : Bool} {console : κ} {surroundings : Surroundings}

omit [Console κ] in
theorem allowed_of_steers {instruction : Instruction} {assignment : Assignment} (steers : assignment.steers = true) :
    assignment.Allowed instruction machine := by
  cases assignment with
  | pc | pending => trivial
  | _ => cases steers

omit [Console κ] in
theorem allowed_of_served {instruction : Instruction} {assignment : Assignment} {service : Service}
    (calls : instruction.operation = .syscall) (chosen : Service.ofNumber? (machine.get .v0) = some service)
    (served : assignment.Served service machine.memory) : assignment.Allowed instruction machine := by
  cases assignment with
  | memory => exact served
  | cop0 => cases served
  | heapBreak =>
    cases served
    exact ⟨calls, chosen⟩
  | stream => exact ⟨calls, service, chosen, served⟩
  | _ => trivial

omit [Console κ] in
theorem steers_of_mem_beforeFault {fetched : Bool} {assignment : Assignment}
    (member : assignment ∈ beforeFault machine fetched) : assignment.steers = true := by
  unfold beforeFault at member
  split at member
  · cases List.mem_singleton.1 member
    rfl
  · cases member

/-- Everything that is assigned by a step in which an instruction runs is allowed to the instruction. -/
theorem allowed_of_runs {instruction : Instruction} {step : Step κ}
    (runs : Runs machine delayed console surroundings instruction)
    (found : ofMachine machine delayed console surroundings = some step) :
    ∀ assignment ∈ step.assignments, assignment.Allowed instruction machine := by
  obtain ⟨known, unfaulted⟩ := runs
  obtain ⟨present, decoded⟩ := Machine.instruction?_eq_some_iff.1 known
  have same : machine.assignAll (if machine.pending.isSome then [.pending none] else []) = ready machine :=
    assignAll_beforeFault machine true
  simp only [ofMachine, present, ofWord, decoded, same, Option.some.injEq] at found
  cases executed : instruction.effect (ready machine) machine.pc delayed with
  | error interruption => exact absurd (.execute present decoded executed) (unfaulted _ _)
  | ok effect =>
    have done : ∀ assignment ∈ beforeFault machine true ++ effect.assignments,
        assignment.Allowed instruction machine := by
      rw [List.forall_mem_append]
      exact ⟨fun _ member => allowed_of_steers (steers_of_mem_beforeFault member),
        ((instruction.limited_effect (ready machine) machine.pc delayed).ends.of_ok executed).each⟩
    have steering (assignments : List Assignment) (steers : assignments.all Assignment.steers = true) :
        ∀ assignment ∈ assignments, assignment.Allowed instruction machine := fun assignment member =>
      allowed_of_steers (List.all_eq_true.1 steers assignment member)
    rw [executed] at found
    dsimp only at found
    split at found
    next =>
      subst found
      exact List.forall_mem_append.2 ⟨done, steering _ rfl⟩
    next =>
      subst found
      refine List.forall_mem_append.2 ⟨done, steering _ ?_⟩
      split <;> rfl
    next =>
      subst found
      exact done
    next called =>
      split at found
      next interruption failed => exact absurd (.serve present decoded executed called failed) (unfaulted _ _)
      next assigned resumed =>
        subst found
        obtain ⟨service, chosen, each⟩ := Service.served_of_call resumed
        have calls := instruction.calls_of_effect executed called
        have served : ∀ assignment ∈ assigned, assignment.Allowed instruction machine := fun assignment member =>
          allowed_of_served calls chosen (each assignment member)
        exact List.forall_mem_append.2 ⟨List.forall_mem_append.2 ⟨done, served⟩, steering _ rfl⟩
      next =>
        subst found
        exact List.forall_mem_append.2 ⟨done, steering _ rfl⟩

omit [Console κ] in
theorem confined_of_mem_handling {memory : Memory} {fault : Fault} {pc : Address} {inDelaySlot : Bool}
    {assignment : Assignment} (member : assignment ∈ machine.handling fault pc inDelaySlot) :
    assignment.Confined memory := by
  unfold Machine.handling at member
  cases assignment with
  | memory address content => cases fault.badAddress? <;> cases machine.pending <;> simp at member
  | _ => trivial

/-- A step changes only words that a store may change. -/
theorem confined_of_step {step : Step κ} (found : ofMachine machine delayed console surroundings = some step) :
    ∀ assignment ∈ step.assignments, assignment.Confined machine.memory := by
  rcases raises_or_runs found with ⟨fetched, fault, raised⟩ | ⟨instruction, runs⟩
  · obtain ⟨console', printed, same⟩ := ofMachine_of_raises raised
    cases found.symm.trans same
    have before : ∀ assignment ∈ beforeFault machine fetched, assignment.Confined machine.memory := fun _ member =>
      (allowed_of_steers (steers_of_mem_beforeFault member) : Assignment.Allowed .nop machine _).confined
    cases loaded : (machine.assignAll (beforeFault machine fetched)).handlerLoaded with
    | true =>
      rw [raise_of_handler loaded]
      exact List.forall_mem_append.2 ⟨before, fun _ member => confined_of_mem_handling member⟩
    | false =>
      rw [raise_of_no_handler loaded]
      exact before
  · exact fun assignment member => (allowed_of_runs runs found assignment member).confined

/-- A word that no store may change stays as it is in every step. -/
theorem word_of_step {step : Step κ} (found : ofMachine machine delayed console surroundings = some step)
    {address : Address} (guarded : ¬machine.memory.Storable address) :
    (machine.assignAll step.assignments).memory.words[address]? = machine.memory.words[address]? :=
  machine.word_assignAll (confined_of_step found) guarded

/--
An instruction that runs leaves the register that holds the address to return to, unless it is a move there.
-/
theorem epc_of_runs {instruction : Instruction} {step : Step κ}
    (runs : Runs machine delayed console surroundings instruction)
    (found : ofMachine machine delayed console surroundings = some step) :
    (machine.assignAll step.assignments).getCop0 Cop0.epc = machine.getCop0 Cop0.epc ∨
      instruction.operation = .mtc0 ∧ instruction.rd.number = Cop0.epc ∧
        (machine.assignAll step.assignments).getCop0 Cop0.epc = machine.get instruction.rt := by
  rcases machine.getCop0_assignAll step.assignments Cop0.epc with kept | ⟨value, member, same⟩
  · exact .inl kept
  · rcases allowed_of_runs runs found _ member with status | ⟨moves, number, moved⟩
    · exact absurd status (by decide)
    · exact .inr ⟨moves, number.symm, same.trans moved⟩

end Step

end Mips
