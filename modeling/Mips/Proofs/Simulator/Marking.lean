import Mips.Proofs.Execution.Changes
import Mips.Proofs.Execution.Serving
import Mips.Proofs.Execution.Transfer
import Mips.Proofs.Memory.Bytes
import Mips.Proofs.Simulator.InputBuffer

/-!
Which words a step marks as modified. A store marks its word exactly if it changes what is there, and no other
instruction marks or changes a word; only the service that reads a string changes words without marking them. Main
statements: `marks_of_step` and `modified_of_step`.
-/

namespace Mips

variable [Generator]

/-- The assignment is to a word of memory. -/
def Assignment.stores : Assignment → Bool
  | .memory .. => true
  | _ => false

namespace Machine

theorem memory_assign (machine : Machine) {assignment : Assignment} (idle : assignment.stores = false) :
    (machine.assign assignment).memory = machine.memory := by
  cases assignment with
  | memory => cases idle
  | stream number content => cases content <;> rfl
  | _ => rfl

theorem memory_assignAll (machine : Machine) {assignments : List Assignment}
    (idle : ∀ assignment ∈ assignments, assignment.stores = false) :
    (machine.assignAll assignments).memory = machine.memory :=
  view_assignAll memory (·.stores = false) (fun machine _ => machine.memory_assign) machine idle

end Machine

/-- The next instruction of the machine is a store. -/
def Machine.Storing (machine : Machine) : Prop :=
  ∃ instruction width, machine.instruction? = some instruction ∧ instruction.operation.transfer? = some (.store width)

/-- A system call is no store. -/
theorem Machine.not_storing_of_service {machine : Machine} {service : Service}
    (called : machine.service? = some service) : ¬machine.Storing := by
  rintro ⟨instruction, width, found, stores⟩
  obtain ⟨other, found', calls, -⟩ := Machine.service?_eq_some_iff.1 called
  cases found.symm.trans found'
  rw [calls] at stores
  cases stores

theorem Assignment.not_stores_of_steers {assignment : Assignment} (steers : assignment.steers = true) :
    assignment.stores = false := by
  cases assignment with
  | memory => cases steers
  | _ => rfl

namespace Effect

/-- Unless there is a fault, nothing is stored, and no word is marked as modified. -/
structure Idle (outcome : Except Interruption Effect) : Prop where
  keeps : ∀ effect, outcome = .ok effect → ∀ assignment ∈ effect.assignments, assignment.stores = false
  unmarked : ∀ effect, outcome = .ok effect →
    ∀ address set, effect.access = some (address, set) → set.modified = false

theorem idle_error (interruption : Interruption) : Idle (.error interruption) where
  keeps _ impossible := by cases impossible
  unmarked _ impossible := by cases impossible

theorem idle_ok {assignments : List Assignment} {flow : Flow}
    (keeps : ∀ assignment ∈ assignments, assignment.stores = false) : Idle (.ok ⟨assignments, flow, none⟩) := by
  constructor
  · rintro effect ⟨⟩
    exact keeps
  · rintro effect ⟨⟩ address set impossible
    cases impossible

theorem idle_set (target : Register) (value : Word) : Idle (set target value) :=
  idle_ok (by simp [Assignment.stores])

theorem idle_nothing : Idle nothing := idle_ok (by simp)

theorem idle_setChecked (target : Register) (value : Int) : Idle (setChecked target value) := by
  unfold setChecked
  split
  · exact idle_set target _
  · exact idle_error _

theorem idle_trapIf (condition : Bool) : Idle (trapIf condition) := by
  unfold trapIf
  split
  · exact idle_error _
  · exact idle_nothing

theorem idle_jumpTo (target : Address) {assignments : List Assignment}
    (keeps : ∀ assignment ∈ assignments, assignment.stores = false) : Idle (jumpTo target assignments) := by
  unfold jumpTo
  split
  · exact idle_ok keeps
  · exact idle_error _

theorem idle_load (memory : Memory) (width : Width) (signed : Bool) (target : Register) (address : Address) :
    Idle (load memory width signed target address) := by
  unfold load
  split
  · exact idle_error _
  · constructor
    · rintro effect ⟨⟩
      simp [Assignment.stores]
    · rintro effect ⟨⟩ place set ⟨⟩
      rfl

end Effect

open Effect in
/-- Only a store stores anything, or marks a word as modified. -/
theorem Instruction.idle_effect (instruction : Instruction) (machine : Machine) (pc : Address) (delayed : Bool)
    (passive : ∀ width, instruction.operation.transfer? ≠ some (.store width)) :
    Idle (instruction.effect machine pc delayed) := by
  unfold Instruction.effect
  cases operation : instruction.operation with
  | sb | sh | sw =>
    rw [operation] at passive
    exact (passive _ rfl).elim
  | lb | lh | lw | lbu | lhu => exact idle_load _ _ _ _ _
  | add | sub | addi => exact idle_setChecked _ _
  | tge | tgeu | tlt | tltu | teq | tne | tgei | tgeiu | tlti | tltiu | teqi | tnei => exact idle_trapIf _
  | jr => exact idle_jumpTo _ (by simp)
  | jalr => exact idle_jumpTo _ (by simp [Assignment.stores])
  | breakpoint => exact idle_error _
  | movz | movn =>
    dsimp only
    split
    · exact idle_set _ _
    · exact idle_nothing
  | div | divu =>
    dsimp only
    split
    · exact idle_nothing
    · exact idle_ok (by simp [Assignment.stores])
  | eret => exact idle_ok (by simp [Machine.returning, Assignment.stores])
  | mult | multu | madd | maddu | msub | msubu | mul | mthi | mtlo | mtc0 | syscall =>
    exact idle_ok (by simp [Assignment.stores])
  | j | jal | beq | bne | blez | bgtz | bltz | bgez | bltzal | bgezal => exact idle_ok (by simp [Assignment.stores])
  | _ => exact idle_set _ _

/-- A store writes one word, and marks it as modified if that was not there before. -/
theorem Instruction.effect_of_stores {instruction : Instruction} {machine : Machine} {pc : Address} {delayed : Bool}
    {width : Width} {effect : Effect} (stores : instruction.operation.transfer? = some (.store width))
    (executed : instruction.effect machine pc delayed = .ok effect) :
    ∃ address word, effect =
      { assignments := [.memory (Word.align address) (some word)]
        access := some (address, { written := true, modified := machine.memory.word? address ≠ some word }) } := by
  obtain ⟨address, value, same⟩ : ∃ address value,
      instruction.effect machine pc delayed = Effect.store machine.memory width address value := by
    unfold Instruction.effect
    cases operation : instruction.operation with
    | sb | sh | sw =>
      rw [operation] at stores
      cases stores
      exact ⟨_, _, rfl⟩
    | _ =>
      rw [operation] at stores
      cases stores
  rw [same, Effect.store] at executed
  split at executed
  · cases executed
  next aligned word stored =>
    unfold Memory.stored at stored
    split at stored
    · cases stored
    · cases stored
      cases executed
      exact ⟨address, _, rfl⟩

namespace Service

variable {κ : Type} [Console κ] {service : Service}

/-- Only the service that reads a string stores anything. -/
theorem keeps_of_perform (other : service ≠ .readString) {machine : Machine} {console : κ}
    {surroundings : Surroundings} {assignments : List Assignment}
    (resumed : (service.perform machine console surroundings).ending = .ok (.resume assignments)) :
    ∀ assignment ∈ assignments, assignment.stores = false := by
  cases service with
  | readString => exact absurd rfl other
  | printInteger | printCharacter | printHexadecimal | printBinary | printUnsigned =>
    cases resumed
    simp
  | printString =>
    simp only [perform] at resumed
    split at resumed
    · cases resumed
    · cases resumed
      simp
  | readInteger =>
    obtain ⟨word, -, rfl⟩ := map_eq_ok_iff.1 (eq_ok_of_quiet resumed)
    simp [Assignment.stores]
  | allocate =>
    have given := eq_ok_of_quiet resumed
    unfold allocation at given
    dsimp only at given
    split at given
    · cases given
    · split at given
      · cases given
      · cases given
        simp [Assignment.stores]
  | exit | exitWithCode => cases resumed
  | readCharacter =>
    have read := eq_ok_of_quiet resumed
    split at read
    · cases read
    · cases read
      simp [Assignment.stores]
  | time | sleep | seedStream | drawWord =>
    cases eq_ok_of_quiet resumed
    simp [drawn, Assignment.stores]
  | drawBelow =>
    have read := eq_ok_of_quiet resumed
    split at read
    · cases read
    · cases read
      simp [drawn, Assignment.stores]

end Service

namespace Step

variable {κ : Type}

/-- The step marks the word that holds the byte at the address as modified. -/
def Marks (step : Step κ) (address : Address) : Prop :=
  ∃ place set, step.access = some (place, set) ∧ Word.align place = Word.align address ∧ set.modified = true

/-- The step changes what the word is that holds the byte at the address, or whether there is one. -/
def Changes (step : Step κ) (machine : Machine) (address : Address) : Prop :=
  (machine.assignAll step.assignments).memory.word? address ≠ machine.memory.word? address

theorem not_marks_of_unmarked {step : Step κ}
    (unmarked : ∀ place set, step.access = some (place, set) → set.modified = false) (address : Address) :
    ¬step.Marks address := by
  rintro ⟨place, set, access, -, modified⟩
  rw [unmarked place set access] at modified
  cases modified

theorem not_changes_of_memory {step : Step κ} {machine : Machine}
    (same : (machine.assignAll step.assignments).memory = machine.memory) (address : Address) :
    ¬step.Changes machine address := fun changes => changes (by rw [same])

theorem memory_executed (machine : Machine) {assignments rest : List Assignment}
    (keeps : ∀ assignment ∈ assignments, assignment.stores = false)
    (steers : ∀ assignment ∈ rest, assignment.steers = true) :
    (machine.assignAll (beforeFault machine true ++ assignments ++ rest)).memory = machine.memory := by
  apply machine.memory_assignAll
  rw [List.forall_mem_append, List.forall_mem_append]
  exact ⟨⟨fun _ member => Assignment.not_stores_of_steers (steers_of_mem_beforeFault member), keeps⟩,
    fun _ member => Assignment.not_stores_of_steers (steers _ member)⟩

theorem access_raise (machine : Machine) (assignments : List Assignment) (fault : Fault) (console : κ)
    (printed : Option String) : (raise machine assignments fault console printed).access = none := by
  unfold raise
  dsimp only
  split <;> rfl

theorem steers_of_mem_steering {flow : Flow} {delayed : Bool} {next : Address} {assignment : Assignment}
    (member : assignment ∈ flow.steering delayed next) : assignment.steers = true := by
  cases flow with
  | next =>
    cases List.mem_singleton.1 member
    rfl
  | branch target =>
    cases delayed with
    | false =>
      cases List.mem_singleton.1 member
      rfl
    | true =>
      rcases List.mem_cons.1 member with rfl | last
      · rfl
      · cases List.mem_singleton.1 last
        rfl
  | assigned | service => cases member

theorem access_serving (machine : Machine) (result : ServiceResult κ) : (serving machine result).access = none := by
  unfold serving
  split
  · exact access_raise ..
  · rfl
  · rfl

variable [Console κ] {machine : Machine} {step : Step κ} {delayed : Bool} {console : κ} {surroundings : Surroundings}
  {instruction : Instruction}

/-- The step of a store marks the word that it stores to exactly if it changes it, and no other word. -/
theorem marks_of_stores {width : Width} {effect : Effect} (known : machine.instruction? = some instruction)
    (stores : instruction.operation.transfer? = some (.store width))
    (executed : instruction.effect (ready machine) machine.pc delayed = .ok effect)
    (found : ofMachine machine delayed console surroundings = some step) (address : Address) :
    (step.Marks address ↔ step.Changes machine address) ∧
      (step.Marks address → (machine.assignAll step.assignments).memory.word? address ≠ none) := by
  obtain ⟨place, word, rfl⟩ := Instruction.effect_of_stores stores executed
  cases found.symm.trans (ofMachine_of_effect known executed (by simp))
  have memory : (machine.assignAll (beforeFault machine true ++ [.memory (Word.align place) (some word)] ++
      Flow.next.steering delayed machine.next)).memory = machine.memory.setWord place word := by
    rw [List.append_assoc, Machine.assignAll_append, assignAll_beforeFault]
    rfl
  have before : (ready machine).memory = machine.memory := rfl
  simp only [Marks, Changes, memory, Memory.word?_setWord, before, Option.some.injEq, Prod.mk.injEq]
  refine ⟨⟨?_, ?_⟩, ?_⟩
  · rintro ⟨_, _, ⟨rfl, rfl⟩, near, modified⟩
    rw [if_pos near, Memory.word?, ← near]
    exact (of_decide_eq_true modified).symm
  · intro changes
    by_cases near : Word.align place = Word.align address
    · rw [if_pos near, Memory.word?, ← near] at changes
      exact ⟨_, _, ⟨rfl, rfl⟩, near, decide_eq_true changes.symm⟩
    · rw [if_neg near] at changes
      exact absurd rfl changes
  · rintro ⟨_, _, ⟨rfl, rfl⟩, near, -⟩
    simp [near]

/-- The step of a service that does not fault marks nothing, and only the one that reads a string stores anything. -/
theorem marks_of_service {service : Service} (called : machine.service? = some service)
    (unfaulted : ∀ fetched fault, ¬Raises machine delayed console surroundings fetched fault)
    (found : ofMachine machine delayed console surroundings = some step) (address : Address) :
    ¬step.Marks address ∧ (service ≠ .readString → ¬step.Changes machine address) := by
  cases found.symm.trans (ofMachine_of_service called)
  refine ⟨not_marks_of_unmarked (by simp [access_serving]) address, ?_⟩
  intro other
  apply not_changes_of_memory
  cases ended : (service.perform (ready machine) console surroundings).ending with
  | error interruption => exact absurd (raises_of_service called ended) (unfaulted _ _)
  | ok ending =>
    rw [serving, ended]
    cases ending with
    | resume assigned =>
      exact memory_executed machine (Service.keeps_of_perform other ended) (by simp [Assignment.steers])
    | exit code =>
      have keeps := @memory_executed _ machine [] [.pc machine.next] (by simp)
        (by simp [Assignment.steers])
      rwa [List.append_nil] at keeps

/-- What runs and calls a service calls one that is known. -/
theorem exists_service {effect : Effect} (known : machine.instruction? = some instruction)
    (executed : instruction.effect (ready machine) machine.pc delayed = .ok effect) (calls : effect.flow = .service)
    (unfaulted : ∀ fetched fault, ¬Raises machine delayed console surroundings fetched fault) :
    ∃ service, machine.service? = some service := by
  obtain ⟨present, decoded⟩ := Machine.instruction?_eq_some_iff.1 known
  cases chosen : Service.ofNumber? ((ready machine).get .v0) with
  | some service =>
    have same := instruction.calls_of_effect executed calls
    exact ⟨service, Machine.service?_eq_some_iff.2 ⟨instruction, known, same, chosen⟩⟩
  | none =>
    have failed : (Service.call (ready machine) console surroundings).ending =
        .error (.atOnce (.unknownService ((ready machine).get .v0))) := by
      rw [Service.call, chosen]
      rfl
    exact absurd (.serve present decoded executed calls failed) (unfaulted _ _)

/--
A step marks exactly the words that it changes, unless it calls the service that reads a string, and only that of a store
marks any, which are present then.
-/
theorem marks_of_step (found : ofMachine machine delayed console surroundings = some step) (address : Address) :
    (machine.service? ≠ some .readString → (step.Marks address ↔ step.Changes machine address)) ∧
      (step.Marks address → machine.Storing ∧ (machine.assignAll step.assignments).memory.word? address ≠ none) := by
  -- Apart from stores nothing is marked, so that the same is left to show of each: nor is anything changed.
  have of_idle (unmarked : ¬step.Marks address)
      (unchanged : machine.service? ≠ some .readString → ¬step.Changes machine address) :
      (machine.service? ≠ some .readString → (step.Marks address ↔ step.Changes machine address)) ∧
        (step.Marks address → machine.Storing ∧ (machine.assignAll step.assignments).memory.word? address ≠ none) :=
    ⟨fun other => iff_of_false unmarked (unchanged other), fun marks => absurd marks unmarked⟩
  rcases raises_or_runs found with ⟨fetched, fault, raised⟩ | ⟨instruction, known, unfaulted⟩
  · obtain ⟨console', printed, same⟩ := ofMachine_of_raises raised
    obtain ⟨step', found', -, precise⟩ := faultsPrecisely_of_raises raised
    cases found.symm.trans found'
    obtain ⟨cop0, pending, pc, kept⟩ := precise.kept
    have unwatched : step.access = none := by
      cases found.symm.trans same
      exact access_raise ..
    exact of_idle (not_marks_of_unmarked (by simp [unwatched]) address) fun _ =>
      not_changes_of_memory (by rw [kept]) address
  obtain ⟨present, decoded⟩ := Machine.instruction?_eq_some_iff.1 known
  cases executed : instruction.effect (ready machine) machine.pc delayed with
  | error interruption => exact absurd (.execute present decoded executed) (unfaulted _ _)
  | ok effect =>
    by_cases storing : ∃ width, instruction.operation.transfer? = some (.store width)
    · obtain ⟨width, stores⟩ := storing
      obtain ⟨exact, present⟩ := marks_of_stores known stores executed found address
      exact ⟨fun _ => exact, fun marks => ⟨⟨instruction, width, known, stores⟩, present marks⟩⟩
    have idle := instruction.idle_effect (ready machine) machine.pc delayed fun width stores => storing ⟨width, stores⟩
    by_cases calls : effect.flow = .service
    · obtain ⟨service, called⟩ := exists_service known executed calls unfaulted
      obtain ⟨unmarked, unchanged⟩ := marks_of_service called unfaulted found address
      exact of_idle unmarked fun other => unchanged fun same => other (same ▸ called)
    · cases found.symm.trans (ofMachine_of_effect known executed calls)
      exact of_idle (not_marks_of_unmarked (idle.unmarked effect executed) address) fun _ =>
        not_changes_of_memory
          (memory_executed machine (idle.keeps effect executed) fun _ => steers_of_mem_steering) address

end Step

namespace Memory

variable {before after : Memory} {address : Address}

omit [Generator] in
theorem word?_ne_of_wordAt_ne (changed : after.wordAt address ≠ before.wordAt address) :
    after.word? address ≠ before.word? address := fun same => changed (by rw [wordAt, wordAt, same])

omit [Generator] in
/-- A word that is present reads as something else, unless it was absent before. -/
theorem wordAt_ne_of_word?_ne (changes : after.word? address ≠ before.word? address)
    (present : after.word? address ≠ none) :
    after.wordAt address ≠ before.wordAt address ∨ before.word? address = none := by
  cases held : before.word? address with
  | none => exact .inr rfl
  | some word =>
    refine .inl fun same => changes ?_
    cases holds : after.word? address with
    | none => exact absurd holds present
    | some other =>
      rw [wordAt, wordAt, held, holds] at same
      rw [held]
      exact congrArg some same

end Memory

namespace Simulator

variable {κ : Type}

theorem accesses_setState (simulator : Simulator κ) (state : ControlState) :
    (simulator.setState state).accesses = simulator.accesses := by
  unfold setState
  split <;> rfl

theorem accesses_terminate (simulator : Simulator κ) (termination : Termination) :
    (simulator.terminate termination).accesses = simulator.accesses := by
  unfold terminate
  cases termination <;> exact accesses_setState _ _

/-- After a step alone a word is marked as modified exactly if the step marks it. -/
theorem modified_apply (simulator : Simulator κ) (outside : Outside) (step : Step κ) (address : Address) :
    ((({ simulator with accesses := .empty }.apply outside step).accesses.get address).modified = true) ↔
      step.Marks address := by
  have untouched : (Accesses.empty.get address).modified = false := by rfl
  unfold apply Step.Marks
  cases watched : step.access with
  | none => simp [emit, untouched]
  | some access =>
    obtain ⟨place, set⟩ := access
    simp only [emit, Accesses.get_add, Option.some.injEq, Prod.mk.injEq]
    by_cases near : Word.align place = Word.align address
    · have joined : ((Accesses.empty.get address) ∪ set).modified = set.modified := by
        change ((Accesses.empty.get address).modified || set.modified) = set.modified
        rw [untouched, Bool.false_or]
      rw [if_pos near, joined]
      constructor
      · exact fun modified => ⟨_, _, ⟨rfl, rfl⟩, near, modified⟩
      · rintro ⟨_, _, ⟨rfl, rfl⟩, -, modified⟩
        exact modified
    · rw [if_neg near, untouched]
      refine iff_of_false Bool.false_ne_true ?_
      rintro ⟨_, _, ⟨rfl, rfl⟩, near', -⟩
      exact near near'

variable [Console κ]

theorem watched_of_advance {simulator : Simulator κ} {outside : Outside} {step : Step κ}
    (found : simulator.nextStep? outside = some step) :
    (simulator.advance outside).2.machine = simulator.machine.assignAll step.assignments ∧
      (simulator.advance outside).2.accesses = (simulator.apply outside step).accesses := by
  rw [advance_of_some found]
  split
  · exact ⟨rfl, rfl⟩
  · exact ⟨machine_terminate _ _, accesses_terminate _ _⟩
  · exact ⟨machine_terminate _ _, accesses_terminate _ _⟩

/-- A step that is executed alone starts without marks. -/
theorem watched_of_step {simulator : Simulator κ} (runnable : simulator.runError? = none) (outside : Outside) :
    let cleared := { simulator with accesses := .empty }
    (simulator.step outside).2.machine = (cleared.advance outside).2.machine ∧
      (simulator.step outside).2.accesses = (cleared.advance outside).2.accesses := by
  simp only [step, runnable]
  split
  · exact ⟨machine_setState _ _, accesses_setState _ _⟩
  · exact ⟨rfl, rfl⟩
  · exact ⟨rfl, rfl⟩

/--
After a step that is executed alone, a word whose value has changed is marked as modified, unless the step called the
service that reads a string, which marks no word. A word that is marked was stored to, and its value has changed unless it
was absent before and is present now.
-/
theorem modified_of_step {simulator : Simulator κ} (runnable : simulator.runError? = none) (outside : Outside)
    (address : Address) :
    let before := simulator.machine
    let after := (simulator.step outside).2
    let marked := (after.accesses.get address).modified = true
    let changed := after.machine.memory.wordAt address ≠ before.memory.wordAt address
    (changed → before.service? ≠ some .readString → marked) ∧
      (before.service? = some .readString → ¬marked) ∧
      (marked → before.Storing ∧
        (changed ∨ before.memory.word? address = none ∧ after.machine.memory.word? address ≠ none)) := by
  intro before after marked changed
  obtain ⟨machine, accesses⟩ := watched_of_step runnable outside
  cases found : { simulator with accesses := .empty }.nextStep? outside with
  | none =>
    rw [advance_of_none found, machine_terminate] at machine
    rw [advance_of_none found, accesses_terminate] at accesses
    have unmarked : ¬marked := by
      simp only [marked, after, accesses]
      exact Bool.false_ne_true
    have unchanged : ¬changed := fun changes => changes (by rw [machine])
    exact ⟨fun changes => absurd changes unchanged, fun _ => unmarked, fun marks => absurd marks unmarked⟩
  | some step =>
    obtain ⟨assigned, watched⟩ := watched_of_advance found
    have marks : marked ↔ step.Marks address := by
      simp only [marked, after, accesses, watched]
      exact modified_apply simulator outside step address
    have memory : after.machine.memory = (before.assignAll step.assignments).memory := by rw [machine, assigned]
    obtain ⟨exact, stores⟩ := Step.marks_of_step found address
    rw [marks]
    refine ⟨?_, ?_, ?_⟩
    · intro changes other
      have differs := Memory.word?_ne_of_wordAt_ne changes
      rw [memory] at differs
      exact (exact other).2 differs
    · intro called marks
      exact absurd (stores marks).1 (Machine.not_storing_of_service called)
    · intro marks
      obtain ⟨storing, present⟩ := stores marks
      have other : before.service? ≠ some .readString := fun called => Machine.not_storing_of_service called storing
      have changes : after.machine.memory.word? address ≠ before.memory.word? address := memory ▸ (exact other).1 marks
      rw [← memory] at present
      exact ⟨storing, (Memory.wordAt_ne_of_word?_ne changes present).imp_right fun absent => ⟨absent, present⟩⟩

end Simulator

end Mips

namespace Mips.Simulator

/--
A simulator that is about to store a byte of the register that holds zero where no word is. The word is marked, although
zero is read there before and after; and a string that is read is stored without any mark.
-/
theorem marks_otherwise :
    let outside : Outside := ⟨fun _ => ⟨0, RandomStream.ofSeed⟩, fun _ _ => []⟩
    let store : Instruction := .ofImmediate .sb .gp .zero 0
    let storing := loaded {} (Program.ofInstructions [(0x00400000, store)])
    let call := reading 0x10010000 3 [0x61, 10]
    let stored := (storing.step outside).2
    let called := (call.step outside).2
    (storing.runError? = none ∧ (stored.accesses.get 0x10008000).modified = true ∧
        stored.machine.memory.wordAt 0x10008000 = storing.machine.memory.wordAt 0x10008000) ∧
      call.runError? = none ∧ (called.accesses.get 0x10010000).modified = false ∧
        called.machine.memory.wordAt 0x10010000 ≠ call.machine.memory.wordAt 0x10010000 := by
  decide +kernel

/-- A byte of the stack pointer is stored: its word is marked, and the next one is not. -/
theorem modified_after_store :
    let outside : Outside := ⟨fun _ => ⟨0, RandomStream.ofSeed⟩, fun _ _ => []⟩
    let store : Instruction := .ofImmediate .sb .gp .sp 1
    let storing := loaded {} (Program.ofInstructions [(0x00400000, store)])
    let stored := (storing.step outside).2
    (stored.accesses.get 0x10008002).modified = true ∧ (stored.accesses.get 0x10008004).modified = false := by
  intro outside store storing stored
  have runnable : storing.runError? = none := by rfl
  have here := modified_of_step runnable outside 0x10008002
  have beyond := modified_of_step runnable outside 0x10008004
  refine ⟨here.1 (by decide +kernel) (by decide +kernel), Bool.eq_false_iff.2 fun marked => ?_⟩
  rcases (beyond.2.2 marked).2 with changed | ⟨-, present⟩
  · exact changed (by decide +kernel)
  · exact present (by decide +kernel)

end Mips.Simulator
