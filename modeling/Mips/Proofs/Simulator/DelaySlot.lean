import Mips.Proofs.Execution.Course
import Mips.Proofs.Simulator.Reached

/-!
Delay slots. The machine keeps only where a branch leads that was taken by the instruction before; in every state that
can be reached this tells as much as a second program counter would. Main statements: `counters_of_reached` and
`epc_of_reached`.
-/

namespace Mips

variable [Generator]

/--
If a branch is pending at the position, then branching is delayed, and the latest of the machines before it branched
or jumped there and left for this position.
-/
def Position.Explained (position : Position) (delayed : Bool) (past : List Machine) : Prop :=
  ∀ target, position.pending = some target →
    delayed = true ∧ ∃ branch earlier, past = branch :: earlier ∧ branch.destination? = some target ∧
      position.pc = branch.next

theorem Position.explained_of_none {position : Position} (delayed : Bool) (past : List Machine)
    (arrived : position.pending = none) : position.Explained delayed past := by
  intro target pending
  cases arrived.symm.trans pending

namespace Machine

/-- What is due after an instruction follows it, unless the instruction is due after a branch that leads elsewhere. -/
theorem next_sub_eq_pc_iff (machine : Machine) :
    machine.next - 4 = machine.pc ↔ machine.pending = none ∨ machine.pending = some (machine.pc + 4) := by
  unfold next Position.next position
  dsimp only
  cases machine.pending with
  | none => simp
  | some target =>
    have moved : target - 4 = machine.pc ↔ target = machine.pc + 4 := by
      constructor
      · intro same
        rw [← same, UInt32.sub_add_cancel]
      · intro same
        rw [same, UInt32.add_sub_cancel]
    simpa using moved

/-- Undoing leads to positions that depend on the position alone. -/
theorem map_position_unwound_congr {first second : Machine} (same : first.position = second.position)
    (groups : List (List Assignment)) :
    (first.unwound groups).map position = (second.unwound groups).map position := by
  induction groups generalizing first second with
  | nil => rfl
  | cons group rest ih =>
    have restored : (first.restoreAll group).position = (second.restoreAll group).position :=
      position_assignAll_congr same group.reverse
    simp only [unwound, List.map_cons, restored, ih restored]

theorem position_load (settings : Settings) (program : Program) :
    (Machine.load settings program).position = ⟨program.entry, none⟩ := by
  unfold Machine.load storeArguments
  dsimp only
  split
  · rfl
  · exact position_assignAll_of_not_steers _ (by simp [Assignment.steers])

end Machine

namespace Simulator

variable {κ : Type} [Console κ]

/-- The simulator executes this instruction next, and no fault arises. -/
def Runs (simulator : Simulator κ) (outside : Outside) (instruction : Instruction) : Prop :=
  Step.Runs simulator.machine simulator.settings.delayedBranching simulator.console
    (outside.surroundings simulator.moment) instruction

/--
The machines before a simulator account for where it is. What can be undone leads to the positions of the latest of
them, and a pending branch is explained everywhere, except that a program that has ended may still be at a fault.
-/
structure Traced (simulator : Simulator κ) (past : List Machine) : Prop where
  recent : simulator.history.map Machine.position <+: past.map Machine.position
  before : ∀ later earlier, later :: earlier <:+ past →
    later.position.Explained simulator.settings.delayedBranching earlier
  current : simulator.machine.position.Explained simulator.settings.delayedBranching past ∨
    simulator.state = .terminated ∧ (past.map Machine.position).head? = some simulator.machine.position

omit [Console κ] in
theorem Traced.explained {simulator : Simulator κ} {past : List Machine} (traced : simulator.Traced past)
    (live : simulator.Live) : simulator.machine.position.Explained simulator.settings.delayedBranching past := by
  rcases traced.current with explained | ⟨ended, _⟩
  · exact explained
  · exact absurd ended live.2

omit [Console κ] in
/-- Without a delay no branch is pending. -/
theorem Traced.arrived {simulator : Simulator κ} {past : List Machine} (traced : simulator.Traced past)
    (immediate : simulator.settings.delayedBranching = false) : simulator.machine.pending = none := by
  have never : ∀ position past, Position.Explained position simulator.settings.delayedBranching past →
      position.pending = none := by
    intro position past explained
    cases pending : position.pending with
    | none => rfl
    | some target => exact absurd (immediate.symm.trans (explained target pending).1) (by decide)
  rcases traced.current with explained | ⟨_, stays⟩
  · exact never _ _ explained
  · cases past with
    | nil => cases stays
    | cons faulted earlier =>
      have same : faulted.position = simulator.machine.position := Option.some.inj stays
      have explained := traced.before faulted earlier (List.suffix_refl _)
      rw [same] at explained
      exact never _ _ explained

omit [Console κ] in
/-- Nothing is to be explained where nothing was executed and no branch is pending. -/
theorem traced_nil {simulator : Simulator κ} (fresh : simulator.log.undoable = [])
    (arrived : simulator.machine.position.pending = none) : simulator.Traced [] where
  recent := by simp [history, fresh, Machine.unwound]
  before := by simp
  current := .inl (Position.explained_of_none _ _ arrived)

omit [Console κ] in
/-- The machines before a simulator account for any other that has the same position and settings and can undo the same. -/
theorem Traced.congr {first second : Simulator κ} {past : List Machine} (traced : first.Traced past)
    (position : second.machine.position = first.machine.position) (undoable : second.log.undoable = first.log.undoable)
    (settings : second.settings = first.settings)
    (state : first.Live ∨ second.state = first.state) : second.Traced past where
  recent := by
    have same : second.history.map Machine.position = first.history.map Machine.position := by
      rw [history, history, undoable]
      exact Machine.map_position_unwound_congr position _
    exact same ▸ traced.recent
  before := settings ▸ traced.before
  current := by
    rw [position, settings]
    rcases state with live | same
    · exact .inl (traced.explained live)
    · exact same ▸ traced.current

omit [Console κ] in
theorem Traced.of_sameUndo {first second : Simulator κ} {past : List Machine} (traced : first.Traced past)
    (same : SameUndo second first) (settings : second.settings = first.settings) (live : first.Live) :
    second.Traced past :=
  traced.congr (congrArg Machine.position same.1) (congrArg UndoLog.undoable same.2) settings (.inl live)

theorem sameUndo_advance {simulator : Simulator κ} {outside : Outside} {step : Step κ}
    (found : simulator.nextStep? outside = some step) :
    SameUndo (simulator.advance outside).2 (simulator.apply outside step) := by
  rw [advance_of_some found]
  cases step.ending with
  | completed => exact ⟨rfl, rfl⟩
  | exited code => exact sameUndo_terminate _ _
  | faulted report => exact sameUndo_terminate _ _

theorem settings_advance (simulator : Simulator κ) (outside : Outside) :
    (simulator.advance outside).2.settings = simulator.settings := by
  cases found : simulator.nextStep? outside with
  | none =>
    rw [advance_of_none found]
    exact settings_terminate _ _
  | some step =>
    rw [advance_of_some found]
    cases step.ending with
    | completed => rfl
    | exited code => exact settings_terminate _ _
    | faulted report => exact settings_terminate _ _

theorem state_of_termination {simulator : Simulator κ} {outside : Outside} {termination : Termination}
    (ended : (simulator.advance outside).1 = some termination) :
    (simulator.advance outside).2.state = .terminated := by
  cases found : simulator.nextStep? outside with
  | none =>
    rw [advance_of_none found]
    exact state_terminate _ _
  | some step =>
    rw [advance_of_some found] at ended ⊢
    cases ending : step.ending with
    | completed =>
      rw [ending] at ended
      cases ended
    | exited code => exact state_terminate _ _
    | faulted report => exact state_terminate _ _

/-- What can be undone after an instruction is that instruction and some of what could be undone before. -/
theorem history_advance_of_some {simulator : Simulator κ} {outside : Outside} {step : Step κ}
    (found : simulator.nextStep? outside = some step) :
    (simulator.advance outside).2.history <+: simulator.machine :: simulator.history := by
  by_cases enabled : simulator.log.isEnabled = true
  · obtain ⟨advanced, _⟩ := history_advance enabled outside
    rw [advanced, executing, found]
    exact List.take_prefix _ _
  · -- A log without room holds nothing, before and after.
    have room : (simulator.apply outside step).log.capacity = 0 := by
      rw [capacity_apply]
      simpa [UndoLog.isEnabled] using enabled
    have bounded := (simulator.apply outside step).log.size_le_capacity
    have empty : (simulator.apply outside step).history = [] := by
      apply List.eq_nil_of_length_eq_zero
      rw [length_history]
      omega
    rw [(sameUndo_advance found).history_eq, empty]
    exact List.nil_prefix

/-- An instruction that runs leaves for where it says. -/
theorem position_advance_of_runs {simulator : Simulator κ} {outside : Outside} {instruction : Instruction}
    (runs : simulator.Runs outside instruction) :
    (simulator.advance outside).2.machine.position =
      instruction.leaves simulator.machine simulator.settings.delayedBranching := by
  obtain ⟨step, found, _, position⟩ := Step.position_of_runs runs
  exact (congrArg Machine.position (sameUndo_advance found).1).trans position

/-- After an instruction the program has ended where it was, or a pending branch is the one just executed. -/
theorem current_advance {simulator : Simulator κ} {outside : Outside} {step : Step κ}
    (found : simulator.nextStep? outside = some step) (past : List Machine) :
    let after := (simulator.advance outside).2
    after.machine.position.Explained simulator.settings.delayedBranching (simulator.machine :: past) ∨
      after.state = .terminated ∧ after.machine.position = simulator.machine.position := by
  intro after
  rcases Step.raises_or_runs found with ⟨fetched, fault, raised⟩ | ⟨instruction, runs⟩
  · obtain ⟨ending, precise⟩ := advance_of_raises raised
    cases loaded : simulator.machine.handlerLoaded with
    | true =>
      refine .inl (Position.explained_of_none _ _ ?_)
      exact congrArg Machine.pending (precise.handled loaded).kept
    | false =>
      have unhandled := precise.unhandled loaded
      cases fetched with
      | true => exact .inl (Position.explained_of_none _ _ (congrArg Machine.pending unhandled))
      | false =>
        rw [loaded] at ending
        exact .inr ⟨state_of_termination ending, congrArg Machine.position unhandled⟩
  · left
    intro target pending
    have leaves := position_advance_of_runs runs
    rw [leaves] at pending ⊢
    obtain ⟨delayed, led, left⟩ := Instruction.of_pending_leaves pending
    refine ⟨delayed, simulator.machine, past, rfl, ?_, left⟩
    rw [Machine.destination?, runs.found]
    exact led

/-- Executing an instruction keeps account of where the simulator is. -/
theorem traced_advance {simulator : Simulator κ} {past : List Machine} (traced : simulator.Traced past)
    (live : simulator.Live) (outside : Outside) :
    (simulator.advance outside).2.Traced (simulator.executing outside ++ past) := by
  cases found : simulator.nextStep? outside with
  | none =>
    rw [executing, found, advance_of_none found]
    obtain ⟨machine, log⟩ :=
      sameUndo_terminate { simulator with log := simulator.log.start.abandon } .droppedOffBottom
    refine traced.congr (congrArg Machine.position machine) ?_ (settings_terminate _ _) (.inl live)
    exact (congrArg UndoLog.undoable log).trans simulator.log.undoable_start
  | some step =>
    have same := simulator.settings_advance outside
    rw [executing, found]
    refine ⟨?_, ?_, ?_⟩
    · have shorter := (history_advance_of_some found).map Machine.position
      exact shorter.trans (List.cons_prefix_cons.2 ⟨rfl, traced.recent⟩)
    · intro later earlier suffix
      rw [same]
      rcases List.suffix_cons_iff.1 suffix with whole | rest
      · cases whole
        exact traced.explained live
      · exact traced.before later earlier rest
    · rw [same]
      rcases current_advance found past with explained | ⟨ended, stays⟩
      · exact .inl explained
      · exact .inr ⟨ended, by simp [stays]⟩

omit [Console κ] in
theorem traced_load (simulator : Simulator κ) (program : Program) : (simulator.load program).Traced [] := by
  refine traced_nil ?_ ?_
  · rw [log_load, UndoLog.undoable_empty]
  · have loaded : (simulator.load program).machine = .load simulator.settings program := machine_setState _ _
    rw [loaded, Machine.position_load]

omit [Console κ] in
theorem traced_reset (simulator : Simulator κ) : simulator.reset.Traced [] := by
  unfold reset
  split
  next program _ => exact simulator.traced_load program
  next =>
    refine traced_nil ?_ ?_
    · rw [log_setState]
      exact UndoLog.undoable_empty _
    · rw [machine_setState]
      rfl

omit [Console κ] in
theorem settings_stepBack {simulator after : Simulator κ} (undone : simulator.stepBack = some after) :
    after.settings = simulator.settings := by
  simp only [stepBack, Option.map_eq_some_iff] at undone
  obtain ⟨⟨machine, log⟩, _, rfl⟩ := undone
  dsimp only
  split
  · exact settings_setState _ _
  · rfl

omit [Console κ] in
/-- Undoing an instruction leads to where it was executed, and what came before it accounts for that. -/
theorem traced_stepBack {simulator after : Simulator κ} {past : List Machine} (traced : simulator.Traced past)
    (undone : simulator.stepBack = some after) : after.Traced past.tail := by
  obtain ⟨popped, _⟩ := history_of_stepBack undone
  have recent := traced.recent
  rw [popped] at recent
  cases past with
  | nil => exact absurd (List.prefix_nil.1 recent) (by simp)
  | cons last earlier =>
    obtain ⟨position, rest⟩ := List.cons_prefix_cons.1 recent
    have settings := settings_stepBack undone
    refine ⟨rest, ?_, .inl ?_⟩
    · intro later others suffix
      rw [settings]
      exact traced.before later others (suffix.trans (List.suffix_cons last earlier))
    · rw [settings, position]
      exact traced.before last earlier (List.suffix_refl _)

/-- In every state that can be reached the machines before it account for where it is. -/
theorem traced_of_reached {simulator : Simulator κ} {past : List Machine} (reached : Reached simulator past) :
    simulator.Traced past := by
  induction reached with
  | create created =>
    unfold create at created
    split at created
    · cases created
    · cases created
      exact traced_nil (UndoLog.undoable_empty _) rfl
  | @load simulator past reached program ih => exact simulator.traced_load program
  | @reset simulator past reached ih => exact simulator.traced_reset
  | advance reached live outside ih => exact traced_advance ih live outside
  | @resume simulator past reached live ih | @pause simulator past reached live ih =>
    exact ih.of_sameUndo (simulator.sameUndo_setState _) (simulator.settings_setState _) live
  | @stop simulator past reached live ih =>
    exact ih.of_sameUndo (simulator.sameUndo_terminate _) (simulator.settings_terminate _) live
  | stepBack reached undone ih => exact traced_stepBack ih undone
  | @setRegister simulator past reached register value ih =>
    exact ih.congr (simulator.machine.position_assign_of_not_steers rfl) rfl rfl (.inr rfl)
  | @poke simulator after past reached width address value poked ih =>
    obtain ⟨memory, -, rfl⟩ := map_eq_ok_iff.1 poked
    exact ih.congr rfl rfl rfl (.inr rfl)
  | aside reached console breakpoints accesses events outstanding ih => exact ih.congr rfl rfl rfl (.inr rfl)

/--
In every state that can be reached, an instruction that does not fault moves the two program counters as it should:
with a delay on to what was due next, and to its destination or straight on after that; without one to its destination
or straight on at once. A return goes to the address kept for it, and without a delay no branch is ever pending.
-/
theorem counters_of_reached {simulator : Simulator κ} {past : List Machine} (reached : Reached simulator past) :
    let machine := simulator.machine
    let delayed := simulator.settings.delayedBranching
    (delayed = false → machine.pending = none) ∧
      ∀ outside instruction, simulator.Runs outside instruction →
        let after := (simulator.advance outside).2.machine
        if instruction.operation = .eret then
          after.pc = machine.getCop0 Cop0.epc ∧ after.next = machine.getCop0 Cop0.epc + 4
        else if delayed then
          after.pc = machine.next ∧ after.next = (instruction.destination? machine).getD (machine.next + 4)
        else after.pc = (instruction.destination? machine).getD (machine.pc + 4) := by
  intro machine delayed
  have arrived : delayed = false → machine.pending = none := (traced_of_reached reached).arrived
  refine ⟨arrived, ?_⟩
  intro outside instruction runs after
  have leaves : after.position = instruction.leaves machine delayed := position_advance_of_runs runs
  have pc : after.pc = (instruction.leaves machine delayed).pc := congrArg Position.pc leaves
  have next : after.next = (instruction.leaves machine delayed).next := congrArg Position.next leaves
  rw [pc, next]
  unfold Instruction.leaves
  by_cases returns : instruction.operation = .eret
  · simp [returns, Position.next]
  rw [if_neg returns, if_neg returns]
  cases instruction.destination? machine with
  | none =>
    cases immediate : delayed with
    | true => simp [Position.next]
    | false => simp [Machine.next, Position.next, Machine.position, arrived immediate]
  | some target => cases delayed <;> simp [Position.next]

end Simulator

end Mips

namespace Mips.Simulator

/-- The second of two branches in a row leads to the destination of the first, and only then to its own. -/
theorem counters_after_second_branch :
    let first : Instruction := .ofImmediate .beq .zero .zero 3
    let second : Instruction := .ofImmediate .beq .zero .zero 7
    let program := Program.ofInstructions [(0x00400000, first), (0x00400004, second)]
    let outside : Outside := ⟨fun _ => ⟨0, RandomStream.ofSeed⟩, fun _ _ => []⟩
    let start := loaded { delayedBranching := true } program
    let simulator := (start.advance outside).2
    let after := (simulator.advance outside).2.machine
    Reached simulator [start.machine] ∧ simulator.Runs outside second ∧ after.pc = 0x00400010 ∧
      after.next = 0x00400024 := by
  intro first second program outside start simulator after
  have reached : Reached simulator [start.machine] := by
    have begun : Reached start [] := reached_loaded (by decide +kernel) program
    have live : start.Live := by decide +kernel
    have executes : start.executing outside = [start.machine] := executing_of_isSome (by decide +kernel)
    have advanced := begun.advance live outside
    rwa [executes] at advanced
  have runs : simulator.Runs outside second := Step.runs_of_quiet (by decide +kernel) (by decide +kernel)
  have pc : simulator.machine.next = 0x00400010 := by decide +kernel
  have led : second.destination? simulator.machine = some 0x00400024 := by decide +kernel
  obtain ⟨_, moves⟩ := counters_of_reached reached
  have moved := moves outside second runs
  rw [if_neg (by decide), if_pos (by decide +kernel)] at moved
  obtain ⟨arrives, due⟩ := moved
  rw [pc] at arrives
  rw [led] at due
  exact ⟨reached, runs, arrives, due⟩

section

variable [Generator] {κ : Type} [Console κ]

/--
In every state that can be reached and goes on, a fault is attributed to an instruction. Without a pending branch it is
the one that faults. With one it is the instruction before the address that was due after the branch: this is the branch
itself exactly if the branch was not in the delay slot of another one that led elsewhere.
-/
theorem epc_of_reached {simulator : Simulator κ} {past : List Machine} {outside : Outside} {fetched : Bool}
    {fault : Fault} (reached : Reached simulator past) (live : simulator.Live)
    (handled : simulator.machine.handlerLoaded = true) (raised : simulator.Raises outside fetched fault) :
    let machine := simulator.machine
    let after := (simulator.advance outside).2.machine
    (machine.pending = none →
        after.getCop0 Cop0.epc = machine.pc ∧ after.getCop0 Cop0.cause &&& Cop0.branchDelay = 0) ∧
      ∀ target, machine.pending = some target →
        after.getCop0 Cop0.cause &&& Cop0.branchDelay ≠ 0 ∧
          ∃ branch earlier, past = branch :: earlier ∧ branch.destination? = some target ∧
            after.getCop0 Cop0.epc = branch.next - 4 ∧
            (after.getCop0 Cop0.epc = branch.pc ↔
              branch.pending = none ∨ branch.pending = some (branch.pc + 4)) := by
  intro machine after
  obtain ⟨_, precise⟩ := advance_of_raises raised
  have enters : machine.EntersHandler after fault := precise.handled handled
  have epc := enters.epc
  have slot := enters.branchDelay
  have explained := (traced_of_reached reached).explained live
  refine ⟨?_, ?_⟩
  · intro arrived
    rw [arrived] at epc slot
    exact ⟨epc, Classical.not_not.1 (mt slot.1 (by decide))⟩
  · intro target pending
    obtain ⟨_, branch, earlier, rfl, led, left⟩ := explained target pending
    have left : machine.pc = branch.next := left
    rw [pending, Option.isSome_some, if_pos rfl, left] at epc
    refine ⟨slot.2 (by rw [pending]; rfl), branch, earlier, rfl, led, epc, ?_⟩
    rw [epc]
    exact branch.next_sub_eq_pc_iff

end

/-- A breakpoint in a delay slot is attributed to the branch before it. -/
theorem epc_of_break_in_delay_slot :
    let branch : Instruction := .ofImmediate .beq .zero .zero 3
    let halt : Instruction := .ofCode .breakpoint 0
    let handler : Instruction := ⟨.eret, Operation.eret.encoding.base⟩
    let program := Program.ofInstructions [(0x00400000, branch), (0x00400004, halt), (0x80000180, handler)]
    let outside : Outside := ⟨fun _ => ⟨0, RandomStream.ofSeed⟩, fun _ _ => []⟩
    let start := loaded { delayedBranching := true } program
    let simulator := (start.advance outside).2
    Reached simulator [start.machine] ∧ simulator.Live ∧ simulator.machine.handlerLoaded = true ∧
      simulator.Raises outside true (.breakpoint halt.code) ∧ simulator.machine.pending = some 0x00400010 ∧
      (simulator.advance outside).2.machine.getCop0 Cop0.epc = start.machine.pc := by
  intro branch halt handler program outside start simulator
  have reached : Reached simulator [start.machine] := by
    have begun : Reached start [] := reached_loaded (by decide +kernel) program
    have live : start.Live := by decide +kernel
    have executes : start.executing outside = [start.machine] := executing_of_isSome (by decide +kernel)
    have advanced := begun.advance live outside
    rwa [executes] at advanced
  have live : simulator.Live := by decide +kernel
  have handled : simulator.machine.handlerLoaded = true := by decide +kernel
  have pending : simulator.machine.pending = some 0x00400010 := by decide +kernel
  have first : start.machine.pending = none := by decide +kernel
  have raised : simulator.Raises outside true (.breakpoint halt.code) := Step.raises_of_effect halt (by decide +kernel) rfl
  obtain ⟨_, attributed⟩ := epc_of_reached reached live handled raised
  obtain ⟨_, machine, earlier, past, _, _, itself⟩ := attributed _ pending
  obtain ⟨rfl, _⟩ := List.cons.inj past
  exact ⟨reached, live, handled, raised, pending, itself.2 (.inl first)⟩

/--
A breakpoint in the delay slot of a branch that was itself in a delay slot is attributed to neither branch, but to the
instruction before the destination of the first one.
-/
theorem epc_ne_branch :
    let first : Instruction := .ofImmediate .beq .zero .zero 3
    let second : Instruction := .ofImmediate .beq .zero .zero 7
    let halt : Instruction := .ofCode .breakpoint 0
    let handler : Instruction := ⟨.eret, Operation.eret.encoding.base⟩
    let program := Program.ofInstructions
      [(0x00400000, first), (0x00400004, second), (0x00400010, halt), (0x80000180, handler)]
    let outside : Outside := ⟨fun _ => ⟨0, RandomStream.ofSeed⟩, fun _ _ => []⟩
    let start := loaded { delayedBranching := true } program
    let between := (start.advance outside).2
    let simulator := (between.advance outside).2
    Reached simulator [between.machine, start.machine] ∧ simulator.Live ∧
      simulator.machine.handlerLoaded = true ∧ simulator.Raises outside true (.breakpoint halt.code) ∧
      simulator.machine.pending = some 0x00400024 ∧ between.machine.destination? = some 0x00400024 ∧
      between.machine.pc = 0x00400004 ∧
      (simulator.advance outside).2.machine.getCop0 Cop0.epc = 0x0040000C := by
  intro first second halt handler program outside start between simulator
  have reached : Reached simulator [between.machine, start.machine] := by
    have begun : Reached start [] := reached_loaded (by decide +kernel) program
    have advanced := (begun.advance (by decide +kernel) outside).advance (by decide +kernel) outside
    have executesFirst : start.executing outside = [start.machine] := executing_of_isSome (by decide +kernel)
    have executesSecond : between.executing outside = [between.machine] :=
      executing_of_isSome (by decide +kernel)
    rwa [executesFirst, executesSecond] at advanced
  refine ⟨reached, by decide +kernel, by decide +kernel, Step.raises_of_effect halt (by decide +kernel) rfl,
    by decide +kernel, by decide +kernel, by decide +kernel, by decide +kernel⟩

end Mips.Simulator
