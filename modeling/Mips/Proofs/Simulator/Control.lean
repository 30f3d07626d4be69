import Mips.Proofs.Simulator.Session
import Mips.Proofs.Simulator.StraightLine

/-!
What holds of a simulator between any two calls, and when a call is refused. The state tells whether there is a program
and whether it has ended, and the log never holds more than was executed. Main statement: `controlled_of_commands`.
-/

namespace Mips

open Relation (ReflTransGen)

variable [Generator]

namespace UndoLog

variable (log : UndoLog)

theorem unfinished_push (group : List Assignment) : (log.push group).unfinished = log.unfinished := by
  unfold push
  split
  · rfl
  · split <;> rfl

theorem size_push_le (group : List Assignment) : (log.push group).size ≤ log.size + 1 := by
  have bounded := log.size_le_capacity
  unfold push
  split
  · exact Nat.le_refl _
  · split
    · exact Nat.le_succ _
    · show log.capacity ≤ log.size + 1
      omega

/-- What an instruction records is one group at most, and it is closed. -/
theorem commit_record (closed : log.unfinished = none) (entries : List Assignment) :
    ((log.start.record entries).commit).unfinished = none ∧
      ((log.start.record entries).commit).size ≤ log.size + 1 := by
  by_cases enabled : log.isEnabled = true
  · simp only [start, if_pos enabled, record, commit, Option.map_some]
    refine ⟨unfinished_push _ _, ?_⟩
    exact size_push_le _ _
  · simp only [start, if_neg enabled, record, commit, closed, Option.map_none]
    exact ⟨trivial, Nat.le_succ _⟩

theorem abandon_start : log.start.abandon.unfinished = none ∧ log.start.abandon.size = log.size ∧
    log.start.abandon.capacity = log.capacity := by
  unfold start
  split <;> exact ⟨rfl, rfl, rfl⟩

theorem size_of_pop {log rest : UndoLog} {group : List Assignment} (popped : log.pop? = some (group, rest)) :
    rest.size + 1 = log.size ∧ rest.unfinished = log.unfinished := by
  unfold pop? at popped
  split at popped
  next first others size held counted =>
    cases popped
    exact ⟨counted.symm, rfl⟩
  next => cases popped

end UndoLog

namespace Simulator

variable {κ : Type}

/-- Why a call had no effect. -/
inductive Refusal where
  | program (error : LoadError)
  | control (error : RunError)
  | memory (error : MemoryError)
  | nothingToUndo

/-- Why nothing was executed, unless an instruction was executed and faulted. -/
def refusal? {α : Type} : Except RunError α → Option Refusal
  | .ok _ | .error (.fault _) => none
  | .error error => some (.control error)

section Commands

variable [Console κ]

/--
One call on a simulator, and why it was refused, if it was. A run without a limit is one that ends within some number of
instructions. The console, and what is watched and told, may be exchanged at any time.
-/
inductive Commanded : Simulator κ → Option Refusal → Simulator κ → Prop where
  | assemble {simulator after : Simulator κ} (tree : FileTree) (sources : List Source)
      (assembled : simulator.assemble tree sources = .ok after) : Commanded simulator none after
  | notAssembled {simulator : Simulator κ} (tree : FileTree) (sources : List Source) {error : LoadError}
      (failed : simulator.assemble tree sources = .error error) : Commanded simulator (some (.program error)) simulator
  | assembleFile {simulator after : Simulator κ} (tree : FileTree) (main : String)
      (assembled : simulator.assembleFile tree main = .ok after) : Commanded simulator none after
  | fileNotAssembled {simulator : Simulator κ} (tree : FileTree) (main : String) {error : LoadError}
      (failed : simulator.assembleFile tree main = .error error) : Commanded simulator (some (.program error)) simulator
  | load (simulator : Simulator κ) (program : Program) : Commanded simulator none (simulator.load program)
  | reset (simulator : Simulator κ) : Commanded simulator none simulator.reset
  | step (simulator : Simulator κ) (outside : Outside) :
    Commanded simulator (refusal? (simulator.step outside).1) (simulator.step outside).2
  | run {simulator after : Simulator κ} {answer : Except RunError StopReason} (outside : Outside) (fuel : Nat)
      (ended : simulator.run? outside fuel = some (answer, after)) : Commanded simulator (refusal? answer) after
  | runLimited (simulator : Simulator κ) (outside : Outside) (limit : Nat) :
    Commanded simulator (refusal? (simulator.runLimited outside limit).1) (simulator.runLimited outside limit).2
  | stepBack {simulator after : Simulator κ} (undone : simulator.stepBack = some after) : Commanded simulator none after
  | notUndone {simulator : Simulator κ} (empty : simulator.stepBack = none) :
    Commanded simulator (some .nothingToUndo) simulator
  | setRegister (simulator : Simulator κ) (register : Register) (value : Word) :
    Commanded simulator none (simulator.setRegister register value)
  | poke {simulator after : Simulator κ} {width : Width} {address : Address} {value : Word}
      (poked : simulator.poke width address value = .ok after) : Commanded simulator none after
  | notPoked {simulator : Simulator κ} {width : Width} {address : Address} {value : Word} {error : MemoryError}
      (failed : simulator.poke width address value = .error error) :
    Commanded simulator (some (.memory error)) simulator
  | breakpoints (simulator : Simulator κ) (breakpoints : Breakpoints) :
    Commanded simulator none { simulator with breakpoints }
  | receive (simulator : Simulator κ) (request : Request) : Commanded simulator none (simulator.receive request)
  | aside (simulator : Simulator κ) (console : κ) (accesses : Accesses) (events : EventChannel) :
    Commanded simulator none { simulator with console, accesses, events }

end Commands

/-- What holds of a simulator at any time, also while it runs. -/
structure Sound (settings : Settings) (simulator : Simulator κ) : Prop where
  chosen : simulator.settings = settings
  idle : simulator.state = .idle ↔ simulator.program = none
  terminated : simulator.state = .terminated ↔ simulator.termination.isSome = true
  capacity : simulator.log.capacity = undoCapacity settings
  counted : simulator.log.size ≤ simulator.instructionsRun
  closed : simulator.log.unfinished = none
  zero : simulator.machine.get .zero = 0 := simulator.machine.get_zero

/-- No program runs, and one that is ready has not begun. -/
structure Settled (simulator : Simulator κ) : Prop where
  stopped : simulator.state ≠ .running
  fresh : simulator.state = .ready → simulator.instructionsRun = 0

/-- What holds of a simulator between two calls. -/
structure Controlled (settings : Settings) (simulator : Simulator κ) : Prop extends
    Sound settings simulator, Settled simulator where
  limited : simulator.log.size ≤ if settings.backstepping then settings.backstepLimit else 0

variable {settings : Settings} {simulator : Simulator κ}

@[simp] theorem termination_setState (simulator : Simulator κ) (state : ControlState) :
    (simulator.setState state).termination = simulator.termination := by
  unfold setState
  split <;> rfl

@[simp] theorem termination_terminate (simulator : Simulator κ) (termination : Termination) :
    (simulator.terminate termination).termination = some termination := by
  unfold terminate
  cases termination <;> exact termination_setState _ _

namespace Sound

/-- A program that has not ended is neither begun nor paused by anything else than a state. -/
theorem setState (sound : Sound settings simulator) (live : simulator.Live) {state : ControlState}
    (active : state ≠ .idle) (going : state ≠ .terminated) : Sound settings (simulator.setState state) where
  chosen := (settings_setState _ _).trans sound.chosen
  idle := by
    rw [state_setState, program_setState, ← sound.idle]
    exact iff_of_false active live.1
  terminated := by
    rw [state_setState, termination_setState, ← sound.terminated]
    exact iff_of_false going live.2
  capacity := (congrArg UndoLog.capacity (log_setState _ _)).trans sound.capacity
  counted := by
    rw [log_setState, instructionsRun_setState]
    exact sound.counted
  closed := (congrArg UndoLog.unfinished (log_setState _ _)).trans sound.closed

theorem terminate (sound : Sound settings simulator) (live : simulator.Live) (termination : Termination) :
    Sound settings (simulator.terminate termination) where
  chosen := (settings_terminate _ _).trans sound.chosen
  idle := by
    rw [state_terminate, program_terminate, ← sound.idle]
    exact iff_of_false (by decide) live.1
  terminated := by
    rw [state_terminate, termination_terminate]
    exact iff_of_true rfl rfl
  capacity := (congrArg UndoLog.capacity (log_terminate _ _)).trans sound.capacity
  counted := by
    rw [log_terminate, instructionsRun_terminate]
    exact sound.counted
  closed := (congrArg UndoLog.unfinished (log_terminate _ _)).trans sound.closed

theorem apply (sound : Sound settings simulator) (outside : Outside) (step : Step κ) :
    Sound settings (simulator.apply outside step) where
  chosen := sound.chosen
  idle := sound.idle
  terminated := sound.terminated
  capacity := (simulator.capacity_apply outside step).trans sound.capacity
  counted := by
    obtain ⟨-, size⟩ := simulator.log.commit_record sound.closed (simulator.machine.restoringAll step.assignments)
    calc
      (simulator.apply outside step).log.size ≤ simulator.log.size + 1 := size
      _ ≤ simulator.instructionsRun + 1 := Nat.succ_le_succ sound.counted
  closed := (simulator.log.commit_record sound.closed (simulator.machine.restoringAll step.assignments)).1

theorem advance [Console κ] (sound : Sound settings simulator) (live : simulator.Live) (outside : Outside) :
    Sound settings (simulator.advance outside).2 := by
  cases found : simulator.nextStep? outside with
  | none =>
    rw [advance_of_none found]
    obtain ⟨unfinished, size, capacity⟩ := simulator.log.abandon_start
    have abandoned : Sound settings { simulator with log := simulator.log.start.abandon } :=
      { sound with
        capacity := capacity.trans sound.capacity
        counted := size.symm ▸ sound.counted
        closed := unfinished }
    exact abandoned.terminate live .droppedOffBottom
  | some step =>
    rw [advance_of_some found]
    have applied := sound.apply outside step
    cases step.ending with
    | completed => exact applied
    | exited code => exact applied.terminate live (.exit code)
    | faulted report => exact applied.terminate live (.fault report)

theorem stepBack {after : Simulator κ} (sound : Sound settings simulator) (undone : simulator.stepBack = some after) :
    Sound settings after := by
  obtain ⟨group, rest, popped, restored, shorter⟩ := stepBack_eq_some undone
  obtain ⟨size, unfinished⟩ := UndoLog.size_of_pop popped
  have capacity := (UndoLog.undoable_pop popped).2
  have counted := sound.counted
  have kept := settings_stepBack undone
  have keeps := program_stepBack undone
  have idle := sound.idle
  have terminated := sound.terminated
  have undoneRun := instructionsRun_stepBack undone
  have rest : (after.state = .idle ↔ simulator.state = .idle) ∧
      (after.state = .terminated ↔ after.termination.isSome = true) := by
    simp only [Simulator.stepBack, Option.map_eq_some_iff] at undone
    obtain ⟨⟨machine, log⟩, -, rfl⟩ := undone
    dsimp only
    split
    next ended =>
      simp only [emit, state_setState, termination_setState]
      rw [show simulator.state = .terminated from ended]
      decide
    next => exact ⟨Iff.rfl, terminated⟩
  obtain ⟨sameIdle, sameEnd⟩ := rest
  constructor
  case chosen => exact kept.trans sound.chosen
  case idle => rw [sameIdle, keeps, idle]
  case terminated => exact sameEnd
  case capacity => rw [shorter, capacity, sound.capacity]
  case counted =>
    rw [shorter, undoneRun]
    omega
  case closed => rw [shorter, unfinished, sound.closed]
  case zero => exact Machine.get_zero _

theorem load (sound : Sound settings simulator) (program : Program) : Sound settings (simulator.load program) := by
  have log := log_load simulator program
  constructor
  case chosen => exact (settings_setState _ _).trans sound.chosen
  case idle =>
    have ready : (simulator.load program).state = .ready := state_setState _ _
    rw [ready]
    exact iff_of_false (by decide) (by simp [Simulator.load])
  case terminated =>
    have ready : (simulator.load program).state = .ready := state_setState _ _
    have cleared : (simulator.load program).termination = none := termination_setState _ _
    rw [ready, cleared]
    exact iff_of_false (by decide) (by decide)
  case capacity => rw [log, UndoLog.empty, sound.capacity]
  case counted =>
    rw [log]
    exact Nat.zero_le _
  case closed => rw [log, UndoLog.empty]
  case zero => exact Machine.get_zero _

theorem reset (sound : Sound settings simulator) : Sound settings simulator.reset := by
  unfold Simulator.reset
  cases found : simulator.program with
  | some program => exact sound.load program
  | none =>
    dsimp only
    constructor
    case chosen => exact (settings_setState _ _).trans sound.chosen
    case idle =>
      rw [state_setState, program_setState]
      exact iff_of_true rfl found
    case terminated =>
      have cleared : (simulator.restart (.blank simulator.settings)).termination = none := rfl
      rw [state_setState, termination_setState, cleared]
      exact iff_of_false (by decide) (by decide)
    case capacity => exact (congrArg UndoLog.capacity (log_setState _ _)).trans sound.capacity
    case counted =>
      rw [log_setState]
      exact Nat.zero_le _
    case closed => exact congrArg UndoLog.unfinished (log_setState _ _)
    case zero => exact Machine.get_zero _

end Sound

theorem settled_load (simulator : Simulator κ) (program : Program) : Settled (simulator.load program) where
  stopped := by
    have ready : (simulator.load program).state = .ready := state_setState _ _
    rw [ready]
    decide
  fresh _ := instructionsRun_setState _ _

theorem settled_reset (simulator : Simulator κ) : Settled simulator.reset := by
  unfold reset
  split
  · exact settled_load _ _
  · constructor
    case stopped =>
      rw [state_setState]
      decide
    case fresh => exact fun _ => instructionsRun_setState _ _

/-- A program that is paused or has ended is settled. -/
theorem settled_of_state (halted : simulator.state = .paused ∨ simulator.state = .terminated) : Settled simulator := by
  constructor
  case stopped => rcases halted with halted | halted <;> simp [halted]
  case fresh => rcases halted with halted | halted <;> simp [halted]

theorem settled_stepBack {after : Simulator κ} (settled : Settled simulator)
    (undone : simulator.stepBack = some after) : Settled after := by
  simp only [stepBack, Option.map_eq_some_iff] at undone
  obtain ⟨⟨machine, log⟩, -, rfl⟩ := undone
  dsimp only
  split
  · exact settled_of_state (.inl (state_setState _ _))
  · refine ⟨settled.stopped, fun ready => ?_⟩
    show simulator.instructionsRun - 1 = 0
    rw [settled.fresh ready]

variable [Console κ]

theorem kept_sound (settings : Settings) : Kept fun (simulator : Simulator κ) _ => Sound settings simulator where
  advance sound live outside := sound.advance live outside
  resume sound live := sound.setState live (by decide) (by decide)
  pause sound live := sound.setState live (by decide) (by decide)
  stop sound live := sound.terminate live .stopped
  aside sound _ _ _ _ _ := { sound with }

/-- If nothing can be executed, then nothing is. -/
theorem step_of_refused {error : RunError} (refused : simulator.runError? = some error) (outside : Outside) :
    simulator.step outside = (.error error, simulator) := by
  simp only [step, refused]

theorem runLimited_of_refused {error : RunError} (refused : simulator.runError? = some error) (outside : Outside)
    (limit : Nat) : simulator.runLimited outside limit = (.error error, simulator) := by
  simp only [runLimited, refused]

/-- After a step the program is paused or has ended. -/
theorem state_step (allowed : simulator.runError? = none) (outside : Outside) :
    (simulator.step outside).2.state = .paused ∨ (simulator.step outside).2.state = .terminated := by
  unfold step
  rw [allowed]
  dsimp only
  have ended {termination : Termination} := @state_of_termination _ κ _ { simulator with accesses := .empty } outside termination
  split
  next => exact .inl (state_setState _ _)
  next report outcome => exact .inr (ended outcome)
  next termination _ outcome => exact .inr (ended outcome)

/-- A run says that the program ended only if it did. -/
theorem state_runFrom (outside : Outside) (remaining executed : Nat) {termination : Termination}
    (ended : (runFrom outside remaining executed simulator).1 = .terminated termination) :
    (runFrom outside remaining executed simulator).2.state = .terminated := by
  induction remaining generalizing executed simulator with
  | zero => cases ended
  | succ remaining ih =>
    unfold runFrom at ended ⊢
    cases answer : simulator.checkpoint executed with
    | mk request checked =>
      rw [answer] at ended
      cases request with
      | some request =>
        cases request with
        | pause => cases ended
        | stop => exact state_terminate _ _
      | none =>
        dsimp only at ended ⊢
        split at ended
        · cases ended
        next goesOn =>
          rw [if_neg goesOn]
          have stops {termination : Termination} := @state_of_termination _ κ _ checked outside termination
          cases outcome : checked.advance outside with
          | mk found after =>
            rw [outcome] at ended stops
            cases found with
            | some found => exact stops rfl
            | none => exact ih (executed + 1) ended

/-- After a run the program is paused or has ended. -/
theorem state_runLimited (allowed : simulator.runError? = none) (outside : Outside) (limit : Nat) :
    (simulator.runLimited outside limit).2.state = .paused ∨
      (simulator.runLimited outside limit).2.state = .terminated := by
  unfold runLimited
  rw [allowed]
  have ended {termination : Termination} := @state_runFrom _ κ
    ({ simulator with accesses := .empty }.setState .running) _ outside limit 0 termination
  generalize runFrom outside limit 0 ({ simulator with accesses := .empty }.setState .running) = outcome at ended
  obtain ⟨reason, after⟩ := outcome
  dsimp only at ended ⊢
  unfold finish
  split
  next => exact .inr (ended rfl)
  next => exact .inr (ended rfl)
  next => exact .inl (state_setState _ _)

omit [Console κ] in
theorem load_of_assemble {after : Simulator κ} {tree : FileTree} {sources : List Source}
    (assembled : simulator.assemble tree sources = .ok after) : ∃ program, after = simulator.load program := by
  obtain ⟨program, -, rfl⟩ := map_eq_ok_iff.1 assembled
  exact ⟨program, rfl⟩

omit [Console κ] in
theorem load_of_assembleFile {after : Simulator κ} {tree : FileTree} {main : String}
    (assembled : simulator.assembleFile tree main = .ok after) : ∃ program, after = simulator.load program := by
  unfold assembleFile at assembled
  split at assembled
  · cases assembled
  · exact load_of_assemble assembled

/-- Every call keeps what holds at any time. -/
theorem Sound.commanded {refusal : Option Refusal} {after : Simulator κ} (sound : Sound settings simulator)
    (commanded : Commanded simulator refusal after) : Sound settings after := by
  cases commanded with
  | assemble tree sources assembled =>
    obtain ⟨program, rfl⟩ := load_of_assemble assembled
    exact sound.load program
  | assembleFile tree main assembled =>
    obtain ⟨program, rfl⟩ := load_of_assembleFile assembled
    exact sound.load program
  | load program => exact sound.load program
  | reset => exact sound.reset
  | step outside => exact @Kept.step _ κ _ _ (kept_sound settings) simulator [] sound outside
  | run outside fuel ended => exact @Kept.run _ κ _ _ (kept_sound settings) simulator [] sound outside fuel _ _ ended
  | runLimited outside limit => exact @Kept.runLimited _ κ _ _ (kept_sound settings) simulator [] sound outside limit
  | stepBack undone => exact sound.stepBack undone
  | setRegister register value =>
    exact { sound with zero := Machine.get_zero _ }
  | poke poked =>
    obtain ⟨memory, -, rfl⟩ := map_eq_ok_iff.1 poked
    exact { sound with }
  | notAssembled | fileNotAssembled | notUndone | notPoked => exact sound
  | breakpoints | receive | aside => exact { sound with }

/-- A call leaves the program paused, ended, just loaded, or as it was. -/
theorem Settled.commanded {refusal : Option Refusal} {after : Simulator κ} (settled : Settled simulator)
    (commanded : Commanded simulator refusal after) : Settled after := by
  cases commanded with
  | assemble tree sources assembled =>
    obtain ⟨program, rfl⟩ := load_of_assemble assembled
    exact settled_load _ _
  | assembleFile tree main assembled =>
    obtain ⟨program, rfl⟩ := load_of_assembleFile assembled
    exact settled_load _ _
  | load program => exact settled_load _ _
  | reset => exact settled_reset _
  | step outside =>
    cases allowed : simulator.runError? with
    | some error =>
      rw [step_of_refused allowed]
      exact settled
    | none => exact settled_of_state (state_step allowed outside)
  | run outside fuel ended =>
    have same := runLimited_of_run ended
    cases allowed : simulator.runError? with
    | some error =>
      rw [runLimited_of_refused allowed] at same
      cases same
      exact settled
    | none =>
      have halted := state_runLimited allowed outside fuel
      rw [same] at halted
      exact settled_of_state halted
  | runLimited outside limit =>
    cases allowed : simulator.runError? with
    | some error =>
      rw [runLimited_of_refused allowed]
      exact settled
    | none => exact settled_of_state (state_runLimited allowed outside limit)
  | stepBack undone => exact settled_stepBack settled undone
  | poke poked =>
    obtain ⟨memory, -, rfl⟩ := map_eq_ok_iff.1 poked
    exact { settled with }
  | notAssembled | fileNotAssembled | notUndone | notPoked => exact settled
  | setRegister | breakpoints | receive | aside => exact { settled with }

theorem run?_of_refused {error : RunError} (refused : simulator.runError? = some error) (outside : Outside)
    (fuel : Nat) : simulator.run? outside fuel = some (.error error, simulator) := by
  rw [run?, runLimited_of_refused refused]

omit [Console κ] in
/-- A program that is there and has not ended can be executed. -/
theorem runError?_of_live (live : simulator.Live) (settled : Settled simulator) : simulator.runError? = none := by
  obtain ⟨active, going⟩ := live
  unfold runError?
  cases state : simulator.state with
  | idle => exact absurd state active
  | running => exact absurd state settled.stopped
  | terminated => exact absurd state going
  | ready | paused => rfl

theorem refusal?_step (allowed : simulator.runError? = none) (outside : Outside) :
    refusal? (simulator.step outside).1 = none := by
  unfold step
  rw [allowed]
  dsimp only
  split <;> rfl

theorem refusal?_runLimited (allowed : simulator.runError? = none) (outside : Outside) (limit : Nat) :
    refusal? (simulator.runLimited outside limit).1 = none := by
  unfold runLimited finish
  rw [allowed]
  dsimp only
  split <;> rfl

theorem step_of_refusal {outside : Outside} (refused : (refusal? (simulator.step outside).1).isSome = true) :
    (simulator.step outside).2 = simulator := by
  cases allowed : simulator.runError? with
  | some error => rw [step_of_refused allowed]
  | none =>
    rw [refusal?_step allowed] at refused
    cases refused

theorem runLimited_of_refusal {outside : Outside} {limit : Nat}
    (refused : (refusal? (simulator.runLimited outside limit).1).isSome = true) :
    (simulator.runLimited outside limit).2 = simulator := by
  cases allowed : simulator.runError? with
  | some error => rw [runLimited_of_refused allowed]
  | none =>
    rw [refusal?_runLimited allowed] at refused
    cases refused

/-- A call that is refused changes nothing. -/
theorem eq_of_refused {refusal : Option Refusal} {after : Simulator κ} (commanded : Commanded simulator refusal after)
    (refused : refusal.isSome = true) : after = simulator := by
  cases commanded with
  | step outside => exact step_of_refusal refused
  | run outside fuel ended =>
    have same := runLimited_of_run ended
    have unchanged := @runLimited_of_refusal _ κ simulator _ outside fuel
    rw [same] at unchanged
    exact unchanged refused
  | runLimited outside limit => exact runLimited_of_refusal refused
  | notAssembled | fileNotAssembled | notUndone | notPoked => rfl
  | assemble | assembleFile | load | reset | stepBack | setRegister | poke | breakpoints | receive | aside => cases refused

omit [Console κ] in
theorem sound_create {tree : FileTree} {console : κ} {fresh : Simulator κ}
    (created : create settings tree console = .ok fresh) : Sound settings fresh ∧ Settled fresh := by
  unfold create at created
  split at created
  · cases created
  · cases created
    constructor
    · exact ⟨rfl, iff_of_true rfl rfl, iff_of_false nofun nofun, rfl, Nat.zero_le _, rfl, rfl⟩
    · exact ⟨nofun, nofun⟩

omit [Console κ] in
theorem Sound.controlled (sound : Sound settings simulator) (settled : Settled simulator) :
    Controlled settings simulator where
  toSound := sound
  toSettled := settled
  limited := by
    have bounded := simulator.log.size_le_capacity
    rwa [sound.capacity] at bounded

/-- Every call leads from a controlled simulator to a controlled one. -/
theorem Controlled.commanded {refusal : Option Refusal} {after : Simulator κ} (controlled : Controlled settings simulator)
    (commanded : Commanded simulator refusal after) : Controlled settings after :=
  (controlled.toSound.commanded commanded).controlled (controlled.toSettled.commanded commanded)

/--
After any calls on a new simulator it is controlled. A call that is refused changes nothing: a step or a run is refused
exactly if there is no program or it has ended, and a step back if the log is empty.
-/
theorem controlled_of_commands {tree : FileTree} {console : κ} {fresh : Simulator κ}
    (created : create settings tree console = .ok fresh)
    (commands : ReflTransGen (fun before after => ∃ refusal, Commanded before refusal after) fresh simulator) :
    Controlled settings simulator ∧
      (∀ refusal after, Commanded simulator (some refusal) after → after = simulator) ∧
      (simulator.state = .idle → ∀ outside limit,
        simulator.step outside = (.error .noProgram, simulator) ∧
          simulator.runLimited outside limit = (.error .noProgram, simulator) ∧
          simulator.run? outside limit = some (.error .noProgram, simulator)) ∧
      (simulator.state = .terminated → ∀ outside limit,
        simulator.step outside = (.error (.notRunnable .terminated), simulator) ∧
          simulator.runLimited outside limit = (.error (.notRunnable .terminated), simulator) ∧
          simulator.run? outside limit = some (.error (.notRunnable .terminated), simulator)) ∧
      (simulator.Live → ∀ outside limit,
        refusal? (simulator.step outside).1 = none ∧ refusal? (simulator.runLimited outside limit).1 = none) ∧
      (simulator.stepBack = none ↔ simulator.log.size = 0) := by
  have controlled : Controlled settings simulator := by
    induction commands with
    | refl =>
      obtain ⟨sound, settled⟩ := sound_create created
      exact sound.controlled settled
    | tail _ commanded ih =>
      obtain ⟨refusal, commanded⟩ := commanded
      exact ih.commanded commanded
  refine ⟨controlled, ?_, ?_, ?_, ?_, ?_⟩
  · exact fun refusal after commanded => eq_of_refused commanded rfl
  · intro idle outside limit
    have refused : simulator.runError? = some .noProgram := by rw [runError?, idle]
    exact ⟨step_of_refused refused outside, runLimited_of_refused refused outside limit,
      run?_of_refused refused outside limit⟩
  · intro ended outside limit
    have refused : simulator.runError? = some (.notRunnable .terminated) := by rw [runError?, ended]
    exact ⟨step_of_refused refused outside, runLimited_of_refused refused outside limit,
      run?_of_refused refused outside limit⟩
  · intro live outside limit
    have allowed := runError?_of_live live controlled.toSettled
    exact ⟨refusal?_step allowed outside, refusal?_runLimited allowed outside limit⟩
  · rw [stepBack_eq_none_iff, ← List.length_eq_zero_iff, length_history]

end Simulator

end Mips

namespace Mips.Simulator

open Relation (ReflTransGen)

/-- A program that ended because there was no instruction left can go on after a step back, and is not ready again. -/
theorem controlled_after_end :
    let program := Program.ofInstructions [(0x00400000, .nop)]
    let outside : Outside := ⟨fun _ => ⟨0, RandomStream.ofSeed⟩, fun _ _ => []⟩
    let fresh : Simulator SilentConsole := ⟨{}, .blank {}, .empty 2000, {}, .empty, .empty, {},
      none, none, .idle, none, 0, 0⟩
    let ended := (((fresh.load program).step outside).2.step outside).2
    create {} ⟨[], []⟩ {} = .ok fresh ∧ ended.state = .terminated ∧
      ∃ after, ended.stepBack = some after ∧ Controlled {} after ∧ after.state = .paused := by
  intro program outside fresh ended
  have created : create {} ⟨[], []⟩ {} = .ok fresh := rfl
  have undoable : ended.stepBack.isSome = true := by decide +kernel
  obtain ⟨after, undone⟩ := Option.isSome_iff_exists.1 undoable
  have paused : ended.stepBack.map Simulator.state = some .paused := by decide +kernel
  rw [undone] at paused
  have commands : ReflTransGen (fun before after => ∃ refusal, Commanded before refusal after) fresh after :=
    .tail (.tail (.tail (.single ⟨_, .load fresh program⟩) ⟨_, .step _ outside⟩) ⟨_, .step _ outside⟩)
      ⟨_, .stepBack undone⟩
  exact ⟨created, by decide +kernel, after, undone, (controlled_of_commands created commands).1,
    Option.some.inj paused⟩

end Mips.Simulator
