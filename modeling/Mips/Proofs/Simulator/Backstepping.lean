import Mathlib.Logic.Relation
import Mips.Simulator.Run

/-!
Stepping back is the inverse of stepping. Beside a simulator a reference stack is kept of the whole machines
before the instructions that were executed, of which only the last so many are held. Main statement:
`stepBack_map_machine`, by which undoing leads to the top of that stack, after any calls.
-/

namespace Mips

open Relation (ReflTransGen)

variable [Generator]

/-- The machines that undoing groups of assignments leads to, the newest group first. -/
def Machine.unwound (machine : Machine) : List (List Assignment) → List Machine
  | [] => []
  | group :: rest => machine.restoreAll group :: (machine.restoreAll group).unwound rest

namespace Machine

theorem length_unwound (machine : Machine) (groups : List (List Assignment)) :
    (machine.unwound groups).length = groups.length := by
  induction groups generalizing machine with
  | nil => rfl
  | cons group rest ih => simp [unwound, ih]

theorem unwound_take (machine : Machine) (groups : List (List Assignment)) (count : Nat) :
    machine.unwound (groups.take count) = (machine.unwound groups).take count := by
  induction groups generalizing machine count with
  | nil => simp [unwound]
  | cons group rest ih =>
    cases count with
    | zero => simp [unwound]
    | succ count => simp [unwound, ih]

/-- The group of an instruction leads back to the machine before it, and then to where that one led back to. -/
theorem unwound_assignAll (machine : Machine) (assignments : List Assignment)
    (groups : List (List Assignment)) :
    (machine.assignAll assignments).unwound (machine.restoringAll assignments :: groups) =
      machine :: machine.unwound groups := by
  simp only [unwound, machine.restoreAll_assignAll]

end Machine

namespace UndoLog

/-- What an instruction recorded becomes the first group that can be undone. -/
theorem undoable_commit_record {log : UndoLog} (enabled : log.isEnabled = true)
    (entries : List Assignment) :
    ((log.start.record entries).commit).undoable = (entries :: log.undoable).take log.capacity := by
  simp only [start, if_pos enabled, record, commit, Option.map_some, List.nil_append]
  rw [undoable_push]
  rfl

@[simp] theorem capacity_push (log : UndoLog) (group : List Assignment) :
    (log.push group).capacity = log.capacity := by
  unfold push
  split
  · rfl
  · split <;> rfl

@[simp] theorem capacity_commit (log : UndoLog) : log.commit.capacity = log.capacity := by
  unfold commit
  split
  · exact capacity_push _ _
  · rfl

@[simp] theorem capacity_start (log : UndoLog) : log.start.capacity = log.capacity := by
  unfold start
  split <;> rfl

@[simp] theorem undoable_start (log : UndoLog) : log.start.undoable = log.undoable := by
  unfold start
  split <;> rfl

end UndoLog

namespace Simulator

variable {κ : Type}

/-- The machines that stepping back again and again leads to. -/
def history (simulator : Simulator κ) : List Machine :=
  simulator.machine.unwound simulator.log.undoable

theorem length_history (simulator : Simulator κ) : simulator.history.length = simulator.log.size := by
  simp [history, Machine.length_unwound]

/-- Two simulators that undo alike: they have the same machine and the same log. -/
def SameUndo (first second : Simulator κ) : Prop :=
  first.machine = second.machine ∧ first.log = second.log

theorem sameUndo_setState (simulator : Simulator κ) (state : ControlState) :
    SameUndo (simulator.setState state) simulator :=
  ⟨machine_setState _ _, log_setState _ _⟩

theorem sameUndo_terminate (simulator : Simulator κ) (termination : Termination) :
    SameUndo (simulator.terminate termination) simulator :=
  ⟨machine_terminate _ _, log_terminate _ _⟩

theorem SameUndo.history_eq {first second : Simulator κ} (same : SameUndo first second) :
    first.history = second.history := by
  simp only [history, same.1, same.2]

theorem SameUndo.trans {first second third : Simulator κ} (before : SameUndo first second)
    (after : SameUndo second third) : SameUndo first third :=
  ⟨before.1.trans after.1, before.2.trans after.2⟩

theorem sameUndo_checkpoint (simulator : Simulator κ) (executed : Nat) :
    SameUndo (simulator.checkpoint executed).2 simulator := by
  unfold checkpoint
  split <;> exact ⟨rfl, rfl⟩

theorem sameUndo_finish (simulator : Simulator κ) (reason : StopReason) :
    SameUndo (finish reason simulator).2 simulator := by
  unfold finish
  split
  · exact ⟨rfl, rfl⟩
  · exact ⟨rfl, rfl⟩
  · exact sameUndo_setState _ _

/-- A reference stack of so many machines after more machines were pushed one after another. -/
def remember (limit : Nat) (past : List Machine) (machines : List Machine) : List Machine :=
  machines.foldl (fun past machine => (machine :: past).take limit) past

/-- An executed instruction is remembered by the machine before it. -/
theorem history_apply {simulator : Simulator κ} (enabled : simulator.log.isEnabled = true)
    (outside : Outside) (step : Step κ) :
    (simulator.apply outside step).history =
      (simulator.machine :: simulator.history).take simulator.log.capacity := by
  have recorded := UndoLog.undoable_commit_record enabled
    (simulator.machine.restoringAll step.assignments)
  calc
    _ = (simulator.machine.assignAll step.assignments).unwound
        ((simulator.machine.restoringAll step.assignments :: simulator.log.undoable).take
          simulator.log.capacity) := by rw [← recorded]; rfl
    _ = _ := by rw [Machine.unwound_take, Machine.unwound_assignAll]; rfl

theorem capacity_apply (simulator : Simulator κ) (outside : Outside) (step : Step κ) :
    (simulator.apply outside step).log.capacity = simulator.log.capacity := by
  simp [apply, emit, UndoLog.record]

variable [Console κ]

/-- The machine before the next instruction, if there is one to execute. -/
def executing (simulator : Simulator κ) (outside : Outside) : List Machine :=
  (simulator.nextStep? outside).toList.map fun _ => simulator.machine

/-- Executing remembers the machine, unless there is no instruction to execute. -/
theorem history_advance {simulator : Simulator κ} (enabled : simulator.log.isEnabled = true)
    (outside : Outside) :
    (simulator.advance outside).2.history =
        remember simulator.log.capacity simulator.history (simulator.executing outside) ∧
      (simulator.advance outside).2.log.capacity = simulator.log.capacity := by
  unfold executing
  cases found : simulator.nextStep? outside with
  | none =>
    rw [advance_of_none found]
    have same := sameUndo_terminate
      { simulator with log := simulator.log.start.abandon } .droppedOffBottom
    have kept : ({ simulator with log := simulator.log.start.abandon } : Simulator κ).history =
        simulator.history := congrArg simulator.machine.unwound simulator.log.undoable_start
    refine ⟨same.history_eq.trans kept, ?_⟩
    rw [same.2]
    exact simulator.log.capacity_start
  | some step =>
    rw [advance_of_some found]
    have pushed := simulator.history_apply enabled outside step
    have bound := simulator.capacity_apply outside step
    cases step.ending with
    | completed => exact ⟨pushed, bound⟩
    | exited code =>
      have same := sameUndo_terminate (simulator.apply outside step) (.exit code)
      exact ⟨same.history_eq.trans pushed, same.2 ▸ bound⟩
    | faulted report =>
      have same := sameUndo_terminate (simulator.apply outside step) (.fault report)
      exact ⟨same.history_eq.trans pushed, same.2 ▸ bound⟩

omit [Console κ] in
theorem instructionsRun_checkpoint (simulator : Simulator κ) (executed : Nat) :
    (simulator.checkpoint executed).2.instructionsRun = simulator.instructionsRun := by
  unfold checkpoint
  split <;> rfl

theorem instructionsRun_advance (simulator : Simulator κ) (outside : Outside) :
    (simulator.advance outside).2.instructionsRun =
      simulator.instructionsRun + (simulator.executing outside).length := by
  unfold executing
  cases found : simulator.nextStep? outside with
  | none =>
    rw [advance_of_none found]
    exact instructionsRun_terminate _ _
  | some step =>
    rw [advance_of_some found]
    have counted : (simulator.apply outside step).instructionsRun = simulator.instructionsRun + 1 := rfl
    cases step.ending <;> simp [counted]

/-- The machines before the instructions that a run executes, in their order. -/
def executedFrom (outside : Outside) : (remaining executed : Nat) → Simulator κ → List Machine
  | 0, _, _ => []
  | remaining + 1, executed, simulator =>
    match simulator.checkpoint executed with
    | (some _, _) => []
    | (none, simulator) =>
      if 0 < executed && simulator.breakpoints.check simulator.machine.pc then []
      else
        simulator.executing outside ++
          match simulator.advance outside with
          | (none, after) => executedFrom outside remaining (executed + 1) after
          | (some _, _) => []

theorem isEnabled_of_capacity_eq {first second : UndoLog} (same : first.capacity = second.capacity)
    (enabled : second.isEnabled = true) : first.isEnabled = true := by
  simpa only [UndoLog.isEnabled, same] using enabled

/-- A run remembers the machine before each of its instructions. -/
theorem history_runFrom {simulator : Simulator κ} (enabled : simulator.log.isEnabled = true)
    (outside : Outside) (remaining executed : Nat) :
    (runFrom outside remaining executed simulator).2.history =
        remember simulator.log.capacity simulator.history
          (executedFrom outside remaining executed simulator) ∧
      (runFrom outside remaining executed simulator).2.log.capacity = simulator.log.capacity := by
  -- By induction on what the run may still execute; a look for requests keeps both the machine and the log.
  induction remaining generalizing executed simulator with
  | zero => exact ⟨rfl, rfl⟩
  | succ remaining ih =>
    have polled := simulator.sameUndo_checkpoint executed
    unfold runFrom executedFrom
    cases answer : simulator.checkpoint executed with
    | mk request checked =>
      rw [answer] at polled
      cases request with
      | some request =>
        cases request with
        | pause => exact ⟨polled.history_eq, congrArg UndoLog.capacity polled.2⟩
        | stop =>
          have same := (sameUndo_terminate checked .stopped).trans polled
          exact ⟨same.history_eq, congrArg UndoLog.capacity same.2⟩
      | none =>
        have checkedEnabled : checked.log.isEnabled = true := polled.2 ▸ enabled
        dsimp only
        split
        · exact ⟨polled.history_eq, congrArg UndoLog.capacity polled.2⟩
        · have advanced := history_advance checkedEnabled outside
          rw [polled.history_eq, polled.2] at advanced
          cases outcome : checked.advance outside with
          | mk termination after =>
            rw [outcome] at advanced
            cases termination with
            | some termination => simpa using advanced
            | none =>
              have later := ih (isEnabled_of_capacity_eq advanced.2 enabled) (executed + 1)
              rw [advanced.1, advanced.2] at later
              refine ⟨later.1.trans ?_, later.2⟩
              simp [remember, List.foldl_append]

/-- The machines before the instructions that a single step executes: none if it cannot execute. -/
def executedByStep (simulator : Simulator κ) (outside : Outside) : List Machine :=
  if simulator.runError?.isNone then simulator.executing outside else []

/-- The machines before the instructions that a run of at most so many executes. -/
def executedByRun (simulator : Simulator κ) (outside : Outside) (allowed : Nat) : List Machine :=
  if simulator.runError?.isNone then
    executedFrom outside allowed 0 ({ simulator with accesses := .empty }.setState .running)
  else []

theorem history_step {simulator : Simulator κ} (enabled : simulator.log.isEnabled = true)
    (outside : Outside) :
    (simulator.step outside).2.history =
        remember simulator.log.capacity simulator.history (simulator.executedByStep outside) ∧
      (simulator.step outside).2.log.capacity = simulator.log.capacity := by
  unfold step executedByStep
  cases refused : simulator.runError? with
  | some error => exact ⟨rfl, rfl⟩
  | none =>
    have ready : ({ simulator with accesses := .empty } : Simulator κ).log.isEnabled = true := enabled
    have advanced := history_advance ready outside
    cases outcome : ({ simulator with accesses := .empty } : Simulator κ).advance outside with
    | mk termination after =>
      rw [outcome] at advanced
      have paused := sameUndo_setState after .paused
      dsimp only [Option.isNone_none, if_true]
      split
      · exact ⟨paused.history_eq.trans advanced.1, paused.2 ▸ advanced.2⟩
      · exact advanced
      · exact advanced

/-- The reference stack misses no instruction of a run: each one that is counted is one that is remembered. -/
theorem instructionsRun_runFrom (simulator : Simulator κ) (outside : Outside) (remaining executed : Nat) :
    (runFrom outside remaining executed simulator).2.instructionsRun =
      simulator.instructionsRun + (executedFrom outside remaining executed simulator).length := by
  induction remaining generalizing executed simulator with
  | zero => rfl
  | succ remaining ih =>
    have polled := simulator.instructionsRun_checkpoint executed
    unfold runFrom executedFrom
    cases answer : simulator.checkpoint executed with
    | mk request checked =>
      rw [answer] at polled
      cases request with
      | some request =>
        cases request with
        | pause => exact polled
        | stop => exact (checked.instructionsRun_terminate .stopped).trans polled
      | none =>
        dsimp only
        split
        · exact polled
        · have advanced := checked.instructionsRun_advance outside
          cases outcome : checked.advance outside with
          | mk termination after =>
            rw [outcome] at advanced
            cases termination with
            | some termination =>
              dsimp only at polled advanced ⊢
              rw [advanced, polled, List.append_nil]
            | none =>
              dsimp only at polled advanced ⊢
              rw [ih, advanced, polled, List.length_append, Nat.add_assoc]

theorem history_runLimited {simulator : Simulator κ} (enabled : simulator.log.isEnabled = true)
    (outside : Outside) (allowed : Nat) :
    (simulator.runLimited outside allowed).2.history =
        remember simulator.log.capacity simulator.history (simulator.executedByRun outside allowed) ∧
      (simulator.runLimited outside allowed).2.log.capacity = simulator.log.capacity := by
  unfold runLimited executedByRun
  cases refused : simulator.runError? with
  | some error => exact ⟨rfl, rfl⟩
  | none =>
    have begun : SameUndo ({ simulator with accesses := .empty }.setState .running) simulator :=
      sameUndo_setState _ _
    have ran := history_runFrom (begun.2 ▸ enabled) outside allowed 0
    rw [begun.history_eq, begun.2] at ran
    have finished := sameUndo_finish
      (runFrom outside allowed 0 ({ simulator with accesses := .empty }.setState .running)).2
      (runFrom outside allowed 0 ({ simulator with accesses := .empty }.setState .running)).1
    exact ⟨finished.history_eq.trans ran.1, (congrArg UndoLog.capacity finished.2).trans ran.2⟩

/-- A run that ends without a limit is one that would end just so with some limit. -/
theorem runLimited_of_run {simulator after : Simulator κ} {outside : Outside} {fuel : Nat}
    {answer : Except RunError StopReason} (ended : simulator.run? outside fuel = some (answer, after)) :
    simulator.runLimited outside fuel = (answer, after) := by
  unfold run? at ended
  split at ended
  · cases ended
  · exact Option.some.inj ended

omit [Console κ] in
/-- Stepping back undoes the newest group of the log, and nothing else of what can be undone. -/
theorem stepBack_eq_some {simulator after : Simulator κ} (undone : simulator.stepBack = some after) :
    ∃ group rest, simulator.log.pop? = some (group, rest) ∧
      after.machine = simulator.machine.restoreAll group ∧ after.log = rest := by
  simp only [stepBack, UndoLog.stepBack, Option.map_map, Option.map_eq_some_iff] at undone
  obtain ⟨⟨group, rest⟩, popped, rfl⟩ := undone
  refine ⟨group, rest, popped, ?_⟩
  simp only [Function.comp_apply, emit]
  split
  · exact sameUndo_setState _ _
  · exact ⟨rfl, rfl⟩

omit [Console κ] in
theorem instructionsRun_stepBack {simulator after : Simulator κ} (undone : simulator.stepBack = some after) :
    after.instructionsRun = simulator.instructionsRun - 1 := by
  simp only [stepBack, Option.map_eq_some_iff] at undone
  obtain ⟨⟨machine, log⟩, -, rfl⟩ := undone
  dsimp only [emit]
  split
  next => exact instructionsRun_setState _ _
  next => rfl

omit [Console κ] in
/-- Stepping back leads to the latest machine of the history, and leaves the others. -/
theorem history_of_stepBack {simulator after : Simulator κ} (undone : simulator.stepBack = some after) :
    simulator.history = after.machine :: after.history ∧
      after.log.capacity = simulator.log.capacity := by
  obtain ⟨group, rest, popped, restored, shorter⟩ := stepBack_eq_some undone
  obtain ⟨first, bound⟩ := UndoLog.undoable_pop popped
  refine ⟨?_, shorter ▸ bound⟩
  simp only [history, first, restored, shorter, Machine.unwound]

omit [Console κ] in
/-- There is nothing to undo exactly if the history is empty. -/
theorem stepBack_eq_none_iff {simulator : Simulator κ} :
    simulator.stepBack = none ↔ simulator.history = [] := by
  rw [stepBack, UndoLog.stepBack, Option.map_eq_none_iff, Option.map_eq_none_iff,
    UndoLog.pop?_eq_none_iff, history]
  cases simulator.log.undoable <;> simp [Machine.unwound]

/--
One call with its effect on the reference stack beside the simulator. A run without a limit is one that ends
within some number of instructions. Between calls anything may change but the machine and its log.
-/
inductive Recorded (outside : Outside) (limit : Nat) :
    Simulator κ × List Machine → Simulator κ × List Machine → Prop where
  | step (simulator : Simulator κ) (past : List Machine) :
    Recorded outside limit (simulator, past)
      ((simulator.step outside).2, remember limit past (simulator.executedByStep outside))
  | run {simulator after : Simulator κ} {answer : Except RunError StopReason} (past : List Machine)
      (fuel : Nat) (ended : simulator.run? outside fuel = some (answer, after)) :
    Recorded outside limit (simulator, past)
      (after, remember limit past (simulator.executedByRun outside fuel))
  | runLimited (simulator : Simulator κ) (past : List Machine) (allowed : Nat) :
    Recorded outside limit (simulator, past)
      ((simulator.runLimited outside allowed).2,
        remember limit past (simulator.executedByRun outside allowed))
  | stepBack (simulator : Simulator κ) (past : List Machine) :
    Recorded outside limit (simulator, past) (simulator.stepBack.getD simulator, past.tail)
  | aside {simulator after : Simulator κ} (past : List Machine) (same : SameUndo after simulator) :
    Recorded outside limit (simulator, past) (after, past)

/-- The reference stack is what undoing leads to. -/
def Faithful (limit : Nat) (recorded : Simulator κ × List Machine) : Prop :=
  recorded.1.history = recorded.2 ∧ recorded.1.log.capacity = limit

/-- One call keeps the reference stack faithful. -/
theorem faithful_of_recorded {outside : Outside} {limit : Nat} (positive : 0 < limit)
    {before after : Simulator κ × List Machine} (recorded : Recorded outside limit before after)
    (faithful : Faithful limit before) : Faithful limit after := by
  obtain ⟨known, bound⟩ := faithful
  have enabled : before.1.log.isEnabled = true := by simp [UndoLog.isEnabled, bound, positive]
  cases recorded with
  | step simulator past =>
    have stepped := history_step enabled outside
    rw [known, bound] at stepped
    exact stepped
  | @run simulator after answer past fuel ended =>
    have ran := history_runLimited enabled outside fuel
    rw [known, bound] at ran
    rw [runLimited_of_run ended] at ran
    exact ran
  | runLimited simulator past allowed =>
    have ran := history_runLimited enabled outside allowed
    rw [known, bound] at ran
    exact ran
  | stepBack simulator past =>
    cases undone : simulator.stepBack with
    | none =>
      have empty := known.symm.trans (stepBack_eq_none_iff.1 undone)
      simp only [Option.getD_none]
      exact ⟨known.trans (by simp [show past = [] from empty]), bound⟩
    | some after =>
      have popped := history_of_stepBack undone
      have shorter : past = after.machine :: after.history := known.symm.trans popped.1
      exact ⟨by simp [shorter], popped.2.trans bound⟩
  | aside past same => exact ⟨same.history_eq.trans known, (congrArg UndoLog.capacity same.2).trans bound⟩

omit [Console κ] in
theorem capacity_create {settings : Settings} {tree : FileTree} {console : κ} {fresh : Simulator κ}
    (created : create settings tree console = .ok fresh) :
    fresh.log.capacity = undoCapacity settings := by
  unfold create at created
  split at created
  · cases created
  · cases created
    rfl

omit [Console κ] in
theorem log_load (simulator : Simulator κ) (program : Program) :
    (simulator.load program).log = .empty simulator.log.capacity :=
  (sameUndo_setState (simulator.restart (.load simulator.settings program)) .ready).2

omit [Console κ] in
/-- Nothing can be undone of a program that was just loaded. -/
theorem faithful_load {simulator : Simulator κ} {limit : Nat} (program : Program)
    (bound : simulator.log.capacity = limit) : Faithful limit (simulator.load program, []) := by
  refine ⟨?_, ?_⟩
  · simp only [history, log_load, UndoLog.undoable_empty, Machine.unwound]
  · simp only [log_load, UndoLog.empty, bound]

/--
After any calls on a loaded program a step back is possible exactly if the reference stack holds a machine, it
leads to the machine at the top of that stack, and as many steps back are counted as the stack holds machines.
-/
theorem stepBack_map_machine {settings : Settings} {tree : FileTree} {console : κ}
    {fresh simulator : Simulator κ} {program : Program} {outside : Outside} {past : List Machine}
    (created : create settings tree console = .ok fresh)
    (backstepping : settings.backstepping = true) (positive : 0 < settings.backstepLimit)
    (reached : ReflTransGen (Recorded outside settings.backstepLimit) (fresh.load program, [])
      (simulator, past)) :
    (simulator.stepBack.isSome = true ↔ past ≠ []) ∧
      simulator.stepBack.map Simulator.machine = past.head? ∧
      simulator.log.size = past.length := by
  have loaded : Faithful settings.backstepLimit (fresh.load program, []) := by
    have capacity := capacity_create created
    rw [undoCapacity, if_pos backstepping] at capacity
    exact faithful_load program capacity
  -- From here on only the invariant counts: what undoing leads to is the reference stack.
  have faithful : Faithful settings.backstepLimit (simulator, past) := by
    generalize (simulator, past) = last at reached
    induction reached with
    | refl => exact loaded
    | tail _ recorded ih => exact faithful_of_recorded positive recorded ih
  have known : simulator.history = past := faithful.1
  refine ⟨?_, ?_, ?_⟩
  · rw [Option.isSome_iff_ne_none, Ne, stepBack_eq_none_iff, known]
  · cases undone : simulator.stepBack with
    | none => simp [← known, stepBack_eq_none_iff.1 undone]
    | some after => simp [← known, (history_of_stepBack undone).1]
  · rw [← known, length_history]

end Simulator

end Mips

namespace Mips.Simulator

open Relation (ReflTransGen)

/-- A word that a store made present is absent again after a step back. -/
theorem stepBack_after_store :
    let store : ProgramStatement := ⟨0x00400000, .ofImmediate .sw .gp .ra 0, 0, 1, none⟩
    let statements : Std.ExtTreeMap Address ProgramStatement := ∅
    let program : Program := ⟨statements.insert store.address store, ∅, .empty, store.address, [], []⟩
    let outside : Outside := ⟨fun _ => ⟨0, RandomStream.ofSeed⟩, fun _ _ => []⟩
    let fresh : Simulator SilentConsole := ⟨{}, .blank {}, .empty 2000, {}, .empty, .empty, {},
      none, none, .idle, none, 0, 0⟩
    create {} ⟨[], []⟩ {} = .ok fresh ∧
      ((fresh.load program).step outside).2.stepBack.map Simulator.machine =
        some (fresh.load program).machine := by
  intro store statements program outside fresh
  have created : create {} ⟨[], []⟩ {} = .ok fresh := rfl
  have executes : (fresh.load program).executedByStep outside = [(fresh.load program).machine] := by
    have found : ((fresh.load program).nextStep? outside).isSome = true := by decide +kernel
    obtain ⟨step, same⟩ := Option.isSome_iff_exists.1 found
    have ready : (fresh.load program).runError? = none := rfl
    simp [executedByStep, executing, ready, same]
  have reached : ReflTransGen (Recorded outside 2000) (fresh.load program, [])
      (((fresh.load program).step outside).2, [(fresh.load program).machine]) := by
    have called : Recorded outside 2000 (fresh.load program, []) _ := .step (fresh.load program) []
    rw [executes] at called
    exact .single called
  exact ⟨created, (stepBack_map_machine created rfl (by decide) reached).2.1⟩

end Mips.Simulator
