import Mips.Proofs.Execution.Changes
import Mips.Proofs.Loading.Arguments
import Mips.Proofs.Simulator.DelaySlot

/-!
Sessions: the calls that execute a program that was loaded, undo its instructions or begin again. Whatever the calls
are, the machine is one that single instructions lead to from the loaded one, and so are the machines that can be
undone to. Main statements: `onTrail_of_session` and `reset_of_session`.
-/

namespace Mips

open Relation (ReflTransGen)

variable [Generator]

/--
Executing an instruction in each of the earlier machines, the latest of which comes first, leads from the machine in
which a program was loaded to this one.
-/
inductive Machine.Trail (settings : Settings) (program : Program) : Machine → List Machine → Prop where
  | load : Trail settings program (.load settings program) []
  | step {machine : Machine} {past : List Machine} (trail : Trail settings program machine past)
      {κ : Type} [Console κ] (console : κ) (surroundings : Surroundings) {step : Step κ}
      (found : Step.ofMachine machine settings.delayedBranching console surroundings = some step) :
    Trail settings program (machine.assignAll step.assignments) (machine :: past)

/-- The latest of the earlier machines stands on the trail itself. -/
theorem Machine.Trail.tail {settings : Settings} {program : Program} {machine last : Machine} {past : List Machine}
    (trail : Trail settings program machine (last :: past)) : Trail settings program last past := by
  cases trail with
  | step trail => exact trail

/-- Memory is accessed by the rules of the settings all along the trail. -/
theorem Machine.Trail.rules {settings : Settings} {program : Program} {machine : Machine} {past : List Machine}
    (trail : Trail settings program machine past) :
    machine.memory.layout = settings.layout ∧ machine.memory.selfModifying = settings.selfModifyingCode := by
  induction trail with
  | load =>
    obtain ⟨layout, selfModifying, -⟩ := rules_load settings program
    exact ⟨layout, selfModifying⟩
  | @step machine past trail κ _ console surroundings step found ih =>
    obtain ⟨layout, selfModifying⟩ := machine.rules_assignAll step.assignments
    exact ⟨layout.trans ih.1, selfModifying.trans ih.2⟩

namespace Simulator

variable {κ : Type} [Console κ]

/--
One call of a session, with the machines before the instructions that were executed since the program was loaded,
without those that were undone and with the latest one first.
-/
inductive Called : Simulator κ × List Machine → Simulator κ × List Machine → Prop where
  | step (simulator : Simulator κ) (past : List Machine) (outside : Outside) :
    Called (simulator, past) ((simulator.step outside).2, simulator.executedByStep outside ++ past)
  | run {simulator after : Simulator κ} {answer : Except RunError StopReason} (past : List Machine)
      (outside : Outside) (fuel : Nat) (ended : simulator.run? outside fuel = some (answer, after)) :
    Called (simulator, past) (after, (simulator.executedByRun outside fuel).reverse ++ past)
  | runLimited (simulator : Simulator κ) (past : List Machine) (outside : Outside) (limit : Nat) :
    Called (simulator, past)
      ((simulator.runLimited outside limit).2, (simulator.executedByRun outside limit).reverse ++ past)
  | stepBack {simulator after : Simulator κ} (past : List Machine) (undone : simulator.stepBack = some after) :
    Called (simulator, past) (after, past.tail)
  | reset (simulator : Simulator κ) (past : List Machine) : Called (simulator, past) (simulator.reset, [])
  | aside (simulator : Simulator κ) (past : List Machine) (console : κ) (breakpoints : Breakpoints)
      (accesses : Accesses) (events : EventChannel) (outstanding : Option Request) :
    Called (simulator, past) ({ simulator with console, breakpoints, accesses, events, outstanding }, past)

/-- The simulator executes the program, and is where the machines before it lead. -/
structure OnTrail (settings : Settings) (program : Program) (simulator : Simulator κ) (past : List Machine) : Prop where
  chosen : simulator.settings = settings
  loaded : simulator.program = some program
  trail : Machine.Trail settings program simulator.machine past
  recent : simulator.history <+: past

variable {settings : Settings} {program : Program} {simulator : Simulator κ} {past : List Machine}

omit [Console κ] in
@[simp] theorem program_setState (simulator : Simulator κ) (state : ControlState) :
    (simulator.setState state).program = simulator.program := by
  unfold setState
  split <;> rfl

omit [Console κ] in
@[simp] theorem program_terminate (simulator : Simulator κ) (termination : Termination) :
    (simulator.terminate termination).program = simulator.program := by
  unfold terminate
  cases termination <;> exact program_setState _ _

theorem program_advance (simulator : Simulator κ) (outside : Outside) :
    (simulator.advance outside).2.program = simulator.program := by
  cases found : simulator.nextStep? outside with
  | none =>
    rw [advance_of_none found]
    exact program_terminate _ _
  | some step =>
    rw [advance_of_some found]
    cases step.ending with
    | completed => rfl
    | exited code | faulted report => exact program_terminate _ _

omit [Console κ] in
theorem program_stepBack {simulator after : Simulator κ} (undone : simulator.stepBack = some after) :
    after.program = simulator.program := by
  simp only [stepBack, Option.map_eq_some_iff] at undone
  obtain ⟨⟨machine, log⟩, _, rfl⟩ := undone
  dsimp only
  split
  · exact program_setState _ _
  · rfl

omit [Console κ] in
theorem OnTrail.of_sameUndo {before after : Simulator κ} (on : OnTrail settings program before past)
    (same : SameUndo after before) (kept : after.settings = before.settings)
    (keeps : after.program = before.program) : OnTrail settings program after past where
  chosen := kept.trans on.chosen
  loaded := keeps.trans on.loaded
  trail := same.1 ▸ on.trail
  recent := same.history_eq ▸ on.recent

/-- Executing an instruction is a step on the trail; if there is none, the simulator stays where it is. -/
theorem OnTrail.advance (on : OnTrail settings program simulator past) (outside : Outside) :
    OnTrail settings program (simulator.advance outside).2 (simulator.executing outside ++ past) := by
  have kept := (simulator.settings_advance outside).trans on.chosen
  have keeps := (simulator.program_advance outside).trans on.loaded
  cases found : simulator.nextStep? outside with
  | none =>
    rw [advance_of_none found] at kept keeps ⊢
    rw [executing, found]
    obtain ⟨machine, log⟩ :=
      sameUndo_terminate { simulator with log := simulator.log.start.abandon } .droppedOffBottom
    have undoable := (congrArg UndoLog.undoable log).trans simulator.log.undoable_start
    constructor
    case chosen => exact kept
    case loaded => exact keeps
    case trail =>
      dsimp only
      rw [machine_terminate]
      exact on.trail
    case recent =>
      rw [history, undoable, machine]
      exact on.recent
  | some step =>
    have same := sameUndo_advance found
    rw [executing, found]
    constructor
    case chosen => exact kept
    case loaded => exact keeps
    case trail =>
      rw [same.1]
      rw [nextStep?, on.chosen] at found
      exact on.trail.step simulator.console _ found
    case recent => exact (history_advance_of_some found).trans (List.cons_prefix_cons.2 ⟨rfl, on.recent⟩)

theorem kept_onTrail (settings : Settings) (program : Program) : Kept (OnTrail (κ := κ) settings program) where
  advance on _ outside := on.advance outside
  resume on _ := on.of_sameUndo (sameUndo_setState _ _) (settings_setState _ _) (program_setState _ _)
  pause on _ := on.of_sameUndo (sameUndo_setState _ _) (settings_setState _ _) (program_setState _ _)
  stop on _ := on.of_sameUndo (sameUndo_terminate _ _) (settings_terminate _ _) (program_terminate _ _)
  aside on _ _ _ _ _ := on.of_sameUndo ⟨rfl, rfl⟩ rfl rfl

omit [Console κ] in
/-- Undoing an instruction leads back on the trail. -/
theorem OnTrail.stepBack {after : Simulator κ} (on : OnTrail settings program simulator past)
    (undone : simulator.stepBack = some after) : OnTrail settings program after past.tail := by
  obtain ⟨popped, _⟩ := history_of_stepBack undone
  have recent := on.recent
  rw [popped] at recent
  cases past with
  | nil => exact absurd (List.prefix_nil.1 recent) (by simp)
  | cons last earlier =>
    obtain ⟨same, rest⟩ := List.cons_prefix_cons.1 recent
    exact ⟨(settings_stepBack undone).trans on.chosen, (program_stepBack undone).trans on.loaded,
      same ▸ on.trail.tail, rest⟩

omit [Console κ] in
theorem onTrail_load (simulator : Simulator κ) (program : Program) :
    OnTrail simulator.settings program (simulator.load program) [] where
  chosen := settings_setState _ _
  loaded := rfl
  trail := by
    have loaded : (simulator.load program).machine = .load simulator.settings program := machine_setState _ _
    exact loaded ▸ .load
  recent := by simp [history, log_load, Machine.unwound]

omit [Console κ] in
theorem OnTrail.reset_eq (on : OnTrail settings program simulator past) : simulator.reset = simulator.load program := by
  rw [Simulator.reset, on.loaded]

/-- Every call of a session leads on along the trail, or back, or to where it began. -/
theorem OnTrail.called {before after : Simulator κ × List Machine} (on : OnTrail settings program before.1 before.2)
    (called : Called before after) : OnTrail settings program after.1 after.2 := by
  cases called with
  | step simulator past outside => exact (kept_onTrail settings program).step on outside
  | run past outside fuel ended => exact (kept_onTrail settings program).run on ended
  | runLimited simulator past outside limit => exact (kept_onTrail settings program).runLimited on outside limit
  | stepBack past undone => exact on.stepBack undone
  | reset simulator past =>
    have again := onTrail_load simulator program
    rw [on.chosen] at again
    rwa [on.reset_eq]
  | aside simulator past console breakpoints accesses events outstanding =>
    exact (kept_onTrail settings program).aside on _ _ _ _ _

/-- After any calls on a loaded program the machine stands on the trail. -/
theorem onTrail_of_session {start : Simulator κ} {program : Program}
    (session : ReflTransGen Called (start.load program, []) (simulator, past)) :
    OnTrail start.settings program simulator past := by
  generalize reached : (simulator, past) = last at session
  have on : OnTrail start.settings program last.1 last.2 := by
    clear reached
    induction session with
    | refl => exact start.onTrail_load program
    | tail _ called ih => exact ih.called called
  rwa [← reached] at on

omit [Console κ] in
theorem settings_of_create {tree : FileTree} {console : κ} {fresh : Simulator κ}
    (created : create settings tree console = .ok fresh) : settings.Valid tree ∧ fresh.settings = settings := by
  unfold create at created
  split at created
  · cases created
  next accepted =>
    cases created
    exact ⟨accepted, rfl⟩

/-- A reset leads to the machine that was loaded at first, after any calls. -/
theorem reset_of_session {start : Simulator κ} {program : Program}
    (session : ReflTransGen Called (start.load program, []) (simulator, past)) :
    simulator.reset.machine = (start.load program).machine := by
  have on := onTrail_of_session session
  have first : (start.load program).machine = .load start.settings program := machine_setState _ _
  have again : (simulator.load program).machine = .load simulator.settings program := machine_setState _ _
  rw [on.reset_eq, again, on.chosen, first]

end Simulator

end Mips
