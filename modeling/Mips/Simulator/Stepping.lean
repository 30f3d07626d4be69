import Mips.Execution
import Mips.Simulator

/-!
Executing single instructions in a simulator, and undoing them.
-/

namespace Mips.Simulator

variable [Generator] {κ : Type}

def runError? (simulator : Simulator κ) : Option RunError :=
  match simulator.state with
  | .idle => some .noProgram
  | .ready | .paused => none
  | state => some (.notRunnable state)

def terminate (simulator : Simulator κ) (termination : Termination) : Simulator κ :=
  let told := match termination with
    | .fault report => simulator.emit (.fault report)
    | _ => simulator
  ({ told with termination := some termination }.setState .terminated).emit (.terminated termination)

@[simp] theorem machine_terminate (simulator : Simulator κ) (termination : Termination) :
    (simulator.terminate termination).machine = simulator.machine := by
  unfold terminate
  cases termination <;> exact machine_setState _ _

@[simp] theorem log_terminate (simulator : Simulator κ) (termination : Termination) :
    (simulator.terminate termination).log = simulator.log := by
  unfold terminate
  cases termination <;> exact log_setState _ _

@[simp] theorem instructionsRun_terminate (simulator : Simulator κ) (termination : Termination) :
    (simulator.terminate termination).instructionsRun = simulator.instructionsRun := by
  unfold terminate
  cases termination <;> exact instructionsRun_setState _ _

/-- The simulator after what a step did to its machine, with the step as one group of its log. -/
def apply (simulator : Simulator κ) (outside : Outside) (step : Step κ) : Simulator κ :=
  let machine := simulator.machine
  { simulator with
    machine := machine.assignAll step.assignments
    log := (simulator.log.start.record (machine.restoringAll step.assignments)).commit
    console := step.console
    accesses := match step.access with
      | some (address, set) => simulator.accesses.add address set
      | none => simulator.accesses
    outstanding :=
      (outside.requests simulator.moment step.printed).foldl Request.after simulator.outstanding
    instructionsRun := simulator.instructionsRun + 1
    moment := simulator.moment + 1 }.emit (.stepped machine.pc)

variable [Console κ]

/-- The next step of the machine, if there is an instruction to execute. -/
def nextStep? (simulator : Simulator κ) (outside : Outside) : Option (Step κ) :=
  Step.ofMachine simulator.machine simulator.settings.delayedBranching simulator.console
    (outside.surroundings simulator.moment)

/-- Executes one instruction; the program may end with it, or because there is none. -/
def advance (simulator : Simulator κ) (outside : Outside) : Option Termination × Simulator κ :=
  let ended := fun (simulator : Simulator κ) termination =>
    (some termination, simulator.terminate termination)
  match simulator.nextStep? outside with
  | none => ended { simulator with log := simulator.log.start.abandon } .droppedOffBottom
  | some step =>
    let after := simulator.apply outside step
    match step.ending with
    | .completed => (none, after)
    | .exited code => ended after (.exit code)
    | .faulted report => ended after (.fault report)

theorem advance_of_none {simulator : Simulator κ} {outside : Outside}
    (ended : simulator.nextStep? outside = none) :
    simulator.advance outside =
      (some .droppedOffBottom,
        { simulator with log := simulator.log.start.abandon }.terminate .droppedOffBottom) := by
  simp only [advance, ended]

theorem advance_of_some {simulator : Simulator κ} {outside : Outside} {step : Step κ}
    (found : simulator.nextStep? outside = some step) :
    simulator.advance outside =
      match step.ending with
      | .completed => (none, simulator.apply outside step)
      | .exited code => (some (.exit code), (simulator.apply outside step).terminate (.exit code))
      | .faulted report => (some (.fault report), (simulator.apply outside step).terminate (.fault report)) := by
  simp only [advance, found]

/-- Executes one instruction and tells the state after it, or why there is none. -/
def step (simulator : Simulator κ) (outside : Outside) :
    Except RunError ControlState × Simulator κ :=
  match simulator.runError? with
  | some error => (.error error, simulator)
  | none =>
    let (termination, after) := { simulator with accesses := .empty }.advance outside
    match termination with
    | none => (.ok .paused, after.setState .paused)
    | some (.fault report) => (.error (.fault report), after)
    | some _ => (.ok after.state, after)

omit [Console κ] in
/-- The simulator after undoing the last instruction that was executed, if there is one. -/
def stepBack (simulator : Simulator κ) : Option (Simulator κ) :=
  (simulator.log.stepBack simulator.machine).map fun (machine, log) =>
    let restored :=
      { simulator with
        machine := machine
        log := log
        instructionsRun := simulator.instructionsRun - 1 }
    let resumed :=
      if restored.state = .terminated then
        { restored with termination := none }.setState .paused
      else restored
    resumed.emit (.steppedBack machine.pc)

end Mips.Simulator
