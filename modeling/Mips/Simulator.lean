import Mips.Accesses
import Mips.Assembly
import Mips.Breakpoints
import Mips.Console
import Mips.Event
import Mips.Loading
import Mips.Service
import Mips.UndoLog

/-!
A simulator: a machine with a program, and all that is needed to control it and to look at it.
-/

namespace Mips

variable [Generator]

/-- What can be asked of a run from outside. -/
inductive Request where
  | pause
  | stop
  deriving DecidableEq, Repr

/-- The request that is outstanding after one more; a stop is not replaced by a pause. -/
def Request.after (outstanding : Option Request) : Request → Option Request
  | .stop => some .stop
  | .pause => outstanding.or (some .pause)

/--
What happens outside a simulator. A moment is the number of instructions that were executed before, those
included that were undone.
-/
structure Outside where
  surroundings : (moment : Nat) → Surroundings
  /-- The requests that arrive while an instruction is executed that prints this text, if it prints. -/
  requests : (moment : Nat) → (printed : Option String) → List Request

/-- A simulator with a console of type `κ`. -/
structure Simulator (κ : Type) where
  settings : Settings
  machine : Machine
  log : UndoLog
  console : κ
  breakpoints : Breakpoints := .empty
  /-- What was loaded and stored since the last call that executed instructions began. -/
  accesses : Accesses := .empty
  events : EventChannel := {}
  outstanding : Option Request := none
  program : Option Program := none
  state : ControlState := .idle
  termination : Option Termination := none
  /-- How many instructions were executed since the program was loaded, without those that were undone. -/
  instructionsRun : Nat := 0
  /-- How many instructions were executed since the simulator was made. -/
  moment : Nat := 0

/-- Why no program was loaded. -/
inductive LoadError where
  | settings (error : SettingsError)
  | assembly (diagnostics : List Diagnostic)

namespace LoadError

def message : LoadError → String
  | .settings error => error.message
  | .assembly diagnostics => Diagnostic.report diagnostics

def help : LoadError → Option String
  | .settings error => error.help
  | .assembly _ => none

end LoadError

/-- Why a simulator did not execute, or what ended its execution. -/
inductive RunError where
  | noProgram
  | notRunnable (state : ControlState)
  | fault (report : FaultReport)
  deriving DecidableEq, Repr

namespace RunError

def message : RunError → String
  | .noProgram => "no program is loaded"
  | .notRunnable state => "cannot execute while simulator is " ++ state.name
  | .fault report => report.message

def help : RunError → Option String
  | .noProgram => some "assemble or load a program first"
  | .notRunnable .terminated => some "reset the simulator or step back to continue"
  | .notRunnable _ => none
  | .fault report => report.fault.help

end RunError

namespace Simulator

variable {κ : Type}

def undoCapacity (settings : Settings) : Nat :=
  if settings.backstepping then settings.backstepLimit else 0

/-- A simulator without a program, if the settings can be used with the files there are. -/
def create (settings : Settings) (tree : FileTree) (console : κ) :
    Except SettingsError (Simulator κ) :=
  match settings.error? tree with
  | some error => .error error
  | none =>
    .ok
      { settings := settings
        machine := .blank settings
        log := .empty (undoCapacity settings)
        console := console }

def emit (simulator : Simulator κ) (event : Event) : Simulator κ :=
  { simulator with events := simulator.events.emit event }

/-- The simulator in another state; a change is told. -/
def setState (simulator : Simulator κ) (state : ControlState) : Simulator κ :=
  if simulator.state = state then simulator
  else { simulator with state := state }.emit (.stateChanged state)

@[simp] theorem machine_setState (simulator : Simulator κ) (state : ControlState) :
    (simulator.setState state).machine = simulator.machine := by
  unfold setState
  split <;> rfl

@[simp] theorem log_setState (simulator : Simulator κ) (state : ControlState) :
    (simulator.setState state).log = simulator.log := by
  unfold setState
  split <;> rfl

@[simp] theorem instructionsRun_setState (simulator : Simulator κ) (state : ControlState) :
    (simulator.setState state).instructionsRun = simulator.instructionsRun := by
  unfold setState
  split <;> rfl

def restart (simulator : Simulator κ) (machine : Machine) : Simulator κ :=
  { simulator with
    machine := machine
    log := simulator.log.clear
    accesses := .empty
    termination := none
    instructionsRun := 0 }

def load (simulator : Simulator κ) (program : Program) : Simulator κ :=
  { (simulator.restart (.load simulator.settings program)).setState .ready with
    program := some program }

/-- The simulator with the program loaded again, if there is one. Its breakpoints stay. -/
def reset (simulator : Simulator κ) : Simulator κ :=
  match simulator.program with
  | some program => simulator.load program
  | none => (simulator.restart (.blank simulator.settings)).setState .idle

/-- The program of sources, ahead of which the exception handler of the settings is assembled. -/
def program? (simulator : Simulator κ) (tree : FileTree) (sources : List Source) :
    Except LoadError Program :=
  match simulator.settings.readHandler tree with
  | .error error => .error (.settings error)
  | .ok handler =>
    match Mips.assemble simulator.settings (handler.toList ++ sources) with
    | .error diagnostics => .error (.assembly diagnostics)
    | .ok program => .ok program

/-- The simulator with the program of sources, or why there is none. -/
def assemble (simulator : Simulator κ) (tree : FileTree) (sources : List Source) :
    Except LoadError (Simulator κ) :=
  (simulator.program? tree sources).map simulator.load

/-- The simulator with the program of a main file, or why there is none. -/
def assembleFile (simulator : Simulator κ) (tree : FileTree) (main : String) :
    Except LoadError (Simulator κ) :=
  match simulator.settings.collectSources tree main with
  | .error error => .error (.settings error)
  | .ok sources => simulator.assemble tree sources

def receive (simulator : Simulator κ) (request : Request) : Simulator κ :=
  { simulator with outstanding := Request.after simulator.outstanding request }

def statementAt? (simulator : Simulator κ) (address : Address) : Option ProgramStatement :=
  simulator.program.bind (·.statementAt? address)

/-- The simulator with another content of a register. This cannot be undone. -/
def setRegister (simulator : Simulator κ) (register : Register) (value : Word) : Simulator κ :=
  { simulator with machine := simulator.machine.assign (.register register value) }

/-- The simulator with a value stored in any segment. This cannot be undone. -/
def poke (simulator : Simulator κ) (width : Width) (address : Address) (value : Word) :
    Except MemoryError (Simulator κ) :=
  (simulator.machine.memory.poke width address value).map fun memory =>
    { simulator with machine := { simulator.machine with memory := memory } }

end Simulator

end Mips
