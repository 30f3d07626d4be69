import Mips.Proofs.Simulator.Running

/-!
Calls on a simulator, one after another, and what it goes through while it serves them. A call that does not return ends
them, as no other can be made then. Main statement: `commanded_serve`, by which what holds after every command holds after
every call.
-/

namespace Mips

variable [Generator]

/-- A call on a simulator with a console of type `κ`. -/
inductive Call (κ : Type) where
  | assemble (tree : FileTree) (sources : List Source)
  | assembleFile (tree : FileTree) (main : String)
  | load (program : Program)
  | reset
  | step (outside : Outside)
  /-- A run without a limit, as far as it comes with so many instructions. -/
  | run (outside : Outside) (fuel : Nat)
  | runLimited (outside : Outside) (limit : Nat)
  | stepBack
  | setRegister (register : Register) (value : Word)
  | poke (width : Width) (address : Address) (value : Word)
  | watch (breakpoints : Breakpoints)
  | receive (request : Request)
  | aside (console : κ) (accesses : Accesses)
  | subscribe
  | unsubscribe (number : Nat)
  | take (number : Nat)

/-- What a call answers. -/
inductive Answer where
  | done
  | refused (refusal : Simulator.Refusal)
  | stepped (answer : Except RunError ControlState)
  | ran (answer : Except RunError StopReason)

/-- What was done to a program: an instruction was executed in this machine, or undone, which led to this machine. -/
inductive Move where
  | executed (machine : Machine)
  | undone (machine : Machine)

namespace Call

variable {κ : Type}

/-- Whether the call only concerns who is told of events. -/
def watches : Call κ → Bool
  | .subscribe | .unsubscribe _ | .take _ => true
  | _ => false

/-- Whether the call is one to execute instructions. -/
def executes : Call κ → Bool
  | .step _ | .run .. | .runLimited .. => true
  | _ => false

/-- The answer of a call that leads to another simulator or is refused. -/
def settle {ε : Type} (simulator : Simulator κ) (refusal : ε → Simulator.Refusal) :
    Except ε (Simulator κ) → Option Answer × Simulator κ
  | .ok after => (some .done, after)
  | .error error => (some (.refused (refusal error)), simulator)

variable [Console κ]

/-- Serves a call. A run that does not return gives no answer; the simulator is as far then as the run has come. -/
def serve (simulator : Simulator κ) : Call κ → Option Answer × Simulator κ
  | .assemble tree sources => settle simulator .program (simulator.assemble tree sources)
  | .assembleFile tree main => settle simulator .program (simulator.assembleFile tree main)
  | .load program => (some .done, simulator.load program)
  | .reset => (some .done, simulator.reset)
  | .step outside => (some (.stepped (simulator.step outside).1), (simulator.step outside).2)
  | .run outside fuel =>
    match simulator.run? outside fuel with
    | some (answer, after) => (some (.ran answer), after)
    | none => (none, (Simulator.runFrom outside fuel 0 simulator.loop.simulator).2)
  | .runLimited outside limit =>
    (some (.ran (simulator.runLimited outside limit).1), (simulator.runLimited outside limit).2)
  | .stepBack =>
    match simulator.stepBack with
    | some after => (some .done, after)
    | none => (some (.refused .nothingToUndo), simulator)
  | .setRegister register value => (some .done, simulator.setRegister register value)
  | .poke width address value => settle simulator .memory (simulator.poke width address value)
  | .watch breakpoints => (some .done, { simulator with breakpoints })
  | .receive request => (some .done, simulator.receive request)
  | .aside console accesses => (some .done, { simulator with console, accesses })
  | .subscribe => (some .done, { simulator with events := simulator.events.subscribe })
  | .unsubscribe number => (some .done, { simulator with events := simulator.events.unsubscribe number })
  | .take number => (some .done, { simulator with events := simulator.events.take number })

end Call

namespace Simulator

variable {κ : Type} [Console κ]

/-- The simulators that a run goes through which has executed some instructions, after each thing that it does. -/
def stationsFrom (outside : Outside) : (remaining executed : Nat) → Simulator κ → List (Simulator κ)
  | 0, _, _ => []
  | remaining + 1, executed, simulator =>
    match simulator.checkpoint executed with
    | (some .pause, _) => []
    | (some .stop, simulator) => [simulator.terminate .stopped]
    | (none, simulator) =>
      if 0 < executed && simulator.breakpoints.check simulator.machine.pc then []
      else
        match simulator.advance outside with
        | (none, after) => after :: stationsFrom outside remaining (executed + 1) after
        | (some _, after) => [after]

/-- The simulators that a call goes through before it has been served. -/
def passes (simulator : Simulator κ) (call : Call κ) : List (Simulator κ) :=
  if simulator.runError?.isSome then []
  else
    match call with
    | .step outside => [({ simulator with accesses := .empty }.advance outside).2]
    | .run outside most | .runLimited outside most =>
      simulator.loop.simulator :: stationsFrom outside most 0 simulator.loop.simulator
    | _ => []

/-- The simulators that a call goes through, of which the last has served it. -/
def stations (simulator : Simulator κ) (call : Call κ) : List (Simulator κ) :=
  simulator.passes call ++ [(call.serve simulator).2]

/-- The instructions that a call executes or undoes. -/
def moves (simulator : Simulator κ) : Call κ → List Move
  | .step outside => (simulator.executedByStep outside).map .executed
  | .run outside most | .runLimited outside most => (simulator.executedByRun outside most).map .executed
  | .stepBack => simulator.stepBack.toList.map fun after => .undone after.machine
  | _ => []

/-- The simulator after calls, which end with the first one that does not return. -/
def session : List (Call κ) → Simulator κ → Simulator κ
  | [], simulator => simulator
  | call :: rest, simulator =>
    match call.serve simulator with
    | (some _, after) => after.session rest
    | (none, after) => after

/-- What can be gathered about each of the calls that are served one after another. -/
def along {α : Type} (gather : Simulator κ → Call κ → List α) : List (Call κ) → Simulator κ → List α
  | [], _ => []
  | call :: rest, simulator =>
    gather simulator call ++
      match call.serve simulator with
      | (some _, after) => after.along gather rest
      | (none, _) => []

/-- A run without a limit returns what a run with a limit does that does not come to it. -/
theorem run?_eq (simulator : Simulator κ) (outside : Outside) (fuel : Nat) :
    simulator.run? outside fuel =
      match (simulator.runLimited outside fuel).1 with
      | .ok .stepLimit => none
      | _ => some (simulator.runLimited outside fuel) := by
  unfold run?
  cases simulator.runLimited outside fuel with
  | mk answer after =>
    cases answer with
    | error error => rfl
    | ok reason => cases reason <;> rfl

omit [Console κ] in
theorem exists_of_settle {ε : Type} {simulator after : Simulator κ} {refusal : ε → Refusal} {answer : Answer}
    {outcome : Except ε (Simulator κ)} (settled : Call.settle simulator refusal outcome = (some answer, after)) :
    outcome = .ok after ∨ after = simulator ∧ ∃ error, outcome = .error error := by
  cases outcome with
  | ok later =>
    cases settled
    exact .inl rfl
  | error error =>
    cases settled
    exact .inr ⟨rfl, error, rfl⟩

/-- A call that returns is a command. -/
theorem commanded_serve {call : Call κ} {simulator after : Simulator κ} {answer : Answer}
    (served : call.serve simulator = (some answer, after)) : ∃ refusal, Commanded simulator refusal after := by
  cases call with
  | assemble tree sources =>
    rcases exists_of_settle served with assembled | ⟨rfl, error, failed⟩
    · exact ⟨_, .assemble tree sources assembled⟩
    · exact ⟨_, .notAssembled tree sources failed⟩
  | assembleFile tree main =>
    rcases exists_of_settle served with assembled | ⟨rfl, error, failed⟩
    · exact ⟨_, .assembleFile tree main assembled⟩
    · exact ⟨_, .fileNotAssembled tree main failed⟩
  | load program =>
    cases served
    exact ⟨_, .load simulator program⟩
  | reset =>
    cases served
    exact ⟨_, .reset simulator⟩
  | step outside =>
    cases served
    exact ⟨_, .step simulator outside⟩
  | run outside fuel =>
    simp only [Call.serve] at served
    split at served
    next ended =>
      cases served
      exact ⟨_, .run outside fuel ended⟩
    next => cases served
  | runLimited outside limit =>
    cases served
    exact ⟨_, .runLimited simulator outside limit⟩
  | stepBack =>
    simp only [Call.serve] at served
    split at served
    next undone =>
      cases served
      exact ⟨_, .stepBack undone⟩
    next empty =>
      cases served
      exact ⟨_, .notUndone empty⟩
  | setRegister register value =>
    cases served
    exact ⟨_, .setRegister simulator register value⟩
  | poke width address value =>
    rcases exists_of_settle served with poked | ⟨rfl, error, failed⟩
    · exact ⟨_, .poke poked⟩
    · exact ⟨_, .notPoked failed⟩
  | watch breakpoints =>
    cases served
    exact ⟨_, .breakpoints simulator breakpoints⟩
  | receive request =>
    cases served
    exact ⟨_, .receive simulator request⟩
  | aside console accesses =>
    cases served
    exact ⟨_, .aside simulator console accesses simulator.events⟩
  | subscribe | unsubscribe number | take number =>
    cases served
    exact ⟨_, .aside simulator simulator.console simulator.accesses _⟩

end Simulator

end Mips
