import Mips.ChaCha
import Mips.Simulator.Stepping

/-!
Running a program until it ends, comes to a breakpoint, or is asked to pause or stop.
-/

namespace Mips

variable [Generator]

/-- Why a run ended. -/
inductive StopReason where
  /-- The next instruction has a breakpoint. -/
  | breakpoint (address : Address)
  | paused
  /-- As many instructions were executed as were allowed. -/
  | stepLimit
  | terminated (termination : Termination)
  deriving DecidableEq, Repr

namespace Simulator

variable {κ : Type} [Console κ]

omit [Console κ] in
/-- The outstanding request, and the simulator without it. -/
def takeRequest (simulator : Simulator κ) : Option Request × Simulator κ :=
  (simulator.outstanding, { simulator with outstanding := none })

omit [Console κ] in
/-- The request that a run finds after so many instructions; it looks for one at regular intervals. -/
def checkpoint (simulator : Simulator κ) (executed : Nat) : Option Request × Simulator κ :=
  if executed % simulator.settings.checkpointInterval = 0 then simulator.takeRequest
  else (none, simulator)

/--
Executes at most `remaining` instructions of a run that has executed some. The breakpoint of the first instruction
of a run has no effect.
-/
def runFrom (outside : Outside) :
    (remaining executed : Nat) → Simulator κ → StopReason × Simulator κ
  | 0, _, simulator => (.stepLimit, simulator)
  | remaining + 1, executed, simulator =>
    match simulator.checkpoint executed with
    | (some .pause, simulator) => (.paused, simulator)
    | (some .stop, simulator) => (.terminated .stopped, simulator.terminate .stopped)
    | (none, simulator) =>
      let pc := simulator.machine.pc
      if 0 < executed && simulator.breakpoints.check pc then
        (.breakpoint pc, simulator.emit (.breakpoint pc))
      else
        match simulator.advance outside with
        | (none, simulator) => runFrom outside remaining (executed + 1) simulator
        | (some termination, simulator) => (.terminated termination, simulator)

omit [Console κ] in
/-- The end of a run: requests that came too late are dropped, and a program that has not ended is paused. -/
def finish (reason : StopReason) (simulator : Simulator κ) :
    Except RunError StopReason × Simulator κ :=
  let simulator := simulator.takeRequest.2
  match reason with
  | .terminated (.fault report) => (.error (.fault report), simulator)
  | .terminated termination => (.ok (.terminated termination), simulator)
  | reason => (.ok reason, simulator.setState .paused)

def runLimited (simulator : Simulator κ) (outside : Outside) (limit : Nat) :
    Except RunError StopReason × Simulator κ :=
  match simulator.runError? with
  | some error => (.error error, simulator)
  | none =>
    let (reason, after) :=
      runFrom outside limit 0 ({ simulator with accesses := .empty }.setState .running)
    finish reason after

/-- Runs the program without a limit; there is no answer if that takes `fuel` instructions or more. -/
def run? (simulator : Simulator κ) (outside : Outside) (fuel : Nat) :
    Option (Except RunError StopReason × Simulator κ) :=
  match simulator.runLimited outside fuel with
  | (.ok .stepLimit, _) => none
  | answer => some answer

end Simulator

end Mips
