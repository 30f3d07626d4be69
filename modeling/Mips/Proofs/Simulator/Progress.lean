import Mips.Proofs.Simulator.Control

/-!
Executing instructions one after another, without a look at breakpoints or requests. How far a program comes does not
depend on how it is controlled and watched. Main statements: `progress_of_bare` and `proceed_add`.
-/

namespace Mips.Simulator

variable [Generator] {κ : Type}

/-- The simulator without what only controls or watches it: its state, how it ended, requests, accesses and events. -/
def bare (simulator : Simulator κ) : Simulator κ :=
  { simulator with accesses := .empty, events := {}, outstanding := none, state := .idle, termination := none }

@[simp] theorem bare_setState (simulator : Simulator κ) (state : ControlState) :
    (simulator.setState state).bare = simulator.bare := by
  unfold setState
  split <;> rfl

@[simp] theorem bare_terminate (simulator : Simulator κ) (termination : Termination) :
    (simulator.terminate termination).bare = simulator.bare := by
  unfold terminate
  cases termination <;> exact bare_setState _ _

@[simp] theorem breakpoints_setState (simulator : Simulator κ) (state : ControlState) :
    (simulator.setState state).breakpoints = simulator.breakpoints := by
  unfold setState
  split <;> rfl

@[simp] theorem breakpoints_terminate (simulator : Simulator κ) (termination : Termination) :
    (simulator.terminate termination).breakpoints = simulator.breakpoints := by
  unfold terminate
  cases termination <;> exact breakpoints_setState _ _

variable [Console κ]

/-- What an instruction does is the same for simulators that only differ in how they are controlled and watched. -/
theorem bare_advance {first second : Simulator κ} (same : first.bare = second.bare) (outside : Outside) :
    (first.advance outside).1 = (second.advance outside).1 ∧
      (first.advance outside).2.bare = (second.advance outside).2.bare := by
  have steps : first.nextStep? outside = second.nextStep? outside := by
    show first.bare.nextStep? outside = second.bare.nextStep? outside
    rw [same]
  cases found : first.nextStep? outside with
  | none =>
    rw [advance_of_none found, advance_of_none (steps.symm.trans found)]
    refine ⟨rfl, ?_⟩
    rw [bare_terminate, bare_terminate]
    exact congrArg (fun simulator => { simulator with log := simulator.log.start.abandon }) same
  | some step =>
    rw [advance_of_some found, advance_of_some (steps.symm.trans found)]
    have applied : (first.apply outside step).bare = (second.apply outside step).bare := by
      show (first.bare.apply outside step).bare = (second.bare.apply outside step).bare
      rw [same]
    cases step.ending with
    | completed => exact ⟨rfl, applied⟩
    | exited code | faulted report => exact ⟨rfl, by simpa only [bare_terminate] using applied⟩

/-- Executes so many instructions, or fewer if the program ends before; how it ended, if it has, and the simulator. -/
def proceed (outside : Outside) : Nat → Simulator κ → Option Termination × Simulator κ
  | 0, simulator => (none, simulator)
  | count + 1, simulator =>
    match simulator.advance outside with
    | (none, after) => after.proceed outside count
    | (some termination, after) => (some termination, after)

theorem proceed_of_advance {simulator after : Simulator κ} {outside : Outside}
    (advanced : simulator.advance outside = (none, after)) (count : Nat) :
    simulator.proceed outside (count + 1) = after.proceed outside count := by
  simp only [proceed, advanced]

theorem proceed_of_end {simulator after : Simulator κ} {outside : Outside} {termination : Termination}
    (advanced : simulator.advance outside = (some termination, after)) (count : Nat) :
    simulator.proceed outside (count + 1) = (some termination, after) := by
  simp only [proceed, advanced]

/-- How far a program comes with so many instructions: how it has ended, if it has, and the bare simulator then. -/
def progress (simulator : Simulator κ) (outside : Outside) (count : Nat) : Option Termination × Simulator κ :=
  (simulator.proceed outside count).map id bare

/-- How far a program comes does not depend on how it is controlled and watched. -/
theorem progress_of_bare {first second : Simulator κ} (same : first.bare = second.bare) (outside : Outside)
    (count : Nat) : first.progress outside count = second.progress outside count := by
  induction count generalizing first second with
  | zero => exact Prod.ext rfl same
  | succ count ih =>
    obtain ⟨ends, alike⟩ := bare_advance same outside
    unfold progress
    cases here : first.advance outside with
    | mk termination after =>
      cases there : second.advance outside with
      | mk other later =>
        rw [here, there] at ends alike
        obtain rfl : termination = other := ends
        cases termination with
        | none =>
          rw [proceed_of_advance here, proceed_of_advance there]
          exact ih alike
        | some termination =>
          rw [proceed_of_end here, proceed_of_end there]
          exact Prod.ext rfl alike

/-- A program that has not ended after some instructions goes on from there. -/
theorem proceed_add {simulator middle : Simulator κ} {outside : Outside} {first : Nat}
    (reached : simulator.proceed outside first = (none, middle)) (second : Nat) :
    simulator.proceed outside (first + second) = middle.proceed outside second := by
  induction first generalizing simulator with
  | zero =>
    cases reached
    rw [Nat.zero_add]
  | succ first ih =>
    rw [Nat.add_right_comm]
    cases advanced : simulator.advance outside with
    | mk termination after =>
      cases termination with
      | none =>
        rw [proceed_of_advance advanced] at reached ⊢
        exact ih reached
      | some termination =>
        rw [proceed_of_end advanced] at reached
        cases reached

theorem progress_of_advance {simulator after : Simulator κ} {outside : Outside}
    (advanced : simulator.advance outside = (none, after)) (count : Nat) :
    simulator.progress outside (count + 1) = after.progress outside count := by
  rw [progress, progress, proceed_of_advance advanced]

theorem progress_of_end {simulator after : Simulator κ} {outside : Outside} {termination : Termination}
    (advanced : simulator.advance outside = (some termination, after)) (count : Nat) :
    simulator.progress outside (count + 1) = (some termination, after.bare) := by
  rw [progress, proceed_of_end advanced]
  rfl

/-- What is reached goes on as the simulator does that has reached it. -/
theorem progress_add {simulator middle : Simulator κ} {outside : Outside} {first : Nat}
    (reached : simulator.progress outside first = (none, middle.bare)) (second : Nat) :
    simulator.progress outside (first + second) = middle.progress outside second := by
  cases here : simulator.proceed outside first with
  | mk termination after =>
    rw [progress, here] at reached
    obtain ⟨live, same⟩ := Prod.mk.inj reached
    obtain rfl : termination = none := live
    rw [progress, proceed_add here]
    exact progress_of_bare same outside second

theorem breakpoints_advance (simulator : Simulator κ) (outside : Outside) :
    (simulator.advance outside).2.breakpoints = simulator.breakpoints := by
  cases found : simulator.nextStep? outside with
  | none =>
    rw [advance_of_none found]
    exact breakpoints_terminate _ _
  | some step =>
    rw [advance_of_some found]
    cases step.ending with
    | completed => rfl
    | exited code | faulted report => exact breakpoints_terminate _ _

/-- What no instruction changes holds as far as the program comes. -/
theorem holds_proceed {property : Simulator κ → Prop} {outside : Outside}
    (keeps : ∀ simulator, property simulator → property (simulator.advance outside).2) {simulator : Simulator κ}
    (holds : property simulator) (count : Nat) : property (simulator.proceed outside count).2 := by
  induction count generalizing simulator with
  | zero => exact holds
  | succ count ih =>
    have kept := keeps simulator holds
    cases advanced : simulator.advance outside with
    | mk termination after =>
      rw [advanced] at kept
      cases termination with
      | some termination =>
        rw [proceed_of_end advanced]
        exact kept
      | none =>
        rw [proceed_of_advance advanced]
        exact ih kept

/-- The program does not change the breakpoints. -/
theorem breakpoints_progress (simulator : Simulator κ) (outside : Outside) (count : Nat) :
    (simulator.progress outside count).2.breakpoints = simulator.breakpoints := by
  have keeps : ∀ later : Simulator κ, later.breakpoints = simulator.breakpoints →
      (later.advance outside).2.breakpoints = simulator.breakpoints :=
    fun later kept => (later.breakpoints_advance outside).trans kept
  exact holds_proceed keeps rfl count

end Mips.Simulator
