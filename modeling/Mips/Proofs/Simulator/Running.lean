import Mips.Proofs.Simulator.Control
import Mips.Proofs.Simulator.Loop
import Mips.Proofs.Simulator.Progress

/-!
Running is stepping. As long as no request is made and no breakpoint is met, a run leaves what single steps leave, and
two runs one after another leave what one run leaves. Main statement: `runs_as_steps`.
-/

namespace Mips

variable [Generator]

/-- No request is made while an instruction is executed. -/
def Outside.Quiet (outside : Outside) : Prop := ∀ moment printed, outside.requests moment printed = []

namespace Simulator

variable {κ : Type}

/-- Two simulators that only differ in what was accessed and told. -/
structure Alike (first second : Simulator κ) : Prop where
  settings : first.settings = second.settings
  machine : first.machine = second.machine
  log : first.log = second.log
  console : first.console = second.console
  breakpoints : first.breakpoints = second.breakpoints
  outstanding : first.outstanding = second.outstanding
  program : first.program = second.program
  state : first.state = second.state
  termination : first.termination = second.termination
  instructionsRun : first.instructionsRun = second.instructionsRun
  moment : first.moment = second.moment

/-- Simulators that are as far are alike if they are controlled alike. -/
theorem alike_of_bare {first second : Simulator κ} (same : first.bare = second.bare)
    (outstanding : first.outstanding = second.outstanding) (state : first.state = second.state)
    (termination : first.termination = second.termination) : Alike first second := by
  obtain ⟨⟩ := first
  obtain ⟨⟩ := second
  cases same
  cases outstanding
  cases state
  cases termination
  exact ⟨rfl, rfl, rfl, rfl, rfl, rfl, rfl, rfl, rfl, rfl, rfl⟩

@[simp] theorem outstanding_setState (simulator : Simulator κ) (state : ControlState) :
    (simulator.setState state).outstanding = simulator.outstanding := by
  unfold setState
  split <;> rfl

@[simp] theorem outstanding_terminate (simulator : Simulator κ) (termination : Termination) :
    (simulator.terminate termination).outstanding = simulator.outstanding := by
  unfold terminate
  cases termination <;> exact outstanding_setState _ _

theorem takeRequest_of_unasked {simulator : Simulator κ} (unasked : simulator.outstanding = none) :
    simulator.takeRequest = (none, simulator) := by
  obtain ⟨⟩ := simulator
  cases unasked
  rfl

theorem checkpoint_of_unasked {simulator : Simulator κ} (unasked : simulator.outstanding = none) (executed : Nat) :
    simulator.checkpoint executed = (none, simulator) := by
  unfold checkpoint
  split
  · exact takeRequest_of_unasked unasked
  · rfl

variable [Console κ] {simulator : Simulator κ} {outside : Outside}

/-- If no request is made then none is outstanding that was not outstanding before. -/
theorem outstanding_advance (quiet : outside.Quiet) (simulator : Simulator κ) :
    (simulator.advance outside).2.outstanding = simulator.outstanding := by
  cases found : simulator.nextStep? outside with
  | none =>
    rw [advance_of_none found]
    exact outstanding_terminate _ _
  | some step =>
    rw [advance_of_some found]
    have applied : (simulator.apply outside step).outstanding = simulator.outstanding := by
      show (outside.requests simulator.moment step.printed).foldl Request.after simulator.outstanding = _
      rw [quiet, List.foldl_nil]
    cases step.ending with
    | completed => exact applied
    | exited code | faulted report => exact (outstanding_terminate _ _).trans applied

/-- The program goes on in the state that it was in, or it has ended as is told. -/
theorem ended_advance (simulator : Simulator κ) (outside : Outside) :
    match simulator.advance outside with
    | (none, after) => after.state = simulator.state ∧ after.termination = simulator.termination
    | (some termination, after) => after.state = .terminated ∧ after.termination = some termination := by
  cases found : simulator.nextStep? outside with
  | none =>
    rw [advance_of_none found]
    exact ⟨state_terminate _ _, termination_terminate _ _⟩
  | some step =>
    rw [advance_of_some found]
    cases step.ending with
    | completed => exact ⟨rfl, rfl⟩
    | exited code | faulted report => exact ⟨state_terminate _ _, termination_terminate _ _⟩

/--
A simulator is as far as its program comes, it is in this state unless the program has ended, and no request is
outstanding.
-/
structure Comes (progress : Option Termination × Simulator κ) (before : Option Termination) (state : ControlState)
    (after : Simulator κ) : Prop where
  bare : after.bare = progress.2
  state : after.state = if progress.1.isSome then .terminated else state
  termination : after.termination = progress.1.or before
  outstanding : after.outstanding = none

omit [Console κ] in
theorem Comes.alike {progress : Option Termination × Simulator κ} {before : Option Termination} {state : ControlState}
    {first second : Simulator κ} (one : Comes progress before state first)
    (other : Comes progress before state second) : Alike first second :=
  alike_of_bare (one.bare.trans other.bare.symm) (one.outstanding.trans other.outstanding.symm)
    (one.state.trans other.state.symm) (one.termination.trans other.termination.symm)

/-- A program that goes on without requests comes as far as it comes. -/
theorem comes_proceed (quiet : outside.Quiet) (unasked : simulator.outstanding = none) (count : Nat) :
    Comes (simulator.progress outside count) simulator.termination simulator.state
      (simulator.proceed outside count).2 := by
  unfold progress
  induction count generalizing simulator with
  | zero => exact ⟨rfl, rfl, rfl, unasked⟩
  | succ count ih =>
    have kept := (outstanding_advance quiet simulator).trans unasked
    have ends := simulator.ended_advance outside
    cases advanced : simulator.advance outside with
    | mk termination after =>
      rw [advanced] at kept ends
      cases termination with
      | some termination =>
        rw [proceed_of_end advanced]
        exact ⟨rfl, ends.1, ends.2, kept⟩
      | none =>
        rw [proceed_of_advance advanced]
        have rest := ih kept
        rwa [ends.1, ends.2] at rest

section Steps

/-- Single steps, so many or until the program has ended; the answer of the last one, and the simulator after it. -/
def steps (outside : Outside) : Nat → Simulator κ → Except RunError ControlState × Simulator κ
  | 0, simulator => (.ok simulator.state, simulator)
  | count + 1, simulator =>
    match simulator.step outside with
    | (.ok .paused, after) => after.steps outside count
    | ended => ended

/-- What a step answers that leaves the program so. -/
def stepAnswer : Option Termination → Except RunError ControlState
  | none => .ok .paused
  | some (.fault report) => .error (.fault report)
  | some _ => .ok .terminated

theorem executedByStep_eq (allowed : simulator.runError? = none) (outside : Outside) :
    simulator.executedByStep outside = { simulator with accesses := .empty }.executing outside := by
  rw [executedByStep, allowed]
  rfl

theorem step_of_advance (allowed : simulator.runError? = none) {after : Simulator κ}
    (advanced : { simulator with accesses := .empty }.advance outside = (none, after)) :
    simulator.step outside = (.ok .paused, after.setState .paused) := by
  simp only [step, allowed, advanced]

theorem step_of_end (allowed : simulator.runError? = none) {after : Simulator κ} {termination : Termination}
    (advanced : { simulator with accesses := .empty }.advance outside = (some termination, after)) :
    simulator.step outside = (stepAnswer (some termination), after) := by
  have ends := { simulator with accesses := .empty }.ended_advance outside
  rw [advanced] at ends
  simp only [step, allowed, advanced]
  cases termination with
  | fault report => rfl
  | exit | stopped | droppedOffBottom =>
    rw [ends.1]
    rfl

/-- Single steps come as far as the program comes. -/
theorem comes_steps (allowed : simulator.runError? = none) (quiet : outside.Quiet)
    (unasked : simulator.outstanding = none) {count : Nat} (begun : simulator.state = .paused ∨ 0 < count) :
    (simulator.steps outside count).1 = stepAnswer (simulator.progress outside count).1 ∧
      Comes (simulator.progress outside count) simulator.termination .paused (simulator.steps outside count).2 := by
  induction count generalizing simulator with
  | zero =>
    have paused : simulator.state = .paused := begun.resolve_right (Nat.lt_irrefl 0)
    exact ⟨congrArg Except.ok paused, rfl, paused, rfl, unasked⟩
  | succ count ih =>
    have cleared : simulator.bare = { simulator with accesses := .empty }.bare := rfl
    have kept := (outstanding_advance quiet { simulator with accesses := .empty }).trans unasked
    have ends := { simulator with accesses := .empty }.ended_advance outside
    rw [progress_of_bare cleared]
    cases advanced : { simulator with accesses := .empty }.advance outside with
    | mk termination after =>
      rw [advanced] at kept ends
      cases termination with
      | some termination =>
        rw [progress, proceed_of_end advanced, steps, step_of_end allowed advanced]
        cases termination with
        | fault | exit | stopped | droppedOffBottom => exact ⟨rfl, rfl, ends.1, ends.2, kept⟩
      | none =>
        have paused : (after.setState .paused).state = .paused := state_setState _ _
        have resumable : (after.setState .paused).runError? = none := by rw [runError?, paused]
        have unaskedLater : (after.setState .paused).outstanding = none := (outstanding_setState _ _).trans kept
        have further : (after.setState .paused).progress outside count = after.progress outside count :=
          progress_of_bare (bare_setState _ _) outside count
        have terminates : (after.setState .paused).termination = simulator.termination :=
          (termination_setState _ _).trans ends.2
        obtain ⟨answer, comes⟩ := ih resumable unaskedLater (.inl paused)
        rw [further] at answer comes
        rw [terminates] at comes
        rw [progress, proceed_of_advance advanced, steps, step_of_advance allowed advanced]
        exact ⟨answer, comes⟩

end Steps

section Runs

/-- What a run answers that leaves the program so. -/
def runAnswer : Option Termination → Except RunError StopReason
  | none => .ok .stepLimit
  | some (.fault report) => .error (.fault report)
  | some termination => .ok (.terminated termination)

/-- A run that only its limit and the program can end executes as many instructions as it may. -/
theorem runFrom_of_unhit (quiet : outside.Quiet) (unasked : simulator.outstanding = none) {remaining executed : Nat}
    (unhit : ∀ count, 0 < executed + count → count < remaining → (simulator.progress outside count).1 = none →
      simulator.breakpoints.check (simulator.progress outside count).2.machine.pc = false) :
    runFrom outside remaining executed simulator =
      (match (simulator.proceed outside remaining).1 with
        | none => .stepLimit
        | some termination => .terminated termination,
        (simulator.proceed outside remaining).2) := by
  induction remaining generalizing executed simulator with
  | zero => rfl
  | succ remaining ih =>
    have clear : (0 < executed && simulator.breakpoints.check simulator.machine.pc) = false := by
      by_cases later : 0 < executed
      · have here := unhit 0 later (Nat.succ_pos _) rfl
        exact Bool.and_eq_false_iff.2 (.inr here)
      · rw [decide_eq_false later, Bool.false_and]
    have kept := (outstanding_advance quiet simulator).trans unasked
    have watched := simulator.breakpoints_advance outside
    rw [runFrom, checkpoint_of_unasked unasked]
    simp only [clear, Bool.false_eq_true, if_false]
    cases advanced : simulator.advance outside with
    | mk termination after =>
      rw [advanced] at kept watched
      cases termination with
      | some termination => rw [proceed_of_end advanced]
      | none =>
        rw [proceed_of_advance advanced]
        apply ih kept
        intro count later less
        have there := unhit (count + 1) (by omega) (by omega)
        unfold progress at there ⊢
        rw [proceed_of_advance advanced] at there
        rw [watched]
        exact there

omit [Console κ] in
theorem finish_stepLimit (unasked : simulator.outstanding = none) :
    finish .stepLimit simulator = (.ok .stepLimit, simulator.setState .paused) := by
  show (_, simulator.takeRequest.2.setState .paused) = _
  rw [takeRequest_of_unasked unasked]

omit [Console κ] in
theorem finish_terminated (unasked : simulator.outstanding = none) (termination : Termination) :
    finish (.terminated termination) simulator = (runAnswer (some termination), simulator) := by
  have dropped : simulator.takeRequest.2 = simulator := congrArg Prod.snd (takeRequest_of_unasked unasked)
  cases termination with
  | fault | exit | stopped | droppedOffBottom =>
    show (_, simulator.takeRequest.2) = _
    rw [dropped]
    rfl

omit [Console κ] in
theorem bare_loop (simulator : Simulator κ) : simulator.loop.simulator.bare = simulator.bare := bare_setState _ _

/-- A run that only its limit and the program can end comes as far as the program comes. -/
theorem comes_runLimited (allowed : simulator.runError? = none) (quiet : outside.Quiet)
    (unasked : simulator.outstanding = none) {limit : Nat}
    (unhit : ∀ count, 0 < count → count < limit → (simulator.progress outside count).1 = none →
      simulator.breakpoints.check (simulator.progress outside count).2.machine.pc = false) :
    (simulator.runLimited outside limit).1 = runAnswer (simulator.progress outside limit).1 ∧
      Comes (simulator.progress outside limit) simulator.termination .paused
        (simulator.runLimited outside limit).2 := by
  have begun : simulator.loop.simulator.outstanding = none := (outstanding_setState _ _).trans unasked
  have ends : simulator.loop.simulator.termination = simulator.termination := termination_setState _ _
  have unhitThere : ∀ count, 0 < 0 + count → count < limit →
      (simulator.loop.simulator.progress outside count).1 = none → simulator.loop.simulator.breakpoints.check
        (simulator.loop.simulator.progress outside count).2.machine.pc = false := by
    intro count later less live
    rw [progress_of_bare simulator.bare_loop] at live ⊢
    rw [Nat.zero_add] at later
    have watched : simulator.loop.simulator.breakpoints = simulator.breakpoints := breakpoints_setState _ _
    rw [watched]
    exact unhit count later less live
  have comes := comes_proceed quiet begun limit
  rw [progress_of_bare simulator.bare_loop, ends] at comes
  have far : (simulator.progress outside limit).1 = (simulator.loop.simulator.proceed outside limit).1 := by
    rw [← progress_of_bare simulator.bare_loop]
    rfl
  rw [Loop.runLimited_eq allowed, runFrom_of_unhit quiet begun unhitThere]
  cases ran : simulator.loop.simulator.proceed outside limit with
  | mk termination after =>
    rw [ran] at comes far
    obtain ⟨bare, state, ended, outstanding⟩ := comes
    rw [far] at state ended
    rw [far]
    cases termination with
    | none =>
      show (finish .stepLimit after).1 = _ ∧ Comes _ _ _ (finish .stepLimit after).2
      rw [finish_stepLimit outstanding]
      refine ⟨rfl, ?_⟩
      constructor
      case bare => exact (bare_setState _ _).trans bare
      case state =>
        rw [far, state_setState]
        rfl
      case termination => rw [far, termination_setState, ended]
      case outstanding => exact (outstanding_setState _ _).trans outstanding
    | some termination =>
      show (finish (.terminated termination) after).1 = _ ∧ Comes _ _ _ (finish (.terminated termination) after).2
      rw [finish_terminated outstanding]
      refine ⟨rfl, ?_⟩
      constructor
      case bare => exact bare
      case state =>
        rw [far, state]
        rfl
      case termination => rw [far, ended]
      case outstanding => exact outstanding

end Runs

/-- No breakpoint that has an effect lies where one of so many single steps begins, the first one apart. -/
def Unbroken (simulator : Simulator κ) (outside : Outside) (limit : Nat) : Prop :=
  ∀ count, 0 < count → count < limit → (simulator.steps outside count).1 = .ok .paused →
    simulator.breakpoints.check (simulator.steps outside count).2.machine.pc = false

theorem Unbroken.mono {limit larger : Nat} (unbroken : simulator.Unbroken outside larger) (less : limit ≤ larger) :
    simulator.Unbroken outside limit := by
  intro count begun before
  exact unbroken count begun (Nat.lt_of_lt_of_le before less)

/-- No breakpoint lies where the program comes. -/
theorem Unbroken.unhit (allowed : simulator.runError? = none) (quiet : outside.Quiet)
    (unasked : simulator.outstanding = none) {limit : Nat} (unbroken : simulator.Unbroken outside limit) {count : Nat}
    (begun : 0 < count) (before : count < limit) (live : (simulator.progress outside count).1 = none) :
    simulator.breakpoints.check (simulator.progress outside count).2.machine.pc = false := by
  obtain ⟨answer, comes⟩ := comes_steps allowed quiet unasked (.inr begun)
  rw [live] at answer
  rw [← comes.bare]
  exact unbroken count begun before answer

/-- How a run answers where the last of as many single steps leaves this: its limit, the termination or the fault. -/
inductive Accords : Except RunError ControlState × Simulator κ → Except RunError StopReason → Prop where
  | limit (after : Simulator κ) : Accords (.ok .paused, after) (.ok .stepLimit)
  | ended {after : Simulator κ} {termination : Termination} (ended : after.termination = some termination) :
    Accords (.ok .terminated, after) (.ok (.terminated termination))
  | fault (report : FaultReport) (after : Simulator κ) :
    Accords (.error (.fault report), after) (.error (.fault report))

omit [Console κ] in
theorem accords_answers {termination : Option Termination} {after : Simulator κ}
    (ended : termination.isSome → after.termination = termination) :
    Accords (stepAnswer termination, after) (runAnswer termination) := by
  cases termination with
  | none => exact .limit after
  | some termination =>
    cases termination with
    | fault report => exact .fault report after
    | exit | stopped | droppedOffBottom => exact .ended (ended rfl)

/--
Without requests and breakpoints on the way a run with a limit is so many single steps. A run without a limit has the
answer of every run with a limit that is large enough, and two runs, if the program goes on after the first, are one.
-/
theorem runs_as_steps (allowed : simulator.runError? = none) (quiet : outside.Quiet)
    (unasked : simulator.outstanding = none) :
    (∀ limit, 0 < limit → simulator.Unbroken outside limit →
      Accords (simulator.steps outside limit) (simulator.runLimited outside limit).1 ∧
        Alike (simulator.runLimited outside limit).2 (simulator.steps outside limit).2) ∧
    (∀ answer after,
      (Loop.Returns outside none simulator answer after ↔
        ∃ fuel, simulator.run? outside fuel = some (answer, after)) ∧
      (Loop.Returns outside none simulator answer after →
        ∃ enough, ∀ limit, enough ≤ limit → simulator.runLimited outside limit = (answer, after))) ∧
    (∀ first second, simulator.Unbroken outside (first + second) →
      (simulator.runLimited outside first).2.state ≠ .terminated →
      ((simulator.runLimited outside first).2.runLimited outside second).1 =
          (simulator.runLimited outside (first + second)).1 ∧
        Alike ((simulator.runLimited outside first).2.runLimited outside second).2
          (simulator.runLimited outside (first + second)).2) := by
  refine ⟨?_, ?_, ?_⟩
  · intro limit positive unbroken
    obtain ⟨ran, runs⟩ := comes_runLimited allowed quiet unasked fun _ => unbroken.unhit allowed quiet unasked
    obtain ⟨stepped, steps⟩ := comes_steps allowed quiet unasked (.inr positive)
    refine ⟨?_, runs.alike steps⟩
    show Accords ((simulator.steps outside limit).1, (simulator.steps outside limit).2) _
    rw [stepped, ran]
    apply accords_answers
    intro ended
    rw [steps.termination, Option.or_of_isSome ended]
  · exact fun answer after => ⟨Loop.returns_iff_exists_run allowed, Loop.runLimited_of_returns allowed⟩
  · intro first second unbroken goesOn
    have shorter : simulator.Unbroken outside first := unbroken.mono (Nat.le_add_right _ _)
    obtain ⟨-, comes⟩ := comes_runLimited allowed quiet unasked fun _ => shorter.unhit allowed quiet unasked
    obtain ⟨whole, runs⟩ := comes_runLimited allowed quiet unasked fun _ => unbroken.unhit allowed quiet unasked
    generalize (simulator.runLimited outside first).2 = middle at comes goesOn ⊢
    have live : (simulator.progress outside first).1 = none := by
      rw [← Option.not_isSome_iff_eq_none]
      intro ended
      exact goesOn (comes.state.trans (if_pos ended))
    have reached : simulator.progress outside first = (none, middle.bare) := Prod.ext live comes.bare.symm
    have paused : middle.state = .paused := by rw [comes.state, live]; rfl
    have resumable : middle.runError? = none := by rw [runError?, paused]
    have ends : middle.termination = simulator.termination := by rw [comes.termination, live]; rfl
    have watched : middle.breakpoints = simulator.breakpoints :=
      calc
        middle.bare.breakpoints = (simulator.progress outside first).2.breakpoints := by rw [reached]
        _ = simulator.breakpoints := simulator.breakpoints_progress outside first
    -- The second run begins where the first has come to, so it is the rest of the whole.
    obtain ⟨rest, continues⟩ := comes_runLimited resumable quiet comes.outstanding fun count begun before going => by
      rw [watched]
      rw [← progress_add reached] at going ⊢
      have inside := Nat.add_lt_add_left before first
      exact unbroken.unhit allowed quiet unasked (Nat.add_pos_right first begun) inside going
    rw [← progress_add reached second, ends] at continues
    rw [← progress_add reached second, ← whole] at rest
    exact ⟨rest, continues.alike runs⟩

end Simulator

end Mips

namespace Mips.Simulator

/-- Two instructions are executed alike, between a breakpoint at the first and one behind the second. -/
theorem runs_between_breakpoints :
    let program := Program.ofInstructions
      [(0x00400000, .ofImmediate .addiu .zero .gp 1), (0x00400004, .ofImmediate .addiu .gp .gp 1), (0x00400008, .nop)]
    let outside : Outside := ⟨fun _ => ⟨0, RandomStream.ofSeed⟩, fun _ _ => []⟩
    let simulator := { loaded {} program with breakpoints := (Breakpoints.empty.insert 0x00400000).insert 0x00400008 }
    simulator.runError? = none ∧ simulator.Unbroken outside 2 ∧
      (simulator.runLimited outside 2).2.machine.get .gp = 2 ∧
      Alike (simulator.runLimited outside 2).2 (simulator.steps outside 2).2 := by
  intro program outside simulator
  have allowed : simulator.runError? = none := by decide +kernel
  have unbroken : simulator.Unbroken outside 2 := by
    intro count begun before _
    obtain rfl : count = 1 := by omega
    decide +kernel
  have runs := (runs_as_steps allowed (fun _ _ => rfl) rfl).1 2 (by decide) unbroken
  exact ⟨allowed, unbroken, by decide +kernel, runs.2⟩

end Mips.Simulator
