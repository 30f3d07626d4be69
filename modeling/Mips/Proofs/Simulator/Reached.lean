import Mips.Proofs.Simulator.Backstepping

/-!
The states that simulators come to. Beside each of them stand the machines before the instructions that were
executed since the program was loaded, without those that were undone and with the latest one first. Main statements:
`Kept.step`, `Kept.runLimited` and `Kept.run`, by which every call keeps what single instructions keep, and
`Reached.step`, `Reached.runLimited` and `Reached.run`, by which it leads from one such state to another.
-/

namespace Mips

variable [Generator]

namespace Simulator

variable {κ : Type}

/-- There is a program to execute, and it has not ended. -/
def Live (simulator : Simulator κ) : Prop := simulator.state ≠ .idle ∧ simulator.state ≠ .terminated

instance (simulator : Simulator κ) : Decidable simulator.Live := inferInstanceAs (Decidable (_ ∧ _))

@[simp] theorem settings_setState (simulator : Simulator κ) (state : ControlState) :
    (simulator.setState state).settings = simulator.settings := by
  unfold setState
  split <;> rfl

@[simp] theorem state_setState (simulator : Simulator κ) (state : ControlState) :
    (simulator.setState state).state = state := by
  unfold setState
  split
  · assumption
  · rfl

@[simp] theorem settings_terminate (simulator : Simulator κ) (termination : Termination) :
    (simulator.terminate termination).settings = simulator.settings := by
  unfold terminate
  cases termination <;> exact settings_setState _ _

@[simp] theorem state_terminate (simulator : Simulator κ) (termination : Termination) :
    (simulator.terminate termination).state = .terminated := by
  unfold terminate
  cases termination <;> exact state_setState _ _

variable [Console κ]

/--
A simulator can come to this state, having executed an instruction in each of these machines. What is not the machine
may change at any time: the console, what is watched and told, and what is asked from outside.
-/
inductive Reached : Simulator κ → List Machine → Prop where
  | create {settings : Settings} {tree : FileTree} {console : κ} {simulator : Simulator κ}
      (created : create settings tree console = .ok simulator) : Reached simulator []
  | load {simulator : Simulator κ} {past : List Machine} (reached : Reached simulator past)
      (program : Program) : Reached (simulator.load program) []
  | reset {simulator : Simulator κ} {past : List Machine} (reached : Reached simulator past) :
    Reached simulator.reset []
  | advance {simulator : Simulator κ} {past : List Machine} (reached : Reached simulator past)
      (live : simulator.Live) (outside : Outside) :
    Reached (simulator.advance outside).2 (simulator.executing outside ++ past)
  | resume {simulator : Simulator κ} {past : List Machine} (reached : Reached simulator past)
      (live : simulator.Live) : Reached (simulator.setState .running) past
  | pause {simulator : Simulator κ} {past : List Machine} (reached : Reached simulator past)
      (live : simulator.Live) : Reached (simulator.setState .paused) past
  | stop {simulator : Simulator κ} {past : List Machine} (reached : Reached simulator past)
      (live : simulator.Live) : Reached (simulator.terminate .stopped) past
  | stepBack {simulator after : Simulator κ} {past : List Machine} (reached : Reached simulator past)
      (undone : simulator.stepBack = some after) : Reached after past.tail
  | setRegister {simulator : Simulator κ} {past : List Machine} (reached : Reached simulator past)
      (register : Register) (value : Word) : Reached (simulator.setRegister register value) past
  | poke {simulator after : Simulator κ} {past : List Machine} (reached : Reached simulator past)
      {width : Width} {address : Address} {value : Word} (poked : simulator.poke width address value = .ok after) :
    Reached after past
  | aside {simulator : Simulator κ} {past : List Machine} (reached : Reached simulator past) (console : κ)
      (breakpoints : Breakpoints) (accesses : Accesses) (events : EventChannel) (outstanding : Option Request) :
    Reached { simulator with console, breakpoints, accesses, events, outstanding } past

/-- An instruction after which the program goes on leaves the simulator as live as it was. -/
theorem state_advance {simulator : Simulator κ} {outside : Outside}
    (continues : (simulator.advance outside).1 = none) : (simulator.advance outside).2.state = simulator.state := by
  cases found : simulator.nextStep? outside with
  | none =>
    rw [advance_of_none found] at continues
    cases continues
  | some step =>
    rw [advance_of_some found] at continues ⊢
    cases ending : step.ending with
    | completed => rfl
    | exited code | faulted report =>
      rw [ending] at continues
      cases continues

theorem executing_of_isSome {simulator : Simulator κ} {outside : Outside}
    (found : (simulator.nextStep? outside).isSome = true) : simulator.executing outside = [simulator.machine] := by
  obtain ⟨step, same⟩ := Option.isSome_iff_exists.1 found
  simp [executing, same]

/-- An instruction is executed at most once. -/
theorem reverse_executing (simulator : Simulator κ) (outside : Outside) :
    (simulator.executing outside).reverse = simulator.executing outside := by
  unfold executing
  cases simulator.nextStep? outside <;> rfl

omit [Console κ] in
theorem live_of_runError? {simulator : Simulator κ} (allowed : simulator.runError? = none) : simulator.Live := by
  unfold runError? at allowed
  unfold Live
  cases state : simulator.state <;> simp_all

/--
What holds of simulators and the machines before them, whatever instruction is executed and whatever a run does around
its instructions. What is not the machine may change at any time.
-/
structure Kept (holds : Simulator κ → List Machine → Prop) : Prop where
  advance : ∀ {simulator : Simulator κ} {past : List Machine}, holds simulator past → simulator.Live →
    ∀ outside, holds (simulator.advance outside).2 (simulator.executing outside ++ past)
  resume : ∀ {simulator : Simulator κ} {past : List Machine}, holds simulator past → simulator.Live →
    holds (simulator.setState .running) past
  pause : ∀ {simulator : Simulator κ} {past : List Machine}, holds simulator past → simulator.Live →
    holds (simulator.setState .paused) past
  stop : ∀ {simulator : Simulator κ} {past : List Machine}, holds simulator past → simulator.Live →
    holds (simulator.terminate .stopped) past
  aside : ∀ {simulator : Simulator κ} {past : List Machine}, holds simulator past →
    ∀ console breakpoints accesses events outstanding,
      holds { simulator with console, breakpoints, accesses, events, outstanding } past

namespace Kept

variable {holds : Simulator κ → List Machine → Prop} (kept : Kept holds) {simulator : Simulator κ}
  {past : List Machine} (held : holds simulator past)

include kept held

/-- A single step keeps what holds. -/
theorem step (outside : Outside) :
    holds (simulator.step outside).2 (simulator.executedByStep outside ++ past) := by
  unfold Simulator.step executedByStep
  cases allowed : simulator.runError? with
  | some error => exact held
  | none =>
    have live := live_of_runError? allowed
    have watched : holds { simulator with accesses := .empty } past := kept.aside held _ _ _ _ _
    have advanced := kept.advance watched live outside
    dsimp only [Option.isNone_none, if_true]
    split
    next continues =>
      refine kept.pause advanced ?_
      rw [Live, state_advance continues]
      exact live
    next => exact advanced
    next => exact advanced

theorem checkpoint (executed : Nat) : holds (simulator.checkpoint executed).2 past := by
  unfold Simulator.checkpoint
  split
  · exact kept.aside held _ _ _ _ _
  · exact held

/-- A run keeps what holds, and ends the program only if it says so. -/
theorem runFrom (live : simulator.Live) (outside : Outside) (remaining executed : Nat) :
    let answer := Simulator.runFrom outside remaining executed simulator
    holds answer.2 ((executedFrom outside remaining executed simulator).reverse ++ past) ∧
      ((∀ termination, answer.1 ≠ .terminated termination) → answer.2.Live) := by
  intro answer
  -- By induction on what the run may still execute: each instruction advances a live simulator.
  induction remaining generalizing executed simulator past with
  | zero => exact ⟨held, fun _ => live⟩
  | succ remaining ih =>
    have polled := kept.checkpoint held executed
    have same : (simulator.checkpoint executed).2.state = simulator.state := by
      unfold Simulator.checkpoint
      split <;> rfl
    simp only [answer, Simulator.runFrom, executedFrom]
    cases answered : simulator.checkpoint executed with
    | mk request checked =>
      rw [answered] at polled same
      have liveChecked : checked.Live := by
        rw [Live, same]
        exact live
      cases request with
      | some request =>
        cases request with
        | pause => exact ⟨polled, fun _ => liveChecked⟩
        | stop => exact ⟨kept.stop polled liveChecked, fun goesOn => absurd rfl (goesOn .stopped)⟩
      | none =>
        dsimp only
        split
        · exact ⟨kept.aside polled _ _ _ _ _, fun _ => liveChecked⟩
        · have advanced := kept.advance polled liveChecked outside
          have stays : (checked.advance outside).1 = none → (checked.advance outside).2.state = checked.state :=
            state_advance
          cases outcome : checked.advance outside with
          | mk termination after =>
            rw [outcome] at advanced stays
            cases termination with
            | some termination =>
              refine ⟨?_, fun goesOn => absurd rfl (goesOn termination)⟩
              rw [List.append_nil, checked.reverse_executing]
              exact advanced
            | none =>
              have liveAfter : after.Live := by
                rw [Live, stays rfl]
                exact liveChecked
              have later := ih advanced liveAfter (executed + 1)
              rw [List.reverse_append, List.append_assoc, checked.reverse_executing]
              exact later

theorem finish (reason : StopReason)
    (live : (∀ termination, reason ≠ .terminated termination) → simulator.Live) :
    holds (Simulator.finish reason simulator).2 past := by
  have answered : holds simulator.takeRequest.2 past := kept.aside held _ _ _ _ _
  unfold Simulator.finish
  split
  next => exact answered
  next => exact answered
  next goesOn => exact kept.pause answered (live fun termination same => goesOn termination same)

/-- A run of at most so many instructions keeps what holds. -/
theorem runLimited (outside : Outside) (limit : Nat) :
    holds (simulator.runLimited outside limit).2 ((simulator.executedByRun outside limit).reverse ++ past) := by
  unfold Simulator.runLimited executedByRun
  cases allowed : simulator.runError? with
  | some error => exact held
  | none =>
    have watched : holds { simulator with accesses := .empty } past := kept.aside held _ _ _ _ _
    have running := kept.resume watched (live_of_runError? allowed)
    have live : ({ simulator with accesses := .empty }.setState .running).Live := by simp [Live]
    obtain ⟨ran, goesOn⟩ := kept.runFrom running live outside limit 0
    exact kept.finish ran _ goesOn

/-- A run without a limit keeps what holds. -/
theorem run {outside : Outside} {fuel : Nat} {after : Simulator κ} {answer : Except RunError StopReason}
    (ended : simulator.run? outside fuel = some (answer, after)) :
    holds after ((simulator.executedByRun outside fuel).reverse ++ past) := by
  have ran := kept.runLimited held outside fuel
  rwa [runLimited_of_run ended] at ran

end Kept

theorem kept_reached : Kept (Reached (κ := κ)) where
  advance reached live outside := reached.advance live outside
  resume reached live := reached.resume live
  pause reached live := reached.pause live
  stop reached live := reached.stop live
  aside reached := reached.aside

namespace Reached

variable {simulator : Simulator κ} {past : List Machine}

/-- A single step leads to a state that can be reached. -/
theorem step (reached : Reached simulator past) (outside : Outside) :
    Reached (simulator.step outside).2 (simulator.executedByStep outside ++ past) :=
  kept_reached.step reached outside

/-- A run of at most so many instructions leads to a state that can be reached. -/
theorem runLimited (reached : Reached simulator past) (outside : Outside) (limit : Nat) :
    Reached (simulator.runLimited outside limit).2 ((simulator.executedByRun outside limit).reverse ++ past) :=
  kept_reached.runLimited reached outside limit

/-- A run without a limit leads to a state that can be reached. -/
theorem run (reached : Reached simulator past) {outside : Outside} {fuel : Nat} {after : Simulator κ}
    {answer : Except RunError StopReason} (ended : simulator.run? outside fuel = some (answer, after)) :
    Reached after ((simulator.executedByRun outside fuel).reverse ++ past) :=
  kept_reached.run reached ended

end Reached

end Simulator

/-- The program that consists of instructions at these addresses, and starts at the first of them. -/
def Program.ofInstructions (placed : List (Address × Instruction)) : Program where
  statements := placed.foldl
    (fun statements (address, instruction) => statements.insert address ⟨address, instruction, 0, 1, none⟩) ∅
  data := ∅
  symbols := .empty
  entry := (placed.map Prod.fst).headD 0
  warnings := []
  files := []

namespace Simulator

/-- A simulator in which a program was just loaded. -/
def loaded (settings : Settings) (program : Program) : Simulator SilentConsole :=
  load ⟨settings, .blank settings, .empty (undoCapacity settings), {}, .empty, .empty, {}, none, none, .idle, none,
    0, 0⟩ program

theorem reached_loaded {settings : Settings} (valid : settings.error? ⟨[], []⟩ = none) (program : Program) :
    Reached (loaded settings program) [] := by
  have created : create settings ⟨[], []⟩ ({} : SilentConsole) = .ok ⟨settings, .blank settings,
      .empty (undoCapacity settings), {}, .empty, .empty, {}, none, none, .idle, none, 0, 0⟩ := by
    unfold create
    rw [valid]
  exact (Reached.create created).load program

end Simulator

end Mips
