import Mips.Proofs.Simulator.Breakpoints

/-!
How the loop of a run comes to poll. What it takes with an action and how far it leads the program, and how soon a loop
that was asked to pause or to stop returns. Main statements: `Acts.whole`, `Acts.counted` and `returns_of_asked`.
-/

namespace Mips

variable [Generator]

/-- No request is made while an instruction is executed. -/
def Outside.silent (surroundings : Nat → Surroundings) : Outside := ⟨surroundings, fun _ _ => []⟩

/-- Whether the loop takes what is outstanding with its next action. -/
def LoopPhase.takes : LoopPhase → Bool
  | .poll | .leave _ => true
  | _ => false

namespace Loop

variable {κ : Type} [Console κ] {surroundings : Nat → Surroundings} {limit : Option Nat} {before after : Loop κ}

theorem quiet_silent (surroundings : Nat → Surroundings) : (Outside.silent surroundings).Quiet := fun _ _ => rfl

omit [Console κ] in
theorem outstanding_finish (reason : StopReason) (simulator : Simulator κ) :
    (Simulator.finish reason simulator).2.outstanding = none := by
  unfold Simulator.finish
  split
  · rfl
  · rfl
  · exact Simulator.outstanding_setState _ _

omit [Console κ] in
theorem bare_finish (reason : StopReason) (simulator : Simulator κ) :
    (Simulator.finish reason simulator).2.bare = simulator.bare := by
  unfold Simulator.finish
  split
  · rfl
  · rfl
  · exact Simulator.bare_setState _ _

/-- If no request arrives then the loop leaves what is outstanding, unless it takes it. -/
theorem Acts.outstanding (acts : before.Acts (.silent surroundings) limit after) :
    after.simulator.outstanding = if before.phase.takes then none else before.simulator.outstanding := by
  cases acts with
  | limited | due | undue | clear | hit => rfl
  | unasked | pause => rfl
  | stop => exact Simulator.outstanding_terminate _ _
  | @completes _ simulator _ advanced | @ends _ simulator _ _ advanced =>
    have kept := Simulator.outstanding_advance (quiet_silent surroundings) simulator
    rw [advanced] at kept
    exact kept
  | @returns _ simulator _ reason _ finished =>
    have dropped := outstanding_finish reason simulator
    rw [finished] at dropped
    exact dropped

/-- The loop has led the program through whole instructions, as many as it has counted until it leaves. -/
def Whole (start : Simulator κ) (outside : Outside) (loop : Loop κ) : Prop :=
  match loop.phase with
  | .leave _ | .returned _ => ∃ count, (start.progress outside count).2 = loop.simulator.bare
  | _ => start.progress outside loop.executed = (none, loop.simulator.bare)

theorem Whole.progress {start : Simulator κ} {outside : Outside} {loop : Loop κ} (whole : Whole start outside loop) :
    ∃ count, (start.progress outside count).2 = loop.simulator.bare := by
  unfold Whole at whole
  split at whole
  · exact whole
  · exact whole
  · exact ⟨loop.executed, congrArg Prod.snd whole⟩

theorem Acts.whole {start : Simulator κ} {outside : Outside} (acts : before.Acts outside limit after)
    (whole : Whole start outside before) : Whole start outside after := by
  cases acts with
  | due | undue | clear | unasked => exact whole
  | limited | hit | pause =>
    obtain ⟨count, reached⟩ := Whole.progress whole
    exact ⟨count, reached⟩
  | @stop _ simulator =>
    obtain ⟨count, reached⟩ := Whole.progress whole
    have kept : (simulator.takeRequest.2.terminate .stopped).bare = simulator.bare := Simulator.bare_terminate _ _
    exact ⟨count, reached.trans kept.symm⟩
  | completes advanced =>
    exact (Simulator.progress_add whole 1).trans (Simulator.progress_of_advance advanced 0)
  | @ends executed _ _ _ advanced =>
    have ended := (Simulator.progress_add whole 1).trans (Simulator.progress_of_end advanced 0)
    exact ⟨executed + 1, congrArg Prod.snd ended⟩
  | @returns _ simulator _ reason _ finished =>
    obtain ⟨count, reached⟩ := Whole.progress whole
    have kept := bare_finish reason simulator
    rw [finished] at kept
    exact ⟨count, reached.trans kept.symm⟩

theorem Acts.settings {outside : Outside} (acts : before.Acts outside limit after) :
    after.simulator.settings = before.simulator.settings := by
  cases acts with
  | limited | due | undue | clear | hit => rfl
  | unasked | pause => rfl
  | stop => exact Simulator.settings_terminate _ _
  | @completes _ simulator _ advanced | @ends _ simulator _ _ advanced =>
    have kept := simulator.settings_advance outside
    rw [advanced] at kept
    exact kept
  | @returns _ simulator _ reason _ finished =>
    have kept : (Simulator.finish reason simulator).2.bare.settings = simulator.bare.settings := by rw [bare_finish]
    rw [finished] at kept
    exact kept

section Polls

/-- How many instructions the loop can execute before it polls again. -/
def untilPoll (loop : Loop κ) : Nat :=
  let interval := loop.simulator.settings.checkpointInterval
  match loop.phase with
  | .compare => (interval - loop.executed % interval) % interval
  | .look | .execute => interval - loop.executed % interval
  | .poll | .leave _ | .returned _ => 0

/-- The loop leaves when it polls, or it has left. -/
def Asked (loop : Loop κ) : Prop :=
  match loop.phase with
  | .leave _ | .returned _ => True
  | _ => loop.simulator.outstanding ≠ none

omit [Console κ] in
theorem asked_of_outstanding {loop : Loop κ} (outstanding : loop.simulator.outstanding ≠ none) : Asked loop := by
  unfold Asked
  split
  · trivial
  · trivial
  · exact outstanding

theorem Acts.asked (acts : before.Acts (.silent surroundings) limit after) (asked : Asked before) : Asked after := by
  have kept := acts.outstanding
  cases acts with
  | limited | hit | ends | pause | stop | returns => trivial
  | unasked none => exact absurd none asked
  | due | undue | clear | completes =>
    apply asked_of_outstanding
    rw [kept]
    exact asked

omit [Generator] in
theorem rest_succ {interval : Nat} (positive : 0 < interval) (executed : Nat) :
    (interval - (executed + 1) % interval) % interval + 1 = interval - executed % interval := by
  have less : executed % interval < interval := Nat.mod_lt _ positive
  rw [← Nat.mod_add_mod]
  by_cases last : executed % interval + 1 = interval
  · rw [last, Nat.mod_self, Nat.sub_zero, Nat.mod_self]
    omega
  · have further : executed % interval + 1 < interval := by omega
    have rest : interval - (executed % interval + 1) < interval := by omega
    rw [Nat.mod_eq_of_lt further, Nat.mod_eq_of_lt rest]
    omega

theorem executing_length_le (simulator : Simulator κ) (outside : Outside) :
    (simulator.executing outside).length ≤ 1 := by
  unfold Simulator.executing
  cases simulator.nextStep? outside with
  | none => exact Nat.zero_le _
  | some step => exact Nat.le_refl _

/-- What a loop that was asked executes is taken from what it may execute before it polls. -/
theorem Acts.counted (acts : before.Acts (.silent surroundings) limit after) (asked : Asked before)
    (positive : 0 < before.simulator.settings.checkpointInterval) :
    after.simulator.instructionsRun + after.untilPoll ≤ before.simulator.instructionsRun + before.untilPoll := by
  have settings := acts.settings
  cases acts with
  | limited | due | hit | pause => exact Nat.le_add_right _ _
  | unasked none => exact absurd none asked
  | @stop _ simulator =>
    show (simulator.takeRequest.2.terminate .stopped).instructionsRun + 0 ≤ simulator.instructionsRun + 0
    rw [Simulator.instructionsRun_terminate]
    exact Nat.le_refl _
  | @undue executed simulator _ undue =>
    have intervals : 0 < simulator.settings.checkpointInterval := positive
    have rest := Nat.mod_eq_of_lt (show simulator.settings.checkpointInterval -
      executed % simulator.settings.checkpointInterval < simulator.settings.checkpointInterval by omega)
    exact Nat.add_le_add_left (Nat.le_of_eq rest.symm) _
  | clear => exact Nat.le_refl _
  | @completes executed simulator later advanced =>
    have counted := simulator.instructionsRun_advance (.silent surroundings)
    have once := executing_length_le simulator (.silent surroundings)
    have rest := rest_succ positive executed
    rw [advanced] at counted
    dsimp only [untilPoll] at settings counted rest ⊢
    rw [settings, ← rest]
    omega
  | @ends executed simulator later _ advanced =>
    have counted := simulator.instructionsRun_advance (.silent surroundings)
    have once := executing_length_le simulator (.silent surroundings)
    have less := Nat.mod_lt executed positive
    rw [advanced] at counted
    dsimp only [untilPoll] at counted less ⊢
    omega
  | @returns _ simulator later reason _ finished =>
    have kept : (Simulator.finish reason simulator).2.bare.instructionsRun = simulator.bare.instructionsRun := by
      rw [bare_finish]
    rw [finished] at kept
    exact Nat.add_le_add_right (Nat.le_of_eq kept) 0

/-- What bounds the actions of a loop that was asked. -/
def rank (loop : Loop κ) : Nat :=
  4 * loop.untilPoll +
    match loop.phase with
    | .compare => 4
    | .poll | .look => 3
    | .execute => 2
    | .leave _ => 1
    | .returned _ => 0

theorem Acts.rank_lt (acts : before.Acts (.silent surroundings) limit after) (asked : Asked before)
    (positive : 0 < before.simulator.settings.checkpointInterval) : after.rank < before.rank := by
  have counted := acts.counted asked positive
  unfold rank
  cases acts with
  | unasked none => exact absurd none asked
  | limited | due | hit | pause | stop | ends | returns =>
    dsimp only [untilPoll]
    omega
  | undue | clear =>
    dsimp only at counted ⊢
    omega
  | @completes _ simulator _ advanced =>
    have once := simulator.instructionsRun_advance (.silent surroundings)
    rw [Simulator.executing_of_advance advanced, advanced] at once
    dsimp only [List.length_singleton] at counted once ⊢
    omega

/-- A loop that has not returned has something to do. -/
theorem exists_acts (outside : Outside) (limit : Option Nat) (loop : Loop κ) :
    (∃ answer, loop.phase = .returned answer) ∨ ∃ after, loop.Acts outside limit after := by
  obtain ⟨phase, executed, simulator⟩ := loop
  cases phase with
  | returned answer => exact .inl ⟨answer, rfl⟩
  | leave reason => exact .inr ⟨_, .returns rfl⟩
  | execute =>
    cases advanced : simulator.advance outside with
    | mk termination after =>
      cases termination with
      | none => exact .inr ⟨_, .completes advanced⟩
      | some termination => exact .inr ⟨_, .ends advanced⟩
  | look =>
    cases hit : (0 < executed && simulator.breakpoints.check simulator.machine.pc : Bool) with
    | true => exact .inr ⟨_, .hit hit⟩
    | false => exact .inr ⟨_, .clear hit⟩
  | poll =>
    cases asked : simulator.outstanding with
    | none => exact .inr ⟨_, .unasked asked⟩
    | some request =>
      cases request with
      | pause => exact .inr ⟨_, .pause asked⟩
      | stop => exact .inr ⟨_, .stop asked⟩
  | compare =>
    cases reached : limit.any (· ≤ executed) with
    | true => exact .inr ⟨_, .limited reached⟩
    | false =>
      by_cases due : executed % simulator.settings.checkpointInterval = 0
      · exact .inr ⟨_, .due reached due⟩
      · exact .inr ⟨_, .undue reached due⟩

/-- A loop that was asked returns. -/
theorem returns_of_asked {loop : Loop κ} (asked : Asked loop)
    (positive : 0 < loop.simulator.settings.checkpointInterval) (surroundings : Nat → Surroundings)
    (limit : Option Nat) :
    ∃ answer executed after, Leads (.silent surroundings) limit loop ⟨.returned answer, executed, after⟩ := by
  induction bounded : loop.rank using Nat.strongRecOn generalizing loop with
  | ind rank ih =>
    rcases exists_acts (.silent surroundings) limit loop with ⟨answer, returned⟩ | ⟨after, acts⟩
    · obtain ⟨phase, executed, simulator⟩ := loop
      obtain rfl : phase = .returned answer := returned
      exact ⟨answer, executed, simulator, .refl⟩
    · have less := acts.rank_lt asked positive
      rw [bounded] at less
      obtain ⟨answer, executed, final, leads⟩ := ih _ less (acts.asked asked) (acts.settings ▸ positive) rfl
      exact ⟨answer, executed, final, (Leads.single acts).trans leads⟩

end Polls

end Loop

end Mips
