import Mips.Proofs.Simulator.Reached

/-!
The loop of a run, one action after another, with a limit or without. Main statements: `returns_runLimited`,
`runLimited_of_returns` and `returns_iff_exists_run`, by which the loop comes to the answers of `runLimited` and `run?`.
-/

namespace Mips

open Relation (ReflTransGen)

variable [Generator]

/-- What the loop of a run does next. -/
inductive LoopPhase where
  /-- It compares how much it has executed with its limit. -/
  | compare
  /-- It takes the request that is outstanding, if there is one. -/
  | poll
  /-- It looks whether it has come to a breakpoint. -/
  | look
  | execute
  /-- It drops the requests that came too late, and gives its answer. -/
  | leave (reason : StopReason)
  | returned (answer : Except RunError StopReason)

/-- The loop of a run: what it does next, how many instructions it has executed, and the simulator it works on. -/
structure Loop (κ : Type) where
  phase : LoopPhase
  executed : Nat
  simulator : Simulator κ

/-- The loop of a run that begins. -/
def Simulator.loop {κ : Type} (simulator : Simulator κ) : Loop κ :=
  ⟨.compare, 0, { simulator with accesses := .empty }.setState .running⟩

namespace Loop

variable {κ : Type} [Console κ] {outside : Outside} {limit : Option Nat}

/-- One action of the loop. It reads and writes the outstanding request at once, and only to poll and to leave. -/
inductive Acts (outside : Outside) (limit : Option Nat) : Loop κ → Loop κ → Prop where
  | limited {executed : Nat} {simulator : Simulator κ} (reached : limit.any (· ≤ executed) = true) :
    Acts outside limit ⟨.compare, executed, simulator⟩ ⟨.leave .stepLimit, executed, simulator⟩
  | due {executed : Nat} {simulator : Simulator κ} (room : limit.any (· ≤ executed) = false)
      (due : executed % simulator.settings.checkpointInterval = 0) :
    Acts outside limit ⟨.compare, executed, simulator⟩ ⟨.poll, executed, simulator⟩
  | undue {executed : Nat} {simulator : Simulator κ} (room : limit.any (· ≤ executed) = false)
      (undue : executed % simulator.settings.checkpointInterval ≠ 0) :
    Acts outside limit ⟨.compare, executed, simulator⟩ ⟨.look, executed, simulator⟩
  | unasked {executed : Nat} {simulator : Simulator κ} (asked : simulator.outstanding = none) :
    Acts outside limit ⟨.poll, executed, simulator⟩ ⟨.look, executed, simulator.takeRequest.2⟩
  | pause {executed : Nat} {simulator : Simulator κ} (asked : simulator.outstanding = some .pause) :
    Acts outside limit ⟨.poll, executed, simulator⟩ ⟨.leave .paused, executed, simulator.takeRequest.2⟩
  | stop {executed : Nat} {simulator : Simulator κ} (asked : simulator.outstanding = some .stop) :
    Acts outside limit ⟨.poll, executed, simulator⟩
      ⟨.leave (.terminated .stopped), executed, simulator.takeRequest.2.terminate .stopped⟩
  | hit {executed : Nat} {simulator : Simulator κ}
      (hit : (0 < executed && simulator.breakpoints.check simulator.machine.pc) = true) :
    Acts outside limit ⟨.look, executed, simulator⟩
      ⟨.leave (.breakpoint simulator.machine.pc), executed, simulator.emit (.breakpoint simulator.machine.pc)⟩
  | clear {executed : Nat} {simulator : Simulator κ}
      (clear : (0 < executed && simulator.breakpoints.check simulator.machine.pc) = false) :
    Acts outside limit ⟨.look, executed, simulator⟩ ⟨.execute, executed, simulator⟩
  | completes {executed : Nat} {simulator after : Simulator κ} (advanced : simulator.advance outside = (none, after)) :
    Acts outside limit ⟨.execute, executed, simulator⟩ ⟨.compare, executed + 1, after⟩
  | ends {executed : Nat} {simulator after : Simulator κ} {termination : Termination}
      (advanced : simulator.advance outside = (some termination, after)) :
    Acts outside limit ⟨.execute, executed, simulator⟩ ⟨.leave (.terminated termination), executed, after⟩
  | returns {executed : Nat} {simulator after : Simulator κ} {reason : StopReason} {answer : Except RunError StopReason}
      (finished : Simulator.finish reason simulator = (answer, after)) :
    Acts outside limit ⟨.leave reason, executed, simulator⟩ ⟨.returned answer, executed, after⟩

/-- One action after another leads from a loop to another, if no request arrives but during an instruction. -/
def Leads (outside : Outside) (limit : Option Nat) : Loop κ → Loop κ → Prop := ReflTransGen (Acts outside limit)

/-- The loop of a run comes to this answer, and leaves the simulator so. -/
def Returns (outside : Outside) (limit : Option Nat) (simulator : Simulator κ) (answer : Except RunError StopReason)
    (after : Simulator κ) : Prop :=
  ∃ executed, Leads outside limit simulator.loop ⟨.returned answer, executed, after⟩

theorem Leads.single {before after : Loop κ} (acts : Acts outside limit before after) :
    Leads outside limit before after := ReflTransGen.single acts

theorem Leads.trans {first second third : Loop κ} (before : Leads outside limit first second)
    (after : Leads outside limit second third) : Leads outside limit first third := ReflTransGen.trans before after

theorem Leads.tail {first second third : Loop κ} (before : Leads outside limit first second)
    (acts : Acts outside limit second third) : Leads outside limit first third := ReflTransGen.tail before acts

section Rounds

variable {executed : Nat} {simulator checked : Simulator κ} (room : limit.any (· ≤ executed) = false)

include room

/-- A loop that finds no request looks for a breakpoint. -/
theorem leads_look (unasked : simulator.checkpoint executed = (none, checked)) :
    Leads outside limit ⟨.compare, executed, simulator⟩ ⟨.look, executed, checked⟩ := by
  unfold Simulator.checkpoint at unasked
  split at unasked
  next due =>
    obtain ⟨asked, rfl⟩ := Prod.mk.inj unasked
    exact (Leads.single (.due room due)).tail (.unasked asked)
  next undue =>
    cases unasked
    exact .single (.undue room undue)

/-- A loop that finds a request leaves, and ends the program if it was asked to. -/
theorem leads_leave {request : Request} (asked : simulator.checkpoint executed = (some request, checked)) :
    Leads outside limit ⟨.compare, executed, simulator⟩
      (match request with
        | .pause => ⟨.leave .paused, executed, checked⟩
        | .stop => ⟨.leave (.terminated .stopped), executed, checked.terminate .stopped⟩) := by
  unfold Simulator.checkpoint at asked
  split at asked
  next due =>
    obtain ⟨found, rfl⟩ := Prod.mk.inj asked
    have polls : Leads outside limit ⟨.compare, executed, simulator⟩ ⟨.poll, executed, simulator⟩ :=
      .single (.due room due)
    cases request with
    | pause => exact polls.tail (.pause found)
    | stop => exact polls.tail (.stop found)
  next => cases asked

end Rounds

/--
A run that may execute so many instructions either ends before, or it executes them all and then compares what it has
executed with its limit.
-/
theorem leads_runFrom {remaining executed : Nat} {simulator after : Simulator κ} {reason : StopReason}
    (room : ∀ count, count < remaining → limit.any (· ≤ executed + count) = false)
    (ran : Simulator.runFrom outside remaining executed simulator = (reason, after)) :
    reason = .stepLimit ∧ Leads outside limit ⟨.compare, executed, simulator⟩ ⟨.compare, executed + remaining, after⟩ ∨
      reason ≠ .stepLimit ∧
        ∃ total, Leads outside limit ⟨.compare, executed, simulator⟩ ⟨.leave reason, total, after⟩ := by
  induction remaining generalizing executed simulator with
  | zero =>
    cases ran
    exact .inl ⟨rfl, .refl⟩
  | succ remaining ih =>
    have here : limit.any (· ≤ executed) = false := room 0 (Nat.succ_pos _)
    unfold Simulator.runFrom at ran
    cases polled : simulator.checkpoint executed with
    | mk request checked =>
      rw [polled] at ran
      cases request with
      | some request =>
        refine .inr ?_
        cases request with
        | pause | stop =>
          cases ran
          exact ⟨by simp, executed, leads_leave here polled⟩
      | none =>
        have looks : Leads outside limit _ ⟨.look, executed, checked⟩ := leads_look here polled
        dsimp only at ran
        split at ran
        next hit =>
          cases ran
          exact .inr ⟨by simp, executed, looks.tail (.hit hit)⟩
        next clear =>
          have executes := looks.tail (.clear (eq_false_of_ne_true clear))
          cases advanced : checked.advance outside with
          | mk termination later =>
            rw [advanced] at ran
            cases termination with
            | some termination =>
              cases ran
              exact .inr ⟨by simp, executed, executes.tail (.ends advanced)⟩
            | none =>
              have completes := executes.tail (.completes advanced)
              have roomLater : ∀ count, count < remaining → limit.any (· ≤ executed + 1 + count) = false := by
                intro count less
                have later := room (count + 1) (Nat.succ_lt_succ less)
                rwa [← Nat.add_assoc, Nat.add_right_comm] at later
              have rest := ih roomLater ran
              rw [Nat.add_right_comm] at rest
              exact rest.imp (fun all => ⟨all.1, completes.trans all.2⟩)
                fun ended => ⟨ended.1, ended.2.imp fun _ => completes.trans⟩

omit [Console κ] in
theorem finish_ne_stepLimit {reason : StopReason} {simulator after : Simulator κ} {answer : Except RunError StopReason}
    (other : reason ≠ .stepLimit) (finished : Simulator.finish reason simulator = (answer, after)) :
    answer ≠ .ok .stepLimit := by
  unfold Simulator.finish at finished
  split at finished
  next =>
    cases finished
    nofun
  next =>
    cases finished
    nofun
  next =>
    cases finished
    exact fun same => other (Except.ok.inj same)

/-- The loop of a run without a limit never leaves because of one. -/
theorem unlimited_of_leads {start after : Loop κ} (leads : Leads outside none start after)
    (begun : start.phase = .compare) : after.phase ≠ .leave .stepLimit ∧ after.phase ≠ .returned (.ok .stepLimit) := by
  induction leads with
  | refl =>
    rw [begun]
    exact ⟨nofun, nofun⟩
  | tail _ acts ih =>
    cases acts with
    | limited reached => cases reached
    | @returns _ _ _ reason _ finished =>
      have other : reason ≠ .stepLimit := fun same => ih.1 (congrArg LoopPhase.leave same)
      exact ⟨nofun, fun same => finish_ne_stepLimit other finished (LoopPhase.returned.inj same)⟩
    | due | undue | unasked | pause | stop | hit | clear | completes | ends => exact ⟨nofun, nofun⟩

/-- A loop has never executed less than before. -/
theorem Acts.executed_le {before after : Loop κ} (acts : Acts outside limit before after) :
    before.executed ≤ after.executed := by
  cases acts with
  | completes => exact Nat.le_succ _
  | limited | due | undue | unasked | pause | stop | hit | clear | ends | returns => exact Nat.le_refl _

/-- A limit has no effect before it is reached. -/
theorem Acts.of_lt {before after : Loop κ} (acts : Acts outside none before after) {limit : Nat}
    (less : before.executed < limit) : Acts outside (some limit) before after := by
  have room : (some limit).any (· ≤ before.executed) = false := decide_eq_false (Nat.not_le.2 less)
  cases acts with
  | limited reached => cases reached
  | due _ due => exact .due room due
  | undue _ undue => exact .undue room undue
  | unasked asked => exact .unasked asked
  | pause asked => exact .pause asked
  | stop asked => exact .stop asked
  | hit hit => exact .hit hit
  | clear clear => exact .clear clear
  | completes advanced => exact .completes advanced
  | ends advanced => exact .ends advanced
  | returns finished => exact .returns finished

theorem Leads.of_lt {before after : Loop κ} (leads : Leads outside none before after) {limit : Nat}
    (less : after.executed < limit) : Leads outside (some limit) before after := by
  induction leads with
  | refl => exact .refl
  | tail _ acts ih =>
    have earlier := Nat.lt_of_le_of_lt acts.executed_le less
    exact (ih earlier).tail (acts.of_lt earlier)

/-- What the loop does next is determined by what it has come to. -/
theorem rightUnique_acts : Relator.RightUnique (Acts (κ := κ) outside limit) := by
  intro before first second one other
  cases one <;> cases other <;> simp_all

/-- A loop that has returned does nothing more, so there is but one answer that it comes to. -/
theorem Leads.unique {start : Loop κ} {answer other : Except RunError StopReason} {executed total : Nat}
    {after later : Simulator κ} (first : Leads outside limit start ⟨.returned answer, executed, after⟩)
    (second : Leads outside limit start ⟨.returned other, total, later⟩) : (answer, after) = (other, later) := by
  have halts {answer : Except RunError StopReason} {executed : Nat} {after : Simulator κ} {next : Loop κ}
      (leads : Leads outside limit ⟨.returned answer, executed, after⟩ next) :
      (⟨.returned answer, executed, after⟩ : Loop κ) = next := by
    rcases ReflTransGen.cases_head leads with same | ⟨_, acts, _⟩
    · exact same
    · cases acts
  have same : (⟨.returned answer, executed, after⟩ : Loop κ) = ⟨.returned other, total, later⟩ := by
    rcases ReflTransGen.total_of_right_unique rightUnique_acts first second with ahead | behind
    · exact halts ahead
    · exact (halts behind).symm
  cases same
  rfl

section Answers

variable {simulator after : Simulator κ} {answer : Except RunError StopReason}

theorem runLimited_eq (allowed : simulator.runError? = none) (outside : Outside) (limit : Nat) :
    simulator.runLimited outside limit =
      Simulator.finish (Simulator.runFrom outside limit 0 simulator.loop.simulator).1
        (Simulator.runFrom outside limit 0 simulator.loop.simulator).2 := by
  simp only [Simulator.runLimited, allowed]
  rfl

theorem executedByRun_eq (allowed : simulator.runError? = none) (outside : Outside) (limit : Nat) :
    simulator.executedByRun outside limit = Simulator.executedFrom outside limit 0 simulator.loop.simulator := by
  rw [Simulator.executedByRun, allowed]
  rfl

/-- A run with a limit gives the answer that its loop comes to. -/
theorem returns_runLimited (allowed : simulator.runError? = none) (outside : Outside) (limit : Nat) :
    Returns outside (some limit) simulator (simulator.runLimited outside limit).1
      (simulator.runLimited outside limit).2 := by
  rw [runLimited_eq allowed]
  cases ran : Simulator.runFrom outside limit 0 simulator.loop.simulator with
  | mk reason middle =>
    have room : ∀ count, count < limit → (some limit).any (· ≤ 0 + count) = false := fun count less => by
      rw [Nat.zero_add]
      exact decide_eq_false (Nat.not_le.2 less)
    rcases leads_runFrom room ran with ⟨rfl, all⟩ | ⟨-, total, ended⟩
    · rw [Nat.zero_add] at all
      exact ⟨limit, (all.tail (.limited (decide_eq_true (Nat.le_refl limit)))).tail (.returns rfl)⟩
    · exact ⟨total, ended.tail (.returns rfl)⟩

/-- A run without a limit that returns has the answer of any run whose limit is large enough. -/
theorem runLimited_of_returns (allowed : simulator.runError? = none)
    (returns : Returns outside none simulator answer after) :
    ∃ enough, ∀ limit, enough ≤ limit → simulator.runLimited outside limit = (answer, after) := by
  obtain ⟨executed, leads⟩ := returns
  refine ⟨executed + 1, fun limit large => ?_⟩
  obtain ⟨total, other⟩ := returns_runLimited allowed outside limit
  exact other.unique (leads.of_lt large)

/-- A run without a limit is answered for some fuel exactly if its loop comes to that answer. -/
theorem returns_iff_exists_run (allowed : simulator.runError? = none) :
    Returns outside none simulator answer after ↔ ∃ fuel, simulator.run? outside fuel = some (answer, after) := by
  constructor
  · intro returns
    obtain ⟨enough, same⟩ := runLimited_of_returns allowed returns
    obtain ⟨executed, leads⟩ := returns
    have unlimited := (unlimited_of_leads leads rfl).2
    refine ⟨enough, ?_⟩
    unfold Simulator.run?
    rw [same enough (Nat.le_refl _)]
    split
    next limited => exact absurd (congrArg (LoopPhase.returned ∘ Prod.fst) limited) unlimited
    next => rfl
  · rintro ⟨fuel, ended⟩
    have ran := Simulator.runLimited_of_run ended
    have unlimited : answer ≠ .ok .stepLimit := by
      rintro rfl
      simp only [Simulator.run?, ran] at ended
      cases ended
    rw [runLimited_eq allowed] at ran
    cases loops : Simulator.runFrom outside fuel 0 simulator.loop.simulator with
    | mk reason middle =>
      rw [loops] at ran
      have room : ∀ count, count < fuel → (none : Option Nat).any (· ≤ 0 + count) = false := fun _ _ => rfl
      rcases leads_runFrom room loops with ⟨rfl, -⟩ | ⟨-, total, leads⟩
      · exact absurd (congrArg Prod.fst ran).symm unlimited
      · exact ⟨total, leads.tail (.returns ran)⟩

end Answers

end Loop

end Mips
