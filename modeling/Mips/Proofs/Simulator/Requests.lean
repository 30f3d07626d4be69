import Mips.Proofs.Simulator.Polling

/-!
Requests to pause and to stop that reach a run at any time. They arrive between the actions of its loop, which takes
them when it polls and once more when it leaves. Main statement: `obeys_requests`.
-/

namespace Mips

open Relation (ReflTransGen)

/-- What is outstanding of these requests, if none was taken: a stop, whatever pauses there are, or else a pause. -/
def Request.strongest? (requests : List Request) : Option Request :=
  if .stop ∈ requests then some .stop else requests.head?

theorem Request.after_strongest? (requests : List Request) (request : Request) :
    Request.after (Request.strongest? requests) request = Request.strongest? (request :: requests) := by
  unfold strongest?
  by_cases stops : .stop ∈ requests
  · rw [if_pos stops, if_pos (List.mem_cons_of_mem _ stops)]
    cases request <;> rfl
  · rw [if_neg stops]
    cases request with
    | stop => exact (if_pos List.mem_cons_self).symm
    | pause =>
      have remains : .stop ∉ Request.pause :: requests := by simp [stops]
      rw [if_neg remains]
      cases requests with
      | nil => rfl
      | cons first rest =>
        cases first with
        | pause => rfl
        | stop => exact absurd List.mem_cons_self stops

theorem Request.strongest?_of_stop {requests : List Request} (stops : .stop ∈ requests) :
    Request.strongest? requests = some .stop := if_pos stops

theorem Request.strongest?_of_pauses {requests : List Request} (pauses : .stop ∉ requests) (asked : requests ≠ []) :
    Request.strongest? requests = some .pause := by
  rw [strongest?, if_neg pauses]
  cases requests with
  | nil => exact absurd rfl asked
  | cons first rest =>
    cases first with
    | pause => rfl
    | stop => exact absurd List.mem_cons_self pauses

theorem Request.strongest?_ne_none {requests : List Request} (asked : requests ≠ []) :
    Request.strongest? requests ≠ none := by
  by_cases stops : .stop ∈ requests
  · exact strongest?_of_stop stops ▸ nofun
  · exact strongest?_of_pauses stops asked ▸ nofun

theorem Request.after_ne_none (outstanding : Option Request) (request : Request) :
    Request.after outstanding request ≠ none := by
  cases request with
  | stop => nofun
  | pause => cases outstanding <;> nofun

/-- The loop of a run, and the requests that have arrived since it last took what was outstanding, the latest first. -/
structure Scene [Generator] (κ : Type) where
  loop : Loop κ
  waiting : List Request

namespace Simulator

variable [Generator] {κ : Type}

/-- A run that begins; a request that came before it is still outstanding. -/
def scene (simulator : Simulator κ) : Scene κ := ⟨simulator.loop, simulator.outstanding.toList⟩

end Simulator

namespace Scene

variable [Generator] {κ : Type} [Console κ] {surroundings : Nat → Surroundings} {limit : Option Nat}

/-- A request arrives, at any time, or the loop acts. An instruction reads no requests, so none arrives during it. -/
inductive Occurs (surroundings : Nat → Surroundings) (limit : Option Nat) : Scene κ → Scene κ → Prop where
  | arrives (loop : Loop κ) (waiting : List Request) (request : Request) :
    Occurs surroundings limit ⟨loop, waiting⟩
      ⟨{ loop with simulator := loop.simulator.receive request }, request :: waiting⟩
  | acts {before after : Loop κ} (waiting : List Request) (acts : before.Acts (.silent surroundings) limit after) :
    Occurs surroundings limit ⟨before, waiting⟩ ⟨after, if before.phase.takes then [] else waiting⟩

/-- One scene leads to another with requests at any times. -/
def Reaches (surroundings : Nat → Surroundings) (limit : Option Nat) : Scene κ → Scene κ → Prop :=
  ReflTransGen (Occurs surroundings limit)

variable {simulator : Simulator κ} {scene later : Scene κ}

omit [Console κ] in
theorem foldl_receive (simulator : Simulator κ) (requests : List Request) :
    requests.foldl Simulator.receive simulator =
      { simulator with outstanding := requests.foldl Request.after simulator.outstanding } := by
  induction requests generalizing simulator with
  | nil => rfl
  | cons request rest ih => exact ih (simulator.receive request)

/-- What is outstanding is the strongest of the requests that have arrived since the loop last took one. -/
theorem outstanding_of_reaches (reaches : Reaches surroundings limit simulator.scene scene) :
    scene.loop.simulator.outstanding = Request.strongest? scene.waiting := by
  induction reaches with
  | refl =>
    have begun : simulator.loop.simulator.outstanding = simulator.outstanding := Simulator.outstanding_setState _ _
    show simulator.loop.simulator.outstanding = Request.strongest? simulator.outstanding.toList
    rw [begun]
    cases simulator.outstanding with
    | none => rfl
    | some request => cases request <;> rfl
  | tail _ occurs ih =>
    cases occurs with
    | arrives loop waiting request =>
      show Request.after loop.simulator.outstanding request = _
      rw [show loop.simulator.outstanding = _ from ih]
      exact Request.after_strongest? waiting request
    | @acts before after waiting acts =>
      have kept := acts.outstanding
      dsimp only at ih ⊢
      rw [kept]
      split
      next => rfl
      next => exact ih

theorem whole_of_reaches (reaches : Reaches surroundings limit simulator.scene scene) :
    Loop.Whole simulator (.silent surroundings) scene.loop := by
  induction reaches with
  | refl => exact congrArg (Prod.mk none) (Simulator.bare_loop simulator).symm
  | tail _ occurs ih =>
    cases occurs with
    | arrives loop waiting request => exact ih
    | acts waiting acts => exact acts.whole ih

theorem settings_of_reaches (reaches : Reaches surroundings limit scene later) :
    later.loop.simulator.settings = scene.loop.simulator.settings := by
  induction reaches with
  | refl => rfl
  | tail _ occurs ih =>
    cases occurs with
    | arrives loop waiting request => exact ih
    | acts waiting acts => exact acts.settings.trans ih

/-- Once the loop was asked it executes no more than until it polls, whatever arrives. -/
theorem counted_of_reaches (asked : Loop.Asked scene.loop)
    (positive : 0 < scene.loop.simulator.settings.checkpointInterval)
    (reaches : Reaches surroundings limit scene later) :
    Loop.Asked later.loop ∧ later.loop.simulator.instructionsRun + later.loop.untilPoll ≤
      scene.loop.simulator.instructionsRun + scene.loop.untilPoll := by
  induction reaches with
  | refl => exact ⟨asked, Nat.le_refl _⟩
  | tail reaches occurs ih =>
    obtain ⟨askedThere, counted⟩ := ih
    have settings := settings_of_reaches reaches
    cases occurs with
    | arrives loop waiting request => exact ⟨Loop.asked_of_outstanding (Request.after_ne_none _ request), counted⟩
    | acts waiting acts =>
      refine ⟨acts.asked askedThere, ?_⟩
      exact Nat.le_trans (acts.counted askedThere (settings ▸ positive)) counted

/-- The loop has left in one state of the program for this reason, or it has returned with it in another state. -/
structure Leaves (reason : StopReason) (left state : ControlState) (termination : Option Termination)
    (scene : Scene κ) : Prop where
  answered : scene.loop.phase = .leave reason ∧ scene.loop.simulator.state = left ∨
    scene.loop.phase = .returned (.ok reason) ∧ scene.loop.simulator.state = state
  ended : scene.loop.simulator.termination = termination

section Leaving

variable {reason : StopReason} {left state : ControlState} {termination : Option Termination}

/-- A loop that has left does so for its reason, whatever arrives then. -/
theorem Leaves.reaches
    (finishes : ∀ simulator : Simulator κ, simulator.state = left → (Simulator.finish reason simulator).1 = .ok reason ∧
      (Simulator.finish reason simulator).2.state = state ∧
        (Simulator.finish reason simulator).2.termination = simulator.termination)
    (leaves : Leaves reason left state termination scene) (reaches : Reaches surroundings limit scene later) :
    Leaves reason left state termination later := by
  induction reaches with
  | refl => exact leaves
  | tail _ occurs ih =>
    obtain ⟨answered, ended⟩ := ih
    cases occurs with
    | arrives loop waiting request => exact ⟨answered, ended⟩
    | @acts before after waiting acts =>
      rcases answered with ⟨leaving, stays⟩ | ⟨returned, -⟩
      · cases acts with
        | @returns _ simulator _ _ _ finished =>
          obtain rfl : _ = reason := LoopPhase.leave.inj leaving
          obtain ⟨answer, state, ends⟩ := finishes simulator stays
          rw [finished] at answer state ends
          exact ⟨.inr ⟨congrArg LoopPhase.returned answer, state⟩, ends.trans ended⟩
        | _ => cases leaving
      · cases acts <;> cases returned

omit [Console κ] in
/-- What a run answers that has polled. -/
theorem Leaves.answer {answer : Except RunError StopReason} (leaves : Leaves reason left state termination scene)
    (returned : scene.loop.phase = .returned answer) :
    answer = .ok reason ∧ scene.loop.simulator.state = state ∧ scene.loop.simulator.termination = termination := by
  rcases leaves.answered with ⟨leaving, -⟩ | ⟨same, stays⟩
  · rw [leaving] at returned
    cases returned
  · rw [same] at returned
    exact ⟨(LoopPhase.returned.inj returned).symm, stays, leaves.ended⟩

/-- A run that polls when a stop is outstanding ends the program. -/
theorem stopped_of_poll {next : Loop κ} (polls : scene.loop.phase = .poll)
    (acts : scene.loop.Acts (.silent surroundings) limit next) (asked : scene.loop.simulator.outstanding = some .stop)
    (reaches : Reaches surroundings limit ⟨next, []⟩ later) {answer : Except RunError StopReason}
    (returned : later.loop.phase = .returned answer) :
    answer = .ok (.terminated .stopped) ∧ later.loop.simulator.state = .terminated ∧
      later.loop.simulator.termination = some .stopped := by
  have leaves : Leaves (.terminated .stopped) .terminated .terminated (some .stopped) ⟨next, []⟩ := by
    obtain ⟨⟨phase, executed, simulator⟩, waiting⟩ := scene
    cases acts with
    | stop => exact ⟨.inl ⟨rfl, Simulator.state_terminate _ _⟩, Simulator.termination_terminate _ _⟩
    | unasked other | pause other => cases other.symm.trans asked
    | _ => cases polls
  have finishes (simulator : Simulator κ) (stays : simulator.state = .terminated) :
      (Simulator.finish (.terminated .stopped) simulator).1 = .ok (.terminated .stopped) ∧
        (Simulator.finish (.terminated .stopped) simulator).2.state = .terminated ∧
          (Simulator.finish (.terminated .stopped) simulator).2.termination = simulator.termination := ⟨rfl, stays, rfl⟩
  exact (leaves.reaches finishes reaches).answer returned

/-- A run that polls when a pause is outstanding pauses. -/
theorem paused_of_poll {next : Loop κ} (polls : scene.loop.phase = .poll)
    (acts : scene.loop.Acts (.silent surroundings) limit next) (asked : scene.loop.simulator.outstanding = some .pause)
    (reaches : Reaches surroundings limit ⟨next, []⟩ later) {answer : Except RunError StopReason}
    (returned : later.loop.phase = .returned answer) :
    answer = .ok .paused ∧ later.loop.simulator.state = .paused ∧
      later.loop.simulator.termination = scene.loop.simulator.termination := by
  have leaves : Leaves .paused next.simulator.state .paused scene.loop.simulator.termination ⟨next, []⟩ := by
    obtain ⟨⟨phase, executed, simulator⟩, waiting⟩ := scene
    cases acts with
    | pause => exact ⟨.inl ⟨rfl, rfl⟩, rfl⟩
    | unasked other | stop other => cases other.symm.trans asked
    | _ => cases polls
  have finishes (simulator : Simulator κ) (_ : simulator.state = next.simulator.state) :
      (Simulator.finish .paused simulator).1 = .ok .paused ∧
        (Simulator.finish .paused simulator).2.state = .paused ∧
          (Simulator.finish .paused simulator).2.termination = simulator.termination :=
    ⟨rfl, Simulator.state_setState _ _, Simulator.termination_setState _ _⟩
  exact (leaves.reaches finishes reaches).answer returned

end Leaving

/-- How a run obeys the requests that have reached it when it comes to a scene. -/
structure Obeys (start : Simulator κ) (surroundings : Nat → Surroundings) (limit : Option Nat) (scene : Scene κ) :
    Prop where
  /-- The program has executed whole instructions. -/
  whole : ∃ count, (start.progress (.silent surroundings) count).2 = scene.loop.simulator.bare
  closed : start.log.unfinished = none → scene.loop.simulator.log.unfinished = none
  /-- If a request has arrived then the loop returns, by its own actions alone. -/
  returns : scene.waiting ≠ [] →
    ∃ answer executed after, scene.loop.Leads (.silent surroundings) limit ⟨.returned answer, executed, after⟩
  /-- No more instructions are executed then than between two polls. -/
  soon : scene.waiting ≠ [] → ∀ later, Reaches surroundings limit scene later →
    later.loop.simulator.instructionsRun ≤
      scene.loop.simulator.instructionsRun + start.settings.checkpointInterval
  stopped : scene.loop.phase = .poll → .stop ∈ scene.waiting →
    ∀ next, scene.loop.Acts (.silent surroundings) limit next →
      ∀ later answer, Reaches surroundings limit ⟨next, []⟩ later → later.loop.phase = .returned answer →
        answer = .ok (.terminated .stopped) ∧ later.loop.simulator.state = .terminated ∧
          later.loop.simulator.termination = some .stopped
  paused : scene.loop.phase = .poll → .stop ∉ scene.waiting → scene.waiting ≠ [] →
    ∀ next, scene.loop.Acts (.silent surroundings) limit next →
      ∀ later answer, Reaches surroundings limit ⟨next, []⟩ later → later.loop.phase = .returned answer →
        answer = .ok .paused ∧ later.loop.simulator.state = .paused
  /-- When the loop returns, no request is left. -/
  dropped : ∀ reason later, scene.loop.phase = .leave reason → Occurs surroundings limit scene later →
    (∃ answer, later.loop.phase = .returned answer) → later.waiting = [] ∧ later.loop.simulator.outstanding = none

theorem closed_advance (outside : Outside) (simulator : Simulator κ) (closed : simulator.log.unfinished = none) :
    (simulator.advance outside).2.log.unfinished = none := by
  cases found : simulator.nextStep? outside with
  | none =>
    rw [Simulator.advance_of_none found, Simulator.log_terminate]
    exact simulator.log.abandon_start.1
  | some step =>
    rw [Simulator.advance_of_some found]
    have committed := (simulator.log.commit_record closed (simulator.machine.restoringAll step.assignments)).1
    cases step.ending with
    | completed => exact committed
    | exited code | faulted report => exact (congrArg UndoLog.unfinished (Simulator.log_terminate _ _)).trans committed

omit [Console κ] in
theorem untilPoll_le (loop : Loop κ) (positive : 0 < loop.simulator.settings.checkpointInterval) :
    loop.untilPoll ≤ loop.simulator.settings.checkpointInterval := by
  unfold Loop.untilPoll
  dsimp only
  split
  · exact Nat.le_of_lt (Nat.mod_lt _ positive)
  · exact Nat.sub_le _ _
  · exact Nat.sub_le _ _
  · exact Nat.zero_le _
  · exact Nat.zero_le _
  · exact Nat.zero_le _

theorem obeys_of_reaches (positive : 0 < simulator.settings.checkpointInterval)
    (reaches : Reaches surroundings limit simulator.scene scene) : Obeys simulator surroundings limit scene := by
  have outstanding := outstanding_of_reaches reaches
  have settings : scene.loop.simulator.settings = simulator.settings :=
    (settings_of_reaches reaches).trans (Simulator.settings_setState _ _)
  have intervals : 0 < scene.loop.simulator.settings.checkpointInterval := settings ▸ positive
  have whole := (whole_of_reaches reaches).progress
  have asked : scene.waiting ≠ [] → scene.loop.Asked := fun waiting =>
    Loop.asked_of_outstanding (outstanding ▸ Request.strongest?_ne_none waiting)
  constructor
  case whole => exact whole
  case closed =>
    intro closed
    obtain ⟨count, reached⟩ := whole
    show scene.loop.simulator.bare.log.unfinished = none
    rw [← reached]
    exact Simulator.holds_proceed (closed_advance _) closed count
  case returns =>
    intro waiting
    exact Loop.returns_of_asked (asked waiting) intervals surroundings limit
  case soon =>
    intro waiting later further
    have counted := (counted_of_reaches (asked waiting) intervals further).2
    have most := untilPoll_le scene.loop intervals
    rw [settings] at most
    omega
  case stopped =>
    intro polls stops next acts later answer further returned
    rw [Request.strongest?_of_stop stops] at outstanding
    exact stopped_of_poll polls acts outstanding further returned
  case paused =>
    intro polls pauses waiting next acts later answer further returned
    rw [Request.strongest?_of_pauses pauses waiting] at outstanding
    obtain ⟨answer, state, -⟩ := paused_of_poll polls acts outstanding further returned
    exact ⟨answer, state⟩
  case dropped =>
    rintro reason later leaving occurs ⟨answer, returned⟩
    cases occurs with
    | arrives => cases leaving.symm.trans returned
    | @acts before after waiting acts =>
      have kept := acts.outstanding
      have takes : before.phase.takes = true := congrArg LoopPhase.takes leaving
      rw [if_pos takes] at kept ⊢
      exact ⟨rfl, kept⟩

section Runs

variable {outside : Outside} {before after : Loop κ}

/-- Requests arrive one after another. -/
theorem reaches_arrivals (loop : Loop κ) (waiting requests : List Request) :
    Reaches surroundings limit ⟨loop, waiting⟩
      ⟨{ loop with simulator := requests.foldl Simulator.receive loop.simulator }, requests.reverse ++ waiting⟩ := by
  induction requests generalizing loop waiting with
  | nil => exact .refl
  | cons request rest ih =>
    have arrives : Occurs surroundings limit ⟨loop, waiting⟩
        ⟨{ loop with simulator := loop.simulator.receive request }, request :: waiting⟩ :=
      .arrives loop waiting request
    rw [List.reverse_cons, List.append_assoc]
    exact .head arrives (ih _ _)

/-- Requests that arrive while an instruction is executed have the effect of requests that arrive before it. -/
theorem advance_of_arrivals (simulator : Simulator κ) (outside : Outside) :
    ∃ requests : List Request, simulator.advance outside =
      (requests.foldl Simulator.receive simulator).advance (.silent outside.surroundings) := by
  cases found : simulator.nextStep? outside with
  | none =>
    refine ⟨[], ?_⟩
    have ended : simulator.nextStep? (.silent outside.surroundings) = none := found
    rw [Simulator.advance_of_none found, List.foldl_nil, Simulator.advance_of_none ended]
  | some step =>
    refine ⟨outside.requests simulator.moment step.printed, ?_⟩
    have finds : ((outside.requests simulator.moment step.printed).foldl Simulator.receive simulator).nextStep?
        (.silent outside.surroundings) = some step := by
      rw [foldl_receive]
      exact found
    rw [Simulator.advance_of_some finds, Simulator.advance_of_some found, foldl_receive]
    rfl

/-- What the loop does when requests arrive during instructions, it does when they arrive between its actions. -/
theorem reaches_of_acts (acts : before.Acts outside limit after) (waiting : List Request) :
    ∃ rest, Reaches outside.surroundings limit ⟨before, waiting⟩ ⟨after, rest⟩ := by
  cases acts with
  | limited reached => exact ⟨_, .single (.acts waiting (.limited reached))⟩
  | due room due => exact ⟨_, .single (.acts waiting (.due room due))⟩
  | undue room undue => exact ⟨_, .single (.acts waiting (.undue room undue))⟩
  | unasked asked => exact ⟨_, .single (.acts waiting (.unasked asked))⟩
  | pause asked => exact ⟨_, .single (.acts waiting (.pause asked))⟩
  | stop asked => exact ⟨_, .single (.acts waiting (.stop asked))⟩
  | hit hit => exact ⟨_, .single (.acts waiting (.hit hit))⟩
  | clear clear => exact ⟨_, .single (.acts waiting (.clear clear))⟩
  | returns finished => exact ⟨_, .single (.acts waiting (.returns finished))⟩
  | @completes executed simulator _ advanced =>
    obtain ⟨requests, arrives⟩ := advance_of_arrivals simulator outside
    exact ⟨_, (reaches_arrivals ⟨.execute, executed, simulator⟩ waiting requests).tail
      (.acts _ (.completes (arrives.symm.trans advanced)))⟩
  | @ends executed simulator _ _ advanced =>
    obtain ⟨requests, arrives⟩ := advance_of_arrivals simulator outside
    exact ⟨_, (reaches_arrivals ⟨.execute, executed, simulator⟩ waiting requests).tail
      (.acts _ (.ends (arrives.symm.trans advanced)))⟩

theorem reaches_of_leads (leads : before.Leads outside limit after) (waiting : List Request) :
    ∃ rest, Reaches outside.surroundings limit ⟨before, waiting⟩ ⟨after, rest⟩ := by
  induction leads with
  | refl => exact ⟨waiting, .refl⟩
  | tail _ acts ih =>
    obtain ⟨rest, reaches⟩ := ih
    obtain ⟨further, reachesFurther⟩ := reaches_of_acts acts rest
    exact ⟨further, reaches.trans reachesFurther⟩

/-- A run is an interleaving of its loop with the requests that arrive during its instructions. -/
theorem reaches_of_returns {answer : Except RunError StopReason} {after : Simulator κ}
    (returns : Loop.Returns outside limit simulator answer after) :
    ∃ executed, Reaches outside.surroundings limit simulator.scene ⟨⟨.returned answer, executed, after⟩, []⟩ := by
  obtain ⟨executed, leads⟩ := returns
  rcases ReflTransGen.cases_tail leads with same | ⟨last, earlier, acts⟩
  · cases same
  · obtain ⟨rest, reaches⟩ := reaches_of_leads earlier simulator.outstanding.toList
    cases acts with
    | returns finished => exact ⟨executed, reaches.tail (.acts rest (.returns finished))⟩

end Runs

/--
However requests arrive, a run executes no more instructions after one than between two polls. If it polls when a stop
is outstanding then it ends the program, and if only pauses are then it pauses; when it returns, no request is left.
Every run is such an interleaving.
-/
theorem obeys_requests (allowed : simulator.runError? = none) (positive : 0 < simulator.settings.checkpointInterval) :
    (∀ surroundings limit scene, Reaches surroundings limit simulator.scene scene →
      Obeys simulator surroundings limit scene) ∧
    (∀ outside limit, ∃ executed, Reaches outside.surroundings (some limit) simulator.scene
      ⟨⟨.returned (simulator.runLimited outside limit).1, executed, (simulator.runLimited outside limit).2⟩, []⟩) ∧
    (∀ outside fuel answer after, simulator.run? outside fuel = some (answer, after) →
      ∃ executed, Reaches outside.surroundings none simulator.scene ⟨⟨.returned answer, executed, after⟩, []⟩) := by
  refine ⟨?_, ?_, ?_⟩
  · exact fun surroundings limit scene reaches => obeys_of_reaches positive reaches
  · exact fun outside limit => reaches_of_returns (Loop.returns_runLimited allowed outside limit)
  · exact fun outside fuel answer after ran =>
      reaches_of_returns ((Loop.returns_iff_exists_run allowed).2 ⟨fuel, ran⟩)

end Scene

end Mips

namespace Mips.Scene

open Relation (ReflTransGen)

/-- A stop between two pauses, all during the first instruction of a loop, ends the program at the next poll. -/
theorem obeys_stop_between_pauses :
    let again : Instruction := .ofImmediate .beq .zero .zero 0xFFFF
    let outside : Outside := ⟨fun _ => ⟨0, RandomStream.ofSeed⟩, fun moment _ =>
      if moment = 0 then [.pause, .stop, .pause] else []⟩
    let simulator := Simulator.loaded { checkpointInterval := 2 } (Program.ofInstructions [(0x00400000, again)])
    simulator.runError? = none ∧ 0 < simulator.settings.checkpointInterval ∧
      ∃ executed after, (simulator.runLimited outside 10) = (.ok (.terminated .stopped), after) ∧
        after.instructionsRun = 2 ∧
        Obeys simulator outside.surroundings (some 10)
          ⟨⟨.returned (.ok (.terminated .stopped)), executed, after⟩, []⟩ := by
  intro again outside simulator
  have allowed : simulator.runError? = none := by decide +kernel
  have positive : 0 < simulator.settings.checkpointInterval := by decide +kernel
  have answered : (simulator.runLimited outside 10).1 = .ok (.terminated .stopped) :=
    eq_ok_of_toOption (by decide +kernel)
  have counted : (simulator.runLimited outside 10).2.instructionsRun = 2 := by decide +kernel
  obtain ⟨obeys, runs, -⟩ := obeys_requests allowed positive
  obtain ⟨executed, reaches⟩ := runs outside 10
  rw [answered] at reaches
  exact ⟨allowed, positive, executed, _, Prod.ext answered rfl, counted, obeys _ _ _ reaches⟩

end Mips.Scene
