import Mathlib.Data.List.Chain
import Mips.Proofs.Simulator.Calls

/-!
What a simulator tells of what it does. The events that are told tell the changes of its state, the instructions that are
executed and undone, and how a program ends, each in the order in which it happens. Main statement: `reports_serve`.
-/

namespace Mips

/-- The items of a list that differ from the one before; before the first one comes another. -/
def changes {α : Type} [DecidableEq α] (start : α) : List α → List α
  | [] => []
  | next :: rest => if next = start then changes start rest else next :: changes next rest

section Changes

variable {α : Type} [DecidableEq α]

theorem changes_append (start : α) (first second : List α) :
    changes start (first ++ second) = changes start first ++ changes (first.getLastD start) second := by
  induction first generalizing start with
  | nil => rfl
  | cons next rest ih =>
    rw [List.cons_append, changes, changes, List.getLastD_cons]
    split
    next same =>
      subst same
      exact ih next
    next => rw [ih, List.cons_append]

/-- No two changes in a row are equal, nor is the first one equal to what was before. -/
theorem isChain_changes (start : α) (items : List α) : (start :: changes start items).IsChain (· ≠ ·) := by
  induction items generalizing start with
  | nil => exact .singleton start
  | cons next rest ih =>
    rw [changes]
    split
    next => exact ih start
    next other => exact .cons_cons (Ne.symm other) (ih next)

end Changes

namespace Event

/-- The state that the event tells a change to. -/
def state? : Event → Option ControlState
  | .stateChanged state => some state
  | _ => none

/-- Whether the event tells that an instruction was executed or undone. -/
def isMove : Event → Bool
  | .stepped _ | .steppedBack _ => true
  | _ => false

/-- Whether the event has to do with the end of a program. -/
def isEnding : Event → Bool
  | .stateChanged .terminated | .fault _ | .terminated _ => true
  | _ => false

end Event

/-- The event that tells of an instruction: where it was, or where the program is again. -/
def Move.event [Generator] : Move → Event
  | .executed machine => .stepped machine.pc
  | .undone machine => .steppedBack machine.pc

/-- The events that tell how a program ends: first the fault, if it ends with one. -/
def Termination.announcement (termination : Termination) : List Event :=
  match termination with
  | .fault report => [.fault report, .stateChanged .terminated, .terminated termination]
  | _ => [.stateChanged .terminated, .terminated termination]

/-- The channel after events were sent one after another. -/
def EventChannel.emitAll (channel : EventChannel) (events : List Event) : EventChannel :=
  events.foldl EventChannel.emit channel

theorem EventChannel.inbox?_emitAll (channel : EventChannel) (events : List Event) (number : Nat) :
    (channel.emitAll events).inbox? number = (channel.inbox? number).map (· ++ events) := by
  induction events generalizing channel with
  | nil => simp [emitAll]
  | cons event rest ih =>
    rw [emitAll, List.foldl_cons, ← emitAll, ih, inbox?_emit, Option.map_map]
    simp [Function.comp_def]

namespace Simulator

variable [Generator] {κ : Type}

/--
The events tell what has happened: each change of the state on the way through the stations, each instruction, and how a
program has ended each time that it has.
-/
structure Replays (start : Simulator κ) (stations : List (Simulator κ)) (moves : List Move) (told : List Event) :
    Prop where
  states : told.filterMap Event.state? = changes start.state (stations.map state)
  moves : told.filter Event.isMove = moves.map Move.event
  endings : told.filter Event.isEnding =
    ((changes start.termination (stations.map termination)).filterMap id).flatMap Termination.announcement

/-- A simulator that goes through the stations to the last one tells what happens on the way, and nothing else. -/
structure Reports (start : Simulator κ) (stations : List (Simulator κ)) (moves : List Move) (told : List Event)
    (after : Simulator κ) : Prop extends Replays start stations moves told where
  events : after.events = start.events.emitAll told
  state : (stations.map state).getLastD start.state = after.state
  termination : (stations.map termination).getLastD start.termination = after.termination

section Reports

variable {first second third : Simulator κ}

/-- What the stations are after the first ones depends on the last of these only. -/
theorem Replays.append {earlier later : List (Simulator κ)} {before after : List Move} {told more : List Event}
    (replays : Replays first earlier before told) (rest : Replays second later after more)
    (state : (earlier.map state).getLastD first.state = second.state)
    (termination : (earlier.map termination).getLastD first.termination = second.termination) :
    Replays first (earlier ++ later) (before ++ after) (told ++ more) where
  states := by rw [List.filterMap_append, List.map_append, changes_append, replays.states, rest.states, state]
  moves := by rw [List.filter_append, List.map_append, replays.moves, rest.moves]
  endings := by
    rw [List.filter_append, List.map_append, changes_append, List.filterMap_append, List.flatMap_append, replays.endings,
      rest.endings, termination]

omit [Generator] in
theorem getLastD_append {α : Type} (start : α) (first second : List α) :
    (first ++ second).getLastD start = second.getLastD (first.getLastD start) := by
  induction first generalizing start with
  | nil => rfl
  | cons next rest ih => rw [List.cons_append, List.getLastD_cons, List.getLastD_cons, ih]

theorem Reports.append {earlier later : List (Simulator κ)} {before after : List Move} {told more : List Event}
    (reports : Reports first earlier before told second) (rest : Reports second later after more third) :
    Reports first (earlier ++ later) (before ++ after) (told ++ more) third where
  toReplays := reports.toReplays.append rest.toReplays reports.state reports.termination
  events := by rw [rest.events, reports.events, EventChannel.emitAll, EventChannel.emitAll, EventChannel.emitAll,
    List.foldl_append]
  state := by rw [List.map_append, getLastD_append, reports.state, rest.state]
  termination := by rw [List.map_append, getLastD_append, reports.termination, rest.termination]

/-- Where neither state nor termination changes, nothing is to be told. -/
theorem replays_of_same (state : second.state = first.state) (termination : second.termination = first.termination) :
    Replays first [second] [] [] where
  states := by rw [List.map_singleton, changes, if_pos state]; rfl
  moves := rfl
  endings := by rw [List.map_singleton, changes, if_pos termination]; rfl

theorem reports_of_same (events : second.events = first.events) (state : second.state = first.state)
    (termination : second.termination = first.termination) : Reports first [] [] [] second :=
  ⟨⟨rfl, rfl, rfl⟩, events, state.symm, termination.symm⟩

/-- A simulator may be looked at again. -/
theorem Reports.again {stations : List (Simulator κ)} {moves : List Move} {told : List Event}
    (reports : Reports first stations moves told second) : Reports first (stations ++ [second]) moves told second := by
  have look : Reports second [second] [] [] second := ⟨replays_of_same rfl rfl, rfl, rfl, rfl⟩
  have both := reports.append look
  rwa [List.append_nil, List.append_nil] at both

/-- Of the stations only states and terminations are told. -/
theorem Reports.of_alike {stations others : List (Simulator κ)} {moves : List Move} {told : List Event}
    (reports : Reports first stations moves told second)
    (states : stations.map Simulator.state = others.map Simulator.state)
    (terminations : stations.map Simulator.termination = others.map Simulator.termination) :
    Reports first others moves told second where
  states := states ▸ reports.states
  moves := reports.moves
  endings := terminations ▸ reports.endings
  events := reports.events
  state := states ▸ reports.state
  termination := terminations ▸ reports.termination

/-- A change of the state is told, unless the state stays the same; that a program has no longer ended is not told. -/
theorem reports_setState {cleared : Simulator κ} (events : cleared.events = first.events)
    (kept : cleared.state = first.state) (ended : cleared.termination = none ∨ cleared.termination = first.termination)
    {state : ControlState} (live : state ≠ .terminated) :
    ∃ told, Reports first [cleared.setState state] [] told (cleared.setState state) := by
  have endings : (changes first.termination [cleared.termination]).filterMap id = [] := by
    rcases ended with none | same
    · rw [none, changes]
      split <;> rfl
    · rw [same, changes, if_pos rfl]
      rfl
  by_cases same : cleared.state = state
  · have unchanged : cleared.setState state = cleared := if_pos same
    rw [unchanged]
    refine ⟨[], ⟨?_, rfl, ?_⟩, events, rfl, rfl⟩
    · rw [List.map_singleton, changes, if_pos kept]
      rfl
    · rw [List.map_singleton, endings]
      rfl
  · have changed : cleared.setState state = { cleared with state := state }.emit (.stateChanged state) := if_neg same
    rw [changed]
    refine ⟨[.stateChanged state], ⟨?_, rfl, ?_⟩, congrArg (EventChannel.emit · _) events, rfl, rfl⟩
    · rw [List.map_singleton]
      exact (if_neg fun again : state = first.state => same (kept.trans again.symm)).symm
    · rw [List.map_singleton]
      change _ = List.flatMap _ (List.filterMap id (changes first.termination [cleared.termination]))
      rw [endings]
      cases state <;> first | rfl | exact absurd rfl live

/-- How a program ends is told, first the fault if it ends with one. -/
theorem reports_terminate (simulator : Simulator κ) (live : simulator.state ≠ .terminated)
    (unended : simulator.termination = none) (termination : Termination) :
    Reports simulator [simulator.terminate termination] [] termination.announcement (simulator.terminate termination) := by
  have ends : (simulator.terminate termination).events = simulator.events.emitAll termination.announcement := by
    cases termination <;> simp [terminate, setState, emit, live, EventChannel.emitAll, Termination.announcement]
  constructor
  case toReplays =>
    constructor
    case states =>
      rw [List.map_singleton, state_terminate, changes, if_neg (Ne.symm live)]
      cases termination <;> rfl
    case moves => cases termination <;> rfl
    case endings =>
      rw [List.map_singleton, termination_terminate, unended, changes, if_neg nofun]
      cases termination <;> rfl
  case events => exact ends
  case state => rfl
  case termination => rfl

/-- An instruction that is executed is told with its address. -/
theorem reports_apply (simulator : Simulator κ) (outside : Outside) (step : Step κ) :
    Reports simulator [] [.executed simulator.machine] [.stepped simulator.machine.pc] (simulator.apply outside step) :=
  ⟨⟨rfl, rfl, rfl⟩, rfl, rfl, rfl⟩

/-- Another program, or none, may be loaded at any time. -/
theorem reports_restart (simulator : Simulator κ) (machine : Machine) {state : ControlState}
    (live : state ≠ .terminated) (program : Option Program) :
    ∃ told, Reports simulator [{ (simulator.restart machine).setState state with program }] [] told
      { (simulator.restart machine).setState state with program } := by
  have cleared : (simulator.restart machine).events = simulator.events := rfl
  obtain ⟨told, reports⟩ := reports_setState cleared rfl (.inl rfl) live
  have loaded : Reports ((simulator.restart machine).setState state) [] [] []
      { (simulator.restart machine).setState state with program } := reports_of_same rfl rfl rfl
  have both := reports.append loaded
  rw [List.append_nil, List.append_nil, List.append_nil] at both
  exact ⟨told, both.of_alike rfl rfl⟩

/-- An instruction that is undone is told with the address that the program is at again. -/
theorem reports_stepBack {simulator after : Simulator κ} (undone : simulator.stepBack = some after) :
    ∃ told, Reports simulator [after] [.undone after.machine] told after := by
  simp only [stepBack, Option.map_eq_some_iff] at undone
  obtain ⟨⟨machine, log⟩, -, rfl⟩ := undone
  dsimp only
  let restored : Simulator κ :=
    { simulator with machine := machine, log := log, instructionsRun := simulator.instructionsRun - 1 }
  have undoes (resumed : Simulator κ) (same : resumed.machine = machine) :
      Reports resumed [] [.undone resumed.machine] [.steppedBack machine.pc]
        (resumed.emit (.steppedBack machine.pc)) :=
    ⟨⟨rfl, congrArg (fun machine : Machine => [Event.steppedBack machine.pc]) same.symm, rfl⟩, rfl, rfl, rfl⟩
  split
  next =>
    have cleared : { restored with termination := none }.events = simulator.events := rfl
    have live : ControlState.paused ≠ .terminated := by decide
    obtain ⟨told, reports⟩ := reports_setState cleared rfl (.inl rfl) live
    exact ⟨_, (reports.append (undoes _ (machine_setState _ _))).of_alike rfl rfl⟩
  next =>
    have same : Reports simulator [] [] [] restored := reports_of_same rfl rfl rfl
    exact ⟨_, (same.again.append (undoes restored rfl)).of_alike rfl rfl⟩

variable [Console κ]

/-- An instruction is told, and how the program ends with it or because there is none. -/
theorem reports_advance {simulator : Simulator κ} (live : simulator.state ≠ .terminated)
    (unended : simulator.termination = none) (outside : Outside) :
    ∃ told, Reports simulator [(simulator.advance outside).2] ((simulator.executing outside).map .executed) told
      (simulator.advance outside).2 := by
  cases found : simulator.nextStep? outside with
  | none =>
    rw [advance_of_none found, executing, found]
    have dropped : Reports simulator [] [] [] { simulator with log := simulator.log.start.abandon } :=
      reports_of_same rfl rfl rfl
    exact ⟨_, dropped.append (reports_terminate { simulator with log := simulator.log.start.abandon } live unended
      .droppedOffBottom)⟩
  | some step =>
    rw [advance_of_some found, executing, found]
    have applied := reports_apply simulator outside step
    have ends := reports_terminate (simulator.apply outside step) live unended
    cases step.ending with
    | completed => exact ⟨_, applied.again⟩
    | exited code => exact ⟨_, applied.append (ends (.exit code))⟩
    | faulted report => exact ⟨_, applied.append (ends (.fault report))⟩

omit [Console κ] in
theorem reports_checkpoint (simulator : Simulator κ) (executed : Nat) :
    Reports simulator [] [] [] (simulator.checkpoint executed).2 := by
  unfold checkpoint
  split <;> exact reports_of_same rfl rfl rfl

/-- A run tells of each of its instructions, and how the program ends if it does. -/
theorem reports_runFrom {simulator : Simulator κ} (live : simulator.state ≠ .terminated)
    (unended : simulator.termination = none) (outside : Outside) (remaining executed : Nat) :
    ∃ told, Reports simulator (stationsFrom outside remaining executed simulator)
      ((executedFrom outside remaining executed simulator).map .executed) told
      (runFrom outside remaining executed simulator).2 := by
  induction remaining generalizing executed simulator with
  | zero => exact ⟨[], reports_of_same rfl rfl rfl⟩
  | succ remaining ih =>
    have polled := simulator.reports_checkpoint executed
    unfold stationsFrom executedFrom runFrom
    cases answer : simulator.checkpoint executed with
    | mk request checked =>
      rw [answer] at polled
      have liveChecked : checked.state ≠ .terminated := polled.state ▸ live
      have unendedChecked : checked.termination = none := polled.termination.symm.trans unended
      cases request with
      | some request =>
        cases request with
        | pause => exact ⟨[], polled⟩
        | stop => exact ⟨_, polled.append (checked.reports_terminate liveChecked unendedChecked .stopped)⟩
      | none =>
        dsimp only
        split
        next hit =>
          have told : Reports checked [] [] [.breakpoint checked.machine.pc]
              (checked.emit (.breakpoint checked.machine.pc)) := ⟨⟨rfl, rfl, rfl⟩, rfl, rfl, rfl⟩
          exact ⟨_, polled.append told⟩
        next clear =>
          obtain ⟨told, reports⟩ := reports_advance liveChecked unendedChecked outside
          have ends := checked.ended_advance outside
          have here := polled.append reports
          cases advanced : checked.advance outside with
          | mk termination after =>
            rw [advanced] at here ends
            cases termination with
            | some termination =>
              rw [List.append_nil]
              exact ⟨_, here⟩
            | none =>
              obtain ⟨state, kept⟩ := ends
              obtain ⟨more, rest⟩ := ih (state ▸ liveChecked) (kept.trans unendedChecked) (executed + 1)
              rw [List.map_append]
              exact ⟨_, here.append rest⟩

omit [Console κ] in
theorem reports_finish (reason : StopReason) (simulator : Simulator κ) :
    ∃ told, Reports simulator [(finish reason simulator).2] [] told (finish reason simulator).2 := by
  have dropped : Reports simulator [] [] [] simulator.takeRequest.2 := reports_of_same rfl rfl rfl
  unfold finish
  split
  next => exact ⟨_, dropped.again⟩
  next => exact ⟨_, dropped.again⟩
  next =>
    have live : ControlState.paused ≠ .terminated := by decide
    exact reports_setState dropped.events dropped.state.symm (.inr dropped.termination.symm) live

end Reports

section Calls

variable [Console κ] {settings : Settings} {simulator : Simulator κ}

omit [Console κ] in
/-- A program that can be executed has not ended. -/
theorem Sound.unended (sound : Sound settings simulator) (allowed : simulator.runError? = none) :
    simulator.state ≠ .terminated ∧ simulator.termination = none := by
  have live := (live_of_runError? allowed).2
  refine ⟨live, ?_⟩
  cases ended : simulator.termination with
  | none => rfl
  | some termination => exact absurd (sound.terminated.2 (by rw [ended]; rfl)) live

/-- A step tells of its instruction and of what comes of it. -/
theorem reports_step (sound : Sound settings simulator) (outside : Outside) :
    ∃ told, Reports simulator (simulator.stations (.step outside)) (simulator.moves (.step outside)) told
      (simulator.step outside).2 := by
  cases allowed : simulator.runError? with
  | some error =>
    have same : Reports simulator [] [] [] simulator := reports_of_same rfl rfl rfl
    simp only [stations, passes, moves, executedByStep, allowed, Call.serve, step_of_refused allowed]
    exact ⟨_, same.again⟩
  | none =>
    obtain ⟨live, unended⟩ := sound.unended allowed
    let cleared : Simulator κ := { simulator with accesses := .empty }
    have begun : Reports simulator [] [] [] cleared := reports_of_same rfl rfl rfl
    obtain ⟨told, reports⟩ := @reports_advance _ κ _ cleared live unended outside
    have executed := begun.append reports
    have passed : simulator.stations (.step outside) =
        [(cleared.advance outside).2] ++ [(simulator.step outside).2] := by
      simp only [stations, passes, allowed]
      rfl
    have moved : simulator.moves (.step outside) = (cleared.executing outside).map .executed :=
      congrArg (List.map Move.executed) (executedByStep_eq allowed outside)
    rw [passed, moved]
    cases advanced : cleared.advance outside with
    | mk termination after =>
      rw [advanced] at executed
      cases termination with
      | none =>
        rw [step_of_advance allowed advanced]
        have live : ControlState.paused ≠ .terminated := by decide
        have same : Reports after [] [] [] after := reports_of_same rfl rfl rfl
        obtain ⟨more, paused⟩ := reports_setState same.events rfl (.inr rfl) live
        have both := executed.append paused
        rw [List.append_nil] at both
        exact ⟨_, both⟩
      | some termination =>
        rw [step_of_end allowed advanced]
        exact ⟨_, executed.again⟩

/-- A run tells of each of its instructions, as far as it comes. -/
theorem reports_loop (sound : Sound settings simulator) (allowed : simulator.runError? = none) (outside : Outside)
    (most : Nat) :
    ∃ told, Reports simulator (simulator.loop.simulator :: stationsFrom outside most 0 simulator.loop.simulator)
      ((simulator.executedByRun outside most).map .executed) told
      (runFrom outside most 0 simulator.loop.simulator).2 := by
  obtain ⟨live, unended⟩ := sound.unended allowed
  have cleared : Reports simulator [] [] [] { simulator with accesses := .empty } := reports_of_same rfl rfl rfl
  have running : ControlState.running ≠ .terminated := by decide
  obtain ⟨told, begun⟩ := reports_setState cleared.events cleared.state.symm (.inr cleared.termination.symm) running
  have liveThere : simulator.loop.simulator.state ≠ .terminated := by
    rw [loop, state_setState]
    exact running
  have unendedThere : simulator.loop.simulator.termination = none := (termination_setState _ _).trans unended
  obtain ⟨more, rest⟩ := reports_runFrom liveThere unendedThere outside most 0
  rw [Loop.executedByRun_eq allowed]
  exact ⟨_, begun.append rest⟩

theorem reports_runLimited (sound : Sound settings simulator) (outside : Outside) (limit : Nat) :
    ∃ told, Reports simulator (simulator.stations (.runLimited outside limit))
      (simulator.moves (.runLimited outside limit)) told (simulator.runLimited outside limit).2 := by
  cases allowed : simulator.runError? with
  | some error =>
    have same : Reports simulator [] [] [] simulator := reports_of_same rfl rfl rfl
    simp only [stations, passes, moves, executedByRun, allowed, Call.serve, runLimited_of_refused allowed]
    exact ⟨_, same.again⟩
  | none =>
    obtain ⟨told, ran⟩ := reports_loop sound allowed outside limit
    obtain ⟨more, finished⟩ := reports_finish (runFrom outside limit 0 simulator.loop.simulator).1
      (runFrom outside limit 0 simulator.loop.simulator).2
    have both := ran.append finished
    rw [← Loop.runLimited_eq allowed, List.append_nil] at both
    refine ⟨_, both.of_alike ?_ ?_⟩ <;> simp only [stations, passes, allowed] <;> rfl

/-- A run that does not return tells of each of the instructions that it has executed. -/
theorem reports_run (sound : Sound settings simulator) (outside : Outside) (fuel : Nat) :
    ∃ told, Reports simulator (simulator.stations (.run outside fuel)) (simulator.moves (.run outside fuel)) told
      (Call.serve simulator (.run outside fuel)).2 := by
  cases ended : simulator.run? outside fuel with
  | some outcome =>
    have served : (Call.serve simulator (.run outside fuel)).2 = (simulator.runLimited outside fuel).2 := by
      simp only [Call.serve, ended, runLimited_of_run ended]
    obtain ⟨told, reports⟩ := reports_runLimited sound outside fuel
    rw [served]
    refine ⟨told, reports.of_alike ?_ ?_⟩ <;> simp only [stations, served] <;> rfl
  | none =>
    cases allowed : simulator.runError? with
    | some error =>
      rw [run?_of_refused allowed] at ended
      cases ended
    | none =>
      obtain ⟨told, reports⟩ := reports_loop sound allowed outside fuel
      have served : (Call.serve simulator (.run outside fuel)).2 =
          (runFrom outside fuel 0 simulator.loop.simulator).2 := by
        simp only [Call.serve, ended]
      rw [served]
      refine ⟨told, reports.again.of_alike ?_ ?_⟩ <;> simp only [stations, passes, allowed, served] <;> rfl

omit [Console κ] in
theorem reports_load (simulator : Simulator κ) (program : Program) :
    ∃ told, Reports simulator [simulator.load program] [] told (simulator.load program) :=
  have live : ControlState.ready ≠ .terminated := by decide
  reports_restart simulator (.load simulator.settings program) live (some program)

omit [Console κ] in
theorem reports_reset (simulator : Simulator κ) :
    ∃ told, Reports simulator [simulator.reset] [] told simulator.reset := by
  unfold reset
  split
  next program _ => exact reports_load simulator program
  next =>
    have live : ControlState.idle ≠ .terminated := by decide
    have cleared : (simulator.restart (.blank simulator.settings)).events = simulator.events := rfl
    obtain ⟨told, reports⟩ := reports_setState cleared rfl (.inl rfl) live
    exact ⟨told, reports⟩

omit [Console κ] in
/-- A call that is refused tells nothing. -/
theorem reports_settle {ε : Type} (refusal : ε → Refusal) {outcome : Except ε (Simulator κ)}
    (accepted : ∀ after, outcome = .ok after → ∃ told, Reports simulator [after] [] told after) :
    ∃ told, Reports simulator [(Call.settle simulator refusal outcome).2] [] told
      (Call.settle simulator refusal outcome).2 := by
  cases outcome with
  | ok after => exact accepted after rfl
  | error error =>
    have same : Reports simulator [] [] [] simulator := reports_of_same rfl rfl rfl
    exact ⟨[], same.again⟩

/-- A call that executes no instructions goes through nothing but what it leads to. -/
theorem stations_of_executes {call : Call κ} (executes : call.executes = false) :
    simulator.stations call = [(call.serve simulator).2] := by
  have passed : simulator.passes call = [] := by
    unfold passes
    split
    next => rfl
    next => cases call <;> first | rfl | cases executes
  rw [stations, passed, List.nil_append]

/-- Every call tells what happens while it is served, unless it only concerns who is told. -/
theorem reports_serve (sound : Sound settings simulator) {call : Call κ} (quiet : call.watches = false) :
    ∃ told, Reports simulator (simulator.stations call) (simulator.moves call) told (call.serve simulator).2 := by
  have still (after : Simulator κ) (events : after.events = simulator.events) (state : after.state = simulator.state)
      (termination : after.termination = simulator.termination) : ∃ told, Reports simulator [after] [] told after :=
    ⟨[], (reports_of_same events state termination).again⟩
  cases call with
  | step outside => exact reports_step sound outside
  | run outside fuel => exact reports_run sound outside fuel
  | runLimited outside limit => exact reports_runLimited sound outside limit
  | subscribe | unsubscribe | take => cases quiet
  | assemble tree sources =>
    rw [stations_of_executes rfl]
    refine reports_settle _ fun after assembled => ?_
    obtain ⟨program, rfl⟩ := load_of_assemble assembled
    exact reports_load simulator program
  | assembleFile tree main =>
    rw [stations_of_executes rfl]
    refine reports_settle _ fun after assembled => ?_
    obtain ⟨program, rfl⟩ := load_of_assembleFile assembled
    exact reports_load simulator program
  | load program =>
    rw [stations_of_executes rfl]
    exact reports_load simulator program
  | reset =>
    rw [stations_of_executes rfl]
    exact reports_reset simulator
  | stepBack =>
    rw [stations_of_executes rfl]
    simp only [Call.serve, moves]
    cases undone : simulator.stepBack with
    | none => exact still simulator rfl rfl rfl
    | some after => exact reports_stepBack undone
  | poke width address value =>
    rw [stations_of_executes rfl]
    refine reports_settle _ fun after poked => ?_
    obtain ⟨memory, -, rfl⟩ := map_eq_ok_iff.1 poked
    exact still _ rfl rfl rfl
  | setRegister register value | watch breakpoints | receive request | aside console accesses =>
    rw [stations_of_executes rfl]
    exact still _ rfl rfl rfl

end Calls

end Simulator

end Mips
