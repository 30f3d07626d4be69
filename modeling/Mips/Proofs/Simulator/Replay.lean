import Mathlib.Logic.Relation
import Mips.Proofs.Simulator.Reports

/-!
What a subscriber learns of a simulator. Whoever subscribes and stays receives, in any sequence of calls, exactly the events
that tell what the simulator does, whoever else subscribes or stops to listen meanwhile. Main statement:
`replays_of_calls`.
-/

namespace Mips

open Relation (ReflTransGen)

namespace EventChannel

/-- The numbers of the subscribers are below the one that the next subscriber gets. -/
def Numbered (channel : EventChannel) : Prop :=
  ∀ subscriber ∈ channel.subscribers, subscriber.number < channel.subscriptions

theorem Numbered.subscribe {channel : EventChannel} (numbered : channel.Numbered) : channel.subscribe.Numbered := by
  intro subscriber mem
  rcases List.mem_append.1 mem with earlier | new
  · exact Nat.lt_succ_of_lt (numbered subscriber earlier)
  · rw [List.mem_singleton.1 new]
    exact Nat.lt_succ_self _

theorem Numbered.update {channel : EventChannel} (numbered : channel.Numbered) (number : Nat)
    {change : Subscriber → Subscriber} (kept : ∀ subscriber, (change subscriber).number = subscriber.number) :
    (channel.update number change).Numbered := by
  intro subscriber mem
  obtain ⟨earlier, held, rfl⟩ := List.mem_map.1 mem
  have below := numbered earlier held
  split
  next => rwa [kept]
  next => exact below

theorem Numbered.emitAll {channel : EventChannel} (numbered : channel.Numbered) (events : List Event) :
    (channel.emitAll events).Numbered := by
  induction events generalizing channel with
  | nil => exact numbered
  | cons event rest ih =>
    refine ih fun subscriber mem => ?_
    obtain ⟨earlier, held, rfl⟩ := List.mem_map.1 mem
    exact numbered earlier (List.mem_of_mem_filter held)

/-- A new subscriber has received nothing yet. -/
theorem inbox?_subscribe {channel : EventChannel} (numbered : channel.Numbered) :
    channel.subscribe.inbox? channel.subscriptions = some [] := by
  have free : channel.subscribers.find? (fun subscriber =>
      subscriber.number = channel.subscriptions && subscriber.listening) = none := by
    rw [List.find?_eq_none]
    intro subscriber mem
    simp [Nat.ne_of_lt (numbered subscriber mem)]
  simp [inbox?, subscribe, List.find?_append, free]

/-- Nobody loses events because someone else subscribes. -/
theorem inbox?_subscribe_of_some {channel : EventChannel} {number : Nat} {inbox : List Event}
    (subscribed : channel.inbox? number = some inbox) : channel.subscribe.inbox? number = some inbox := by
  obtain ⟨subscriber, found, held⟩ := Option.map_eq_some_iff.1 subscribed
  simp [inbox?, subscribe, List.find?_append, found, held]

/-- Nobody loses events because of what another subscriber does. -/
theorem inbox?_update_of_ne (channel : EventChannel) {number other : Nat} (apart : other ≠ number)
    {change : Subscriber → Subscriber} (kept : ∀ subscriber, (change subscriber).number = subscriber.number) :
    (channel.update number change).inbox? other = channel.inbox? other := by
  unfold update inbox?
  dsimp only
  induction channel.subscribers with
  | nil => rfl
  | cons subscriber rest ih =>
    rw [List.map_cons, List.find?_cons, List.find?_cons]
    by_cases same : subscriber.number = number
    · have unlike : subscriber.number ≠ other := fun equal => apart (equal.symm.trans same)
      simp only [if_pos same, kept, unlike, decide_false, Bool.false_and]
      exact ih
    · rw [if_neg same]
      cases decide (subscriber.number = other) && subscriber.listening with
      | true => rfl
      | false => exact ih

theorem inbox?_unsubscribe_of_ne (channel : EventChannel) {number other : Nat} (apart : other ≠ number) :
    (channel.unsubscribe number).inbox? other = channel.inbox? other :=
  channel.inbox?_update_of_ne apart fun _ => rfl

theorem inbox?_take_of_ne (channel : EventChannel) {number other : Nat} (apart : other ≠ number) :
    (channel.take number).inbox? other = channel.inbox? other :=
  channel.inbox?_update_of_ne apart fun _ => rfl

/-- Whoever takes what has arrived has nothing left. -/
theorem inbox?_take {channel : EventChannel} {number : Nat} {inbox : List Event}
    (subscribed : channel.inbox? number = some inbox) : (channel.take number).inbox? number = some [] := by
  obtain ⟨subscriber, found, -⟩ := Option.map_eq_some_iff.1 subscribed
  have same : (fun subscriber : Subscriber => decide (subscriber.number = number) && subscriber.listening) ∘
      (fun subscriber => if subscriber.number = number then { subscriber with inbox := [] } else subscriber) =
      fun subscriber => decide (subscriber.number = number) && subscriber.listening := by
    funext subscriber
    rw [Function.comp_apply]
    split <;> rfl
  have number : subscriber.number = number := by
    have hit := List.find?_some found
    simp only [Bool.and_eq_true, decide_eq_true_eq] at hit
    exact hit.1
  rw [inbox?, take, update, List.find?_map, same, found, Option.map_some, if_pos number]
  rfl

end EventChannel

/-- Whether the event tells that an instruction was executed. -/
def Event.isStepped : Event → Bool
  | .stepped _ => true
  | _ => false

/-- Whether the event tells that an instruction was undone. -/
def Event.isSteppedBack : Event → Bool
  | .steppedBack _ => true
  | _ => false

namespace Simulator

variable [Generator] {κ : Type} [Console κ] {settings : Settings} {simulator : Simulator κ}

/-- The events that a subscriber takes with a call. -/
def taken (number : Nat) (simulator : Simulator κ) : Call κ → List Event
  | .take taker => if taker = number then (simulator.events.inbox? number).getD [] else []
  | _ => []

/-- The events that a subscriber receives until calls have been served: those that it takes meanwhile, and what is left. -/
def received (number : Nat) (calls : List (Call κ)) (simulator : Simulator κ) : List Event :=
  simulator.along (taken number) calls ++ ((simulator.session calls).events.inbox? number).getD []

/-- The program that a call loads, if it loads one or, with a reset, none. -/
def loads (simulator : Simulator κ) : Call κ → List (Option Program)
  | .assemble tree sources => (simulator.assemble tree sources).toOption.toList.map program
  | .assembleFile tree main => (simulator.assembleFile tree main).toOption.toList.map program
  | .load program => [some program]
  | .reset => [simulator.program]
  | _ => []

section Served

variable {call : Call κ}

theorem getLastD_stations {α : Type} (simulator : Simulator κ) (call : Call κ) (part : Simulator κ → α) (start : α) :
    ((simulator.stations call).map part).getLastD start = part (call.serve simulator).2 := by
  rw [stations, List.map_append, getLastD_append]
  rfl

/-- A call leaves a subscriber that stays with what it had, less what it takes, and what the call tells. -/
theorem replays_serve (sound : Sound settings simulator) {number : Nat} {inbox : List Event}
    (subscribed : simulator.events.inbox? number = some inbox) (stays : call ≠ .unsubscribe number) :
    ∃ told left, simulator.taken number call ++ left = inbox ++ told ∧
      (call.serve simulator).2.events.inbox? number = some left ∧
      Replays simulator (simulator.stations call) (simulator.moves call) told := by
  cases watches : call.watches with
  | false =>
    obtain ⟨told, reports⟩ := reports_serve sound watches
    have nothing : simulator.taken number call = [] := by
      cases call <;> first | rfl | cases watches
    refine ⟨told, inbox ++ told, ?_, ?_, reports.toReplays⟩
    · rw [nothing, List.nil_append]
    · rw [reports.events, EventChannel.inbox?_emitAll, subscribed, Option.map_some]
  | true =>
    cases call with
    | subscribe =>
      refine ⟨[], inbox, (List.append_nil inbox).symm, EventChannel.inbox?_subscribe_of_some subscribed, ?_⟩
      rw [stations_of_executes rfl]
      exact replays_of_same rfl rfl
    | unsubscribe other =>
      have apart : number ≠ other := fun same => stays (congrArg Call.unsubscribe same.symm)
      refine ⟨[], inbox, (List.append_nil inbox).symm, ?_, ?_⟩
      · exact (simulator.events.inbox?_unsubscribe_of_ne apart).trans subscribed
      · rw [stations_of_executes rfl]
        exact replays_of_same rfl rfl
    | take taker =>
      rw [stations_of_executes rfl]
      by_cases same : taker = number
      · subst same
        refine ⟨[], [], ?_, EventChannel.inbox?_take subscribed, replays_of_same rfl rfl⟩
        rw [taken, if_pos rfl, subscribed, Option.getD_some]
      · refine ⟨[], inbox, ?_, ?_, replays_of_same rfl rfl⟩
        · rw [taken, if_neg same, List.nil_append, List.append_nil]
        · exact (simulator.events.inbox?_take_of_ne (Ne.symm same)).trans subscribed
    | _ => cases watches

theorem numbered_serve (sound : Sound settings simulator) (numbered : simulator.events.Numbered) :
    (call.serve simulator).2.events.Numbered := by
  cases watches : call.watches with
  | false =>
    obtain ⟨told, reports⟩ := reports_serve sound watches
    rw [reports.events]
    exact numbered.emitAll told
  | true =>
    cases call with
    | subscribe => exact numbered.subscribe
    | unsubscribe number | take number => exact numbered.update number fun _ => rfl
    | _ => cases watches

end Served

/-- A subscriber that stays receives what tells of all that is done while calls are served. -/
theorem replays_session (sound : Sound settings simulator) {number : Nat} {inbox : List Event}
    (subscribed : simulator.events.inbox? number = some inbox) {calls : List (Call κ)}
    (stays : ∀ call ∈ calls, call ≠ .unsubscribe number) :
    ∃ told, simulator.received number calls = inbox ++ told ∧
      Replays simulator (simulator.along stations calls) (simulator.along moves calls) told := by
  -- The inbox is generalised: the other calls begin with what the first one leaves there.
  induction calls generalizing simulator inbox with
  | nil =>
    refine ⟨[], ?_, ⟨rfl, rfl, rfl⟩⟩
    simp only [received, along, session, subscribed, Option.getD_some, List.nil_append, List.append_nil]
  | cons call rest ih =>
    rw [List.forall_mem_cons] at stays
    obtain ⟨told, left, arrived, remains, replays⟩ := replays_serve sound subscribed stays.1
    have state := simulator.getLastD_stations call state simulator.state
    have termination := simulator.getLastD_stations call termination simulator.termination
    cases served : call.serve simulator with
    | mk answer after =>
      rw [served] at remains state termination
      cases answer with
      | none =>
        refine ⟨told, ?_, ?_⟩
        · simp only [received, along, session, served, remains, Option.getD_some, List.append_nil]
          exact arrived
        · simp only [along, served, List.append_nil]
          exact replays
      | some answer =>
        obtain ⟨refusal, commanded⟩ := commanded_serve served
        obtain ⟨more, rests, others⟩ := ih (sound.commanded commanded) remains stays.2
        refine ⟨told ++ more, ?_, ?_⟩
        · calc simulator.received number (call :: rest)
            _ = simulator.taken number call ++ after.received number rest := by
              simp only [received, along, session, served, List.append_assoc]
            _ = inbox ++ told ++ more := by rw [rests, ← List.append_assoc, arrived]
            _ = inbox ++ (told ++ more) := List.append_assoc _ _ _
        · simp only [along, served]
          exact replays.append others state termination

section Counts

theorem countP_executed (machines : List Machine) :
    ((machines.map Move.executed).map Move.event).countP Event.isStepped = machines.length ∧
      ((machines.map Move.executed).map Move.event).countP Event.isSteppedBack = 0 := by
  induction machines with
  | nil => exact ⟨rfl, rfl⟩
  | cons machine rest ih =>
    rw [List.map_cons, List.map_cons, List.countP_cons_of_pos rfl, ih.1, List.countP_cons_of_neg Bool.false_ne_true, ih.2]
    exact ⟨rfl, rfl⟩

theorem instructionsRun_step (simulator : Simulator κ) (outside : Outside) :
    (simulator.step outside).2.instructionsRun =
      simulator.instructionsRun + (simulator.executedByStep outside).length := by
  cases allowed : simulator.runError? with
  | some error =>
    rw [step_of_refused allowed, executedByStep, allowed]
    rfl
  | none =>
    have counted := instructionsRun_advance { simulator with accesses := .empty } outside
    rw [executedByStep_eq allowed]
    cases advanced : { simulator with accesses := .empty }.advance outside with
    | mk termination after =>
      rw [advanced] at counted
      cases termination with
      | none => rwa [step_of_advance allowed advanced, instructionsRun_setState]
      | some termination => rwa [step_of_end allowed advanced]

omit [Console κ] in
theorem instructionsRun_finish (reason : StopReason) (simulator : Simulator κ) :
    (finish reason simulator).2.instructionsRun = simulator.instructionsRun := by
  unfold finish
  split
  next => rfl
  next => rfl
  next => exact instructionsRun_setState _ _

theorem instructionsRun_loop (allowed : simulator.runError? = none) (outside : Outside) (most : Nat) :
    (runFrom outside most 0 simulator.loop.simulator).2.instructionsRun =
      simulator.instructionsRun + (simulator.executedByRun outside most).length := by
  have begun : simulator.loop.simulator.instructionsRun = simulator.instructionsRun := instructionsRun_setState _ _
  rw [instructionsRun_runFrom, begun, Loop.executedByRun_eq allowed]

theorem instructionsRun_runLimited (simulator : Simulator κ) (outside : Outside) (limit : Nat) :
    (simulator.runLimited outside limit).2.instructionsRun =
      simulator.instructionsRun + (simulator.executedByRun outside limit).length := by
  cases allowed : simulator.runError? with
  | some error =>
    rw [runLimited_of_refused allowed, executedByRun, allowed]
    rfl
  | none => rw [Loop.runLimited_eq allowed, instructionsRun_finish, instructionsRun_loop allowed]

theorem instructionsRun_run (simulator : Simulator κ) (outside : Outside) (fuel : Nat) :
    (Call.serve simulator (.run outside fuel)).2.instructionsRun =
      simulator.instructionsRun + (simulator.executedByRun outside fuel).length := by
  simp only [Call.serve]
  split
  next ended =>
    rw [← instructionsRun_runLimited, runLimited_of_run ended]
  next endless =>
    cases allowed : simulator.runError? with
    | some error =>
      rw [run?_of_refused allowed] at endless
      cases endless
    | none => exact instructionsRun_loop allowed outside fuel

omit [Console κ] in
/-- Where an instruction can be undone, one was counted. -/
theorem Sound.succ_instructionsRun (sound : Sound settings simulator) {after : Simulator κ}
    (undone : simulator.stepBack = some after) : after.instructionsRun + 1 = simulator.instructionsRun := by
  obtain ⟨group, rest, popped, -, -⟩ := stepBack_eq_some undone
  have size := (UndoLog.size_of_pop popped).1
  have counted := sound.counted
  have less := instructionsRun_stepBack undone
  omega

omit [Console κ] in
theorem settle_of_toOption {ε : Type} (refusal : ε → Refusal) {outcome : Except ε (Simulator κ)}
    (refused : outcome.toOption.toList.map program = []) : (Call.settle simulator refusal outcome).2 = simulator := by
  cases outcome with
  | ok after => cases refused
  | error error => rfl

/-- As many instructions have been executed as calls tell of that load nothing, less those that were undone. -/
theorem instructionsRun_serve (sound : Sound settings simulator) {call : Call κ} (kept : simulator.loads call = []) :
    (call.serve simulator).2.instructionsRun +
        ((simulator.moves call).map Move.event).countP Event.isSteppedBack =
      simulator.instructionsRun + ((simulator.moves call).map Move.event).countP Event.isStepped := by
  have executes {count : Nat} {machines : List Machine} (counted : count = simulator.instructionsRun + machines.length) :
      count + ((machines.map Move.executed).map Move.event).countP Event.isSteppedBack =
        simulator.instructionsRun + ((machines.map Move.executed).map Move.event).countP Event.isStepped := by
    obtain ⟨stepped, back⟩ := countP_executed machines
    omega
  cases call with
  | assemble | assembleFile => exact congrArg instructionsRun (settle_of_toOption _ kept)
  | load | reset => cases kept
  | step outside => exact executes (instructionsRun_step simulator outside)
  | run outside fuel => exact executes (instructionsRun_run simulator outside fuel)
  | runLimited outside limit => exact executes (instructionsRun_runLimited simulator outside limit)
  | stepBack =>
    simp only [Call.serve, moves]
    cases undone : simulator.stepBack with
    | none => rfl
    | some after => exact sound.succ_instructionsRun undone
  | poke width address value =>
    simp only [Call.serve]
    cases poked : simulator.poke width address value with
    | error error => rfl
    | ok after =>
      obtain ⟨memory, -, rfl⟩ := map_eq_ok_iff.1 poked
      rfl
  | setRegister | watch | receive | aside | subscribe | unsubscribe | take => rfl

theorem instructionsRun_session (sound : Sound settings simulator) {calls : List (Call κ)}
    (kept : simulator.along loads calls = []) :
    (simulator.session calls).instructionsRun +
        ((simulator.along moves calls).map Move.event).countP Event.isSteppedBack =
      simulator.instructionsRun + ((simulator.along moves calls).map Move.event).countP Event.isStepped := by
  induction calls generalizing simulator with
  | nil => rfl
  | cons call rest ih =>
    obtain ⟨here, later⟩ := List.append_eq_nil_iff.1 kept
    have counted := instructionsRun_serve sound here
    cases served : call.serve simulator with
    | mk answer after =>
      rw [served] at later counted
      cases answer with
      | none =>
        simp only [along, session, served, List.append_nil]
        exact counted
      | some answer =>
        obtain ⟨refusal, commanded⟩ := commanded_serve served
        have others := ih (sound.commanded commanded) later
        simp only [along, session, served, List.map_append, List.countP_append]
        dsimp only at counted
        omega

end Counts

omit [Console κ] in
/-- What is told of instructions is told of the moves. -/
theorem Replays.countP {stations : List (Simulator κ)} {moves : List Move} {told : List Event}
    (replays : Replays simulator stations moves told) :
    told.countP Event.isStepped = (moves.map Move.event).countP Event.isStepped ∧
      told.countP Event.isSteppedBack = (moves.map Move.event).countP Event.isSteppedBack := by
  have among (which : Event → Bool) (within : ∀ event, which event = true → event.isMove = true) :
      told.countP which = (moves.map Move.event).countP which := by
    rw [← replays.moves, List.countP_filter]
    refine List.countP_congr fun event _ => ?_
    rw [Bool.and_eq_true]
    exact ⟨fun hit => ⟨hit, within event hit⟩, And.left⟩
  refine ⟨among _ fun event hit => ?_, among _ fun event hit => ?_⟩ <;> cases event <;> first | rfl | cases hit

/--
A new subscriber has no events, whatever calls there were before. One that stays while calls are served receives, after what
it had, exactly what tells of all that is done: the changes of the state, of which none repeats the state before it, the
addresses of the instructions that are executed and of those that a step back leads to, and each end of a program. If no
program is loaded meanwhile, so many more instructions have been executed as were told, less those that were undone. Others
may subscribe, take their events or stop to listen meanwhile.
-/
theorem replays_of_calls {tree : FileTree} {console : κ} {fresh : Simulator κ}
    (created : create settings tree console = .ok fresh)
    (earlier : ReflTransGen (fun before after => ∃ call answer, Call.serve before call = (some answer, after))
      fresh simulator) :
    simulator.events.subscribe.inbox? simulator.events.subscriptions = some [] ∧
      ∀ number inbox, simulator.events.inbox? number = some inbox →
        ∀ calls : List (Call κ), (∀ call ∈ calls, call ≠ .unsubscribe number) →
          ∃ told, simulator.received number calls = inbox ++ told ∧
            Replays simulator (simulator.along stations calls) (simulator.along moves calls) told ∧
            (simulator.state :: told.filterMap Event.state?).IsChain (· ≠ ·) ∧
            (simulator.along loads calls = [] →
              (simulator.session calls).instructionsRun + told.countP Event.isSteppedBack =
                simulator.instructionsRun + told.countP Event.isStepped) := by
  have kept : Sound settings simulator ∧ simulator.events.Numbered := by
    induction earlier with
    | refl =>
      refine ⟨(sound_create created).1, ?_⟩
      unfold create at created
      split at created
      next => cases created
      next =>
        cases created
        exact fun subscriber mem => absurd mem List.not_mem_nil
    | tail _ served ih =>
      obtain ⟨call, answer, served⟩ := served
      obtain ⟨refusal, commanded⟩ := commanded_serve served
      have numbered := @numbered_serve _ κ _ settings _ call ih.1 ih.2
      rw [served] at numbered
      exact ⟨ih.1.commanded commanded, numbered⟩
  obtain ⟨sound, numbered⟩ := kept
  refine ⟨EventChannel.inbox?_subscribe numbered, fun number inbox subscribed calls stays => ?_⟩
  obtain ⟨told, arrives, replays⟩ := replays_session sound subscribed stays
  refine ⟨told, arrives, replays, ?_, fun unloaded => ?_⟩
  · rw [replays.states]
    exact isChain_changes _ _
  · rw [replays.countP.1, replays.countP.2]
    exact instructionsRun_session sound unloaded

end Simulator

end Mips

namespace Mips.Simulator

open Relation (ReflTransGen)

/-- A step that is undone and a run that ends with a fault; another subscriber comes and goes. -/
theorem replays_with_fault :
    let halt : Instruction := .ofCode .breakpoint 0
    let program := Program.ofInstructions [(0x00400000, .ofImmediate .addiu .zero .gp 1), (0x00400004, halt)]
    let outside : Outside := ⟨fun _ => ⟨0, RandomStream.ofSeed⟩, fun _ _ => []⟩
    let fresh : Simulator SilentConsole := ⟨{}, .blank {}, .empty 2000, {}, .empty, .empty, {},
      none, none, .idle, none, 0, 0⟩
    let start := { fresh.load program with events := (fresh.load program).events.subscribe }
    let calls : List (Call SilentConsole) :=
      [.step outside, .subscribe, .stepBack, .take 0, .unsubscribe 1, .run outside 8]
    create {} ⟨[], []⟩ {} = .ok fresh ∧
      ∃ told, start.received 0 calls = told ∧
        Replays start (start.along stations calls) (start.along moves calls) told ∧
        told.filterMap Event.state? = [.paused, .running, .terminated] ∧
        told.filter Event.isMove =
          [.stepped 0x00400000, .steppedBack 0x00400000, .stepped 0x00400000, .stepped 0x00400004] ∧
        told.filter Event.isEnding = (start.session calls).termination.toList.flatMap Termination.announcement ∧
        (start.session calls).instructionsRun + told.countP Event.isSteppedBack = told.countP Event.isStepped := by
  intro halt program outside fresh start calls
  have created : create {} ⟨[], []⟩ {} = .ok fresh := rfl
  have earlier : ReflTransGen (fun before after => ∃ call answer, Call.serve before call = (some answer, after))
      fresh start := .tail (.single ⟨.load program, .done, rfl⟩) ⟨.subscribe, .done, rfl⟩
  have subscribed : start.events.inbox? 0 = some [] := by decide +kernel
  have stays : ∀ call ∈ calls, call ≠ .unsubscribe 0 := by simp [calls]
  obtain ⟨told, arrives, replays, -, counted⟩ := (replays_of_calls created earlier).2 0 [] subscribed calls stays
  rw [List.nil_append] at arrives
  have states : (start.received 0 calls).filterMap Event.state? = [.paused, .running, .terminated] := by decide +kernel
  have moved : (start.received 0 calls).filter Event.isMove =
      [.stepped 0x00400000, .steppedBack 0x00400000, .stepped 0x00400000, .stepped 0x00400004] := by decide +kernel
  have ends : (start.received 0 calls).filter Event.isEnding =
      (start.session calls).termination.toList.flatMap Termination.announcement := by decide +kernel
  have unloaded : start.along loads calls = [] := List.isEmpty_iff.1 (by decide +kernel)
  rw [arrives] at states moved ends
  exact ⟨created, told, arrives, replays, states, moved, ends, (counted unloaded).trans (Nat.zero_add _)⟩

end Mips.Simulator
