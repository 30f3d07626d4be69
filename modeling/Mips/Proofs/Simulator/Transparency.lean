import Mips.Proofs.Simulator.Calls
import Mips.Proofs.Simulator.Polling

/-!
Whether a simulator is observed makes no difference to what it does: neither what is recorded so that it can be undone,
nor how often it looks for requests, nor who is told of events. Main statement: `transparent_of_create`.
-/

namespace Mips

variable [Generator]

/-- The settings without those that say how a simulator is observed. -/
def Settings.unobserved (settings : Settings) : Settings :=
  { settings with backstepping := false, backstepLimit := 0, checkpointInterval := 0 }

/--
The call takes a program as it is, if it takes one; it neither undoes instructions nor makes a request, nor is one made while
it is served.
-/
def Call.Forward {κ : Type} : Call κ → Prop
  | .step outside | .run outside _ | .runLimited outside _ => outside.Quiet
  | .assemble .. | .assembleFile .. | .stepBack | .receive _ => False
  | _ => True

namespace Simulator

variable {κ : Type}

/-- The simulator without what only serves to observe it: its log, its events, and the settings for these. -/
def plain (simulator : Simulator κ) : Simulator κ :=
  { simulator with settings := simulator.settings.unobserved, log := .empty 0, events := {} }

@[simp] theorem plain_setState (simulator : Simulator κ) (state : ControlState) :
    (simulator.setState state).plain = { simulator.plain with state } := by
  unfold setState
  split
  next same => rw [← same]; rfl
  next => rfl

@[simp] theorem plain_terminate (simulator : Simulator κ) (termination : Termination) :
    (simulator.terminate termination).plain =
      { simulator.plain with termination := some termination, state := .terminated } := by
  unfold terminate
  cases termination <;> exact plain_setState _ _

section Alike

variable {first second : Simulator κ} (same : first.plain = second.plain)

include same

/-- What does not depend on how a simulator is observed is the same. -/
theorem eq_of_plain {α : Type} (part : Simulator κ → α) (blind : ∀ simulator, part simulator.plain = part simulator) :
    part first = part second := by
  rw [← blind first, same, blind]

theorem runError?_of_plain : first.runError? = second.runError? :=
  eq_of_plain same runError? fun _ => rfl

theorem outstanding_of_plain : first.outstanding = second.outstanding :=
  eq_of_plain same outstanding fun _ => rfl

theorem plain_restart {machine other : Machine} (machines : machine = other) :
    (first.restart machine).plain = (second.restart other).plain := by
  rw [machines]
  exact eq_of_plain same (fun simulator => (simulator.restart other).plain) fun _ => rfl

theorem plain_load (program : Program) : (first.load program).plain = (second.load program).plain := by
  have machines := eq_of_plain same (fun simulator => Machine.load simulator.settings program) fun _ => rfl
  have ready : ((first.restart (.load first.settings program)).setState .ready).plain =
      ((second.restart (.load second.settings program)).setState .ready).plain := by
    rw [plain_setState, plain_setState, plain_restart same machines]
  exact congrArg (fun simulator => { simulator with program := some program }) ready

theorem plain_reset : first.reset.plain = second.reset.plain := by
  have programs := eq_of_plain same program fun _ => rfl
  have machines := eq_of_plain same (fun simulator => Machine.blank simulator.settings) fun _ => rfl
  unfold reset
  rw [programs]
  split
  next program _ => exact plain_load same program
  next => rw [plain_setState, plain_setState, plain_restart same machines]

variable [Console κ]

/-- An instruction does the same however the simulator is observed. -/
theorem plain_advance (outside : Outside) :
    (first.advance outside).1 = (second.advance outside).1 ∧
      (first.advance outside).2.plain = (second.advance outside).2.plain := by
  have steps := eq_of_plain same (fun simulator => simulator.nextStep? outside) fun _ => rfl
  cases found : first.nextStep? outside with
  | none =>
    rw [advance_of_none found, advance_of_none (steps.symm.trans found), plain_terminate, plain_terminate]
    exact ⟨rfl, congrArg (fun simulator => { simulator with
      termination := some .droppedOffBottom, state := .terminated }) same⟩
  | some step =>
    rw [advance_of_some found, advance_of_some (steps.symm.trans found)]
    have applied := eq_of_plain same (fun simulator => (simulator.apply outside step).plain) fun _ => rfl
    cases step.ending with
    | completed => exact ⟨rfl, applied⟩
    | exited code | faulted report => exact ⟨rfl, by rw [plain_terminate, plain_terminate, applied]⟩

/-- A run does the same, and goes through the same, however the simulator is observed, if no request is made. -/
theorem plain_runFrom {outside : Outside} (quiet : outside.Quiet) (unasked : first.outstanding = none)
    (remaining executed : Nat) :
    (runFrom outside remaining executed first).1 = (runFrom outside remaining executed second).1 ∧
      (runFrom outside remaining executed first).2.plain = (runFrom outside remaining executed second).2.plain ∧
      (stationsFrom outside remaining executed first).map plain =
        (stationsFrom outside remaining executed second).map plain := by
  induction remaining generalizing executed first second with
  | zero => exact ⟨rfl, same, rfl⟩
  | succ remaining ih =>
    have kept := (outstanding_advance quiet first).trans unasked
    have looks := eq_of_plain same (fun simulator =>
      decide (0 < executed) && simulator.breakpoints.check simulator.machine.pc) fun _ => rfl
    obtain ⟨ends, alike⟩ := plain_advance same outside
    unfold runFrom stationsFrom
    rw [checkpoint_of_unasked unasked, checkpoint_of_unasked (outstanding_of_plain same ▸ unasked)]
    dsimp only
    rw [looks]
    split
    next =>
      exact ⟨eq_of_plain same (fun simulator => StopReason.breakpoint simulator.machine.pc) fun _ => rfl, same, rfl⟩
    next =>
      cases here : first.advance outside with
      | mk termination after =>
        cases there : second.advance outside with
        | mk other later =>
          rw [here] at kept ends alike
          rw [there] at ends alike
          obtain rfl : termination = other := ends
          cases termination with
          | some termination => exact ⟨rfl, alike, congrArg (fun simulator => [simulator]) alike⟩
          | none =>
            obtain ⟨reason, last, stations⟩ := ih alike kept (executed + 1)
            exact ⟨reason, last, congrArg₂ List.cons alike stations⟩

omit [Console κ] in
theorem plain_finish (reason : StopReason) :
    (finish reason first).1 = (finish reason second).1 ∧
      (finish reason first).2.plain = (finish reason second).2.plain := by
  have dropped := eq_of_plain same (fun simulator => simulator.takeRequest.2.plain) fun _ => rfl
  unfold finish
  split
  next => exact ⟨rfl, dropped⟩
  next => exact ⟨rfl, dropped⟩
  next => exact ⟨rfl, by rw [plain_setState, plain_setState, dropped]⟩

omit [Console κ] in
theorem plain_cleared : { first with accesses := .empty }.plain = { second with accesses := .empty }.plain :=
  congrArg (fun simulator => { simulator with accesses := .empty }) same

omit [Console κ] in
theorem plain_loop : first.loop.simulator.plain = second.loop.simulator.plain := by
  rw [loop, loop, plain_setState, plain_setState, plain_cleared same]

theorem plain_step (outside : Outside) :
    (first.step outside).1 = (second.step outside).1 ∧
      (first.step outside).2.plain = (second.step outside).2.plain := by
  cases allowed : first.runError? with
  | some error =>
    have refused := (runError?_of_plain same).symm.trans allowed
    rw [step_of_refused allowed, step_of_refused refused]
    exact ⟨rfl, same⟩
  | none =>
    have also := (runError?_of_plain same).symm.trans allowed
    obtain ⟨ends, alike⟩ := plain_advance (plain_cleared same) outside
    cases here : { first with accesses := .empty }.advance outside with
    | mk termination after =>
      cases there : { second with accesses := .empty }.advance outside with
      | mk other later =>
        rw [here, there] at ends alike
        obtain rfl : termination = other := ends
        cases termination with
        | none =>
          rw [step_of_advance allowed here, step_of_advance also there]
          exact ⟨rfl, by rw [plain_setState, plain_setState, alike]⟩
        | some termination =>
          rw [step_of_end allowed here, step_of_end also there]
          exact ⟨rfl, alike⟩

theorem plain_runLimited {outside : Outside} (quiet : outside.Quiet) (unasked : first.outstanding = none) (limit : Nat) :
    (first.runLimited outside limit).1 = (second.runLimited outside limit).1 ∧
      (first.runLimited outside limit).2.plain = (second.runLimited outside limit).2.plain := by
  cases allowed : first.runError? with
  | some error =>
    have refused := (runError?_of_plain same).symm.trans allowed
    rw [runLimited_of_refused allowed, runLimited_of_refused refused]
    exact ⟨rfl, same⟩
  | none =>
    have also := (runError?_of_plain same).symm.trans allowed
    have begun : first.loop.simulator.outstanding = none := (outstanding_setState _ _).trans unasked
    obtain ⟨reason, last, -⟩ := plain_runFrom (plain_loop same) quiet begun limit 0
    rw [Loop.runLimited_eq allowed, Loop.runLimited_eq also, reason]
    exact plain_finish last _

theorem plain_run? {outside : Outside} (quiet : outside.Quiet) (unasked : first.outstanding = none) (fuel : Nat) :
    (first.run? outside fuel).map (Prod.map id plain) = (second.run? outside fuel).map (Prod.map id plain) := by
  obtain ⟨answer, last⟩ := plain_runLimited same quiet unasked fuel
  rw [run?_eq, run?_eq, answer]
  split
  next => rfl
  next => exact congrArg some (Prod.ext answer last)

/-- A call goes through the same before it has been served, however the simulator is observed. -/
theorem plain_passes {call : Call κ} (forward : call.Forward) (unasked : first.outstanding = none) :
    (first.passes call).map plain = (second.passes call).map plain := by
  have begun : first.loop.simulator.outstanding = none := (outstanding_setState _ _).trans unasked
  unfold passes
  rw [runError?_of_plain same]
  split
  next => rfl
  next =>
    split
    next outside =>
      exact congrArg (fun simulator => [simulator]) (plain_advance (plain_cleared same) outside).2
    next outside most =>
      exact congrArg₂ List.cons (plain_loop same) (plain_runFrom (plain_loop same) forward begun most 0).2.2
    next outside most =>
      exact congrArg₂ List.cons (plain_loop same) (plain_runFrom (plain_loop same) forward begun most 0).2.2
    next => rfl

/-- A call has the same answer and the same effect, however the simulator is observed. -/
theorem plain_serve {call : Call κ} (forward : call.Forward) (unasked : first.outstanding = none) :
    (call.serve first).1 = (call.serve second).1 ∧ (call.serve first).2.plain = (call.serve second).2.plain := by
  cases call with
  | assemble | assembleFile | stepBack | receive => cases forward
  | load program => exact ⟨rfl, plain_load same program⟩
  | reset => exact ⟨rfl, plain_reset same⟩
  | step outside =>
    obtain ⟨answer, last⟩ := plain_step same outside
    exact ⟨congrArg (some ∘ Answer.stepped) answer, last⟩
  | run outside fuel =>
    have ran := plain_run? same forward unasked fuel
    have begun : first.loop.simulator.outstanding = none := (outstanding_setState _ _).trans unasked
    simp only [Call.serve]
    cases here : first.run? outside fuel with
    | none =>
      rw [here, Option.map_none, eq_comm, Option.map_eq_none_iff] at ran
      rw [ran]
      exact ⟨rfl, (plain_runFrom (plain_loop same) forward begun fuel 0).2.1⟩
    | some outcome =>
      rw [here, Option.map_some, eq_comm, Option.map_eq_some_iff] at ran
      obtain ⟨other, there, alike⟩ := ran
      rw [there]
      obtain ⟨answer, last⟩ := Prod.ext_iff.1 alike
      exact ⟨congrArg (some ∘ Answer.ran) answer.symm, last.symm⟩
  | runLimited outside limit =>
    obtain ⟨answer, last⟩ := plain_runLimited same forward unasked limit
    exact ⟨congrArg (some ∘ Answer.ran) answer, last⟩
  | setRegister register value =>
    exact ⟨rfl, eq_of_plain same (fun simulator => (simulator.setRegister register value).plain) fun _ => rfl⟩
  | poke width address value =>
    have machines := eq_of_plain same machine fun _ => rfl
    simp only [Call.serve, poke, machines]
    cases second.machine.memory.poke width address value with
    | error error => exact ⟨rfl, same⟩
    | ok memory =>
      exact ⟨rfl, congrArg (fun simulator => { simulator with machine := { second.machine with memory } }) same⟩
  | watch breakpoints => exact ⟨rfl, congrArg (fun simulator => { simulator with breakpoints }) same⟩
  | aside console accesses => exact ⟨rfl, congrArg (fun simulator => { simulator with console, accesses }) same⟩
  | subscribe | unsubscribe number | take number => exact ⟨rfl, same⟩

end Alike

variable [Console κ]

/-- No request is left behind if none is made. -/
theorem outstanding_serve {simulator after : Simulator κ} {call : Call κ} {answer : Answer} (forward : call.Forward)
    (unasked : simulator.outstanding = none) (served : call.serve simulator = (some answer, after)) :
    after.outstanding = none := by
  have ran (outside : Outside) (limit : Nat) : (simulator.runLimited outside limit).2.outstanding = none := by
    cases allowed : simulator.runError? with
    | some error => rw [runLimited_of_refused allowed, unasked]
    | none =>
      rw [Loop.runLimited_eq allowed]
      exact Loop.outstanding_finish _ _
  cases call with
  | assemble | assembleFile | stepBack | receive => cases forward
  | load program =>
    cases served
    exact (outstanding_setState _ _).trans unasked
  | reset =>
    cases served
    unfold reset
    split
    next => exact (outstanding_setState _ _).trans unasked
    next => exact (outstanding_setState _ _).trans unasked
  | step outside =>
    cases served
    cases allowed : simulator.runError? with
    | some error => rw [step_of_refused allowed, unasked]
    | none =>
      have kept := (outstanding_advance forward { simulator with accesses := .empty }).trans unasked
      cases advanced : { simulator with accesses := .empty }.advance outside with
      | mk termination last =>
        rw [advanced] at kept
        cases termination with
        | none =>
          rw [step_of_advance allowed advanced]
          exact (outstanding_setState _ _).trans kept
        | some termination =>
          rw [step_of_end allowed advanced]
          exact kept
  | run outside fuel =>
    simp only [Call.serve] at served
    split at served
    next ended =>
      cases served
      have dropped := ran outside fuel
      rwa [runLimited_of_run ended] at dropped
    next => cases served
  | runLimited outside limit =>
    cases served
    exact ran outside limit
  | poke width address value =>
    rcases exists_of_settle served with poked | ⟨rfl, -⟩
    · obtain ⟨memory, -, rfl⟩ := map_eq_ok_iff.1 poked
      exact unasked
    · exact unasked
  | setRegister | watch | aside | subscribe | unsubscribe | take =>
    cases served
    exact unasked

/-- What comes of a call: its answer, unless it does not return, and what the simulator goes through. -/
structure Exchange (κ : Type) where
  answer : Option Answer
  stations : List (Simulator κ)

/-- What comes of a call, however the simulator is observed, unless the call only concerns who is told of events. -/
def exchange (simulator : Simulator κ) (call : Call κ) : List (Exchange κ) :=
  if call.watches then [] else [⟨(call.serve simulator).1, (simulator.stations call).map plain⟩]

/-- Calls have the same answers and effects, however the simulator is observed and whoever is told of events meanwhile. -/
theorem plain_session {first second : Simulator κ} (same : first.plain = second.plain) {calls : List (Call κ)}
    (forward : ∀ call ∈ calls, call.Forward) (unasked : first.outstanding = none) :
    first.along exchange calls = second.along exchange (calls.filter fun call => !call.watches) ∧
      (first.session calls).plain = (second.session (calls.filter fun call => !call.watches)).plain := by
  induction calls generalizing first second with
  | nil => exact ⟨rfl, same⟩
  | cons call rest ih =>
    rw [List.forall_mem_cons] at forward
    cases watches : call.watches with
    | true =>
      rw [List.filter_cons_of_neg (by simp [watches])]
      have none : first.exchange call = [] := by rw [exchange, watches]; rfl
      rw [along, none, session]
      cases call with
      | subscribe | unsubscribe | take => exact ih same forward.2 unasked
      | _ => cases watches
    | false =>
      rw [List.filter_cons_of_pos (by simp [watches])]
      obtain ⟨answers, alike⟩ := plain_serve same forward.1 unasked
      have passed := plain_passes same forward.1 unasked
      have exchanged : first.exchange call = second.exchange call := by
        simp only [exchange, stations, List.map_append, List.map_cons, List.map_nil, answers, passed, alike]
      rw [along, along, session, session, exchanged]
      cases here : call.serve first with
      | mk answer after =>
        cases there : call.serve second with
        | mk other later =>
          rw [here, there] at answers alike
          obtain rfl : answer = other := answers
          cases answer with
          | none => exact ⟨rfl, alike⟩
          | some answer =>
            obtain ⟨exchanges, last⟩ := ih alike forward.2 (outstanding_serve forward.1 unasked here)
            exact ⟨congrArg (second.exchange call ++ ·) exchanges, last⟩

/--
Two simulators whose settings only differ in what is recorded so that it can be undone and in how often they look for
requests have the same answers to the same calls, and go through the same machines, states and consoles while they serve
them, whoever subscribes to their events; no instruction is undone and no request is made meanwhile.
-/
theorem transparent_of_create {settings : Settings} {backstepping : Bool} {backstepLimit checkpointInterval : Nat}
    {tree : FileTree} {console : κ} {first second : Simulator κ}
    (created : create settings tree console = .ok first)
    (other : create { settings with backstepping, backstepLimit, checkpointInterval } tree console = .ok second)
    {calls others : List (Call κ)} (forward : ∀ call ∈ calls ++ others, call.Forward)
    (same : (calls.filter fun call => !call.watches) = others.filter fun call => !call.watches) :
    first.along exchange calls = second.along exchange others ∧
      (first.session calls).plain = (second.session others).plain := by
  have alike : first.plain = second.plain ∧ first.outstanding = none ∧ second.outstanding = none := by
    unfold create at created other
    split at created
    next => cases created
    next =>
      cases created
      split at other
      next => cases other
      next =>
        cases other
        exact ⟨rfl, rfl, rfl⟩
  obtain ⟨plain, unasked, unaskedThere⟩ := alike
  rw [List.forall_mem_append] at forward
  obtain ⟨exchanges, last⟩ := plain_session plain forward.1 unasked
  obtain ⟨exchangesThere, lastThere⟩ := plain_session rfl forward.2 unaskedThere
  rw [same] at exchanges last
  exact ⟨exchanges.trans exchangesThere.symm, last.trans lastThere.symm⟩

end Simulator

end Mips

namespace Mips.Simulator

/-- A step and a run, with a log and a subscriber and without them. -/
theorem transparent_of_undoable :
    let program := Program.ofInstructions
      [(0x00400000, .ofImmediate .addiu .zero .gp 1), (0x00400004, .ofImmediate .addiu .gp .gp 1)]
    let outside : Outside := ⟨fun _ => ⟨0, RandomStream.ofSeed⟩, fun _ _ => []⟩
    let calls : List (Call SilentConsole) := [.load program, .subscribe, .step outside, .take 0, .run outside 8]
    let others : List (Call SilentConsole) := [.load program, .step outside, .run outside 8]
    ∃ first second, create {} ⟨[], []⟩ {} = .ok first ∧
      create { ({} : Settings) with backstepping := false, backstepLimit := 0, checkpointInterval := 1 } ⟨[], []⟩ {} =
        .ok second ∧
      first.along exchange calls = second.along exchange others ∧
      (first.session calls).log.size = 2 ∧ (second.session others).log.size = 0 := by
  intro program outside calls others
  obtain ⟨first, created⟩ : ∃ first, create {} ⟨[], []⟩ ({} : SilentConsole) = .ok first := ⟨_, rfl⟩
  obtain ⟨second, other⟩ : ∃ second, create { ({} : Settings) with
      backstepping := false, backstepLimit := 0, checkpointInterval := 1 } ⟨[], []⟩ ({} : SilentConsole) = .ok second :=
    ⟨_, rfl⟩
  have forward : ∀ call ∈ calls ++ others, call.Forward := by
    simp [calls, others, Call.Forward, Outside.Quiet, outside]
  refine ⟨first, second, created, other, (transparent_of_create created other forward rfl).1, ?_, ?_⟩
  · cases created
    decide +kernel
  · cases other
    decide +kernel

end Mips.Simulator
