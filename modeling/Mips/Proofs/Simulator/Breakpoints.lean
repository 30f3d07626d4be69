import Mips.Proofs.Simulator.Running

/-!
How a run treats breakpoints. It stops at the first one that the program comes to, before the instruction there, and the
next run begins with that instruction. Main statement: `heeds_breakpoints`.
-/

namespace Mips.Simulator

variable [Generator] {κ : Type} [Console κ] {simulator middle after : Simulator κ} {outside : Outside}

/-- The program has not ended after so many instructions, and it has come to a breakpoint. -/
def Hits (simulator : Simulator κ) (outside : Outside) (count : Nat) : Prop :=
  (simulator.progress outside count).1 = none ∧
    simulator.breakpoints.check (simulator.progress outside count).2.machine.pc = true

/--
Why a run may end with so many instructions executed, if it may execute so many and had executed some before. If the
program has ended, there was no breakpoint before.
-/
inductive Ends (simulator : Simulator κ) (outside : Outside) (begun remaining executed : Nat) (after : Simulator κ) :
    StopReason → Prop where
  | limited (all : executed = remaining) (live : simulator.progress outside executed = (none, after.bare)) :
    Ends simulator outside begun remaining executed after .stepLimit
  | paused (live : simulator.progress outside executed = (none, after.bare)) :
    Ends simulator outside begun remaining executed after .paused
  | stopped (live : simulator.progress outside executed = (none, after.bare)) :
    Ends simulator outside begun remaining executed after (.terminated .stopped)
  | hit (live : simulator.progress outside executed = (none, after.bare)) (later : 0 < begun + executed)
      (hit : simulator.breakpoints.check after.machine.pc = true) :
    Ends simulator outside begun remaining executed after (.breakpoint after.machine.pc)
  | ended {termination : Termination}
      (ended : simulator.progress outside remaining = (some termination, after.bare))
      (clear : ∀ count, 0 < begun + count → ¬ simulator.Hits outside count) :
    Ends simulator outside begun remaining executed after (.terminated termination)

/-- The instructions of these machines are the first ones of the program, and none is at a breakpoint but the first. -/
def Passes (simulator : Simulator κ) (outside : Outside) (begun : Nat) (executed : List Machine) : Prop :=
  ∀ count machine, executed[count]? = some machine →
    (simulator.progress outside count).1 = none ∧ (simulator.progress outside count).2.machine = machine ∧
      (0 < begun + count → simulator.breakpoints.check machine.pc = false)

section Rounds

variable {begun remaining : Nat}

theorem passes_nil : Passes simulator outside begun [] := by
  intro count machine found
  cases found

theorem hits_succ (advanced : simulator.advance outside = (none, middle)) (count : Nat) :
    simulator.Hits outside (count + 1) ↔ middle.Hits outside count := by
  have watched := simulator.breakpoints_advance outside
  rw [advanced] at watched
  rw [Hits, Hits, progress_of_advance advanced, watched]

/-- What ends the rest of a run ends the run. -/
theorem Ends.of_rest {executed : Nat} {reason : StopReason} (advanced : simulator.advance outside = (none, middle))
    (clear : 0 < begun → ¬ simulator.Hits outside 0)
    (ends : Ends middle outside (begun + 1) remaining executed after reason) :
    Ends simulator outside begun (remaining + 1) (executed + 1) after reason := by
  have watched := simulator.breakpoints_advance outside
  rw [advanced] at watched
  have later (count : Nat) : simulator.progress outside (count + 1) = middle.progress outside count :=
    progress_of_advance advanced count
  cases ends with
  | limited all live => exact .limited (congrArg (· + 1) all) ((later _).trans live)
  | paused live => exact .paused ((later _).trans live)
  | stopped live => exact .stopped ((later _).trans live)
  | hit live _ hit => exact .hit ((later _).trans live) (by omega) (watched ▸ hit)
  | ended ended clearLater =>
    refine .ended ((later _).trans ended) fun count begins hits => ?_
    cases count with
    | zero => exact clear begins hits
    | succ count => exact clearLater count (by omega) ((hits_succ advanced count).1 hits)

/-- The machines of the rest of a run are the later ones of the run. -/
theorem Passes.of_rest {executed : List Machine} (advanced : simulator.advance outside = (none, middle))
    (clear : 0 < begun → ¬ simulator.Hits outside 0) (passes : Passes middle outside (begun + 1) executed) :
    Passes simulator outside begun (simulator.machine :: executed) := by
  have watched := simulator.breakpoints_advance outside
  rw [advanced] at watched
  intro count machine found
  cases count with
  | zero =>
    obtain rfl := Option.some.inj found
    refine ⟨rfl, rfl, fun begins => ?_⟩
    exact Bool.eq_false_iff.2 fun hit => clear begins ⟨rfl, hit⟩
  | succ count =>
    obtain ⟨live, same, unhit⟩ := passes count machine found
    rw [progress_of_advance advanced]
    refine ⟨live, same, fun _ => ?_⟩
    exact watched ▸ unhit (by omega)

theorem executing_of_advance (advanced : simulator.advance outside = (none, after)) :
    simulator.executing outside = [simulator.machine] := by
  unfold executing
  cases found : simulator.nextStep? outside with
  | none =>
    rw [advance_of_none found] at advanced
    cases advanced
  | some step => rfl

theorem passes_executing (clear : 0 < begun → ¬ simulator.Hits outside 0) :
    Passes simulator outside begun (simulator.executing outside) := by
  intro count machine found
  unfold executing at found
  cases step : simulator.nextStep? outside with
  | none =>
    rw [step] at found
    cases found
  | some step =>
    rw [step] at found
    obtain ⟨rfl, rfl⟩ : count = 0 ∧ simulator.machine = machine := by simpa [List.getElem?_singleton] using found
    refine ⟨rfl, rfl, fun begins => ?_⟩
    exact Bool.eq_false_iff.2 fun hit => clear begins ⟨rfl, hit⟩

section Bare

variable {first second : Simulator κ} (same : first.bare = second.bare)

include same

omit [Console κ] in
theorem breakpoints_of_bare : first.breakpoints = second.breakpoints := by
  show first.bare.breakpoints = second.bare.breakpoints
  rw [same]

theorem hits_of_bare (count : Nat) : first.Hits outside count ↔ second.Hits outside count := by
  rw [Hits, Hits, progress_of_bare same, breakpoints_of_bare same]

theorem Ends.of_bare {executed : Nat} {reason : StopReason}
    (ends : Ends first outside begun remaining executed after reason) :
    Ends second outside begun remaining executed after reason := by
  have there := progress_of_bare same outside
  cases ends with
  | limited all live => exact .limited all (there _ ▸ live)
  | paused live => exact .paused (there _ ▸ live)
  | stopped live => exact .stopped (there _ ▸ live)
  | hit live later hit => exact .hit (there _ ▸ live) later (breakpoints_of_bare same ▸ hit)
  | ended ended clear =>
    refine .ended (there _ ▸ ended) fun count begins hits => ?_
    exact clear count begins ((hits_of_bare same count).2 hits)

theorem Passes.of_bare {executed : List Machine} (passes : Passes first outside begun executed) :
    Passes second outside begun executed := by
  intro count machine found
  rw [← progress_of_bare same, ← breakpoints_of_bare same]
  exact passes count machine found

end Bare

theorem ends_runFrom (simulator : Simulator κ) (outside : Outside) (begun remaining : Nat) :
    Ends simulator outside begun remaining (executedFrom outside remaining begun simulator).length
        (runFrom outside remaining begun simulator).2 (runFrom outside remaining begun simulator).1 ∧
      Passes simulator outside begun (executedFrom outside remaining begun simulator) := by
  induction remaining generalizing begun simulator with
  | zero => exact ⟨.limited rfl rfl, passes_nil⟩
  | succ remaining ih =>
    have bareChecked : (simulator.checkpoint begun).2.bare = simulator.bare := by
      unfold checkpoint
      split <;> rfl
    unfold runFrom executedFrom
    cases polled : simulator.checkpoint begun with
    | mk request checked =>
      rw [polled] at bareChecked
      suffices rest : Ends checked outside _ _ _ _ _ ∧ Passes checked outside _ _ from
        ⟨rest.1.of_bare bareChecked, rest.2.of_bare bareChecked⟩
      cases request with
      | some request =>
        cases request with
        | pause => exact ⟨.paused rfl, passes_nil⟩
        | stop =>
          have stopped : checked.progress outside 0 = (none, (checked.terminate .stopped).bare) :=
            Prod.ext rfl (bare_terminate _ _).symm
          exact ⟨.stopped stopped, passes_nil⟩
      | none =>
        dsimp only
        split
        next hit =>
          obtain ⟨later, hit⟩ := (Bool.and_eq_true _ _).mp hit
          exact ⟨.hit rfl (of_decide_eq_true later) hit, passes_nil⟩
        next clear =>
          have unhit : 0 < begun → ¬ checked.Hits outside 0 := fun later hits =>
            clear ((Bool.and_eq_true _ _).mpr ⟨decide_eq_true later, hits.2⟩)
          cases advanced : checked.advance outside with
          | mk termination after =>
            cases termination with
            | none =>
              obtain ⟨ends, passes⟩ := ih after (begun + 1)
              rw [executing_of_advance advanced]
              exact ⟨ends.of_rest advanced unhit, passes.of_rest advanced unhit⟩
            | some termination =>
              rw [List.append_nil]
              constructor
              · refine .ended (progress_of_end advanced remaining) fun count begins hits => ?_
                cases count with
                | zero => exact unhit begins hits
                | succ count =>
                  have live := hits.1
                  rw [progress_of_end advanced] at live
                  cases live
              · exact passes_executing unhit

end Rounds

/-- Where a run has come to that executed the instructions of these machines and stopped at a breakpoint. -/
structure StoppedAt (simulator : Simulator κ) (outside : Outside) (executed : List Machine) (address : Address)
    (after : Simulator κ) : Prop where
  current : after.machine.pc = address
  hit : simulator.breakpoints.check address = true
  nonempty : executed ≠ []
  /-- The program has come to where these instructions lead, so the one at the breakpoint was not executed. -/
  live : simulator.progress outside executed.length = (none, after.bare)
  counted : after.instructionsRun = simulator.instructionsRun + executed.length
  paused : after.state = .paused
  unasked : after.outstanding = none
  /-- The next run, if nothing is asked before, begins with the instruction at the breakpoint. -/
  resumes : ∀ later limit, 0 < limit →
    (after.executedByRun later limit).head? = (after.nextStep? later).map fun _ => after.machine

/-- How a run treats the breakpoints that executed the instructions of these machines and gave this answer. -/
structure Heeds (simulator : Simulator κ) (outside : Outside) (executed : List Machine)
    (answer : Except RunError StopReason) (after : Simulator κ) : Prop where
  passes : Passes simulator outside 0 executed
  stops : ∀ address, answer = .ok (.breakpoint address) → StoppedAt simulator outside executed address after
  /-- It stops at the first breakpoint that the program comes to, if no limit or request ends it before. -/
  first : ∀ count, 0 < count → simulator.Hits outside count →
    (∀ earlier, 0 < earlier → earlier < count → ¬ simulator.Hits outside earlier) →
    answer = .ok (.breakpoint (simulator.progress outside count).2.machine.pc) ∧ executed.length = count ∨
      (answer = .ok .stepLimit ∨ answer = .ok .paused ∨ answer = .ok (.terminated .stopped)) ∧ executed.length ≤ count

/-- A run without an outstanding request begins with the instruction that is due, whatever breakpoint there is. -/
theorem head?_executedByRun (allowed : simulator.runError? = none) (unasked : simulator.outstanding = none)
    (outside : Outside) {limit : Nat} (positive : 0 < limit) :
    (simulator.executedByRun outside limit).head? = (simulator.nextStep? outside).map fun _ => simulator.machine := by
  obtain ⟨more, rfl⟩ : ∃ more, limit = more + 1 := ⟨limit - 1, by omega⟩
  have begun : simulator.loop.simulator.outstanding = none := (outstanding_setState _ _).trans unasked
  have due : simulator.loop.simulator.nextStep? outside = simulator.nextStep? outside := by
    show simulator.loop.simulator.bare.nextStep? outside = simulator.bare.nextStep? outside
    rw [bare_loop]
  have machine : simulator.loop.simulator.machine = simulator.machine := machine_setState _ _
  rw [Loop.executedByRun_eq allowed, executedFrom, checkpoint_of_unasked begun]
  simp only [Nat.lt_irrefl, decide_false, Bool.false_and, Bool.false_eq_true, if_false]
  cases found : simulator.nextStep? outside with
  | none =>
    rw [found] at due
    rw [advance_of_none due, executing, due]
    rfl
  | some step =>
    rw [found] at due
    rw [executing_of_isSome (Option.isSome_of_eq_some due), machine]
    rfl

theorem stoppedAt_finish {executed : List Machine}
    (live : simulator.progress outside executed.length = (none, middle.bare))
    (hit : simulator.breakpoints.check middle.machine.pc = true) (nonempty : 0 < executed.length)
    (counted : middle.instructionsRun = simulator.instructionsRun + executed.length) :
    StoppedAt simulator outside executed middle.machine.pc (finish (.breakpoint middle.machine.pc) middle).2 := by
  show StoppedAt simulator outside executed middle.machine.pc (middle.takeRequest.2.setState .paused)
  have paused : (middle.takeRequest.2.setState .paused).state = .paused := state_setState _ _
  have unasked : (middle.takeRequest.2.setState .paused).outstanding = none := outstanding_setState _ _
  have allowed : (middle.takeRequest.2.setState .paused).runError? = none := by rw [runError?, paused]
  have same : (middle.takeRequest.2.setState .paused).bare = middle.bare := bare_setState _ _
  constructor
  case current => exact congrArg Machine.pc (machine_setState _ _)
  case hit => exact hit
  case nonempty => exact List.ne_nil_of_length_pos nonempty
  case live => rw [live, same]
  case counted => exact (instructionsRun_setState _ _).trans counted
  case paused => exact paused
  case unasked => exact unasked
  case resumes => exact fun later _ => head?_executedByRun allowed unasked later

/-- Nothing is executed at a breakpoint that the program has come to. -/
theorem Passes.length_le {executed : List Machine} (passes : Passes simulator outside 0 executed) {count : Nat}
    (begins : 0 < count) (hits : simulator.Hits outside count) : executed.length ≤ count := by
  apply Nat.le_of_not_lt
  intro further
  have found : executed[count]? = some executed[count] := List.getElem?_eq_getElem further
  obtain ⟨-, same, unhit⟩ := passes count _ found
  have clear := unhit (by omega)
  rw [← same, hits.2] at clear
  cases clear

theorem heeds_runLimited (allowed : simulator.runError? = none) (outside : Outside) (limit : Nat) :
    Heeds simulator outside (simulator.executedByRun outside limit) (simulator.runLimited outside limit).1
        (simulator.runLimited outside limit).2 ∧
      ((simulator.runLimited outside limit).1 = .ok .stepLimit →
        (simulator.executedByRun outside limit).length = limit) := by
  obtain ⟨ends, passes⟩ := ends_runFrom simulator.loop.simulator outside 0 limit
  have counted := simulator.loop.simulator.instructionsRun_runFrom outside limit 0
  have begun : simulator.loop.simulator.instructionsRun = simulator.instructionsRun := instructionsRun_setState _ _
  have executes := Loop.executedByRun_eq allowed outside limit
  rw [begun, ← executes] at counted
  rw [← executes] at ends passes
  rw [Loop.runLimited_eq allowed]
  generalize runFrom outside limit 0 simulator.loop.simulator = ran at counted ends
  obtain ⟨reason, middle⟩ := ran
  dsimp only at counted ends ⊢
  replace ends := ends.of_bare simulator.bare_loop
  replace passes := passes.of_bare simulator.bare_loop
  refine ⟨⟨passes, ?_, ?_⟩, ?_⟩
  · intro address stopped
    cases ends with
    | limited | paused | stopped => cases stopped
    | @ended termination => cases termination <;> cases stopped
    | hit live later hit =>
      obtain rfl : middle.machine.pc = address := StopReason.breakpoint.inj (Except.ok.inj stopped)
      exact stoppedAt_finish live hit (by omega) counted
  · intro count begins hits first
    have within := passes.length_le begins hits
    cases ends with
    | limited all live => exact .inr ⟨.inl rfl, within⟩
    | paused live => exact .inr ⟨.inr (.inl rfl), within⟩
    | stopped live => exact .inr ⟨.inr (.inr rfl), within⟩
    | hit live later hit =>
      have hitsThere : simulator.Hits outside (simulator.executedByRun outside limit).length := by
        rw [Hits, live]
        exact ⟨rfl, hit⟩
      have same : (simulator.executedByRun outside limit).length = count := by
        apply Nat.le_antisymm within
        apply Nat.le_of_not_lt
        intro earlier
        exact first _ (by omega) earlier hitsThere
      rw [← same, live]
      exact .inl ⟨rfl, rfl⟩
    | ended ended clear => exact absurd hits (clear count (by omega))
  · intro limited
    cases ends with
    | limited all live => exact all
    | paused | stopped | hit => cases limited
    | @ended termination => cases termination <;> cases limited

/--
A run executes nothing at a breakpoint but its first instruction. It stops at the first breakpoint that the program
comes to after that, unless its limit or a request ends it before, and a run without a limit comes to it. The next run
begins with the instruction there.
-/
theorem heeds_breakpoints (allowed : simulator.runError? = none) (outside : Outside) :
    (∀ limit, Heeds simulator outside (simulator.executedByRun outside limit) (simulator.runLimited outside limit).1
        (simulator.runLimited outside limit).2 ∧
      ((simulator.runLimited outside limit).1 = .ok .stepLimit →
        (simulator.executedByRun outside limit).length = limit)) ∧
    (∀ fuel answer after, simulator.run? outside fuel = some (answer, after) →
      Heeds simulator outside (simulator.executedByRun outside fuel) answer after ∧ answer ≠ .ok .stepLimit) ∧
    (∀ count, 0 < count → simulator.Hits outside count → (simulator.run? outside (count + 1)).isSome = true) := by
  refine ⟨heeds_runLimited allowed outside, ?_, ?_⟩
  · intro fuel answer after ended
    have ran := runLimited_of_run ended
    obtain ⟨heeds, -⟩ := heeds_runLimited allowed outside fuel
    rw [ran] at heeds
    refine ⟨heeds, ?_⟩
    rintro rfl
    simp only [run?, ran] at ended
    cases ended
  · intro count begins hits
    obtain ⟨heeds, limited⟩ := heeds_runLimited allowed outside (count + 1)
    have within := heeds.passes.length_le begins hits
    unfold run?
    split
    next ran =>
      have all := limited (congrArg Prod.fst ran)
      omega
    next => rfl

end Mips.Simulator

namespace Mips.Simulator

/-- A loop that begins at a breakpoint stops when it comes to it again. -/
theorem heeds_breakpoint_of_loop :
    let again : Instruction := .ofImmediate .beq .zero .zero 0xFFFE
    let program := Program.ofInstructions [(0x00400000, .ofImmediate .addiu .zero .gp 1), (0x00400004, again)]
    let outside : Outside := ⟨fun _ => ⟨0, RandomStream.ofSeed⟩, fun _ _ => []⟩
    let simulator := { loaded {} program with breakpoints := Breakpoints.empty.insert 0x00400000 }
    simulator.runError? = none ∧ simulator.Hits outside 2 ∧
      ∃ after, simulator.run? outside 3 = some (.ok (.breakpoint 0x00400000), after) ∧
        StoppedAt simulator outside (simulator.executedByRun outside 3) 0x00400000 after := by
  intro again program outside simulator
  have allowed : simulator.runError? = none := by decide +kernel
  have hits : simulator.Hits outside 2 := ⟨by decide +kernel, by decide +kernel⟩
  obtain ⟨-, heeds, returns⟩ := heeds_breakpoints allowed outside
  obtain ⟨⟨answer, after⟩, ran⟩ := Option.isSome_iff_exists.1 (returns 2 (by decide) hits)
  have answered : (simulator.runLimited outside 3).1 = .ok (.breakpoint 0x00400000) :=
    eq_ok_of_toOption (by decide +kernel)
  rw [runLimited_of_run ran] at answered
  obtain rfl : answer = .ok (.breakpoint 0x00400000) := answered
  exact ⟨allowed, hits, after, ran, (heeds 3 _ after ran).1.stops _ rfl⟩

end Mips.Simulator
