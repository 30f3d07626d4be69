import Mips.Proofs.ChaCha
import Mips.Proofs.Execution.Drawing
import Mips.Proofs.Simulator.Following

/-!
Random streams over whole runs. What a program draws from a stream that it has seeded depends on the seed and on the draws
since then, and on nothing else: not on other streams, on draws that were refused, or on instructions that were undone.
Main statement: `draws_of_reached`.
-/

namespace Mips

open RandomStream (Draw afterDraws)

variable [Generator]

/--
The seed that a stream was given last and the draws from it since then, in their order, if it was ever seeded. The latest
use of the stream comes first.
-/
def StreamUse.sinceSeed? : List StreamUse → Option (Word × List Draw)
  | [] => none
  | .seed word :: _ => some (word, [])
  | .draw drawn :: earlier => (sinceSeed? earlier).map fun (word, draws) => (word, draws ++ [drawn])

namespace Machine

/-- What the instructions executed in these machines did to the stream with the number. -/
def usesOf (number : Word) (past : List Machine) : List StreamUse :=
  past.filterMap fun machine => (machine.streamUse?.filter fun (used, _) => used = number).map Prod.snd

theorem usesOf_of_unused (number : Word) {machine : Machine} (unused : machine.streamUse? = none) (past : List Machine) :
    usesOf number (machine :: past) = usesOf number past := by
  simp [usesOf, unused]

theorem usesOf_of_used (number : Word) {machine : Machine} {other : Word} {use : StreamUse}
    (used : machine.streamUse? = some (other, use)) (past : List Machine) :
    usesOf number (machine :: past) = if other = number then use :: usesOf number past else usesOf number past := by
  by_cases same : other = number
  · simp [usesOf, used, same]
  · simp [usesOf, used, same]

/-- The streams that were seeded in the machines before are those of their seeds after the draws from them. -/
def Sown (streams : Std.ExtTreeMap Word RandomStream) (past : List Machine) : Prop :=
  ∀ number seed draws, StreamUse.sinceSeed? (usesOf number past) = some (seed, draws) →
    streams[number]? = some (afterDraws seed draws)

/-- A step leaves every stream that was seeded as its seed and the draws from it say. -/
theorem Sown.step {machine : Machine} {past : List Machine} (sown : Sown machine.streams past) {delayed : Bool}
    {κ : Type} [Console κ] {console : κ} {surroundings : Surroundings} {step : Step κ}
    (found : Step.ofMachine machine delayed console surroundings = some step) :
    Sown (machine.assignAll step.assignments).streams (machine :: past) := by
  intro number seed draws since
  cases used : machine.streamUse? with
  | none =>
    rw [usesOf_of_unused number used] at since
    rw [Step.streams_of_unused found used]
    exact sown number seed draws since
  | some call =>
    obtain ⟨other, use⟩ := call
    obtain ⟨served, given, -, streams, -⟩ := Step.usesStream_of_used delayed console surroundings used
    cases found.symm.trans given
    rw [usesOf_of_used number used] at since
    simp only [streams, Std.ExtTreeMap.getElem?_insert, Std.LawfulEqCmp.compare_eq_iff_eq]
    by_cases same : other = number
    · subst same
      rw [if_pos rfl] at since ⊢
      cases use with
      | seed word =>
        cases since
        rfl
      | draw drawn =>
        obtain ⟨⟨word, earlier⟩, before, last⟩ := Option.map_eq_some_iff.1 since
        cases last
        rw [sown other _ earlier before, RandomStream.afterDraws_concat]
        rfl
    · rw [if_neg same] at since ⊢
      exact sown number seed draws since

theorem accounts_streams : Accounts Machine.streams Sown where
  restored := by
    intro first second same assignment
    cases assignment with
    | stream number content => cases content <;> simp only [assign, same]
    | register | memory | pc | hi | lo | cop0 | pending | heapBreak => exact same
  begun machine number seed draws since := by cases since
  stepped sown found := sown.step found
  edited machine register value := rfl
  poked machine memory := rfl

end Machine

namespace Simulator

variable {κ : Type} [Console κ] {simulator : Simulator κ} {past : List Machine}

/-- A use of a stream completes, and a draw is answered by what it takes from the stream. -/
theorem advance_of_used {number : Word} {use : StreamUse} (used : simulator.machine.streamUse? = some (number, use))
    (outside : Outside) :
    let after := (simulator.advance outside).2.machine
    let stream := simulator.machine.streams[number]?.getD ((outside.surroundings simulator.moment).freshStream number)
    (simulator.advance outside).1 = none ∧ after.streams = simulator.machine.streams.insert number (use.leaves stream) ∧
      ∀ draw, use = .draw draw → after.get .a0 = (draw.take stream).1 := by
  intro after stream
  obtain ⟨step, found, completed, streams, value⟩ := Step.usesStream_of_used simulator.settings.delayedBranching
    simulator.console (outside.surroundings simulator.moment) used
  have advanced : simulator.advance outside = (none, simulator.apply outside step) := by
    rw [advance_of_some found, completed]
  have arrives : after = simulator.machine.assignAll step.assignments :=
    congrArg (fun result => result.2.machine) advanced
  rw [arrives]
  exact ⟨congrArg Prod.fst advanced, streams, value⟩

section Seeded

variable {number seed : Word} {draws : List Draw}

/-- A stream that was seeded is what its last seed and the draws since then make of it. -/
theorem stream_of_reached (reached : Reached simulator past)
    (since : StreamUse.sinceSeed? (Machine.usesOf number past) = some (seed, draws)) :
    simulator.machine.streams[number]? = some (afterDraws seed draws) :=
  (Machine.accounts_streams.followed_of_reached reached).current number seed draws since

/-- The next draw from a stream that was seeded completes and is answered from what the stream has become. -/
theorem answer_of_reached (reached : Reached simulator past)
    (since : StreamUse.sinceSeed? (Machine.usesOf number past) = some (seed, draws)) {draw : Draw}
    (used : simulator.machine.streamUse? = some (number, .draw draw)) (outside : Outside) :
    (simulator.advance outside).1 = none ∧
      (simulator.advance outside).2.machine.get .a0 = (draw.take (afterDraws seed draws)).1 := by
  obtain ⟨completed, -, value⟩ := advance_of_used used outside
  have answer := value draw rfl
  rw [stream_of_reached reached since, Option.getD_some] at answer
  exact ⟨completed, answer⟩

/--
Two runs in which streams were seeded alike and drawn from alike give the same answer to the same draw, however different
the programs, the settings and all that is outside are.
-/
theorem same_answer_of_reached {κ' : Type} [Console κ'] {other : Simulator κ'} {past' : List Machine} {number' : Word}
    (reached : Reached simulator past) (reached' : Reached other past')
    (since : StreamUse.sinceSeed? (Machine.usesOf number past) = some (seed, draws))
    (since' : StreamUse.sinceSeed? (Machine.usesOf number' past') = some (seed, draws)) {draw : Draw}
    (used : simulator.machine.streamUse? = some (number, .draw draw))
    (used' : other.machine.streamUse? = some (number', .draw draw)) (outside outside' : Outside) :
    (simulator.advance outside).2.machine.get .a0 = (other.advance outside').2.machine.get .a0 :=
  (answer_of_reached reached since used outside).2.trans (answer_of_reached reached' since' used' outside').2.symm

end Seeded

/-- A number drawn below a bound is not negative and below it, whether or not the stream was seeded. -/
theorem signed_of_drawn [LawfulGenerator] {number bound : Word}
    (used : simulator.machine.streamUse? = some (number, .draw (.below bound))) (outside : Outside) :
    let drawn := (simulator.advance outside).2.machine.get .a0
    0 ≤ drawn.signed ∧ drawn.signed < bound.signed := by
  intro drawn
  obtain ⟨-, -, value⟩ := advance_of_used used outside
  have answer : drawn = _ := value _ rfl
  obtain ⟨-, ⟨-, other⟩ | ⟨-, other⟩ | ⟨-, positive, same⟩⟩ := Machine.streamUse?_eq_some_iff.1 used
  · cases other
  · cases other
  · cases same
    rw [answer]
    exact RandomStream.signed_below positive _

/--
In every state that can be reached, a stream that was seeded is what its last seed and the draws since then make of it,
and so is the answer to the next draw: it does not depend on other streams, on draws that were refused, on anything
outside or on instructions that were undone, as these are not among the uses of the stream. Any two runs, however
different they are, that seeded a stream alike and drew from it alike since then have the same answer to the same draw.
A number that is drawn below a bound is not negative and below it, and a draw below a bound that is not positive is a
fault that leaves all streams as they were.
-/
theorem draws_of_reached [LawfulGenerator] (reached : Reached simulator past) (outside : Outside) :
    let machine := simulator.machine
    let after := (simulator.advance outside).2.machine
    (∀ number seed draws, StreamUse.sinceSeed? (Machine.usesOf number past) = some (seed, draws) →
      machine.streams[number]? = some (afterDraws seed draws) ∧
        ∀ draw, machine.streamUse? = some (number, .draw draw) →
          (simulator.advance outside).1 = none ∧ after.get .a0 = (draw.take (afterDraws seed draws)).1 ∧
            StreamUse.sinceSeed? (Machine.usesOf number (machine :: past)) = some (seed, draws ++ [draw]) ∧
            ∀ (κ' : Type) [Console κ'] (other : Simulator κ') past' number' outside', Reached other past' →
              StreamUse.sinceSeed? (Machine.usesOf number' past') = some (seed, draws) →
                other.machine.streamUse? = some (number', .draw draw) →
                  (other.advance outside').2.machine.get .a0 = after.get .a0) ∧
    (∀ number bound, machine.streamUse? = some (number, .draw (.below bound)) →
      0 ≤ (after.get .a0).signed ∧ (after.get .a0).signed < bound.signed) ∧
    (machine.service? = some .drawBelow → (machine.get .a1).signed ≤ 0 →
      ∃ reason, simulator.Raises outside true (.service reason) ∧ after.streams = machine.streams) := by
  intro machine after
  refine ⟨fun number seed draws since => ⟨stream_of_reached reached since, fun draw used => ?_⟩,
    fun number bound used => signed_of_drawn used outside, fun called refused => ?_⟩
  · obtain ⟨completed, answer⟩ := answer_of_reached reached since used outside
    refine ⟨completed, answer, ?_, ?_⟩
    · rw [Machine.usesOf_of_used number used, if_pos rfl, StreamUse.sinceSeed?, since]
      rfl
    · intro κ' _ other past' number' outside' reached' since' used'
      exact same_answer_of_reached reached' reached since' since used' used outside' outside
  · have raised : simulator.Raises outside true (.service _) := Step.raises_of_bound called refused
    obtain ⟨cop0, pending, pc, kept⟩ := (advance_of_raises raised).2.kept
    have arrives : after = { machine with cop0, pending, pc } := kept
    exact ⟨_, raised, by rw [arrives]⟩

end Simulator

end Mips

namespace Mips.Simulator

open RandomStream (Draw afterDraws)

/--
A number is drawn below ten from a stream that was seeded, after a word was drawn from another one. It is the same if
another stream is seeded so and nothing is drawn before.
-/
theorem draws_between_others :
    let call := Instruction.ofCode .syscall 0
    let choose (target : Register) (value : UInt16) := Instruction.ofImmediate .addiu .zero target value
    let program := Program.ofInstructions
      [(0x00400000, choose .v0 40), (0x00400004, choose .a0 1), (0x00400008, choose .a1 1234), (0x0040000C, call),
       (0x00400010, choose .v0 41), (0x00400014, choose .a0 2), (0x00400018, call), (0x0040001C, choose .v0 42),
       (0x00400020, choose .a0 1), (0x00400024, choose .a1 10), (0x00400028, call)]
    let shorter := Program.ofInstructions
      [(0x00400000, choose .v0 40), (0x00400004, choose .a0 7), (0x00400008, choose .a1 1234), (0x0040000C, call),
       (0x00400010, choose .v0 42), (0x00400014, choose .a1 10), (0x00400018, call)]
    let outside : Outside := ⟨fun _ => ⟨0, RandomStream.ofSeed⟩, fun _ _ => []⟩
    let start := loaded {} program
    let simulator := (start.runLimited outside 10).2
    let past := (start.executedByRun outside 10).reverse
    let other := ((loaded {} shorter).runLimited outside 6).2
    let drawn := (simulator.advance outside).2.machine.get .a0
    Reached simulator past ∧ StreamUse.sinceSeed? (Machine.usesOf 1 past) = some (1234, []) ∧
      simulator.machine.streamUse? = some (1, .draw (.below 10)) ∧
      drawn = (RandomStream.below 10 (.ofSeed 1234)).1 ∧ 0 ≤ drawn.signed ∧ drawn.signed < 10 ∧
      (other.advance outside).2.machine.get .a0 = drawn := by
  intro call choose program shorter outside start simulator past other drawn
  have ran (program : Program) (limit : Nat) : Reached ((loaded {} program).runLimited outside limit).2
      ((loaded {} program).executedByRun outside limit).reverse := by
    have begun : Reached (loaded {} program) [] := reached_loaded (by decide +kernel) program
    have after := begun.runLimited outside limit
    rwa [List.append_nil] at after
  have since : StreamUse.sinceSeed? (Machine.usesOf 1 past) = some (1234, []) := by decide +kernel
  have used : simulator.machine.streamUse? = some (1, .draw (.below 10)) := by decide +kernel
  obtain ⟨seeded, bounded, -⟩ := draws_of_reached (ran program 10) outside
  obtain ⟨-, answers⟩ := seeded 1 1234 [] since
  obtain ⟨-, answer, -, same⟩ := answers _ used
  obtain ⟨low, high⟩ := bounded 1 10 used
  exact ⟨ran program 10, since, used, answer, low, high,
    same _ other _ 7 outside (ran shorter 6) (by decide +kernel) (by decide +kernel)⟩

end Mips.Simulator
