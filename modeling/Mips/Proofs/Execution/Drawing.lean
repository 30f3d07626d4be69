import Mips.Proofs.Execution.Changes
import Mips.Proofs.Execution.Serving
import Mips.Proofs.Execution.Straight
import Mips.Proofs.Word

/-!
Random streams in a single step. A stream is begun anew or drawn from by the instruction that calls for it, and no other
instruction changes any stream; a draw below a bound that is not positive is a fault. Main statements: `signed_below`,
`usesStream_of_used` and `streams_of_unused`.
-/

namespace Mips

variable [Generator]

namespace RandomStream

/-- What is drawn from a stream: a word, or a number below a bound. -/
inductive Draw where
  | word
  | below (bound : Word)
  deriving DecidableEq, Repr

/-- What a draw gives, and the stream after it. -/
def Draw.take : Draw → RandomStream → Word × RandomStream
  | .word => next
  | .below bound => RandomStream.below bound

/-- The stream of a seed after draws from it. -/
def afterDraws (seed : Word) (draws : List Draw) : RandomStream :=
  draws.foldl (fun stream draw => (draw.take stream).2) (ofSeed seed)

theorem afterDraws_concat (seed : Word) (draws : List Draw) (draw : Draw) :
    afterDraws seed (draws ++ [draw]) = (draw.take (afterDraws seed draws)).2 := by
  rw [afterDraws, List.foldl_append]
  rfl

/-- As a signed number too, what is drawn below a positive bound is not negative and below it. -/
theorem signed_below [LawfulGenerator] {bound : Word} (positive : 0 < bound.signed) (stream : RandomStream) :
    0 ≤ (below bound stream).1.signed ∧ (below bound stream).1.signed < bound.signed := by
  have less := LawfulGenerator.below_lt positive stream
  have small := bound.toNat_lt
  rw [Word.signed_eq, Int.bmod_def] at positive
  rw [Word.signed_eq, Word.signed_eq, Int.bmod_def, Int.bmod_def]
  omega

end RandomStream

open RandomStream (Draw)

/-- What an instruction does to a random stream. -/
inductive StreamUse where
  | seed (word : Word)
  | draw (drawn : Draw)
  deriving DecidableEq, Repr

/-- The stream after it was used. -/
def StreamUse.leaves (stream : RandomStream) : StreamUse → RandomStream
  | .seed word => .ofSeed word
  | .draw drawn => (drawn.take stream).2

namespace Machine

/--
The number of the random stream that the next instruction uses, and what it does to it. A draw below a bound that is not
positive is refused and uses none.
-/
def streamUse? (machine : Machine) : Option (Word × StreamUse) :=
  match machine.service? with
  | some .seedStream => some (machine.get .a0, .seed (machine.get .a1))
  | some .drawWord => some (machine.get .a0, .draw .word)
  | some .drawBelow =>
    if 0 < (machine.get .a1).signed then some (machine.get .a0, .draw (.below (machine.get .a1))) else none
  | _ => none

/-- A stream is used by one of three services. -/
theorem streamUse?_eq_some_iff {machine : Machine} {number : Word} {use : StreamUse} :
    machine.streamUse? = some (number, use) ↔ machine.get .a0 = number ∧
      (machine.service? = some .seedStream ∧ use = .seed (machine.get .a1) ∨
        machine.service? = some .drawWord ∧ use = .draw .word ∨
        machine.service? = some .drawBelow ∧ 0 < (machine.get .a1).signed ∧
          use = .draw (.below (machine.get .a1))) := by
  unfold streamUse?
  split
  next called => simp [called, eq_comm]
  next called => simp [called, eq_comm]
  next called => simp [called, eq_comm, and_left_comm]
  next other seed word below =>
    simp only [reduceCtorEq, false_iff]
    rintro ⟨-, ⟨called, -⟩ | ⟨called, -⟩ | ⟨called, -⟩⟩
    · exact seed called
    · exact word called
    · exact below called

/-- A machine that no assignment to a random stream was made to has them as they were. -/
theorem streams_assignAll (machine : Machine) {assignments : List Assignment}
    (kept : ∀ number content, .stream number content ∉ assignments) :
    (machine.assignAll assignments).streams = machine.streams := by
  refine view_assignAll streams (fun assignment => ∀ number content, .stream number content ≠ assignment) ?_ machine ?_
  · intro machine assignment other
    cases assignment with
    | stream number content => exact absurd rfl (other number content)
    | register | memory | pc | hi | lo | cop0 | pending | heapBreak => rfl
  · rintro assignment inside number content rfl
    exact kept number content inside

end Machine

namespace Step

variable {κ : Type} [Console κ] {machine : Machine} {delayed : Bool} {console : κ} {surroundings : Surroundings}

/-- A draw below a bound that is not positive is a fault. -/
theorem raises_of_bound (called : machine.service? = some .drawBelow) (refused : (machine.get .a1).signed ≤ 0) :
    Raises machine delayed console surroundings true
      (.service ("upper bound of random range must be positive (was " ++ Text.decimal (machine.get .a1).signed ++
        ")")) := by
  have same : (ready machine).get .a1 = machine.get .a1 := rfl
  have failed : (Service.drawBelow.perform (ready machine) console surroundings).ending =
      .error (.atOnce (.service ("upper bound of random range must be positive (was " ++
        Text.decimal (machine.get .a1).signed ++ ")"))) := by
    rw [Service.perform, same, if_pos refused]
    rfl
  exact raises_of_service called failed

/--
The step completes the instruction and changes the stream with the number alone, and if something was drawn from it then
this is the answer.
-/
def UsesStream (machine : Machine) (step : Step κ) (number : Word) (stream : RandomStream) (use : StreamUse) : Prop :=
  let after := machine.assignAll step.assignments
  step.ending = .completed ∧ after.streams = machine.streams.insert number (use.leaves stream) ∧
    ∀ draw, use = .draw draw → after.get .a0 = (draw.take stream).1

/-- A stream that is begun anew is that of the seed. -/
theorem usesStream_of_seed (delayed : Bool) (console : κ) (surroundings : Surroundings)
    (called : machine.service? = some .seedStream) (stream : RandomStream) :
    ∃ step, ofMachine machine delayed console surroundings = some step ∧
      UsesStream machine step (machine.get .a0) stream (.seed (machine.get .a1)) := by
  have resumed : (Service.seedStream.perform (ready machine) console surroundings).ending =
      .ok (.resume [.stream (machine.get .a0) (some (.ofSeed (machine.get .a1)))]) := rfl
  obtain ⟨step, found, completed, -, -, same⟩ := resumes_of_service delayed called resumed
  refine ⟨step, found, completed, ?_, fun draw seeds => by cases seeds⟩
  rw [same]
  rfl

/-- A draw is answered by what it takes from the stream, or from a fresh one if there was none. -/
theorem usesStream_of_drawn (delayed : Bool) {service : Service} {draw : Draw} (called : machine.service? = some service)
    (resumed : (service.perform (ready machine) console surroundings).ending =
      .ok (.resume (Service.drawn machine surroundings (machine.get .a0) draw.take))) :
    ∃ step, ofMachine machine delayed console surroundings = some step ∧
      UsesStream machine step (machine.get .a0)
        (machine.streams[machine.get .a0]?.getD (surroundings.freshStream (machine.get .a0))) (.draw draw) := by
  obtain ⟨step, found, completed, -, -, same⟩ := resumes_of_service delayed called resumed
  refine ⟨step, found, completed, ?_, fun other drawn => ?_⟩
  · rw [same]
    rfl
  · cases drawn
    rw [same]
    exact Machine.get_set_self _ (by decide) _

/-- The next instruction uses the stream that it calls for, or a fresh one if there was none with this number. -/
theorem usesStream_of_used (delayed : Bool) (console : κ) (surroundings : Surroundings) {number : Word} {use : StreamUse}
    (used : machine.streamUse? = some (number, use)) :
    ∃ step, ofMachine machine delayed console surroundings = some step ∧
      UsesStream machine step number (machine.streams[number]?.getD (surroundings.freshStream number)) use := by
  obtain ⟨rfl, ⟨called, rfl⟩ | ⟨called, rfl⟩ | ⟨called, positive, rfl⟩⟩ := Machine.streamUse?_eq_some_iff.1 used
  · exact usesStream_of_seed delayed console surroundings called _
  · exact usesStream_of_drawn delayed called rfl
  · have resumed : (Service.drawBelow.perform (ready machine) console surroundings).ending =
        .ok (.resume (Service.drawn machine surroundings (machine.get .a0) (Draw.below (machine.get .a1)).take)) := by
      have same : (ready machine).get .a1 = machine.get .a1 := rfl
      rw [Service.perform, same, if_neg (Int.not_le.2 positive)]
      rfl
    exact usesStream_of_drawn delayed called resumed

/-- A step in which no stream is used leaves all of them as they were. -/
theorem streams_of_unused {step : Step κ} (found : ofMachine machine delayed console surroundings = some step)
    (unused : machine.streamUse? = none) : (machine.assignAll step.assignments).streams = machine.streams := by
  rcases raises_or_runs found with ⟨fetched, fault, raised⟩ | ⟨instruction, runs⟩
  · obtain ⟨raising, given, -, precise⟩ := faultsPrecisely_of_raises raised
    cases found.symm.trans given
    obtain ⟨cop0, pending, pc, same⟩ := precise.kept
    rw [same]
  · refine machine.streams_assignAll fun number content member => ?_
    obtain ⟨calls, service, chosen, on⟩ := allowed_of_runs runs found _ member
    have called := Machine.service?_eq_some_iff.2 ⟨instruction, runs.1, calls, chosen⟩
    have never (use : StreamUse) : ¬machine.streamUse? = some (machine.get .a0, use) := by simp [unused]
    rcases on with rfl | rfl | rfl
    · exact never _ (Machine.streamUse?_eq_some_iff.2 ⟨rfl, .inl ⟨called, rfl⟩⟩)
    · exact never _ (Machine.streamUse?_eq_some_iff.2 ⟨rfl, .inr (.inl ⟨called, rfl⟩)⟩)
    · by_cases positive : 0 < (machine.get .a1).signed
      · exact never _ (Machine.streamUse?_eq_some_iff.2 ⟨rfl, .inr (.inr ⟨called, positive, rfl⟩)⟩)
      · exact runs.2 _ _ (raises_of_bound called (Int.not_lt.1 positive))

end Step

end Mips
