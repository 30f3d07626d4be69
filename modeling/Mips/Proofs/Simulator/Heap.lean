import Mips.Proofs.Execution.Serving
import Mips.Proofs.Simulator.Session

/-!
The heap that a program is given piece by piece. The end of the heap stays within its segment and moves up only, and each
piece begins where the heap ended before, so that no byte is given out twice as long as nothing is undone. Main
statements: `heap_of_step` and `heap_of_session`.
-/

namespace Mips

open Relation (ReflTransGen)

variable [Generator]

namespace Machine

/-- How many bytes of the heap the next instruction asks for, if it calls the service that gives them out. -/
def heapRequest? (machine : Machine) : Option Int :=
  if machine.service? = some .allocate then some (machine.get .a0).signed else none

/-- So many bytes can be given out: the words that hold them end at the stack at the latest. -/
def Affords (machine : Machine) (request : Int) : Prop :=
  0 ≤ request ∧
    machine.heapBreak.toNat + (request.toNat + 3) / 4 * 4 ≤ machine.memory.layout.stackLimit.toNat

instance (machine : Machine) (request : Int) : Decidable (machine.Affords request) :=
  inferInstanceAs (Decidable (_ ∧ _))

/-- How many bytes of the heap the next instruction is given, if it asks for some that can be given out. -/
def granted? (machine : Machine) : Option Nat :=
  (machine.heapRequest?.filter fun request => machine.Affords request).map Int.toNat

/-- A piece of the heap that a program was given: so many bytes from an address on. -/
structure HeapPiece where
  address : Address
  size : Nat
  deriving DecidableEq

/-- The byte at the address is one of the piece. -/
def HeapPiece.Holds (piece : HeapPiece) (address : Address) : Prop :=
  piece.address.toNat ≤ address.toNat ∧ address.toNat < piece.address.toNat + piece.size

/--
The pieces that were given in the machines before this one, the latest of which comes first: as many bytes as were asked
for, from the address on that the call gave back.
-/
def heapPieces (machine : Machine) : List Machine → List HeapPiece
  | [] => []
  | before :: past => (before.granted?.map (HeapPiece.mk (machine.get .v0))).toList ++ before.heapPieces past

theorem heapRequest?_eq_some_iff {machine : Machine} {request : Int} :
    machine.heapRequest? = some request ↔
      machine.service? = some .allocate ∧ (machine.get .a0).signed = request := by
  simp only [heapRequest?, Option.ite_none_right_eq_some, Option.some.injEq]

theorem granted?_eq_some_iff {machine : Machine} {size : Nat} :
    machine.granted? = some size ↔
      machine.service? = some .allocate ∧ machine.Affords (machine.get .a0).signed ∧
        (machine.get .a0).signed.toNat = size := by
  unfold granted? heapRequest?
  split
  next called => simp [Option.filter, called]
  next other => simp [other]

/-- A machine that no assignment to the end of the heap was made to has it where it was. -/
theorem heapBreak_assignAll (machine : Machine) {assignments : List Assignment}
    (kept : ∀ value, .heapBreak value ∉ assignments) :
    (machine.assignAll assignments).heapBreak = machine.heapBreak := by
  refine view_assignAll heapBreak (fun assignment => ∀ value, .heapBreak value ≠ assignment) ?_ machine ?_
  · intro machine assignment other
    cases assignment with
    | heapBreak value => exact absurd rfl (other value)
    | stream number content => cases content <;> rfl
    | register | memory | pc | hi | lo | cop0 | pending => rfl
  · rintro assignment inside value rfl
    exact kept value inside

end Machine

namespace Step

variable {κ : Type} [Console κ] {machine : Machine} (delayed : Bool) (console : κ) (surroundings : Surroundings)

/-- A request that cannot be met is a fault of the service. -/
theorem raises_of_not_affords (called : machine.service? = some .allocate)
    (refused : ¬machine.Affords (machine.get .a0).signed) :
    ∃ reason, Raises machine delayed console surroundings true (.service reason) := by
  have failed : ∃ reason, Service.allocation (ready machine) ((ready machine).get .a0).signed =
      .error (.atOnce (.service reason)) := by
    change ¬(ready machine).Affords ((ready machine).get .a0).signed at refused
    unfold Service.allocation
    unfold Machine.Affords at refused
    dsimp only
    split
    · exact ⟨_, rfl⟩
    · rw [if_pos (by omega)]
      exact ⟨_, rfl⟩
  obtain ⟨reason, failed⟩ := failed
  have ending : (Service.allocate.perform (ready machine) console surroundings).ending =
      .error (.atOnce (.service reason)) := by
    rw [Service.perform, failed]
    rfl
  exact ⟨reason, raises_of_service called ending⟩

/-- A request that can be met is answered by the address at which the heap ended, and the heap ends behind its words. -/
theorem step_of_affords (called : machine.service? = some .allocate)
    (affords : machine.Affords (machine.get .a0).signed) :
    ∃ step, ofMachine machine delayed console surroundings = some step ∧ step.ending = .completed ∧
      (machine.assignAll step.assignments).get .v0 = machine.heapBreak ∧
      (machine.assignAll step.assignments).heapBreak.toNat =
        machine.heapBreak.toNat + ((machine.get .a0).signed.toNat + 3) / 4 * 4 := by
  obtain ⟨positive, room⟩ := affords
  have limit := machine.memory.layout.stackLimit.toNat_lt
  let last := machine.heapBreak.toNat + ((machine.get .a0).signed.toNat + 3) / 4 * 4
  have given : Service.allocation (ready machine) ((ready machine).get .a0).signed =
      .ok [.heapBreak (UInt32.ofNat last), .register .v0 machine.heapBreak] := by
    change Service.allocation machine (machine.get .a0).signed = _
    rw [Service.allocation, if_neg (by omega)]
    dsimp only
    rw [if_neg (by omega)]
  have resumed : (Service.allocate.perform (ready machine) console surroundings).ending =
      .ok (.resume [.heapBreak (UInt32.ofNat last), .register .v0 machine.heapBreak]) := by
    rw [Service.perform, given]
    rfl
  obtain ⟨step, found, completed, -, -, same⟩ := resumes_of_service delayed called resumed
  refine ⟨step, found, completed, ?_, ?_⟩
  · rw [same]
    exact Machine.get_set_self _ (by decide) _
  · have ends : (machine.assignAll step.assignments).heapBreak = UInt32.ofNat last := by
      rw [same]
      rfl
    rw [ends, UInt32.toNat_ofNat']
    exact Nat.mod_eq_of_lt (by omega)

/--
What a step does to the heap. If a request is met then the heap ends behind the words that were given out and its old
end is answered, and otherwise it ends where it did.
-/
theorem heap_of_step {delayed : Bool} {console : κ} {surroundings : Surroundings} {step : Step κ}
    (found : ofMachine machine delayed console surroundings = some step) :
    (∀ size, machine.granted? = some size →
      (machine.assignAll step.assignments).get .v0 = machine.heapBreak ∧
        (machine.assignAll step.assignments).heapBreak.toNat = machine.heapBreak.toNat + (size + 3) / 4 * 4) ∧
    (machine.granted? = none → (machine.assignAll step.assignments).heapBreak = machine.heapBreak) := by
  constructor
  · intro size granted
    obtain ⟨called, affords, rfl⟩ := Machine.granted?_eq_some_iff.1 granted
    obtain ⟨same, given, -, answer, ends⟩ := step_of_affords delayed console surroundings called affords
    cases found.symm.trans given
    exact ⟨answer, ends⟩
  · intro nothing
    rcases raises_or_runs found with ⟨fetched, fault, raised⟩ | ⟨instruction, runs⟩
    · obtain ⟨raising, given, -, precise⟩ := faultsPrecisely_of_raises raised
      cases found.symm.trans given
      obtain ⟨cop0, pending, pc, same⟩ := precise.kept
      rw [same]
    · refine machine.heapBreak_assignAll fun value member => ?_
      obtain ⟨calls, chosen⟩ := allowed_of_runs runs found _ member
      have called := Machine.service?_eq_some_iff.2 ⟨instruction, runs.1, calls, chosen⟩
      -- Only a request that is met assigns the end of the heap, as any other is a fault.
      have refused : ¬machine.Affords (machine.get .a0).signed := fun affords =>
        absurd (nothing.symm.trans (Machine.granted?_eq_some_iff.2 ⟨called, affords, rfl⟩)) (by simp)
      obtain ⟨reason, raised⟩ := raises_of_not_affords delayed console surroundings called refused
      exact runs.2 _ _ raised

end Step

namespace Machine

theorem heapBreak_set (machine : Machine) (target : Register) (value : Word) :
    (machine.set target value).heapBreak = machine.heapBreak := by
  rw [set_eq]

/-- The heap of a machine in which a program was just loaded ends where it begins. -/
theorem heapBreak_load (settings : Settings) (program : Program) :
    (Machine.load settings program).heapBreak = settings.layout.heapBase := by
  unfold load
  by_cases given : settings.programArguments = []
  · rw [given]
    rfl
  · rw [storeArguments_eq _ given, heapBreak_set, heapBreak_set, heapBreak_set]
    rfl

/--
The heap of the machine ends in its segment, and these pieces of it were given out one behind the other, the latest of
which comes first.
-/
structure HeapSound (machine : Machine) (pieces : List HeapPiece) : Prop where
  aligned : machine.heapBreak.toNat % 4 = 0
  lower : machine.memory.layout.heapBase.toNat ≤ machine.heapBreak.toNat
  upper : machine.heapBreak.toNat ≤ machine.memory.layout.stackLimit.toNat
  multiple : ∀ piece ∈ pieces, piece.address.toNat % 4 = 0
  inside : ∀ piece ∈ pieces, machine.memory.layout.heapBase.toNat ≤ piece.address.toNat ∧
    piece.address.toNat + piece.size ≤ machine.heapBreak.toNat
  behind : pieces.Pairwise fun later earlier => earlier.address.toNat + earlier.size ≤ later.address.toNat

/-- A piece that is given out lies behind those that were given out before. -/
theorem HeapSound.step {machine : Machine} {pieces : List HeapPiece} (sound : machine.HeapSound pieces) {κ : Type}
    [Console κ] {delayed : Bool} {console : κ} {surroundings : Surroundings} {step : Step κ}
    (found : Step.ofMachine machine delayed console surroundings = some step) :
    let after := machine.assignAll step.assignments
    after.HeapSound ((machine.granted?.map (HeapPiece.mk (after.get .v0))).toList ++ pieces) := by
  intro after
  have rules : after.memory.layout = machine.memory.layout := (machine.rules_assignAll step.assignments).1
  obtain ⟨met, unmet⟩ := Step.heap_of_step found
  cases granted : machine.granted? with
  | none =>
    obtain ⟨aligned, lower, upper, multiple, inside, behind⟩ := sound
    rw [← unmet granted] at aligned lower upper inside
    rw [← rules] at lower upper inside
    exact ⟨aligned, lower, upper, multiple, inside, behind⟩
  | some size =>
    obtain ⟨answer, ends⟩ := met size granted
    obtain ⟨-, ⟨-, room⟩, rfl⟩ := granted?_eq_some_iff.1 granted
    have aligned := sound.aligned
    have lower := sound.lower
    change after.get .v0 = machine.heapBreak at answer
    change after.heapBreak.toNat = _ at ends
    rw [Option.map_some, Option.toList_some, List.singleton_append, answer]
    constructor
    case aligned => omega
    case lower =>
      rw [rules]
      omega
    case upper =>
      rw [rules]
      omega
    case multiple => exact List.forall_mem_cons.2 ⟨aligned, sound.multiple⟩
    case inside =>
      rw [rules]
      refine List.forall_mem_cons.2 ⟨⟨lower, ?_⟩, fun piece member => ?_⟩
      · dsimp only
        omega
      · have earlier := sound.inside piece member
        omega
    case behind => exact List.pairwise_cons.2 ⟨fun piece member => (sound.inside piece member).2, sound.behind⟩

/-- The heap is sound all along the trail. -/
theorem Trail.heapSound {settings : Settings} (ordered : settings.layout.Ordered) {program : Program}
    {machine : Machine} {past : List Machine} (trail : Trail settings program machine past) :
    machine.HeapSound (machine.heapPieces past) := by
  induction trail with
  | load =>
    have rules := (rules_load settings program).1
    have ends := heapBreak_load settings program
    have aligned := ordered.aligned ("heap_base", settings.layout.heapBase) (by simp [Layout.boundaries])
    have heap := ordered.heap
    constructor
    case aligned => rw [ends, aligned]
    case lower => exact Nat.le_of_eq (by rw [ends, rules])
    case upper => rwa [ends, rules]
    case multiple => simp [heapPieces]
    case inside => simp [heapPieces]
    case behind => exact .nil
  | step trail console surroundings found ih => exact ih.step found

end Machine

namespace Simulator

variable {κ : Type} [Console κ]

/-- Executing instructions never takes back what was given out of the heap. -/
theorem kept_heapBreak (bound : Address) :
    Kept fun (simulator : Simulator κ) _ => bound ≤ simulator.machine.heapBreak where
  advance := by
    intro simulator past held live outside
    cases found : simulator.nextStep? outside with
    | none =>
      rw [advance_of_none found, machine_terminate]
      exact held
    | some step =>
      obtain ⟨met, unmet⟩ := Step.heap_of_step found
      rw [(sameUndo_advance found).1]
      change bound ≤ (simulator.machine.assignAll step.assignments).heapBreak
      cases granted : simulator.machine.granted? with
      | none =>
        rw [unmet granted]
        exact held
      | some size =>
        rw [UInt32.le_iff_toNat_le] at held ⊢
        rw [(met size granted).2]
        exact Nat.le_add_right_of_le held
  resume held _ := by rwa [machine_setState]
  pause held _ := by rwa [machine_setState]
  stop held _ := by rwa [machine_terminate]
  aside held _ _ _ _ _ := held

/-- A request that can be met is met, and one more piece has been given out. -/
theorem advance_of_affords (simulator : Simulator κ) (outside : Outside) (past : List Machine)
    (called : simulator.machine.service? = some .allocate)
    (affords : simulator.machine.Affords (simulator.machine.get .a0).signed) :
    let machine := simulator.machine
    let size := (machine.get .a0).signed.toNat
    let after := (simulator.advance outside).2.machine
    (simulator.advance outside).1 = none ∧ after.get .v0 = machine.heapBreak ∧
      after.heapBreak.toNat = machine.heapBreak.toNat + (size + 3) / 4 * 4 ∧
      after.heapPieces (machine :: past) = ⟨machine.heapBreak, size⟩ :: machine.heapPieces past := by
  intro machine size after
  obtain ⟨step, found, completed, answer, ends⟩ := Step.step_of_affords simulator.settings.delayedBranching
    simulator.console (outside.surroundings simulator.moment) called affords
  have advanced : simulator.advance outside = (none, simulator.apply outside step) := by
    rw [advance_of_some found, completed]
  have arrives : after = machine.assignAll step.assignments := congrArg (fun result => result.2.machine) advanced
  have granted : machine.granted? = some size := Machine.granted?_eq_some_iff.2 ⟨called, affords, rfl⟩
  rw [← arrives] at answer ends
  refine ⟨congrArg Prod.fst advanced, answer, ends, ?_⟩
  rw [Machine.heapPieces, granted, Option.map_some, answer]
  rfl

/-- A request that cannot be met is a fault, which gives nothing out and leaves every register as it was. -/
theorem advance_of_not_affords (simulator : Simulator κ) (outside : Outside) (past : List Machine)
    (called : simulator.machine.service? = some .allocate)
    (refused : ¬simulator.machine.Affords (simulator.machine.get .a0).signed) :
    let machine := simulator.machine
    let after := (simulator.advance outside).2.machine
    ∃ reason, simulator.Raises outside true (.service reason) ∧
      machine.FaultsPrecisely after true (.service reason) ∧ after.heapBreak = machine.heapBreak ∧
      after.registers = machine.registers ∧ after.heapPieces (machine :: past) = machine.heapPieces past := by
  intro machine after
  have nothing : machine.granted? = none := Option.eq_none_iff_forall_ne_some.2 fun size granted =>
    refused (Machine.granted?_eq_some_iff.1 granted).2.1
  obtain ⟨reason, raised⟩ := Step.raises_of_not_affords simulator.settings.delayedBranching simulator.console
    (outside.surroundings simulator.moment) called refused
  have precise := (advance_of_raises raised).2
  obtain ⟨cop0, pending, pc, same⟩ := precise.kept
  have arrives : after = { machine with cop0, pending, pc } := same
  refine ⟨reason, raised, precise, by rw [arrives], by rw [arrives], ?_⟩
  rw [Machine.heapPieces, nothing]
  rfl

/--
In any session of a program the heap ends at a multiple of four inside of its segment. The pieces of the heap that the
program was given, except by instructions that were undone, begin at multiples of four, lie inside of the segment, and
have no byte in common. No execution of instructions makes the heap smaller. A request is met if the words for it end at
the stack at the latest. Otherwise it is a fault of the service, by which neither the heap nor any register changes.
-/
theorem heap_of_session {start : Simulator κ} {tree : FileTree} (valid : start.settings.Valid tree) {program : Program}
    {simulator : Simulator κ} {past : List Machine}
    (session : ReflTransGen Called (start.load program, []) (simulator, past)) :
    let layout := start.settings.layout
    let machine := simulator.machine
    let pieces := machine.heapPieces past
    (machine.heapBreak.toNat % 4 = 0 ∧ layout.heapBase ≤ machine.heapBreak ∧ machine.heapBreak ≤ layout.stackLimit) ∧
      (∀ piece ∈ pieces, piece.address.toNat % 4 = 0 ∧ layout.heapBase ≤ piece.address ∧
        piece.address.toNat + piece.size ≤ layout.stackLimit.toNat) ∧
      (pieces.Pairwise fun first second => ∀ address, first.Holds address → ¬second.Holds address) ∧
      (∀ outside, machine.heapBreak ≤ (simulator.step outside).2.machine.heapBreak) ∧
      (∀ outside limit, machine.heapBreak ≤ (simulator.runLimited outside limit).2.machine.heapBreak) ∧
      (∀ outside fuel answer after, simulator.run? outside fuel = some (answer, after) →
        machine.heapBreak ≤ after.machine.heapBreak) ∧
      ∀ outside request, machine.heapRequest? = some request →
        let after := (simulator.advance outside).2.machine
        (0 ≤ request ∧ machine.heapBreak.toNat + (request.toNat + 3) / 4 * 4 ≤ layout.stackLimit.toNat →
          (simulator.advance outside).1 = none ∧ after.get .v0 = machine.heapBreak ∧
            after.heapBreak.toNat = machine.heapBreak.toNat + (request.toNat + 3) / 4 * 4 ∧
            after.heapPieces (machine :: past) = ⟨machine.heapBreak, request.toNat⟩ :: pieces) ∧
        (request < 0 ∨ layout.stackLimit.toNat < machine.heapBreak.toNat + (request.toNat + 3) / 4 * 4 →
          ∃ reason, simulator.Raises outside true (.service reason) ∧
            machine.FaultsPrecisely after true (.service reason) ∧ after.heapBreak = machine.heapBreak ∧
            after.registers = machine.registers ∧ after.heapPieces (machine :: past) = pieces) := by
  intro layout machine pieces
  have ordered := Layout.ordered_of_valid (Settings.layout_of_valid valid)
  have on := onTrail_of_session session
  have rules : machine.memory.layout = layout := on.trail.rules.1
  obtain ⟨aligned, lower, upper, multiple, inside, behind⟩ := on.trail.heapSound ordered
  change machine.heapBreak.toNat ≤ machine.memory.layout.stackLimit.toNat at upper
  rw [rules] at lower inside upper
  have same : machine.heapBreak ≤ simulator.machine.heapBreak := UInt32.le_refl _
  refine ⟨⟨aligned, lower, upper⟩, ?_, ?_, ?_, ?_, ?_, ?_⟩
  · intro piece member
    exact ⟨multiple piece member, (inside piece member).1, Nat.le_trans (inside piece member).2 upper⟩
  · refine behind.imp fun apart address holds => ?_
    rintro ⟨-, earlier⟩
    exact absurd (Nat.lt_of_lt_of_le earlier apart) (Nat.not_lt.2 holds.1)
  · exact fun outside => @Kept.step _ _ _ _ (kept_heapBreak _) simulator past same outside
  · exact fun outside limit => @Kept.runLimited _ _ _ _ (kept_heapBreak _) simulator past same outside limit
  · exact fun outside fuel answer after ended => @Kept.run _ _ _ _ (kept_heapBreak _) simulator past same _ _ _ _ ended
  · intro outside request requested after
    obtain ⟨called, rfl⟩ := Machine.heapRequest?_eq_some_iff.1 requested
    rw [← rules]
    refine ⟨fun room => simulator.advance_of_affords outside past called room, fun excessive => ?_⟩
    refine simulator.advance_of_not_affords outside past called ?_
    rintro ⟨positive, room⟩
    rcases excessive with negative | beyond
    · exact absurd positive (Int.not_le.2 negative)
    · exact absurd room (Nat.not_le.2 beyond)

end Simulator

end Mips

namespace Mips.Simulator

open Relation (ReflTransGen)

/-- A program asks for five bytes of the heap twice and has eight for each call; it is not given a negative number. -/
theorem heap_twice :
    let call := Instruction.ofCode .syscall 0
    let choose := Instruction.ofImmediate .addiu .zero .v0 9
    let program := Program.ofInstructions
      [(0x00400000, .ofImmediate .addiu .zero .a0 5), (0x00400004, choose), (0x00400008, call), (0x0040000C, choose),
       (0x00400010, call), (0x00400014, choose), (0x00400018, .ofImmediate .addiu .zero .a0 0xFFFF), (0x0040001C, call)]
    let outside : Outside := ⟨fun _ => ⟨0, RandomStream.ofSeed⟩, fun _ _ => []⟩
    let start := loaded {} program
    let simulator := (start.runLimited outside 7).2
    let past := (start.executedByRun outside 7).reverse
    simulator.machine.heapPieces past = [⟨0x10040008, 5⟩, ⟨0x10040000, 5⟩] ∧
      (simulator.machine.heapPieces past).Pairwise (fun first second =>
        ∀ address, first.Holds address → ¬second.Holds address) ∧
      simulator.machine.heapBreak = 0x10040010 ∧ simulator.machine.heapRequest? = some (-1) ∧
      (simulator.advance outside).2.machine.heapBreak = 0x10040010 := by
  intro call choose program outside start simulator past
  have valid : ({} : Settings).Valid ⟨[], []⟩ := by decide +kernel
  have session : ReflTransGen Called (start, []) (simulator, past ++ []) := .single (.runLimited start [] outside 7)
  rw [List.append_nil] at session
  have pieces : simulator.machine.heapPieces past = [⟨0x10040008, 5⟩, ⟨0x10040000, 5⟩] := by decide +kernel
  have ends : simulator.machine.heapBreak = 0x10040010 := by decide +kernel
  have request : simulator.machine.heapRequest? = some (-1) := by decide +kernel
  have same : start = Simulator.load _ program := rfl
  rw [same] at session
  obtain ⟨-, -, apart, -, -, -, served⟩ := heap_of_session valid session
  obtain ⟨reason, -, -, kept, -, -⟩ := (served outside (-1) request).2 (.inl (by decide))
  exact ⟨pieces, apart, ends, request, kept.trans ends⟩

end Mips.Simulator
