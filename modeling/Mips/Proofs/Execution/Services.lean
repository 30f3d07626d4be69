import Mips.Proofs.Outcome
import Mips.Service

/-!
What services may change. A service that could do what was asked for gives out registers, heap and random streams, and
stores bytes only where every one of them may be stored; it never decides where execution continues. One that could not
has assigned nothing. Main statements: `served_of_call` and `clean_of_call`.
-/

namespace Mips

variable [Generator]

/-- A store may change the word at the address. -/
def Memory.Storable (memory : Memory) (address : Address) : Prop :=
  ∃ width target, memory.dataError? width target = none ∧ Word.align target = address

/-- The service begins a random stream anew or draws from one. -/
def Service.OnStreams (service : Service) : Prop :=
  service = .seedStream ∨ service = .drawWord ∨ service = .drawBelow

/-- What a service may assign. -/
def Assignment.Served (service : Service) (memory : Memory) : Assignment → Prop
  | .memory address _ => memory.Storable address
  | .heapBreak _ => service = .allocate
  | .stream .. => service.OnStreams
  | .register .. => True
  | .pc _ | .pending _ | .hi _ | .lo _ | .cop0 .. => False

/-- Nothing was assigned before the fault. -/
def Interruption.Clean (interruption : Interruption) : Prop := interruption.assignments = []

theorem Interruption.clean_atOnce (fault : Fault) : Clean (.atOnce fault) := rfl

open Interruption (Clean clean_atOnce)

namespace Service

variable {service : Service} {memory : Memory}

/-- If there is no fault, then only this is assigned; if there is one, then nothing is. -/
def Serves (service : Service) (memory : Memory) : Except Interruption (List Assignment) → Prop :=
  Ends (fun assignments => ∀ assignment ∈ assignments, assignment.Served service memory) Clean

theorem serves_atOnce (fault : Fault) : Serves service memory (.error (.atOnce fault)) := clean_atOnce fault

theorem serves_ok {assignments : List Assignment}
    (each : ∀ assignment ∈ assignments, assignment.Served service memory) : Serves service memory (.ok assignments) :=
  each

/-- The assignments of the bytes from an address on, each made after those before it. -/
def byteAssignments (memory : Memory) (address : Address) : List UInt8 → List Assignment
  | [] => []
  | byte :: rest =>
    let word := merge .byte address byte.toUInt32 (memory.wordAt address)
    .memory (Word.align address) (some word) ::
      byteAssignments (memory.setWord address word) (address + 1) rest

omit [Generator] in
theorem storeError?_setWord (memory : Memory) (place address : Address) (word : Word) (count : Nat) :
    storeError? (memory.setWord place word) address count = storeError? memory address count := by
  induction count generalizing address with
  | zero => rfl
  | succ count ih =>
    rw [storeError?, storeError?, ih]
    rfl

omit [Generator] in
theorem storeError?_succ_eq_none_iff {address : Address} {count : Nat} :
    storeError? memory address (count + 1) = none ↔
      memory.dataError? .byte address = none ∧ storeError? memory (address + 1) count = none := by
  rw [storeError?]
  cases memory.dataError? .byte address <;> simp

/-- Once all bytes were found to be storable no store of one is refused, as no store changes the rules. -/
theorem storeEach_eq {address : Address} {bytes : List UInt8}
    (accepted : storeError? memory address bytes.length = none) :
    storeEach memory address bytes = .ok (byteAssignments memory address bytes) := by
  induction bytes generalizing memory address with
  | nil => rfl
  | cons byte rest ih =>
    obtain ⟨allowed, others⟩ := storeError?_succ_eq_none_iff.1 accepted
    have stored : memory.stored .byte address byte.toUInt32 =
        .ok (Word.align address, merge .byte address byte.toUInt32 (memory.wordAt address)) := by
      rw [Memory.stored, allowed]
    let word := merge .byte address byte.toUInt32 (memory.wordAt address)
    have later : storeEach (memory.setWord address word) (address + 1) rest = .ok _ :=
      ih ((storeError?_setWord memory address _ word rest.length).trans others)
    unfold Memory.setWord at later
    simp only [storeEach, stored, word, later, byteAssignments, Memory.setWord]

/-- Bytes that can all be stored change only words that a store may change, whatever has been stored of them before. -/
theorem served_of_byteAssignments {stored : Memory} {address : Address} {bytes : List UInt8}
    (accepted : storeError? memory address bytes.length = none) {assignment : Assignment}
    (made : assignment ∈ byteAssignments stored address bytes) : assignment.Served service memory := by
  induction bytes generalizing stored address with
  | nil => cases made
  | cons byte rest ih =>
    obtain ⟨allowed, others⟩ := storeError?_succ_eq_none_iff.1 accepted
    rcases List.mem_cons.1 made with rfl | later
    · exact ⟨.byte, address, allowed, rfl⟩
    · exact ih others later

/-- The whole buffer is checked first, so that a fault leaves memory as it was. -/
theorem serves_storeBytes (address : Address) (bytes : List UInt8) :
    Serves service memory (storeBytes memory address bytes) := by
  unfold storeBytes
  split
  next => exact serves_atOnce _
  next accepted =>
    rw [storeEach_eq accepted]
    exact serves_ok fun _ made => served_of_byteAssignments accepted made

theorem serves_allocation (machine : Machine) (request : Int) :
    Serves .allocate memory (allocation machine request) := by
  unfold allocation
  dsimp only
  split
  · exact serves_atOnce _
  · split
    · exact serves_atOnce _
    · exact serves_ok (by simp [Assignment.Served])

theorem serves_register (outcome : Except Fault Word) (target : Register) :
    Serves service memory ((outcome.mapError .atOnce).map fun word => [.register target word]) := by
  cases outcome with
  | error fault => exact serves_atOnce fault
  | ok word => exact serves_ok (by simp [Assignment.Served])

theorem serves_drawn (draws : service.OnStreams) (machine : Machine) (surroundings : Surroundings) (number : Word)
    (draw : RandomStream → Word × RandomStream) :
    Serves service memory (.ok (drawn machine surroundings number draw)) :=
  serves_ok (by simp [drawn, Assignment.Served, draws])

/-- If execution is resumed then only this is assigned; if there is a fault, then nothing is. -/
def Completes (service : Service) (memory : Memory) : Except Interruption ServiceEnd → Prop :=
  Ends (fun ended => ∀ assignments, ended = .resume assignments →
    ∀ assignment ∈ assignments, assignment.Served service memory) Clean

variable {κ : Type}

theorem eq_ok_of_quiet {console : κ} {ending : Except Interruption (List Assignment)} {assignments : List Assignment}
    (resumed : (quiet console ending).ending = .ok (.resume assignments)) : ending = .ok assignments := by
  cases ending with
  | error interruption => cases resumed
  | ok made =>
    cases resumed
    rfl

theorem Serves.completes {outcome : Except Interruption (List Assignment)} (serves : Serves service memory outcome)
    (console : κ) : Completes service memory (quiet console outcome).ending := by
  refine Ends.map serves ?_
  rintro assignments each _ ⟨⟩
  exact each

theorem completes_exit (code : Int) : Completes service memory (.ok (.exit code)) := fun _ impossible => by
  cases impossible

variable [Console κ]

theorem completes_printing (console : κ) (text : String) :
    Completes service memory (printing console text).ending := by
  rintro assignments ⟨⟩
  simp

theorem completes_perform (service : Service) (machine : Machine) (console : κ) (surroundings : Surroundings) :
    Completes service machine.memory (service.perform machine console surroundings).ending := by
  cases service with
  | printInteger | printCharacter | printHexadecimal | printBinary | printUnsigned => exact completes_printing _ _
  | printString =>
    simp only [perform]
    split
    · exact (serves_atOnce _).completes _
    · exact completes_printing _ _
  | readInteger => exact (serves_register _ _).completes _
  | readString => exact (serves_storeBytes _ _).completes _
  | allocate => exact (serves_allocation _ _).completes _
  | exit | exitWithCode => exact completes_exit _
  | readCharacter =>
    refine Serves.completes ?_ _
    split
    · exact serves_atOnce _
    · exact serves_ok (by simp [Assignment.Served])
  | time | sleep => exact (serves_ok (by simp [Assignment.Served])).completes _
  | seedStream => exact (serves_ok (by simp [Assignment.Served, OnStreams])).completes _
  | drawWord => exact (serves_drawn (.inr (.inl rfl)) _ _ _ _).completes _
  | drawBelow =>
    refine Serves.completes ?_ _
    split
    · exact serves_atOnce _
    · exact serves_drawn (.inr (.inr rfl)) _ _ _ _

variable {machine : Machine} {console : κ} {surroundings : Surroundings}

/-- What a service assigned that left it to the call where execution continues. -/
theorem served_of_call {assignments : List Assignment}
    (resumed : (call machine console surroundings).ending = .ok (.resume assignments)) :
    ∃ service, ofNumber? (machine.get .v0) = some service ∧
      ∀ assignment ∈ assignments, assignment.Served service machine.memory := by
  unfold call at resumed
  split at resumed
  next service chosen =>
    exact ⟨service, chosen, (service.completes_perform machine console surroundings).of_ok resumed assignments rfl⟩
  next => cases resumed

/-- A service that cannot do what was asked for has assigned nothing before its fault. -/
theorem clean_of_call {interruption : Interruption}
    (failed : (call machine console surroundings).ending = .error interruption) : interruption.Clean := by
  unfold call at failed
  split at failed
  next service _ => exact (service.completes_perform machine console surroundings).of_error failed
  next =>
    cases failed
    exact clean_atOnce _

end Service

end Mips
