import Mips.Proofs.Execution.Serving
import Mips.Proofs.Execution.Straight
import Mips.Proofs.Memory.Access
import Mips.Proofs.Simulator.Reached

/-!
Reading a line into a buffer. The bytes that are stored never exceed the buffer, and either all of them are stored or
none is. Main statement: `buffer_of_readString`.
-/

namespace Mips

namespace Machine

/-- Assigning the words of bytes one after another stores the bytes. -/
theorem assignAll_byteAssignments [Generator] (machine : Machine) (address : Address) (bytes : List UInt8) :
    machine.assignAll (Service.byteAssignments machine.memory address bytes) =
      { machine with memory := machine.memory.setBytes address bytes } := by
  induction bytes generalizing machine address with
  | nil => rfl
  | cons byte rest ih =>
    rw [Memory.setBytes, Memory.setByte_eq]
    exact ih { machine with memory := machine.memory.setBytesOf .byte address byte.toUInt32 } (address + 1)

end Machine

namespace Service

variable {memory : Memory} {address : Address}

/-- All bytes can be stored exactly if each of them may be. -/
theorem storeError?_eq_none_iff {count : Nat} :
    storeError? memory address count = none ↔ ∀ index < count, memory.Allows .byte (address + UInt32.ofNat index) := by
  induction count generalizing address with
  | zero => simp [storeError?]
  | succ count ih =>
    rw [storeError?_succ_eq_none_iff, Memory.dataError?_eq_none_iff, ih, Nat.forall_lt_succ_left, Word.add_ofNat_zero]
    simp only [Word.add_ofNat_succ]

/-- The error is that of the first byte that may not be stored. -/
theorem exists_of_storeError? {count : Nat} {error : MemoryError}
    (refused : storeError? memory address count = some error) :
    ∃ index < count, (∀ earlier < index, memory.Allows .byte (address + UInt32.ofNat earlier)) ∧
      ¬memory.Allows .byte (address + UInt32.ofNat index) ∧ error = .inaccessible (address + UInt32.ofNat index) := by
  induction count generalizing address with
  | zero => cases refused
  | succ count ih =>
    rw [storeError?] at refused
    by_cases allowed : memory.Allows .byte address
    · rw [Memory.dataError?_eq_none_iff.2 allowed] at refused
      obtain ⟨index, inside, before, forbidden, same⟩ := ih refused
      simp only [← Word.add_ofNat_succ] at before forbidden same
      refine ⟨index + 1, Nat.succ_lt_succ inside, ?_, forbidden, same⟩
      rw [Nat.forall_lt_succ_left, Word.add_ofNat_zero]
      exact ⟨allowed, before⟩
    · rw [Memory.dataError?_of_not_allows allowed] at refused
      cases refused
      refine ⟨0, Nat.succ_pos _, fun earlier impossible => absurd impossible (Nat.not_lt_zero _), ?_, ?_⟩
      · rwa [Word.add_ofNat_zero]
      · rw [Word.add_ofNat_zero]

theorem length_bufferBytes_le (line : String) (length : Int) : (bufferBytes line length).length ≤ length.toNat := by
  unfold bufferBytes
  split
  · exact Nat.zero_le _
  next positive =>
    dsimp only
    rw [List.length_append, List.length_append, List.length_take, List.length_singleton]
    split <;> simp only [List.length_singleton, List.length_nil] <;> omega

end Service

namespace Simulator

variable [Generator] {κ : Type} [Console κ]

/--
What a call of the service stores that reads a line into the buffer at `$a0` of `$a1` bytes. Nothing is stored if `$a1`
is not positive. Otherwise it is the bytes of the line in UTF-8, as many of them as leave room for one more, then the end
of the line if there is room for that too, and then a zero byte; these are never more than `$a1` bytes. If each of them
may be stored then the call completes, and no other byte has changed, nor any word that holds none of them. Otherwise the
first one that may not be stored is a fault, and memory stays as it was.
-/
theorem buffer_of_readString {simulator : Simulator κ} (called : simulator.machine.service? = some .readString)
    (outside : Outside) :
    let machine := simulator.machine
    let memory := machine.memory
    let buffer := machine.get .a0
    let length := (machine.get .a1).signed
    let line := Text.Utf8.ofText ((Console.readLine simulator.console).1.getD "")
    let bytes :=
      if length ≤ 0 then []
      else
        line.take (length - 1).toNat ++ (if line.length < (length - 1).toNat then [Console.newline] else []) ++ [0]
    let after := (simulator.advance outside).2
    bytes.length ≤ length.toNat ∧
      ((∀ index < bytes.length, memory.Allows .byte (buffer + UInt32.ofNat index)) →
        (simulator.advance outside).1 = none ∧ after.console = (Console.readLine simulator.console).2 ∧
          after.machine =
            { machine with memory := after.machine.memory, pending := none, pc := machine.next } ∧
          (∀ address, after.machine.memory.byteAt address =
            (bytes[(address - buffer).toNat]?).getD (memory.byteAt address)) ∧
          ∀ address, (∀ index < bytes.length, Word.align (buffer + UInt32.ofNat index) ≠ Word.align address) →
            after.machine.memory.word? address = memory.word? address) ∧
      ((∃ index < bytes.length, ¬memory.Allows .byte (buffer + UInt32.ofNat index)) →
        ∃ index < bytes.length, (∀ earlier < index, memory.Allows .byte (buffer + UInt32.ofNat earlier)) ∧
          ¬memory.Allows .byte (buffer + UInt32.ofNat index) ∧
          simulator.Raises outside true (.inaccessible (buffer + UInt32.ofNat index) .store) ∧
          machine.FaultsPrecisely after.machine true (.inaccessible (buffer + UInt32.ofNat index) .store) ∧
          after.machine.memory = memory) := by
  intro machine memory buffer length line bytes after
  have bounds := Word.signed_bounds (machine.get .a1)
  have short : bytes.length ≤ length.toNat :=
    Service.length_bufferBytes_le ((Console.readLine simulator.console).1.getD "") length
  have performed : (Service.readString.perform (Step.ready machine) simulator.console
      (outside.surroundings simulator.moment)).ending =
        (Service.storeBytes memory buffer bytes).map .resume := rfl
  refine ⟨short, ?_, ?_⟩
  · intro allowed
    have accepted := Service.storeError?_eq_none_iff.2 allowed
    rw [Service.storeBytes, accepted, Service.storeEach_eq accepted] at performed
    obtain ⟨completed, rest, same⟩ := advance_of_service called performed
    have stored := (Step.ready machine).assignAll_byteAssignments buffer bytes
    change (Step.ready machine).assignAll (Service.byteAssignments memory buffer bytes) = _ at stored
    have arrives : after.machine =
        { machine with memory := memory.setBytes buffer bytes, pending := none, pc := machine.next } := by
      rw [same, stored]
      rfl
    refine ⟨completed, rest, ?_, ?_, ?_⟩
    · rw [arrives]
    · intro address
      rw [arrives]
      exact Memory.byteAt_setBytes memory buffer address bytes (by omega)
    · intro address apart
      rw [arrives]
      exact Memory.word?_setBytes memory apart
  · rintro ⟨index, inside, forbidden⟩
    cases refused : Service.storeError? memory buffer bytes.length with
    | none => exact absurd (Service.storeError?_eq_none_iff.1 refused index inside) forbidden
    | some error =>
      rw [Service.storeBytes, refused] at performed
      obtain ⟨first, within, allowed, forbidden, rfl⟩ := Service.exists_of_storeError? refused
      have raised : simulator.Raises outside true (.inaccessible (buffer + UInt32.ofNat first) .store) :=
        Step.raises_of_service called performed
      have precise := (advance_of_raises raised).2
      obtain ⟨cop0, pending, pc, same⟩ := precise.kept
      exact ⟨first, within, allowed, forbidden, raised, precise, by rw [same]⟩

/-- A simulator that is about to read from its console into a buffer of so many bytes at an address. -/
def reading (buffer length : Word) (input : List UInt8) : Simulator BufferedConsole :=
  let program := Program.ofInstructions [(0x00400000, .ofCode .syscall 0)]
  let machine := (((Machine.load {} program).set .v0 8).set .a0 buffer).set .a1 length
  ⟨{}, machine, .empty 2000, ⟨input, ""⟩, .empty, .empty, {}, none, some program, .ready, none, 0, 0⟩

end Simulator

end Mips

namespace Mips.Simulator

/--
A line of a letter and an accented letter, which takes two bytes, is cut within the second character in a buffer of three
bytes. A line that takes five bytes with its end is not stored where only two of them belong to the stack.
-/
theorem buffer_too_short :
    let outside : Outside := ⟨fun _ => ⟨0, RandomStream.ofSeed⟩, fun _ _ => []⟩
    let cut := reading 0x10040002 3 [0x61, 0xC3, 0xA9, 10]
    let refused := reading 0x7FFFFFFE 5 [0x61, 0x62, 0x63, 10]
    let stored := (cut.advance outside).2.machine.memory
    (stored.byteAt 0x10040003 = 0xC3 ∧ stored.byteAt 0x10040004 = 0 ∧ stored.word? 0x10040008 = none) ∧
      refused.Raises outside true (.inaccessible 0x80000000 .store) ∧
      (refused.advance outside).2.machine.memory = refused.machine.memory := by
  intro outside cut refused stored
  have calls : cut.machine.service? = some .readString ∧ refused.machine.service? = some .readString := by
    decide +kernel
  constructor
  · obtain ⟨-, stores, -⟩ := buffer_of_readString calls.1 outside
    obtain ⟨-, -, -, bytes, words⟩ := stores (by decide +kernel)
    have second := bytes 0x10040003
    have third := bytes 0x10040004
    have beyond := words 0x10040008 (by decide +kernel)
    exact ⟨second.trans (by decide +kernel), third.trans (by decide +kernel), beyond.trans (by decide +kernel)⟩
  · obtain ⟨-, -, fails⟩ := buffer_of_readString calls.2 outside
    obtain ⟨index, -, allowed, forbidden, raised, -, kept⟩ := fails ⟨2, by decide +kernel⟩
    have beyond : ¬refused.machine.memory.Allows .byte (0x7FFFFFFE + UInt32.ofNat 2) := by decide +kernel
    have inside : ∀ index < 2, refused.machine.memory.Allows .byte (0x7FFFFFFE + UInt32.ofNat index) := by
      decide +kernel
    rcases Nat.lt_trichotomy index 2 with below | rfl | above
    · exact absurd (inside index below) forbidden
    · exact ⟨raised, kept⟩
    · exact absurd (allowed 2 above) beyond

end Mips.Simulator
