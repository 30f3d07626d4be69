import Mips.Instruction
import Mips.Memory
import Mips.RandomStream
import Mips.Text.Utf8

/-!
The state of the machine, and the assignments that change it. An assignment gives a new content to one
place; the assignment that restores the place is known before it is made.
Main statements: `assign_restoring` and `restoreAll_assignAll`, by which restoring inverts assigning.
-/

namespace Mips

open Std (ExtTreeMap)

/-- The contents of 32 registers, by their numbers. -/
abbrev Bank := Vector Word 32

namespace Bank

def get (bank : Bank) (number : Fin 32) : Word := Vector.get bank number

def set (bank : Bank) (number : Fin 32) (value : Word) : Bank :=
  Vector.set bank number value number.isLt

theorem get_eq_getElem (bank : Bank) (number : Fin 32) : bank.get number = bank[number.val] := rfl

theorem get_set (bank : Bank) (number other : Fin 32) (value : Word) :
    (bank.set number value).get other = if number = other then value else bank.get other := by
  simp [get_eq_getElem, set, Vector.getElem_set, Fin.ext_iff]

theorem ext_get {first second : Bank} (same : ∀ number, first.get number = second.get number) : first = second :=
  Vector.ext fun index inside => same ⟨index, inside⟩

theorem set_set_get (bank : Bank) (number : Fin 32) (value : Word) :
    (bank.set number value).set number (bank.get number) = bank := by
  simp [get_eq_getElem, set]

end Bank

/-- The contents of the general-purpose registers, of which `$zero` holds zero. -/
structure RegisterFile extends Vector Word 32 where
  zero : Bank.get toVector Register.zero.number = 0

namespace RegisterFile

def cleared : RegisterFile := ⟨Vector.replicate 32 0, rfl⟩

def get (file : RegisterFile) (register : Register) : Word := Bank.get file.toVector register.number

/-- The registers with one of them set; the one that holds zero stays as it is. -/
def set (file : RegisterFile) (target : Register) (value : Word) : RegisterFile :=
  if isZero : target = .zero then file
  else
    { toVector := Bank.set file.toVector target.number value
      zero := by
        have other : target.number ≠ Register.zero.number := fun same => isZero (congrArg Register.mk same)
        rw [Bank.get_set, if_neg other, file.zero] }

theorem ext_get {first second : RegisterFile} (same : ∀ register, first.get register = second.get register) :
    first = second := by
  obtain ⟨first, zero⟩ := first
  obtain ⟨second, zeroToo⟩ := second
  obtain rfl : first = second := Bank.ext_get fun number => same ⟨number⟩
  rfl

variable (file : RegisterFile) (target other : Register)

@[simp] theorem get_zero : file.get .zero = 0 := file.zero

theorem get_set (value : Word) :
    (file.set target value).get other = if target = other ∧ target ≠ .zero then value else file.get other := by
  have numbers : target.number = other.number ↔ target = other :=
    ⟨fun same => congrArg Register.mk same, fun same => congrArg Register.number same⟩
  unfold set
  split
  next zero => rw [if_neg fun both => both.2 zero]
  next nonzero => simp [get, Bank.get_set, numbers, nonzero]

theorem set_get : file.set target (file.get target) = file := by
  apply ext_get
  intro other
  grind [get_set]

/-- Of values that the same register is set to the last one counts. -/
theorem set_set (first second : Word) : (file.set target first).set target second = file.set target second := by
  apply ext_get
  intro other
  grind [get_set]

theorem set_comm {target other : Register} (different : target ≠ other) (first second : Word) :
    (file.set target first).set other second = (file.set other second).set target first := by
  apply ext_get
  intro third
  grind [get_set]

end RegisterFile

variable [Generator]

/-- Everything that an instruction can change. -/
structure Machine where
  registers : RegisterFile
  pc : Address
  hi : Word
  lo : Word
  /-- The registers of coprocessor 0. -/
  cop0 : Bank
  memory : Memory
  /-- Where a branch leads that was taken before the instruction in its delay slot. -/
  pending : Option Address
  /-- The first address of the heap that has not been given out. -/
  heapBreak : Address
  /-- The random streams that have been used, by their number. -/
  streams : ExtTreeMap Word RandomStream

/-- A new content for one place of the machine. -/
inductive Assignment where
  | register (target : Register) (value : Word)
  /-- A word of memory, under its aligned address, that is then present or absent. -/
  | memory (address : Address) (content : Option Word)
  | pc (value : Address)
  | hi (value : Word)
  | lo (value : Word)
  | cop0 (number : Fin 32) (value : Word)
  | pending (target : Option Address)
  | heapBreak (value : Address)
  | stream (number : Word) (content : Option RandomStream)
  deriving DecidableEq

/-- The register of coprocessor 0 that holds the address of the last invalid access. -/
def Cop0.badAddress : Fin 32 := ⟨8, by decide⟩
/-- The register of coprocessor 0 that holds the status. -/
def Cop0.status : Fin 32 := ⟨12, by decide⟩
/-- The register of coprocessor 0 that holds the cause of the last fault. -/
def Cop0.cause : Fin 32 := ⟨13, by decide⟩
/-- The register of coprocessor 0 that holds the address to return to after a fault. -/
def Cop0.epc : Fin 32 := ⟨14, by decide⟩

/-- User mode, with all interrupts enabled. -/
def Cop0.initialStatus : Word := 0x0000FF11
/-- The bit of the status that is set while a fault is handled. -/
def Cop0.exceptionLevel : Word := 2
/-- The bit of the cause that is set if the fault came in a delay slot. -/
def Cop0.branchDelay : Word := 0x80000000

/-- The registers of coprocessor 0 before any fault. -/
def Cop0.initial : Bank := Bank.set (Vector.replicate 32 0) Cop0.status Cop0.initialStatus

/-- Whether the assignment is to the register that always holds zero, so that it does nothing. -/
def Assignment.isVoid : Assignment → Bool
  | .register target _ => target = .zero
  | _ => false

namespace Machine

/-- A machine with empty memory that starts at the given address. -/
def initial (layout : Layout) (selfModifying : Bool) (pc : Address) : Machine where
  registers := (RegisterFile.cleared.set .gp layout.globalPointer).set .sp layout.stackPointer
  pc := pc
  hi := 0
  lo := 0
  cop0 := Cop0.initial
  memory := .empty layout selfModifying
  pending := none
  heapBreak := layout.heapBase
  streams := ∅

def get (machine : Machine) (register : Register) : Word := machine.registers.get register

@[simp] theorem get_zero (machine : Machine) : machine.get .zero = 0 := machine.registers.get_zero

/-- The content of a register of coprocessor 0. -/
def getCop0 (machine : Machine) (number : Fin 32) : Word := machine.cop0.get number

/-- The machine after an assignment. -/
def assign (machine : Machine) : Assignment → Machine
  | .register target value => { machine with registers := machine.registers.set target value }
  | .memory address content => { machine with memory := machine.memory.assign address content }
  | .pc value => { machine with pc := value }
  | .hi value => { machine with hi := value }
  | .lo value => { machine with lo := value }
  | .cop0 number value => { machine with cop0 := machine.cop0.set number value }
  | .pending target => { machine with pending := target }
  | .heapBreak value => { machine with heapBreak := value }
  | .stream number (some stream) => { machine with streams := machine.streams.insert number stream }
  | .stream number none => { machine with streams := machine.streams.erase number }

/-- The assignment that gives the place of an assignment the content it has now. -/
def restoring (machine : Machine) : Assignment → Assignment
  | .register target _ => .register target (machine.get target)
  | .memory address _ => .memory address machine.memory.words[address]?
  | .pc _ => .pc machine.pc
  | .hi _ => .hi machine.hi
  | .lo _ => .lo machine.lo
  | .cop0 number _ => .cop0 number (machine.getCop0 number)
  | .pending _ => .pending machine.pending
  | .heapBreak _ => .heapBreak machine.heapBreak
  | .stream number _ => .stream number machine.streams[number]?

def assignAll (machine : Machine) : List Assignment → Machine
  | [] => machine
  | assignment :: rest => (machine.assign assignment).assignAll rest

/-- What restores the places of assignments that are made one after another, in the order of the assignments. -/
def restoringAll (machine : Machine) : List Assignment → List Assignment
  | [] => []
  | assignment :: rest =>
    let later := (machine.assign assignment).restoringAll rest
    if assignment.isVoid then later else machine.restoring assignment :: later

/-- The machine after restoring places, the last one first. -/
def restoreAll (machine : Machine) (restoring : List Assignment) : Machine :=
  machine.assignAll restoring.reverse

theorem assign_restoring (machine : Machine) (assignment : Assignment) :
    (machine.assign assignment).assign (machine.restoring assignment) = machine := by
  cases assignment with
  | register target value => simp only [assign, restoring, get, RegisterFile.set_set, RegisterFile.set_get]
  | memory address content =>
    obtain ⟨registers, pc, hi, lo, cop0, memory, pending, heapBreak, streams⟩ := machine
    obtain ⟨words, layout, selfModifying⟩ := memory
    simp only [assign, restoring, Machine.mk.injEq, true_and, and_true]
    cases content <;> cases held : words[address]? <;>
      simp only [Memory.assign, Memory.mk.injEq, and_true] <;>
      apply ExtTreeMap.ext_getElem? <;> intro key <;> grind
  | pc _ => rfl
  | hi _ => rfl
  | lo _ => rfl
  | cop0 number value => simp [assign, restoring, getCop0, Bank.set_set_get]
  | pending _ => rfl
  | heapBreak _ => rfl
  | stream number content =>
    obtain ⟨registers, pc, hi, lo, cop0, memory, pending, heapBreak, streams⟩ := machine
    simp only [restoring]
    cases content <;> cases held : streams[number]? <;>
      simp only [assign, Machine.mk.injEq, true_and] <;>
      apply ExtTreeMap.ext_getElem? <;> intro key <;> grind

theorem assignAll_append (machine : Machine) (first second : List Assignment) :
    machine.assignAll (first ++ second) = (machine.assignAll first).assignAll second := by
  induction first generalizing machine with
  | nil => rfl
  | cons assignment rest ih => exact ih _

/-- What each assignment of a kind leaves as it is, assignments of that kind leave as it is together. -/
theorem view_assignAll {α : Type} (view : Machine → α) (idle : Assignment → Prop)
    (kept : ∀ machine assignment, idle assignment → view (assign machine assignment) = view machine)
    (machine : Machine) {assignments : List Assignment} (idles : ∀ assignment ∈ assignments, idle assignment) :
    view (machine.assignAll assignments) = view machine := by
  induction assignments generalizing machine with
  | nil => rfl
  | cons assignment rest ih =>
    obtain ⟨first, others⟩ := List.forall_mem_cons.1 idles
    exact (ih (machine.assign assignment) others).trans (kept machine assignment first)

theorem assign_of_isVoid (machine : Machine) {assignment : Assignment}
    (void : assignment.isVoid = true) : machine.assign assignment = machine := by
  cases assignment with
  | register target value =>
    obtain rfl : target = .zero := of_decide_eq_true void
    rfl
  | _ => cases void

/-- Restoring inverts assigning. -/
theorem restoreAll_assignAll (machine : Machine) (assignments : List Assignment) :
    (machine.assignAll assignments).restoreAll (machine.restoringAll assignments) = machine := by
  induction assignments generalizing machine with
  | nil => rfl
  | cons assignment rest ih =>
    simp only [assignAll, restoringAll]
    have later := ih (machine.assign assignment)
    unfold restoreAll at later ⊢
    split
    next void => rw [later, machine.assign_of_isVoid void]
    next =>
      rw [List.reverse_cons, assignAll_append, later]
      exact machine.assign_restoring assignment

/--
Memory with texts packed downwards from an address, each followed by a zero byte at the end, the address
below the last one, and where each of them begins.
-/
def packTexts (memory : Memory) (high : Address) : List String → Memory × Address × List Address
  | [] => (memory, high, [])
  | text :: rest =>
    let bytes := Text.Utf8.ofText text
    let start := high - UInt32.ofNat bytes.length
    let (memory, high, starts) := packTexts (memory.setBytes start (bytes ++ [0])) (start - 1) rest
    (memory, high, start :: starts)

/--
The machine with arguments on its stack: the texts at its top, and below them their count, their addresses and a
zero word. The stack pointer and `$a0` and `$a1` tell where they are and how many.
-/
def storeArguments (machine : Machine) (arguments : List String) : Machine :=
  if arguments.isEmpty then machine
  else
    let layout := machine.memory.layout
    let count := UInt32.ofNat arguments.length
    let (memory, high, starts) := packTexts machine.memory layout.stackBase arguments
    let top := if high < layout.stackPointer then Word.align high - 4 else layout.stackPointer
    let base := top - 4 * (count + 1)
    { machine with memory := memory.setWords base (count :: starts ++ [0]) }.assignAll
      [.register .sp base, .register .a0 count, .register .a1 (base + 4)]

/-- The addresses at which two memories differ, with the content of the second. -/
def wordDifferences (before after : Memory) : List (Address × Option Word) :=
  let changed := after.words.toList.filterMap fun (address, word) =>
    if before.words[address]? = some word then none else some (address, some word)
  let removed := before.words.toList.filterMap fun (address, _) =>
    if after.words.contains address then none else some (address, none)
  (changed ++ removed).mergeSort fun first second => first.1 ≤ second.1

/-- Assignments that lead from one machine to another, except for their random streams. -/
def differences (before after : Machine) : List Assignment :=
  let changed := fun {α : Type} [DecidableEq α] (view : Machine → α) (assignment : α → Assignment) =>
    if view before = view after then [] else [assignment (view after)]
  (Register.all.flatMap fun register => changed (·.get register) (.register register)) ++
    ((List.finRange 32).flatMap fun number => changed (·.getCop0 number) (.cop0 number)) ++
    ((wordDifferences before.memory after.memory).map fun (address, content) =>
      .memory address content) ++
    changed (·.pc) .pc ++ changed (·.hi) .hi ++ changed (·.lo) .lo ++ changed (·.pending) .pending ++
    changed (·.heapBreak) .heapBreak

end Machine

end Mips
