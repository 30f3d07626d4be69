import Mips.Execution

/-!
Straight-line code that computes in registers. Such code ends with a result in a register, or its last instruction
overflows because the result does not fit there. Main statements: `Leads.append`, `Delivers.after` and
`gains_assignAll`.
-/

namespace Mips

variable [Generator]

namespace Machine

/-- The machine with a register set; the register that holds zero stays as it is. -/
def set (machine : Machine) (target : Register) (value : Word) : Machine := machine.assign (.register target value)

variable (machine : Machine) {target other : Register}

theorem set_eq (target : Register) (value : Word) :
    machine.set target value = { machine with registers := machine.registers.set target value } := rfl

@[simp] theorem set_zero (value : Word) : machine.set .zero value = machine := rfl

theorem get_set_self (nonzero : target ≠ .zero) (value : Word) : (machine.set target value).get target = value := by
  rw [set_eq, get, RegisterFile.get_set, if_pos ⟨rfl, nonzero⟩]

theorem get_set_ne (different : target ≠ other) (value : Word) :
    (machine.set target value).get other = machine.get other := by
  rw [set_eq, get, RegisterFile.get_set, if_neg fun both => different both.1, get]

theorem set_get (target : Register) : machine.set target (machine.get target) = machine := by
  rw [set_eq, get, RegisterFile.set_get]

/-- Of values that the same register is set to the last one counts. -/
theorem set_set (target : Register) (first second : Word) :
    (machine.set target first).set target second = machine.set target second := by
  simp only [set_eq, RegisterFile.set_set]

theorem set_comm (different : target ≠ other) (first second : Word) :
    (machine.set target first).set other second = (machine.set other second).set target first := by
  simp only [set_eq, RegisterFile.set_comm _ different]

theorem hi_set (target : Register) (value : Word) : (machine.set target value).hi = machine.hi := rfl

theorem lo_set (target : Register) (value : Word) : (machine.set target value).lo = machine.lo := rfl

theorem memory_set (target : Register) (value : Word) : (machine.set target value).memory = machine.memory := rfl

/-- What a register is set to matters only if it is not the one that holds zero. -/
theorem set_congr {first second : Word} (same : target ≠ .zero → first = second) :
    machine.set target first = machine.set target second := by
  by_cases zero : target = .zero
  · rw [zero, set_zero, set_zero]
  · rw [same zero]

end Machine

namespace Instruction

/-- Wherever the instruction is, it assigns this in the machine, and execution continues behind it. -/
def Assigns (instruction : Instruction) (machine : Machine) (assignments : List Assignment) : Prop :=
  ∀ pc delayed, instruction.effect machine pc delayed = .ok { assignments := assignments }

/-- Wherever the instruction is, it overflows in the machine. -/
def Overflows (instruction : Instruction) (machine : Machine) : Prop :=
  ∀ pc delayed, instruction.effect machine pc delayed = .error (.atOnce .overflow)

end Instruction

/-- Whether the assignment is to a register that instructions compute in. -/
def Assignment.isComputed : Assignment → Bool
  | .register .. | .hi _ | .lo _ => true
  | _ => false

namespace Machine

/-- The machine at another address. -/
def moved (machine : Machine) (pc : Address) : Machine := { machine with pc := pc }

/-- The machines differ in what instructions compute in at most. -/
def Computing (before after : Machine) : Prop :=
  after = { before with registers := after.registers, hi := after.hi, lo := after.lo }

theorem Computing.trans {before between after : Machine} (first : before.Computing between)
    (second : between.Computing after) : before.Computing after := by
  calc
    after = { between with registers := after.registers, hi := after.hi, lo := after.lo } := second
    _ = { before with registers := after.registers, hi := after.hi, lo := after.lo } := by rw [first]

theorem Computing.memory {before after : Machine} (computing : before.Computing after) :
    after.memory = before.memory := by
  rw [computing]

theorem Computing.pending {before after : Machine} (computing : before.Computing after) :
    after.pending = before.pending := by
  rw [computing]

theorem computing_assign (machine : Machine) {assignment : Assignment} (computed : assignment.isComputed = true) :
    machine.Computing (machine.assign assignment) ∧
      ∀ pc, (machine.moved pc).assign assignment = (machine.assign assignment).moved pc := by
  cases assignment with
  | register target value => exact ⟨rfl, fun _ => rfl⟩
  | hi value | lo value => exact ⟨rfl, fun _ => rfl⟩
  | memory | pc | cop0 | pending | heapBreak | stream => cases computed

theorem computing_assignAll (machine : Machine) {assignments : List Assignment}
    (computed : ∀ assignment ∈ assignments, assignment.isComputed = true) :
    machine.Computing (machine.assignAll assignments) ∧
      ∀ pc, (machine.moved pc).assignAll assignments = (machine.assignAll assignments).moved pc := by
  induction assignments generalizing machine with
  | nil => exact ⟨rfl, fun _ => rfl⟩
  | cons assignment rest ih =>
    obtain ⟨first, others⟩ := List.forall_mem_cons.1 computed
    obtain ⟨kept, commutes⟩ := machine.computing_assign first
    obtain ⟨keptLater, commutesLater⟩ := ih (machine.assign assignment) others
    refine ⟨kept.trans keptLater, ?_⟩
    intro pc
    rw [assignAll, commutes, commutesLater, assignAll]

end Machine

/-- What an instruction does depends on the address that it is at, but not on the one that its machine is at. -/
theorem Instruction.effect_moved (instruction : Instruction) (machine : Machine) (elsewhere pc : Address) (delayed : Bool) :
    instruction.effect (machine.moved elsewhere) pc delayed = instruction.effect machine pc delayed := rfl

/-- These instructions, one after another, only compute in registers, and lead from the first machine to the second. -/
inductive Leads : List Instruction → Machine → Machine → Prop where
  | nil (machine : Machine) : Leads [] machine machine
  | cons {instruction : Instruction} {rest : List Instruction} {machine after : Machine}
      {assignments : List Assignment} (assigns : instruction.Assigns machine assignments)
      (computed : ∀ assignment ∈ assignments, assignment.isComputed = true)
      (later : Leads rest (machine.assignAll assignments) after) : Leads (instruction :: rest) machine after

namespace Leads

variable {machine between after : Machine} {instruction : Instruction} {first rest : List Instruction}

theorem append (leads : Leads first machine between) (later : Leads rest between after) :
    Leads (first ++ rest) machine after := by
  induction leads with
  | nil => exact later
  | cons assigns computed _ ih => exact .cons assigns computed (ih later)

/-- An instruction that sets a register, and what comes after it. -/
theorem set {target : Register} {value : Word} (assigns : instruction.Assigns machine [.register target value])
    (later : Leads rest (machine.set target value) after) : Leads (instruction :: rest) machine after :=
  .cons assigns (by simp [Assignment.isComputed]) later

theorem single {target : Register} {value : Word} (assigns : instruction.Assigns machine [.register target value]) :
    Leads [instruction] machine (machine.set target value) :=
  set assigns (.nil _)

end Leads

/-- What instructions compute: a number, and the register that is to hold it. -/
structure Result where
  destination : Register
  value : Int
  /-- Whether it is an error if the number does not fit into a word with a sign. -/
  checked : Bool := false
  /-- Whether `HI` and `LO` hold the number, too. -/
  wide : Bool := false

namespace Result

def word (result : Result) : Word := Word.ofInt result.value

def pair (result : Result) : UInt64 := UInt64.ofInt result.value

/-- There is no error if the instructions compute this. -/
def Fits (result : Result) : Prop :=
  result.checked = true → -0x80000000 ≤ result.value ∧ result.value < 0x80000000

instance (result : Result) : Decidable result.Fits := inferInstanceAs (Decidable (_ → _))

/-- What an instruction with this result assigns. -/
def assignments (result : Result) : List Assignment :=
  let halves : List Assignment :=
    if result.wide then [.hi (Word.high result.pair), .lo (Word.low result.pair)] else []
  halves ++ [.register result.destination result.word]

theorem isComputed_assignments (result : Result) :
    ∀ assignment ∈ result.assignments, assignment.isComputed = true := by
  unfold assignments
  cases result.wide <;> simp [Assignment.isComputed]

end Result

namespace Machine

/--
The second machine is the first one after instructions that have this result, wherever they are: the destination holds
it, unless that is the register that holds zero, and nothing else differs but `$at`.
-/
structure Gains (before after : Machine) (result : Result) : Prop where
  kept : after =
    { before with registers := after.registers, hi := after.hi, lo := after.lo, pc := after.pc }
  destination : result.destination ≠ .zero → after.get result.destination = result.word
  others : ∀ register, (register = result.destination → register = .zero) → register ≠ .scratch →
    after.get register = before.get register
  hi : after.hi = if result.wide then Word.high result.pair else before.hi
  lo : after.lo = if result.wide then Word.low result.pair else before.lo

theorem assignAll_assignments (machine : Machine) (result : Result) :
    machine.assignAll result.assignments =
      Machine.set
        { machine with
          hi := if result.wide then Word.high result.pair else machine.hi
          lo := if result.wide then Word.low result.pair else machine.lo }
        result.destination result.word := by
  unfold Result.assignments
  cases result.wide <;> rfl

/-- What a result assigns, after `$at` was set on the way. -/
theorem gains_assignAll (machine : Machine) (result : Result) (scratch : Word) (pc : Address) :
    machine.Gains (((machine.set .scratch scratch).assignAll result.assignments).moved pc) result := by
  have before : machine.Computing (machine.set .scratch scratch) :=
    (machine.computing_assign (rfl : (Assignment.register .scratch scratch).isComputed = true)).1
  have computing := before.trans (Machine.computing_assignAll _ result.isComputed_assignments).1
  constructor
  case kept => exact congrArg (moved · pc) computing
  case destination =>
    intro nonzero
    rw [assignAll_assignments]
    exact get_set_self _ nonzero _
  case others =>
    intro register apart other
    have kept : (machine.set .scratch scratch).get register = machine.get register :=
      machine.get_set_ne other.symm scratch
    rw [assignAll_assignments, ← kept]
    by_cases same : register = result.destination
    · rw [← same, apart same]
      rfl
    · exact get_set_ne _ (Ne.symm same) _
  case hi =>
    rw [assignAll_assignments, moved, hi_set, hi_set]
  case lo =>
    rw [assignAll_assignments, moved, lo_set, lo_set]

end Machine

/-- The instruction has this result, or overflows if it does not fit. -/
structure Instruction.Performs (instruction : Instruction) (machine : Machine) (result : Result) : Prop where
  fits : result.Fits → instruction.Assigns machine result.assignments
  exceeds : ¬ result.Fits → instruction.Overflows machine

/--
These instructions, one after another, have this result. They may use `$at` on the way, and if the result does not fit,
then all of them but the last do that, and the last one overflows.
-/
inductive Delivers (instructions : List Instruction) (machine : Machine) (result : Result) : Prop where
  | completes (fits : result.Fits) (scratch : Word)
      (leads : Leads instructions machine ((machine.set .scratch scratch).assignAll result.assignments))
  | overflows (exceeds : ¬ result.Fits) {before : List Instruction} {last : Instruction}
      (split : instructions = before ++ [last]) (scratch : Word)
      (leads : Leads before machine (machine.set .scratch scratch))
      (raises : last.Overflows (machine.set .scratch scratch))

namespace Delivers

variable {machine : Machine} {result : Result} {first rest : List Instruction} {instruction : Instruction}

theorem of_performs (performs : instruction.Performs machine result) : Delivers [instruction] machine result := by
  have same : machine.set .scratch (machine.get .scratch) = machine := machine.set_get .scratch
  by_cases fits : result.Fits
  · refine .completes fits (machine.get .scratch) ?_
    rw [same]
    exact .cons (performs.fits fits) result.isComputed_assignments (.nil _)
  · refine .overflows fits (List.nil_append _).symm (machine.get .scratch) ?_ ?_
    · rw [same]
      exact .nil _
    · rw [same]
      exact performs.exceeds fits

/-- What comes before may use `$at` only. -/
theorem after {scratch : Word} (delivers : Delivers rest (machine.set .scratch scratch) result)
    (leads : Leads first machine (machine.set .scratch scratch)) : Delivers (first ++ rest) machine result := by
  cases delivers with
  | completes fits other later =>
    rw [Machine.set_set] at later
    exact .completes fits other (leads.append later)
  | overflows exceeds split other later raises =>
    rw [Machine.set_set] at later raises
    subst split
    exact .overflows exceeds (List.append_assoc ..).symm other (leads.append later) raises

/-- Instructions that set `$at` and then a register have a result that fits in any case. -/
theorem of_leads {target : Register} {value : Int} {word : Word} (scratch : Word)
    (leads : Leads first machine ((machine.set .scratch scratch).set target word))
    (same : target ≠ .zero → word = Word.ofInt value) : Delivers first machine ⟨target, value, false, false⟩ := by
  rw [Machine.set_congr _ same] at leads
  exact .completes (by simp [Result.Fits]) scratch leads

theorem of_leads_set {target : Register} {value : Int} {word : Word}
    (leads : Leads first machine (machine.set target word)) (same : target ≠ .zero → word = Word.ofInt value) :
    Delivers first machine ⟨target, value, false, false⟩ := by
  refine of_leads (machine.get .scratch) ?_ same
  rwa [Machine.set_get]

end Delivers

end Mips
