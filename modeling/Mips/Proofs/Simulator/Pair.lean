import Mips.Proofs.Execution.Pair
import Mips.Proofs.Simulator.Division

/-!
Arithmetic in `HI` and `LO` in a simulator. Instructions that multiply or divide into them execute in every state, also in
a delay slot, and change nothing else; one after another, instructions that accumulate add up. Main statements:
`multiplied_of_advance`, `divided_of_advance`, `accumulated_of_executes` and `pair_of_arithmetic`.
-/

namespace Mips

variable [Generator]

namespace Instruction

/-- The instruction adds a product to what `HI` and `LO` hold, or takes it from that. -/
def Accumulates (instruction : Instruction) : Prop :=
  ∃ multiplication, instruction.operation.multiplication? = some multiplication ∧ multiplication.use ≠ .replaces

/-- What the instruction adds to `HI` and `LO`. -/
def addend (instruction : Instruction) (machine : Machine) : Int :=
  match instruction.operation.multiplication? with
  | some multiplication => multiplication.addend (machine.get instruction.rs) (machine.get instruction.rt)
  | none => 0

/-- What instructions add to `HI` and `LO` that read these registers. -/
def addends (machine : Machine) : List Instruction → Int
  | [] => 0
  | instruction :: rest => instruction.addend machine + addends machine rest

theorem addends_append (machine : Machine) (first rest : List Instruction) :
    addends machine (first ++ rest) = addends machine first + addends machine rest := by
  induction first with
  | nil => rw [List.nil_append, addends, Int.zero_add]
  | cons instruction later ih => rw [List.cons_append, addends, addends, ih, Int.add_assoc]

theorem addends_congr {machine other : Machine} (same : machine.registers = other.registers)
    (instructions : List Instruction) : addends machine instructions = addends other instructions := by
  induction instructions with
  | nil => rfl
  | cons instruction rest ih => simp only [addends, addend, Machine.get, same, ih]

end Instruction

namespace Machine

/-- The machine after an instruction that multiplies, but for `HI` and `LO`: one that has a destination sets it. -/
def multiplied (machine : Machine) (instruction : Instruction) (value : UInt64) : Machine :=
  if instruction.operation = .mul then machine.set instruction.rd (Word.low value) else machine

/--
The second machine is the first one after an instruction that multiplies: the number in `HI` and `LO` is exact, a
destination that the instruction has holds its lower half, and execution continues as after any instruction.
-/
structure Multiplied (before after : Machine) (instruction : Instruction) (multiplication : Multiplication) : Prop where
  exact : multiplication.Exact (before.get instruction.rs) (before.get instruction.rt) before.pair after.pair
  destination : instruction.operation = .mul → instruction.rd ≠ .zero → after.get instruction.rd = Word.low after.pair
  kept : after = { before.multiplied instruction after.pair with
    hi := after.hi, lo := after.lo, pc := before.next, pending := none }

/--
The second machine is the first one after an instruction that divides: unless the divisor is zero, `LO` and `HI` hold the
quotient and the remainder, and execution continues as after any instruction.
-/
structure Divided (before after : Machine) (instruction : Instruction) (division : Division) : Prop where
  balanced : before.get instruction.rt ≠ 0 →
    division.Balanced (before.get instruction.rs) (before.get instruction.rt) after.lo after.hi
  spared : before.get instruction.rt = 0 → after.hi = before.hi ∧ after.lo = before.lo
  kept : after = { before with hi := after.hi, lo := after.lo, pc := before.next, pending := none }

/-- The second machine is the first one after instructions that accumulate: what they add is added up exactly. -/
structure Accumulated (before after : Machine) (instructions : List Instruction) : Prop where
  sum : (after.pair.toNat : Int) =
    (before.pair.toNat + Instruction.addends before instructions) % 0x10000000000000000
  kept : after = { before with hi := after.hi, lo := after.lo, pc := after.pc, pending := after.pending }

theorem pair_set (machine : Machine) (target : Register) (value : Word) :
    (machine.set target value).pair = machine.pair := by
  rw [pair, hi_set, lo_set, pair]

theorem get_moved (machine : Machine) (pc : Address) (register : Register) :
    (machine.moved pc).get register = machine.get register := rfl

theorem multiplied_moved (machine : Machine) (instruction : Instruction) (multiplication : Multiplication) :
    let value := multiplication.value machine.pair (machine.get instruction.rs) (machine.get instruction.rt)
    let assignments : List Assignment := [.hi (Word.high value), .lo (Word.low value)] ++
      if instruction.operation = .mul then [.register instruction.rd (Word.low value)] else []
    machine.Multiplied (((Step.ready machine).assignAll assignments).moved machine.next) instruction multiplication := by
  intro value assignments
  have result : multiplication.Exact _ _ machine.pair value := multiplication.exact_value _ _ _
  by_cases wide : instruction.operation = .mul
  · have same : (Step.ready machine).assignAll assignments =
        ((Step.ready machine).setPair value).set instruction.rd (Word.low value) := by
      simp only [assignments, if_pos wide]
      rfl
    have pair : ((((Step.ready machine).setPair value).set instruction.rd (Word.low value)).moved machine.next).pair =
        value :=
      (pair_set ((Step.ready machine).setPair value) instruction.rd (Word.low value)).trans (pair_setPair _ value)
    rw [same]
    constructor
    case exact =>
      rw [pair]
      exact result
    case destination =>
      intro _ real
      rw [pair, get_moved, get_set_self _ real]
    case kept =>
      rw [pair, multiplied, if_pos wide, set_eq, set_eq]
      rfl
  · have same : (Step.ready machine).assignAll assignments = (Step.ready machine).setPair value := by
      simp only [assignments, if_neg wide]
      rfl
    have pair : (((Step.ready machine).setPair value).moved machine.next).pair = value :=
      pair_setPair (Step.ready machine) value
    rw [same]
    constructor
    case exact =>
      rw [pair]
      exact result
    case destination => exact fun wide' => absurd wide' wide
    case kept =>
      rw [multiplied, if_neg wide]
      rfl

theorem divided_moved (machine : Machine) (instruction : Instruction) (division : Division) :
    let dividend := machine.get instruction.rs
    let divisor := machine.get instruction.rt
    let assignments : List Assignment := if divisor = 0 then []
      else [.hi (division.remainder dividend divisor), .lo (division.quotient dividend divisor)]
    machine.Divided (((Step.ready machine).assignAll assignments).moved machine.next) instruction division := by
  intro dividend divisor assignments
  by_cases zero : divisor = 0
  · simp only [assignments, if_pos zero]
    exact ⟨fun nonzero => absurd zero nonzero, fun _ => ⟨rfl, rfl⟩, rfl⟩
  · simp only [assignments, if_neg zero]
    exact ⟨fun nonzero => (division.exact dividend nonzero).balanced nonzero, fun zero' => absurd zero' zero, rfl⟩

theorem accumulated_nil (machine : Machine) : machine.Accumulated machine [] where
  sum := by
    have bound := machine.pair.toNat_lt
    rw [Instruction.addends]
    omega
  kept := rfl

theorem Accumulated.append {before between after : Machine} {first rest : List Instruction}
    (accumulated : before.Accumulated between first) (later : between.Accumulated after rest) :
    before.Accumulated after (first ++ rest) := by
  have registers : between.registers = before.registers := by rw [accumulated.kept]
  have same : Instruction.addends between rest = Instruction.addends before rest :=
    Instruction.addends_congr registers rest
  have firstSum := accumulated.sum
  have laterSum := later.sum
  constructor
  case sum =>
    rw [same] at laterSum
    rw [Instruction.addends_append]
    omega
  case kept =>
    calc
      after = { between with hi := after.hi, lo := after.lo, pc := after.pc, pending := after.pending } := later.kept
      _ = { before with hi := after.hi, lo := after.lo, pc := after.pc, pending := after.pending } := by
        rw [accumulated.kept]

/-- Of an instruction that accumulates nothing but `HI` and `LO` is new. -/
theorem Multiplied.accumulated {before after : Machine} {instruction : Instruction} {multiplication : Multiplication}
    (multiplied : before.Multiplied after instruction multiplication)
    (known : instruction.operation.multiplication? = some multiplication) (accumulates : multiplication.use ≠ .replaces) :
    before.Accumulated after [instruction] := by
  have narrow : instruction.operation ≠ .mul := by
    intro wide
    rw [wide] at known
    cases known
    exact accumulates rfl
  have kept := multiplied.kept
  rw [Machine.multiplied, if_neg narrow] at kept
  constructor
  case sum =>
    have sum := multiplied.exact.accumulated accumulates
    simpa [Instruction.addends, Instruction.addend, known] using sum
  case kept =>
    rw [kept]

end Machine

namespace Simulator

variable {κ : Type} [Console κ]

/-- An instruction that assigns something runs wherever it is, and leads to the address that is due. -/
theorem advance_of_ready {simulator : Simulator κ} (outside : Outside) {instruction : Instruction}
    {assignments : List Assignment} (found : simulator.machine.instruction? = some instruction)
    (assigns : instruction.Assigns (Step.ready simulator.machine) assignments) :
    simulator.Runs outside instruction ∧ (simulator.advance outside).1 = none ∧
      simulator.Undisturbed (simulator.advance outside).2 ∧
      (simulator.advance outside).2.machine =
        ((Step.ready simulator.machine).assignAll assignments).moved simulator.machine.next := by
  cases pending : simulator.machine.pending with
  | none =>
    have ready := Step.ready_of_arrived pending
    rw [ready] at assigns ⊢
    rw [Machine.next_of_arrived pending]
    exact advance_of_assigns outside found pending assigns
  | some target =>
    rw [Machine.next_of_pending pending]
    exact advance_in_slot outside found pending assigns

theorem multiplied_of_advance {simulator : Simulator κ} (outside : Outside) {instruction : Instruction}
    {multiplication : Multiplication} (found : simulator.machine.instruction? = some instruction)
    (known : instruction.operation.multiplication? = some multiplication) :
    simulator.Runs outside instruction ∧ (simulator.advance outside).1 = none ∧
      simulator.machine.Multiplied (simulator.advance outside).2.machine instruction multiplication := by
  obtain ⟨runs, continues, -, advanced⟩ :=
    advance_of_ready outside found (Instruction.assigns_of_multiplication known (Step.ready simulator.machine))
  refine ⟨runs, continues, ?_⟩
  rw [advanced]
  exact simulator.machine.multiplied_moved instruction multiplication

theorem divided_of_advance {simulator : Simulator κ} (outside : Outside) {instruction : Instruction}
    {division : Division} (found : simulator.machine.instruction? = some instruction)
    (known : instruction.operation.division? = some division) :
    simulator.Runs outside instruction ∧ (simulator.advance outside).1 = none ∧
      simulator.machine.Divided (simulator.advance outside).2.machine instruction division := by
  obtain ⟨runs, continues, -, advanced⟩ :=
    advance_of_ready outside found (Instruction.assigns_of_division known (Step.ready simulator.machine))
  refine ⟨runs, continues, ?_⟩
  rw [advanced]
  exact simulator.machine.divided_moved instruction division

/-- Instructions that accumulate add up, in whatever order they are executed one after another. -/
theorem accumulated_of_executes {outside : Outside} {instructions : List Instruction} {simulator after : Simulator κ}
    (executes : Executes outside instructions simulator after)
    (accumulate : ∀ instruction ∈ instructions, instruction.Accumulates) :
    simulator.machine.Accumulated after.machine instructions := by
  induction executes with
  | nil simulator => exact simulator.machine.accumulated_nil
  | @cons instruction rest simulator after runs continues later ih =>
    obtain ⟨⟨multiplication, known, accumulates⟩, others⟩ := List.forall_mem_cons.1 accumulate
    obtain ⟨-, -, multiplied⟩ := multiplied_of_advance outside runs.found known
    exact (multiplied.accumulated known accumulates).append (ih others)

/-- Instructions that accumulate are executed one after another wherever they are, outside a delay slot. -/
theorem executes_of_accumulates (outside : Outside) {instructions : List Instruction} {simulator : Simulator κ}
    (accumulate : ∀ instruction ∈ instructions, instruction.Accumulates)
    (decoded : ∀ instruction ∈ instructions, Instruction.decode? instruction.word = some instruction)
    (arrived : simulator.machine.pending = none)
    (contained : simulator.machine.memory.Contains simulator.machine.pc instructions) :
    ∃ after, Executes outside instructions simulator after ∧
      after.machine.pc = Word.behind simulator.machine.pc instructions.length := by
  induction instructions generalizing simulator with
  | nil => exact ⟨simulator, .nil simulator, (Word.behind_zero _).symm⟩
  | cons instruction rest ih =>
    obtain ⟨⟨multiplication, known, accumulates⟩, accumulateLater⟩ := List.forall_mem_cons.1 accumulate
    obtain ⟨here, decodedLater⟩ := List.forall_mem_cons.1 decoded
    obtain ⟨present, following⟩ := contained
    have found := Machine.instruction?_eq_some_iff.2 ⟨present, here⟩
    obtain ⟨runs, continues, multiplied⟩ := multiplied_of_advance outside found known
    have next : simulator.machine.next = simulator.machine.pc + 4 := Machine.next_of_arrived arrived
    have memory : (simulator.advance outside).2.machine.memory = simulator.machine.memory := by
      rw [(multiplied.accumulated known accumulates).kept]
    have pc : (simulator.advance outside).2.machine.pc = simulator.machine.pc + 4 :=
      (congrArg Machine.pc multiplied.kept).trans next
    obtain ⟨after, executes, ends⟩ := ih accumulateLater decodedLater (congrArg Machine.pending multiplied.kept)
      (by rw [memory, pc]; exact following)
    refine ⟨after, .cons runs continues executes, ?_⟩
    rw [ends, pc, List.length_cons, Word.behind_succ]

/--
In every state an instruction that multiplies puts the exact product into `HI` and `LO` or adds it to what they hold,
modulo `2^64`, and one that divides puts a quotient and a remainder there that give the dividend again. After instructions
that accumulate, `HI` and `LO` hold what they held and the exact sum of the products, modulo `2^64`; and where such
instructions follow one another in memory, they are executed so.
-/
theorem pair_of_arithmetic (simulator : Simulator κ) (outside : Outside) :
    (∀ instruction multiplication, simulator.machine.instruction? = some instruction →
      instruction.operation.multiplication? = some multiplication →
        (simulator.advance outside).1 = none ∧
          simulator.machine.Multiplied (simulator.advance outside).2.machine instruction multiplication) ∧
    (∀ instruction division, simulator.machine.instruction? = some instruction →
      instruction.operation.division? = some division →
        (simulator.advance outside).1 = none ∧
          simulator.machine.Divided (simulator.advance outside).2.machine instruction division) ∧
    ∀ instructions : List Instruction, (∀ instruction ∈ instructions, instruction.Accumulates) →
      (∀ after, Executes outside instructions simulator after →
        simulator.machine.Accumulated after.machine instructions) ∧
      ((∀ instruction ∈ instructions, Instruction.decode? instruction.word = some instruction) →
        simulator.machine.pending = none → simulator.machine.memory.Contains simulator.machine.pc instructions →
          ∃ after, Executes outside instructions simulator after ∧
            after.machine.pc = Word.behind simulator.machine.pc instructions.length) := by
  refine ⟨?_, ?_, ?_⟩
  · intro instruction multiplication found known
    exact (multiplied_of_advance outside found known).2
  · intro instruction division found known
    exact (divided_of_advance outside found known).2
  · intro instructions accumulate
    exact ⟨fun after executes => accumulated_of_executes executes accumulate,
      executes_of_accumulates outside accumulate⟩

end Simulator

end Mips

namespace Mips.Simulator

/--
The stack pointer times the global pointer, the stack pointer by the global pointer, and the square of the global pointer
after that of the stack pointer has been taken away.
-/
theorem pair_of_pointers :
    let started (instructions : List (Address × Instruction)) := loaded {} (Program.ofInstructions instructions)
    let outside : Outside := ⟨fun _ => ⟨0, RandomStream.ofSeed⟩, fun _ _ => []⟩
    let product := ((started [(0x00400000, .ofRegisters .multu .zero .sp .gp 0)]).advance outside).2.machine
    let quotient := ((started [(0x00400000, .ofRegisters .div .zero .sp .gp 0)]).advance outside).2.machine
    let taking : Instruction := .ofRegisters .msub .zero .sp .sp 0
    let adding : Instruction := .ofRegisters .maddu .zero .gp .gp 0
    product.pair.toNat = 0x7FFFEFFC * 0x10008000 ∧
      0x7FFFEFFC = quotient.lo.signed * 0x10008000 + quotient.hi.signed ∧
        ∃ after, Executes outside [taking, adding] (started [(0x00400000, taking), (0x00400004, adding)]) after ∧
          (after.machine.pair.toNat : Int) =
            (0x10008000 * 0x10008000 - 0x7FFFEFFC * 0x7FFFEFFC) % 0x10000000000000000 := by
  intro started outside product quotient taking adding
  refine ⟨?_, ?_, ?_⟩
  · obtain ⟨multiplied, -⟩ :=
      pair_of_arithmetic (started [(0x00400000, .ofRegisters .multu .zero .sp .gp 0)]) outside
    obtain ⟨-, result⟩ := multiplied (.ofRegisters .multu .zero .sp .gp 0) ⟨false, .replaces⟩ (by decide +kernel) rfl
    exact Int.ofNat.inj (result.exact.replaced rfl)
  · obtain ⟨-, divided, -⟩ :=
      pair_of_arithmetic (started [(0x00400000, .ofRegisters .div .zero .sp .gp 0)]) outside
    obtain ⟨-, result⟩ := divided (.ofRegisters .div .zero .sp .gp 0) ⟨true, false⟩ (by decide +kernel) rfl
    exact (result.balanced (by decide +kernel)).restored (by decide +kernel)
  · obtain ⟨-, -, accumulated⟩ :=
      pair_of_arithmetic (started [(0x00400000, taking), (0x00400004, adding)]) outside
    obtain ⟨adds, executed⟩ := accumulated [taking, adding] (by
      simp only [List.forall_mem_cons]
      exact ⟨⟨⟨true, .subtracts⟩, rfl, by decide⟩, ⟨⟨false, .adds⟩, rfl, by decide⟩, by simp⟩)
    obtain ⟨after, executes, -⟩ := executed (by decide +kernel) (by decide +kernel)
      ⟨eq_ok_of_toOption (by decide +kernel), eq_ok_of_toOption (by decide +kernel), trivial⟩
    refine ⟨after, executes, ?_⟩
    rw [(adds after executes).sum]
    decide +kernel

end Mips.Simulator
