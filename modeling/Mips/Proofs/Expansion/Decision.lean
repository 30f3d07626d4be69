import Mips.Proofs.Execution.Branching
import Mips.Proofs.Expansion.Acceptance

/-!
What written branches decide on. A branch compares the contents of its operands, and what it is expanded to ends with
a branch that is taken exactly if they are related as its name says. Main statements: `decides_comparison`
and `realizes_of_decision?`.
-/

namespace Mips

/-- The relation of its operands on which a pseudo-instruction branches. -/
def Pseudo.relation? : Pseudo → Option (Word → Word → Bool)
  | .b | .bal => some fun _ _ => true
  | .beqz => some fun first second => first = second
  | .bnez => some fun first second => first ≠ second
  | .blt => some fun first second => first.signed < second.signed
  | .bltu => some fun first second => first < second
  | .bgt => some fun first second => second.signed < first.signed
  | .bgtu => some fun first second => second < first
  | .ble => some fun first second => first.signed ≤ second.signed
  | .bleu => some fun first second => first ≤ second
  | .bge => some fun first second => second.signed ≤ first.signed
  | .bgeu => some fun first second => second ≤ first
  | _ => none

namespace Mnemonic

/-- The relation of its operands on which an instruction of this name branches. -/
def relation? : Mnemonic → Option (Word → Word → Bool)
  | .nop => none
  | .machine operation => operation.relation?
  | .pseudo instruction => instruction.relation?

/-- How many operands of such a branch are written before its target. -/
def comparands : Mnemonic → Nat
  | .pseudo .b | .pseudo .bal => 0
  | .pseudo .beqz | .pseudo .bnez => 1
  | _ => 2

/-- Whether such a branch leaves the address to return to in `$ra`. -/
def links : Mnemonic → Bool
  | .pseudo .bal => true
  | _ => false

end Mnemonic

/-- The word that a register or number stands for in a machine. -/
def Operand.value? [Generator] : Operand → Option (Machine → Word)
  | .register source => some fun machine => machine.get source
  | .immediate value => if Word.holds value then some fun _ => Word.ofInt value else none
  | .label .. | .based .. => none

/-- Where a branch at `pc` is to lead, unless its label is unknown. A number counts words from the next instruction on. -/
def Target.destination? (resolve : Label → Except Problem Address) (pc : Address) : Target → Option Address
  | .number value => some (pc + 4 + Word.ofInt (4 * value))
  | .label named addend => (resolve named).toOption.map (· + Word.ofInt addend)

/-- What a branch decides on, and where it is to lead. -/
structure Decision [Generator] where
  related : Word → Word → Bool
  first : Register
  second : Machine → Word
  target : Target

def Decision.taken [Generator] (decision : Decision) (machine : Machine) : Bool :=
  decision.related (machine.get decision.first) (decision.second machine)

namespace WrittenInstruction

/-- What the branch compares, and where it is to lead. An operand that it does not have is zero. -/
def comparison? (written : WrittenInstruction) : Option (Register × Operand × Operand) :=
  match written.mnemonic.comparands, written.operands with
  | 0, [target] => some (.zero, .immediate 0, target)
  | 1, [.register first, target] => some (first, .immediate 0, target)
  | 2, [.register first, second, target] => some (first, second, target)
  | _, _ => none

theorem of_comparison? {written : WrittenInstruction} {first : Register} {second target : Operand}
    (compared : written.comparison? = some (first, second, target)) :
    written.mnemonic.comparands = 0 ∧ written.operands = [target] ∧ first = .zero ∧ second = .immediate 0 ∨
      written.mnemonic.comparands = 1 ∧ written.operands = [.register first, target] ∧ second = .immediate 0 ∨
      written.mnemonic.comparands = 2 ∧ written.operands = [.register first, second, target] := by
  unfold comparison? at compared
  split at compared
  next target count shape =>
    cases compared
    exact .inl ⟨count, shape, rfl, rfl⟩
  next first target count shape =>
    cases compared
    exact .inr (.inl ⟨count, shape, rfl⟩)
  next first second target count shape =>
    cases compared
    exact .inr (.inr ⟨count, shape⟩)
  next => cases compared

variable [Generator] {written : WrittenInstruction}

/-- What the instruction decides on, if it is a branch that has the operands for it. -/
def decision? (written : WrittenInstruction) : Option Decision :=
  match written.mnemonic.relation?, written.comparison? with
  | some related, some (first, second, target) =>
    match second.value?, target.target? with
    | some second, some target => some ⟨related, first, second, target⟩
    | _, _ => none
  | _, _ => none

theorem decision?_eq_some {related : Word → Word → Bool} {first : Register} {second target : Operand}
    {value : Machine → Word} {place : Target} (known : written.mnemonic.relation? = some related)
    (compared : written.comparison? = some (first, second, target)) (read : second.value? = some value)
    (placed : target.target? = some place) : written.decision? = some ⟨related, first, value, place⟩ := by
  simp only [decision?, known, compared, read, placed]

theorem of_decision? {decision : Decision} (named : written.decision? = some decision) :
    ∃ second target, written.mnemonic.relation? = some decision.related ∧
      written.comparison? = some (decision.first, second, target) ∧ second.value? = some decision.second ∧
      target.target? = some decision.target := by
  unfold decision? at named
  split at named
  next related first second target known compared =>
    split at named
    next value place read placed =>
      cases named
      exact ⟨second, target, known, compared, read, placed⟩
    next => cases named
  next => cases named

end WrittenInstruction

namespace Expansion

open Instruction Calculation

variable {context : ExpansionContext} {operation : Operation} {related : Word → Word → Bool} {rs rt : Register}

theorem shown_of_relation? (known : operation.relation? = some related) (rs rt : Register) :
    operation.format.ShowsImmediate rs rt := by
  rw [Operation.format_of_relation? known]
  trivial

/-- What a written branch is expanded to, unless it is refused because nothing but machine operations may be written. -/
def ExpandsTo (written : WrittenInstruction) (context : ExpansionContext)
    (outcome : Except Problem (List Instruction)) : Prop :=
  written.expand context = outcome ∨ context.extended = false ∧ ∃ problem, written.expand context = .error problem

theorem expandsTo_of_settle {written : WrittenInstruction} (mnemonic : Mnemonic)
    {outcome : Except Problem (List Instruction)}
    (settled : written.expand context = settle context mnemonic (.ok none) (outcome.map some)) :
    ExpandsTo written context outcome := by
  unfold ExpandsTo
  rw [settled]
  cases outcome <;> cases allowed : context.extended <;> simp [settle, Except.map, allowed]

theorem expandsTo_pseudo {pseudo : Pseudo} {operands : List Operand} {outcome : Except Problem (List Instruction)}
    (expanded : pseudo? context pseudo operands = outcome.map some) :
    ExpandsTo ⟨.pseudo pseudo, operands⟩ context outcome :=
  expandsTo_of_settle (.pseudo pseudo) (congrArg (settle context (.pseudo pseudo) (.ok none)) expanded)

theorem machine?_of_relation? (known : operation.relation? = some related) (context : ExpansionContext)
    (operands : List Operand) : machine? context operation operands = extended? context operation operands := by
  have layout := Operation.format_of_relation? known
  exact machine?_eq_extended? (by rw [layout]; decide) (by rw [layout]; decide) (by rw [layout]; decide) context operands

/-- A branch on two registers is a machine instruction. -/
theorem expandsTo_registers (known : operation.relation? = some related) (rs rt : Register) {operand : Operand}
    {target : Target} (placed : operand.target? = some target) :
    ExpandsTo ⟨.machine operation, [.register rs, .register rt, operand]⟩ context
      (thenBranch context [] operation rs rt target) := by
  have encoded : encode? context operation [.register rs, .register rt, operand] =
      (branchOffset context context.pc target).map fun field => some (immediate operation rs rt field) := by
    cases operation with
    | beq | bne =>
      simp only [encode?, Operation.format, Operation.description, placed]
      rfl
    | _ => cases known
  have other : machine? context operation [.register rs, .register rt, operand] = .ok none := by
    rw [machine?_of_relation? known]
    cases operation with
    | beq | bne => rfl
    | _ => cases known
  left
  simp only [WrittenInstruction.expand, encoded, other, thenBranch, List.length_nil]
  have start : context.pc + 4 * UInt32.ofNat 0 = context.pc := by simp
  rw [start]
  cases branchOffset context context.pc target with
  | ok field => rfl
  | error problem => cases allowed : context.extended <;> simp [settle, Except.map, allowed]

/-- A number that a register is compared with is loaded before the branch. -/
theorem expandsTo_number (known : operation.relation? = some related) (rs : Register) {value : Int} {operand : Operand}
    {loading : List Instruction} {target : Target} (loaded : load .scratch value = .ok loading)
    (placed : operand.target? = some target) :
    ExpandsTo ⟨.machine operation, [.register rs, .immediate value, operand]⟩ context
      (thenBranch context loading operation rs .scratch target) := by
  have encoded : encode? context operation [.register rs, .immediate value, operand] = .ok none := by
    cases operation with
    | beq | bne => rfl
    | _ => cases known
  have expanded : machine? context operation [.register rs, .immediate value, operand] =
      (thenBranch context loading operation rs .scratch target).map some := by
    rw [machine?_of_relation? known]
    cases operation with
    | beq | bne =>
      simp only [extended?, extended?.compareWith, placed, loaded]
      rfl
    | _ => cases known
  refine expandsTo_of_settle (.machine operation) ?_
  simp only [WrittenInstruction.expand, encoded, expanded]

theorem expandsTo_comparison {pseudo : Pseudo} {comparison : Comparison} {first : Register} {second operand : Operand}
    {loading : List Instruction} {target : Target} (found : branchComparison? pseudo = some (comparison, operation))
    (loaded : source? second = .ok (some (loading, rt))) (placed : operand.target? = some target) :
    ExpandsTo ⟨.pseudo pseudo, [.register first, second, operand]⟩ context
      (thenBranch context (loading ++ [comparison.compare .scratch first rt]) operation .scratch .zero target) := by
  apply expandsTo_pseudo
  cases pseudo <;> cases found <;>
    (simp only [pseudo?, branchComparison?, placed, loaded]; rfl)

variable [Generator] {machine : Machine}

/-- Instructions that only compute in `$at`, and a branch behind them that is taken or not, wherever it leads. -/
structure Decides (before : List Instruction) (operation : Operation) (rs rt : Register) (machine : Machine)
    (taken links : Bool) : Prop where
  shown : operation.format.ShowsImmediate rs rt
  branches : ∃ scratch, Leads before machine (machine.set .scratch scratch) ∧
    ∀ field, (immediate operation rs rt field).Branches (machine.set .scratch scratch) taken links

theorem decides_of_branches {taken links : Bool} (shown : operation.format.ShowsImmediate rs rt)
    (branches : ∀ field, (immediate operation rs rt field).Branches machine taken links) :
    Decides [] operation rs rt machine taken links := by
  refine ⟨shown, machine.get .scratch, ?_⟩
  rw [Machine.set_get]
  exact ⟨.nil machine, branches⟩

theorem decides_registers (known : operation.relation? = some related) (rs rt : Register) :
    Decides [] operation rs rt machine (related (machine.get rs) (machine.get rt)) false :=
  decides_of_branches (shown_of_relation? known rs rt) (branches_ofImmediate machine known rs rt)

/-- The number that a register is compared with is loaded before. -/
theorem decides_number {value : Int} {loading : List Instruction} (known : operation.relation? = some related)
    (loaded : load .scratch value = .ok loading) (spared : rs ≠ .scratch) :
    Decides loading operation rs .scratch machine (related (machine.get rs) (Word.ofInt value)) false := by
  refine ⟨shown_of_relation? known rs .scratch, Word.ofInt value, leads_load_scratch loaded, ?_⟩
  have branches := branches_ofImmediate (machine.set .scratch (Word.ofInt value)) known rs .scratch
  rwa [Machine.get_set_ne _ spared.symm, Machine.get_set_self _ scratch_ne_zero] at branches

/-- What a comparison makes of two words: one if they are related, and zero otherwise. -/
def Comparison.flag (comparison : Comparison) (first second : Word) : Word :=
  let less := fun (first second : Word) =>
    if comparison.unsigned then decide (first < second) else decide (first.signed < second.signed)
  if if comparison.swapped then less second first else less first second then 1 else 0

theorem assigns_compare (machine : Machine) (comparison : Comparison) (rd rs rt : Register) :
    (comparison.compare rd rs rt).Assigns machine
      [.register rd (comparison.flag (machine.get rs) (machine.get rt))] := by
  obtain ⟨unsigned, swapped⟩ := comparison
  cases unsigned <;> cases swapped <;> exact assigns_registers rfl rfl (effect_flag rd _ _ _)

omit [Generator] in
/-- A pseudo-instruction branches if the result of its comparison differs from zero, or if it does not. -/
theorem related_of_branchComparison? {pseudo : Pseudo} {comparison : Comparison}
    (found : branchComparison? pseudo = some (comparison, operation)) (known : pseudo.relation? = some related) :
    ∃ tested, operation.relation? = some tested ∧
      ∀ first second, tested (comparison.flag first second) 0 = related first second := by
  cases pseudo with
  | blt | bltu | bgt | bgtu | bge | bgeu | ble | bleu =>
    cases found
    cases known
    refine ⟨_, rfl, fun first second => ?_⟩
    simp [Comparison.flag]
  | _ => cases found

/-- A register holds the operand after the instructions that load it there. -/
theorem leads_source? {operand : Operand} {loading : List Instruction} {value : Machine → Word}
    (loaded : source? operand = .ok (some (loading, rt))) (read : operand.value? = some value)
    (spared : operand.register? ≠ some .scratch) :
    ∃ scratch, Leads loading machine (machine.set .scratch scratch) ∧
      (machine.set .scratch scratch).get rt = value machine := by
  cases operand with
  | register source =>
    cases loaded
    cases read
    refine ⟨machine.get .scratch, ?_⟩
    rw [Machine.set_get]
    exact ⟨.nil machine, rfl⟩
  | immediate number =>
    obtain ⟨loading, loads, ⟨⟩⟩ := map_eq_ok_iff.1 loaded
    refine ⟨Word.ofInt number, leads_load_scratch loads, ?_⟩
    rw [Operand.value?, if_pos (holds_of_load loads)] at read
    rw [Machine.get_set_self _ scratch_ne_zero, ← Option.some.inj read]
  | label | based => cases read

/-- What the comparison sets goes to `$at`, even if the second operand is there, and is then compared with zero. -/
theorem decides_comparison {pseudo : Pseudo} {comparison : Comparison} {first : Register} {second : Operand}
    {loading : List Instruction} {value : Machine → Word}
    (found : branchComparison? pseudo = some (comparison, operation)) (known : pseudo.relation? = some related)
    (loaded : source? second = .ok (some (loading, rt))) (read : second.value? = some value)
    (spared : first ≠ .scratch) (sparedSecond : second.register? ≠ some .scratch) :
    Decides (loading ++ [comparison.compare .scratch first rt]) operation .scratch .zero machine
      (related (machine.get first) (value machine)) false := by
  obtain ⟨tested, tests, same⟩ := related_of_branchComparison? found known
  obtain ⟨scratch, leads, held⟩ := leads_source? loaded read sparedSecond
  -- The first operand is not in `$at`, so loading the second one has left it as it was.
  have compared := assigns_compare (machine.set .scratch scratch) comparison .scratch first rt
  rw [Machine.get_set_ne _ spared.symm, held] at compared
  refine ⟨shown_of_relation? tests .scratch .zero, comparison.flag (machine.get first) (value machine), ?_, fun field => ?_⟩
  · have both := leads.append (.single compared)
    rwa [Machine.set_set] at both
  · have branches := branches_ofImmediate (machine.set .scratch (comparison.flag (machine.get first) (value machine))) tests
      .scratch .zero field
    rwa [Machine.get_set_self _ scratch_ne_zero, Machine.get_zero, same] at branches

theorem finds_source? {operand : Operand} {value : Machine → Word} (read : operand.value? = some value) :
    Finds (source? operand) := by
  cases operand with
  | register source => exact ⟨_, rfl⟩
  | immediate number =>
    rw [Operand.value?] at read
    split at read
    next holds => exact (succeeds_load .scratch holds).finds _
    next => cases read
  | label | based => cases read

/--
A branch is what the written instruction becomes, behind instructions that compute in `$at`, and whether it is taken is
as decided.
-/
def Realizes (written : WrittenInstruction) (context : ExpansionContext) (decision : Decision) : Prop :=
  ∃ before operation rs rt,
    ExpandsTo written context (thenBranch context before operation rs rt decision.target) ∧
      ∀ machine : Machine,
        Decides before operation rs rt machine (decision.taken machine) written.mnemonic.links

section Realizes

variable {first : Register} {second operand : Operand} {value : Machine → Word} {target : Target} {pseudo : Pseudo}

theorem realizes_always (count : (Mnemonic.pseudo pseudo).comparands = 0) (known : pseudo.relation? = some related)
    (placed : operand.target? = some target) :
    Realizes ⟨.pseudo pseudo, [operand]⟩ context ⟨related, first, value, target⟩ := by
  cases pseudo with
  | b =>
    cases known
    refine ⟨[], .beq, .zero, .zero, expandsTo_pseudo (by simp only [pseudo?, placed]), fun machine => ?_⟩
    have decides : Decides [] .beq .zero .zero machine _ false := decides_registers rfl .zero .zero
    rwa [decide_eq_true rfl] at decides
  | bal =>
    cases known
    refine ⟨[], .bgezal, .zero, .zero, expandsTo_pseudo (by simp only [pseudo?, placed]), fun machine => ?_⟩
    exact decides_of_branches rfl (branches_bgezal machine.get_zero)
  | _ => cases count

theorem realizes_zero (count : (Mnemonic.pseudo pseudo).comparands = 1) (known : pseudo.relation? = some related)
    (placed : operand.target? = some target) :
    Realizes ⟨.pseudo pseudo, [.register first, operand]⟩ context ⟨related, first, fun _ => 0, target⟩ := by
  cases pseudo with
  | beqz =>
    cases known
    refine ⟨[], .beq, first, .zero, expandsTo_pseudo (by simp only [pseudo?, placed]), fun machine => ?_⟩
    have decides : Decides [] .beq first .zero machine _ false := decides_registers rfl first .zero
    rwa [Machine.get_zero] at decides
  | bnez =>
    cases known
    refine ⟨[], .bne, first, .zero, expandsTo_pseudo (by simp only [pseudo?, placed]), fun machine => ?_⟩
    have decides : Decides [] .bne first .zero machine _ false := decides_registers rfl first .zero
    rwa [Machine.get_zero] at decides
  | _ => cases count

theorem realizes_machine (known : operation.relation? = some related) (read : second.value? = some value)
    (placed : operand.target? = some target) (spared : first ≠ .scratch) :
    Realizes ⟨.machine operation, [.register first, second, operand]⟩ context ⟨related, first, value, target⟩ := by
  cases second with
  | register rt =>
    cases read
    exact ⟨[], operation, first, rt, expandsTo_registers known first rt placed, fun _ =>
      decides_registers known first rt⟩
  | immediate number =>
    rw [Operand.value?] at read
    split at read
    next holds =>
      cases read
      obtain ⟨loading, loaded⟩ := succeeds_load .scratch holds
      exact ⟨loading, operation, first, .scratch, expandsTo_number known first loaded placed, fun _ =>
        decides_number known loaded spared⟩
    next => cases read
  | label | based => cases read

omit [Generator] in
/-- A pseudo-instruction that branches on two operands compares them. -/
theorem compares_of_relation? (count : (Mnemonic.pseudo pseudo).comparands = 2)
    (known : pseudo.relation? = some related) :
    ∃ comparison operation, branchComparison? pseudo = some (comparison, operation) ∧
      (Mnemonic.pseudo pseudo).links = false := by
  cases pseudo with
  | blt | bltu | bgt | bgtu | ble | bleu | bge | bgeu => exact ⟨_, _, rfl, rfl⟩
  | b | bal | beqz | bnez => cases count
  | _ => cases known

theorem realizes_comparison (count : (Mnemonic.pseudo pseudo).comparands = 2) (known : pseudo.relation? = some related)
    (read : second.value? = some value) (placed : operand.target? = some target) (spared : first ≠ .scratch)
    (sparedSecond : second.register? ≠ some .scratch) :
    Realizes ⟨.pseudo pseudo, [.register first, second, operand]⟩ context ⟨related, first, value, target⟩ := by
  obtain ⟨⟨loading, rt⟩, loaded⟩ := finds_source? read
  obtain ⟨comparison, operation, found, alone⟩ := compares_of_relation? count known
  refine ⟨loading ++ [comparison.compare .scratch first rt], operation, .scratch, .zero,
    expandsTo_comparison found loaded placed, fun machine => ?_⟩
  dsimp only
  rw [alone]
  exact decides_comparison found known loaded read spared sparedSecond

end Realizes

/-- A written branch that has the operands for it becomes a branch that its operands decide on. -/
theorem realizes_of_decision? {written : WrittenInstruction} {decision : Decision} (context : ExpansionContext)
    (named : written.decision? = some decision) (spares : written.Spares .scratch) :
    Realizes written context decision := by
  obtain ⟨mnemonic, operands⟩ := written
  obtain ⟨related, first, value, place⟩ := decision
  obtain ⟨second, target, known, compared, read, placed⟩ := WrittenInstruction.of_decision? named
  rcases WrittenInstruction.of_comparison? compared with
    ⟨count, rfl, rfl, rfl⟩ | ⟨count, rfl, rfl⟩ | ⟨count, rfl⟩
  case inl =>
    cases mnemonic with
    | nop | machine => cases count
    | pseudo pseudo => exact realizes_always count known placed
  case inr.inl =>
    cases mnemonic with
    | nop | machine => cases count
    | pseudo pseudo =>
      cases read
      exact realizes_zero count known placed
  case inr.inr =>
    have spared : first ≠ .scratch := spares.of_register (by simp)
    have sparedSecond : second.register? ≠ some .scratch := spares second (by simp)
    cases mnemonic with
    | nop => cases known
    | machine operation => exact realizes_machine known read placed spared
    | pseudo pseudo => exact realizes_comparison count known read placed spared sparedSecond

end Expansion

end Mips
