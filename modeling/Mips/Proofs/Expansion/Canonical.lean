import Mips.Expansion
import Mips.Proofs.Instruction.Canonical
import Mips.Proofs.Outcome

/-!
Everything that a written instruction becomes is canonical. Main statement: `allCanonical_expand`.
-/

namespace Mips

/-- Each of the instructions is canonical. -/
def AllCanonical (instructions : List Instruction) : Prop :=
  ∀ instruction ∈ instructions, instruction.IsCanonical

@[simp] theorem allCanonical_nil : AllCanonical [] := by simp [AllCanonical]

@[simp] theorem allCanonical_cons {first : Instruction} {rest : List Instruction} :
    AllCanonical (first :: rest) ↔ first.IsCanonical ∧ AllCanonical rest := List.forall_mem_cons

theorem allCanonical_singleton {instruction : Instruction} (canonical : instruction.IsCanonical) :
    AllCanonical [instruction] := by simpa using canonical

@[simp] theorem allCanonical_append {first second : List Instruction} :
    AllCanonical (first ++ second) ↔ AllCanonical first ∧ AllCanonical second := List.forall_mem_append

namespace Expansion

open Instruction

variable {operation : Operation} {rd rs rt : Register} {field : UInt16} {amount : Word}

theorem isCanonical_registers (layout : operation.format = .threeRegisters) :
    (registers operation rd rs rt).IsCanonical :=
  isCanonical_ofRegisters (by rw [layout]; rfl)

/-- The formats that show two registers and an immediate. -/
def twoAndImmediate : List Format := [.signedImmediate, .unsignedImmediate, .branchTwo, .memory]

theorem showsImmediate_of_mem {format : Format} (layout : format ∈ twoAndImmediate) :
    format.ShowsImmediate rs rt := by
  simp only [twoAndImmediate, List.mem_cons, List.not_mem_nil, or_false] at layout
  rcases layout with rfl | rfl | rfl | rfl <;> trivial

theorem isCanonical_immediate (layout : operation.format ∈ twoAndImmediate) :
    (immediate operation rs rt field).IsCanonical :=
  isCanonical_ofImmediate (showsImmediate_of_mem layout)

@[simp] theorem isCanonical_lui : (immediate .lui .zero rt field).IsCanonical :=
  isCanonical_ofImmediate rfl

theorem isCanonical_shift (shifts : operation.format = .shiftAmount) :
    (shift operation rd rt amount).IsCanonical :=
  isCanonical_ofRegisters (by rw [shifts]; rfl)

theorem isCanonical_shiftBy (shifts : operation.format = .shiftRegister) :
    (shiftBy operation rd rt rs).IsCanonical :=
  isCanonical_ofRegisters (by rw [shifts]; rfl)

theorem allCanonical_load (rd : Register) (value : Int) : Yields AllCanonical (load rd value) := by
  unfold load
  split
  · exact allCanonical_singleton (isCanonical_immediate (by decide))
  · split
    · exact allCanonical_singleton (isCanonical_immediate (by decide))
    · rw [yields_map]
      apply yields_of_forall
      intro word
      rw [allCanonical_cons]
      exact ⟨isCanonical_lui, allCanonical_singleton (isCanonical_immediate (by decide))⟩

theorem isCanonical_compare (comparison : Comparison) (rd rs rt : Register) :
    (comparison.compare rd rs rt).IsCanonical := by
  have layout : comparison.setLess.format = .threeRegisters := by
    unfold Comparison.setLess
    split <;> rfl
  unfold Comparison.compare
  split <;> exact isCanonical_registers layout

theorem allCanonical_thenBranch {context : ExpansionContext} {before : List Instruction} {target : Target}
    (canonical : AllCanonical before) (shown : operation.format.ShowsImmediate rs rt) :
    Yields AllCanonical (thenBranch context before operation rs rt target) := by
  unfold thenBranch
  rw [yields_map]
  apply yields_of_forall
  intro offset
  rw [allCanonical_append]
  exact ⟨canonical, allCanonical_singleton (isCanonical_ofImmediate shown)⟩

/-- The instructions that were found are canonical. -/
def FoundCanonical (found : Option (List Instruction)) : Prop :=
  ∀ instructions, found = some instructions → AllCanonical instructions

@[simp] theorem foundCanonical_none : FoundCanonical none := by simp [FoundCanonical]

@[simp] theorem foundCanonical_some {instructions : List Instruction} :
    FoundCanonical (some instructions) ↔ AllCanonical instructions := by simp [FoundCanonical]

theorem foundCanonical_setComparison? (pseudo : Pseudo) (rd rs rt : Register) :
    FoundCanonical (setComparison? pseudo rd rs rt) := by
  cases pseudo <;>
    simp (disch := decide) [setComparison?, invert, isCanonical_registers, isCanonical_immediate]

theorem foundCanonical_divide {context : ExpansionContext} {division move : Operation} {operand : Operand}
    (divides : division.format = .twoSources) (moves : move.format = .destination) :
    Yields FoundCanonical (divide context division move rd rs operand) := by
  have moved : (registers move rd .zero .zero).IsCanonical :=
    isCanonical_ofRegisters (by rw [moves]; exact ⟨rfl, rfl, rfl⟩)
  have divided : ∀ rt, (registers division .zero rs rt).IsCanonical := by
    intro rt
    exact isCanonical_ofRegisters (by rw [divides]; exact ⟨rfl, rfl⟩)
  have broken : (ofCode .breakpoint 0).IsCanonical := isCanonical_ofCode rfl
  unfold divide
  split
  case h_1 rt =>
    split <;> simp (disch := decide) [moved, divided, broken, isCanonical_nop, isCanonical_immediate]
  case h_2 value =>
    rw [yields_map]
    apply (allCanonical_load .scratch value).mono
    intro loading canonical
    simp [canonical, moved, divided]
  case h_3 => simp

theorem allCanonical_subtract {addition subtraction : Operation} (rt rs : Register) (value : Int)
    (adds : addition.format = .signedImmediate) (subtracts : subtraction.format = .threeRegisters) :
    Yields AllCanonical (subtract addition subtraction rt rs value) := by
  unfold subtract
  split
  · exact allCanonical_singleton (isCanonical_immediate (by rw [adds]; decide))
  · rw [yields_map]
    apply (allCanonical_load .scratch value).mono
    intro loading canonical
    rw [allCanonical_append]
    exact ⟨canonical, allCanonical_singleton (isCanonical_registers subtracts)⟩

theorem allCanonical_rotateBy {first second : Operation} (firstShifts : first.format = .shiftRegister)
    (secondShifts : second.format = .shiftRegister) :
    AllCanonical (rotateBy first second rd rs rt) := by
  simp (disch := decide) [rotateBy, isCanonical_registers, isCanonical_shiftBy firstShifts,
    isCanonical_shiftBy secondShifts]

theorem allCanonical_rotate {first second : Operation} (value : Int)
    (firstShifts : first.format = .shiftAmount) (secondShifts : second.format = .shiftAmount) :
    Yields AllCanonical (rotate first second rd rs value) := by
  unfold rotate
  rw [yields_map]
  apply yields_of_forall
  intro amount
  simp (disch := decide) [isCanonical_registers, isCanonical_shift firstShifts, isCanonical_shift secondShifts]

/-- The instructions that load an operand are canonical. -/
theorem canonical_source? (operand : Operand) :
    Yields (fun found => ∀ loading register, found = some (loading, register) → AllCanonical loading)
      (source? operand) := by
  unfold source?
  split
  case h_1 => simp
  case h_2 value =>
    rw [yields_map]
    apply (allCanonical_load .scratch value).mono
    rintro loading canonical _ _ ⟨rfl, rfl⟩
    exact canonical
  case h_3 => simp

theorem foundCanonical_pseudo? (context : ExpansionContext) (pseudo : Pseudo) (operands : List Operand) :
    Yields FoundCanonical (pseudo? context pseudo operands) := by
  unfold pseudo?
  split
  case h_1 rd value | h_2 rd value =>
    simpa using allCanonical_load rd value
  case h_3 =>
    rw [yields_map]
    exact yields_of_forall fun _ => by simp (disch := decide) [isCanonical_immediate]
  case h_4 =>
    split
    · simp (disch := decide) [isCanonical_immediate]
    · rw [yields_map]
      exact yields_of_forall fun _ => by
        simp (disch := decide) [isCanonical_immediate, isCanonical_registers]
  case h_5 | h_6 | h_7 | h_8 | h_9 =>
    simp (disch := decide) [isCanonical_registers, isCanonical_shift]
  case h_10 operand | h_11 operand | h_12 operand | h_13 operand =>
    dsimp only
    cases operand.target? with
    | none => simp
    | some target =>
      rw [yields_map]
      exact (allCanonical_thenBranch allCanonical_nil (by trivial)).mono fun _ canonical => by
        simpa using canonical
  case h_14 rt rs value | h_15 rt rs value =>
    simpa using allCanonical_subtract rt rs value rfl rfl
  case h_16 | h_17 => exact foundCanonical_divide rfl rfl
  case h_18 | h_19 => simpa using allCanonical_rotateBy rfl rfl
  case h_20 amount | h_21 amount => simpa using allCanonical_rotate amount rfl rfl
  case h_22 first second third _ _ _ _ _ _ _ _ =>
    split
    case h_1 comparison operation found =>
      have layout : operation.format = .branchTwo := by
        cases pseudo <;> cases found <;> rfl
      split
      · simp
      · rw [yields_bind]
        apply (canonical_source? second).mono
        intro loaded canonical
        split
        · simp
        · next loading rt =>
          rw [yields_map]
          have compared : AllCanonical (loading ++ [comparison.compare .scratch first rt]) := by
            rw [allCanonical_append]
            exact ⟨canonical _ _ rfl, allCanonical_singleton (isCanonical_compare _ _ _ _)⟩
          simpa using allCanonical_thenBranch compared (by rw [layout]; trivial)
    case h_2 =>
      split
      · next =>
        split
        · simp
        · rw [yields_bind]
          apply (canonical_source? third).mono
          intro loaded canonical
          split
          · simp
          · next loading rt =>
            intro instructions found
            obtain ⟨compared, set, rfl⟩ := Option.map_eq_some_iff.1 found
            rw [allCanonical_append]
            exact ⟨canonical _ _ rfl, foundCanonical_setComparison? _ _ _ _ compared set⟩
      · simp
  case h_23 => simp

theorem allCanonical_withNumber {operation : Operation} {rd rs : Register} {value : Int}
    (accepts : acceptsNumber operation = true) :
    Yields AllCanonical (withNumber operation rd rs value) := by
  have layout : operation.format = .threeRegisters := by
    cases operation <;> first | rfl | cases accepts
  have forms : ∀ form signed, immediateForm? operation = some (form, signed) → form.format ∈ twoAndImmediate := by
    cases operation <;> simp [immediateForm?] <;> decide
  have scratch : Yields AllCanonical ((load .scratch value).map fun loading =>
      loading ++ [registers operation rd rs .scratch]) := by
    rw [yields_map]
    apply (allCanonical_load .scratch value).mono
    intro loading canonical
    rw [allCanonical_append]
    exact ⟨canonical, allCanonical_singleton (isCanonical_registers layout)⟩
  unfold withNumber
  split
  case h_1 form found =>
    split
    · exact allCanonical_singleton (isCanonical_immediate (forms _ _ found))
    · exact scratch
  case h_2 form found =>
    split
    · exact allCanonical_singleton (isCanonical_immediate (forms _ _ found))
    · exact scratch
  case h_3 | h_4 => exact allCanonical_subtract rd rs value rfl rfl
  case h_5 => exact scratch

theorem foundCanonical_largeImmediate (operation : Operation) (rt rs : Register) (value : Int) :
    Yields FoundCanonical (extended?.largeImmediate operation rt rs value) := by
  unfold extended?.largeImmediate
  split
  · simp
  · next form found =>
    have layout : form.format = .threeRegisters := by
      cases operation <;> cases found <;> rfl
    rw [yields_map]
    apply (allCanonical_load .scratch value).mono
    intro loading canonical
    simp [canonical, isCanonical_registers layout]

theorem foundCanonical_compareWith {context : ExpansionContext} {operation : Operation} {rs : Register}
    {value : Int} {operand : Operand} (layout : operation.format = .branchTwo) :
    Yields FoundCanonical (extended?.compareWith context operation rs value operand) := by
  unfold extended?.compareWith
  split
  · simp
  · rw [yields_bind]
    apply (allCanonical_load .scratch value).mono
    intro loading canonical
    simpa using allCanonical_thenBranch canonical (by rw [layout]; trivial)

theorem foundCanonical_extended? (context : ExpansionContext) (operation : Operation) (operands : List Operand) :
    Yields FoundCanonical (extended? context operation operands) := by
  have accesses : operation.format = .memory → operation.format ∈ twoAndImmediate := by
    intro layout
    rw [layout]
    decide
  unfold extended?
  split
  case h_1 | h_2 => exact foundCanonical_compareWith rfl
  case h_3 | h_4 => exact foundCanonical_divide rfl rfl
  case h_5 =>
    split
    case h_1 =>
      split
      · next accepts => simpa using allCanonical_withNumber accepts
      · simp
    case h_2 | h_3 => exact foundCanonical_largeImmediate _ _ _ _
    case h_4 rs value layout _ _ _ _ =>
      split
      · simp
      · next form found =>
        have traps : form.format = .trapImmediate := by
          cases operation <;> cases found <;> rfl
        split
        · rw [yields_ok, foundCanonical_some]
          exact allCanonical_singleton (isCanonical_ofImmediate (by rw [traps]; rfl))
        · rw [yields_map]
          apply (allCanonical_load .scratch value).mono
          intro loading canonical
          rw [foundCanonical_some, allCanonical_append]
          exact ⟨canonical, allCanonical_singleton (isCanonical_ofRegisters (by rw [layout]; exact ⟨rfl, rfl⟩))⟩
    case h_5 layout _ _ _ _ =>
      rw [yields_map]
      apply yields_of_forall
      intro address
      split
      · simp [isCanonical_immediate (accesses layout)]
      · simp [extended?.throughUpper, isCanonical_immediate (accesses layout)]
    case h_6 layout _ _ _ _ =>
      rw [yields_map]
      apply yields_of_forall
      intro address
      simp [extended?.throughUpper, isCanonical_immediate (accesses layout)]
    case h_7 layout _ _ _ _ =>
      rw [yields_map]
      apply yields_of_forall
      intro address
      simp (disch := decide) [isCanonical_registers, isCanonical_immediate (accesses layout)]
    case h_8 => simp

/-- The instruction that was found is canonical. -/
def DirectCanonical (found : Option Instruction) : Prop :=
  ∀ instruction, found = some instruction → instruction.IsCanonical

@[simp] theorem directCanonical_none : DirectCanonical none := by simp [DirectCanonical]

@[simp] theorem directCanonical_some {instruction : Instruction} :
    DirectCanonical (some instruction) ↔ instruction.IsCanonical := by simp [DirectCanonical]

/-- A machine operation on operands of the shape it needs is canonical. -/
theorem directCanonical_encode? (context : ExpansionContext) (operation : Operation) (operands : List Operand) :
    Yields DirectCanonical (encode? context operation operands) := by
  have registers : ∀ {rd rs rt : Register} {shamt : Word}, operation.format.ShowsRegisters rd rs rt shamt →
      DirectCanonical (some (ofRegisters operation rd rs rt shamt)) := by
    intro rd rs rt shamt shown
    rw [directCanonical_some]
    exact isCanonical_ofRegisters shown
  have immediate : ∀ {rs rt : Register} (field : Except Problem UInt16),
      operation.format.ShowsImmediate rs rt →
      Yields DirectCanonical (field.map fun field => some (ofImmediate operation rs rt field)) := by
    intro rs rt field shown
    rw [yields_map]
    apply yields_of_forall
    intro half
    rw [directCanonical_some]
    exact isCanonical_ofImmediate shown
  unfold encode?
  split
  case h_1 layout | h_3 layout => exact registers (by rw [layout]; rfl)
  case h_2 layout =>
    rw [yields_map]
    exact yields_of_forall fun _ => registers (by rw [layout]; rfl)
  case h_4 layout | h_7 layout => exact registers (by rw [layout]; exact ⟨rfl, rfl, rfl⟩)
  case h_5 layout | h_6 layout | h_8 layout | h_9 layout | h_21 layout =>
    exact registers (by rw [layout]; exact ⟨rfl, rfl⟩)
  case h_10 layout =>
    rw [yields_ok, directCanonical_some]
    exact isCanonical_ofCode_zero layout
  case h_11 layout =>
    rw [yields_ok, directCanonical_some]
    exact isCanonical_ofCode layout
  case h_12 layout =>
    split
    · rw [yields_ok, directCanonical_some]
      exact isCanonical_ofCode layout
    · exact yields_error
  case h_13 layout | h_14 layout | h_20 layout => exact immediate _ (by rw [layout]; trivial)
  case h_15 layout | h_16 layout => exact immediate _ (by rw [layout]; rfl)
  case h_17 layout =>
    split
    · exact immediate _ (by rw [layout]; trivial)
    · simp
  case h_18 layout =>
    split
    · exact immediate _ (by rw [layout]; rfl)
    · simp
  case h_19 layout =>
    split
    · rw [yields_map]
      apply yields_of_forall
      intro index
      rw [directCanonical_some]
      exact isCanonical_ofTarget layout
    · simp
  case h_22 => simp

theorem allCanonical_settle {context : ExpansionContext} {mnemonic : Mnemonic}
    {direct : Except Problem (Option Instruction)} {expanded : Except Problem (Option (List Instruction))}
    (encoded : Yields DirectCanonical direct) (found : Yields FoundCanonical expanded) :
    Yields AllCanonical (settle context mnemonic direct expanded) := by
  unfold settle
  split
  case h_1 => exact allCanonical_singleton (directCanonical_some.1 encoded)
  case h_2 =>
    split
    · simp
    · split
      · exact foundCanonical_some.1 found
      · simp
    · simp
  case h_3 =>
    split
    · simp
    · split
      · simp
      · exact foundCanonical_some.1 found
      · simp

theorem foundCanonical_machine? (context : ExpansionContext) (operation : Operation) (operands : List Operand) :
    Yields FoundCanonical (machine? context operation operands) := by
  unfold machine?
  split
  · simpa using allCanonical_settle (directCanonical_encode? _ _ _) (foundCanonical_extended? _ _ _)
  · exact foundCanonical_extended? _ _ _

end Expansion

open Expansion in
/-- All that a written instruction becomes is canonical. -/
theorem allCanonical_expand (written : WrittenInstruction) (context : ExpansionContext) :
    Yields AllCanonical (written.expand context) := by
  unfold WrittenInstruction.expand
  split
  · split
    · exact allCanonical_singleton Instruction.isCanonical_nop
    · simp
  · exact allCanonical_settle (directCanonical_encode? _ _ _) (foundCanonical_machine? _ _ _)
  · exact allCanonical_settle (by simp) (foundCanonical_pseudo? _ _ _)

theorem canonical_of_expand {written : WrittenInstruction} {context : ExpansionContext}
    {instructions : List Instruction} (expanded : written.expand context = .ok instructions) :
    AllCanonical instructions := by
  have yields := allCanonical_expand written context
  rwa [expanded] at yields

end Mips
