import Mips.Proofs.Expansion.Decision

/-!
Which written branches are expanded, and where what they are expanded to leads. Main statements: `decision?_of_expand` and
`destination?_of_branchOffset`.
-/

namespace Mips.Expansion

open Instruction

variable {context : ExpansionContext} {resolve : Label → Except Problem Address} {operation : Operation}
  {related : Word → Word → Bool} {rt : Register}

theorem setComparison?_of_relation? {pseudo : Pseudo} (known : pseudo.relation? = some related) (rd rs rt : Register) :
    setComparison? pseudo rd rs rt = none := by
  cases pseudo <;> first | rfl | cases known

theorem branchOffset_label (resolved : context.resolve? = some resolve) {named : Label} {start : Address}
    (known : resolve named = .ok start) (pc : Address) (addend : Int) :
    branchOffset context pc (.label named addend) =
      let address := start + Word.ofInt addend
      let offset := ((address.toNat : Int) - pc.toNat - 4) / 4
      if Word.isAligned address then
        if fitsSigned offset then .ok (half offset) else .error (.branchOutOfRange offset)
      else .error (.misalignedTarget address) := by
  simp only [branchOffset, address?, resolved, known, Except.map, bind, Except.bind]
  cases Word.isAligned (start + Word.ofInt addend) <;> rfl

/-- The offset of a branch is such that it leads where its target says. -/
theorem destination?_of_branchOffset (resolved : context.resolve? = some resolve) {pc : Address}
    (aligned : Word.isAligned pc = true) {target : Target} {offset : UInt16}
    (found : branchOffset context pc target = .ok offset) :
    target.destination? resolve pc = some (pc + 4 + Word.signExtend 16 offset.toUInt32 * 4) := by
  cases target with
  | number value =>
    rw [branchOffset_number] at found
    split at found
    next fits =>
      cases found
      have four : Word.ofInt (4 * value) = Word.ofInt value * 4 := by
        rw [Int.mul_comm]
        exact UInt32.ofInt_mul value 4
      rw [Target.destination?, signExtend_half fits, four]
    next => cases found
  | label named addend =>
    cases known : resolve named with
    | error problem =>
      simp only [branchOffset, address?, resolved, known] at found
      cases found
    | ok start =>
      rw [branchOffset_label resolved known] at found
      dsimp only at found
      split at found
      next alignedTarget =>
        split at found
        next fits =>
          cases found
          rw [Target.destination?, known, signExtend_half fits, Word.add_words aligned alignedTarget]
          rfl
        next => cases found
      next => cases found

variable [Generator]

theorem value?_of_source? {operand : Operand} {loading : List Instruction}
    (loaded : source? operand = .ok (some (loading, rt))) : ∃ value, operand.value? = some value := by
  cases operand with
  | register source => exact ⟨_, rfl⟩
  | immediate number =>
    obtain ⟨loading, loads, -⟩ := map_eq_ok_iff.1 loaded
    exact ⟨_, if_pos (holds_of_load loads)⟩
  | label | based => cases loaded

section Decision

variable {operands : List Operand} {pseudo : Pseudo} {instructions : List Instruction}

theorem decision?_of_pseudo? (known : pseudo.relation? = some related)
    (expanded : pseudo? context pseudo operands = .ok (some instructions)) :
    ∃ decision, (WrittenInstruction.mk (.pseudo pseudo) operands).decision? = some decision := by
  unfold pseudo? at expanded
  split at expanded
  case h_10 | h_11 | h_12 | h_13 =>
    dsimp only at expanded
    split at expanded
    next target placed => exact ⟨_, WrittenInstruction.decision?_eq_some known rfl rfl placed⟩
    next => cases expanded
  case h_22 first second third _ _ _ _ _ _ _ _ =>
    split at expanded
    next comparison operation found =>
      split at expanded
      next => cases expanded
      next target placed =>
        obtain ⟨loading, loaded, rest⟩ := bind_eq_ok_iff.1 expanded
        cases loading with
        | none => cases rest
        | some loading =>
          obtain ⟨value, read⟩ := value?_of_source? loaded
          have compared : (WrittenInstruction.mk (.pseudo pseudo) [.register first, second, third]).comparison? =
              some (first, second, third) := by
            cases pseudo <;> first | rfl | cases found
          exact ⟨_, WrittenInstruction.decision?_eq_some known compared read placed⟩
    next =>
      split at expanded
      next rs =>
        split at expanded
        next => cases expanded
        next set => exact absurd (congrArg Option.isNone (setComparison?_of_relation? known _ _ _)) set
      next => cases expanded
  case h_23 => cases expanded
  all_goals cases known

theorem decision?_of_encode? {instruction : Instruction} (known : operation.relation? = some related)
    (encoded : encode? context operation operands = .ok (some instruction)) :
    ∃ decision, (WrittenInstruction.mk (.machine operation) operands).decision? = some decision := by
  have layout := Operation.format_of_relation? known
  unfold encode? at encoded
  split at encoded
  case h_17 =>
    split at encoded
    next target placed => exact ⟨_, WrittenInstruction.decision?_eq_some known rfl rfl placed⟩
    next => cases encoded
  case h_22 => cases encoded
  all_goals
    next other => cases layout.symm.trans other

theorem decision?_of_extended? (known : operation.relation? = some related)
    (expanded : extended? context operation operands = .ok (some instructions)) :
    ∃ decision, (WrittenInstruction.mk (.machine operation) operands).decision? = some decision := by
  have layout := Operation.format_of_relation? known
  unfold extended? at expanded
  split at expanded
  case h_1 rs value operand | h_2 rs value operand =>
    unfold extended?.compareWith at expanded
    split at expanded
    next => cases expanded
    next target placed =>
      obtain ⟨loading, loaded, -⟩ := bind_eq_ok_iff.1 expanded
      have read : (Operand.immediate value).value? = _ := if_pos (holds_of_load loaded)
      exact ⟨_, WrittenInstruction.decision?_eq_some known rfl read placed⟩
  case h_3 | h_4 => cases known
  case h_5 =>
    rw [layout] at expanded
    cases expanded

/-- Only a branch that has the operands for it is expanded at all. -/
theorem decision?_of_expand {written : WrittenInstruction} (known : written.mnemonic.relation? = some related)
    (expanded : written.expand context = .ok instructions) : ∃ decision, written.decision? = some decision := by
  obtain ⟨mnemonic, operands⟩ := written
  cases mnemonic with
  | nop => cases known
  | machine operation =>
    rcases ok_of_settle expanded with ⟨instruction, encoded, -⟩ | found
    · exact decision?_of_encode? known encoded
    · rw [machine?_of_relation? known] at found
      exact decision?_of_extended? known found
  | pseudo pseudo =>
    have settled : settle context (.pseudo pseudo) (.ok none) (pseudo? context pseudo operands) = .ok instructions :=
      expanded
    rcases ok_of_settle settled with ⟨_, impossible, -⟩ | found
    · cases impossible
    · exact decision?_of_pseudo? known found

end Decision

end Mips.Expansion
