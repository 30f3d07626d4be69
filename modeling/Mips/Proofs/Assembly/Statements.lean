import Mips.Assembly
import Mips.Proofs.Assembly.Emission
import Mips.Proofs.Expansion.Canonical
import Mips.Proofs.Instruction.Disassembly

/-!
The statements of assembled programs. Each lies at its own address and is had again from its assembly text there.
Main statement: `reassembles_of_assemble`.
-/

namespace Mips

namespace Emission

/-- Each emitted statement knows its address and is canonical. -/
def Canonical (emission : Emission) : Prop :=
  ∀ (address : Address) (statement : ProgramStatement), emission.statements[address]? = some statement →
    statement.address = address ∧ statement.instruction.IsCanonical

theorem canonical_initial : initial.Canonical := by
  intro address statement found
  simp [initial] at found

theorem canonical_emitInstructions (placed : Placed) {emission : Emission} {instructions : List Instruction}
    (canonical : emission.Canonical) (all : AllCanonical instructions) (address : Address)
    (source : Option String) : (emitInstructions placed emission address source instructions).Canonical := by
  induction instructions generalizing emission address source with
  | nil => exact canonical
  | cons instruction rest ih =>
    rw [allCanonical_cons] at all
    unfold emitInstructions
    apply ih ?_ all.2
    split
    · exact canonical
    · intro other statement found
      rw [Std.ExtTreeMap.getElem?_insert] at found
      split at found
      next same =>
        cases found
        exact ⟨Std.LawfulEqCmp.eq_of_compare same, all.1⟩
      next => exact canonical other statement found

theorem canonical_emit (settings : Settings) (symbols : SymbolTable) (sources : List (Array String))
    {emission : Emission} (canonical : emission.Canonical) (placed : Placed) :
    (emit settings symbols sources emission placed).Canonical := by
  unfold emit
  split
  case h_1 => exact canonical
  case h_2 written _ =>
    dsimp only
    split
    next => exact canonical
    next instructions expanded =>
      have all := allCanonical_expand written
        ⟨placed.address, settings.extendedAssembler, settings.delayedBranching, some (resolve symbols placed.file)⟩
      rw [expanded] at all
      exact canonical_emitInstructions placed canonical all _ _
  case h_3 =>
    dsimp only
    split
    next => exact canonical
    next warnings _ =>
      obtain ⟨findings, _, same⟩ := warn_eq emission placed warnings
      intro address statement found
      rw [statements_emitBytes, same] at found
      exact canonical address statement found

end Emission

theorem canonical_emission (settings : Settings) (sources : List Source) (placement : Placement) :
    (Assembly.emission settings sources placement).Canonical := by
  unfold Assembly.emission
  generalize placement.placed.reverse = placed
  have kept : ∀ emission : Emission, emission.Canonical → (placed.foldl (Emission.emit settings placement.symbols
      (sources.map fun source => (lines source.text).toArray)) emission).Canonical := by
    induction placed with
    | nil => exact fun _ canonical => canonical
    | cons first rest ih => exact fun emission canonical => ih _ (Emission.canonical_emit _ _ _ canonical first)
  exact kept .initial Emission.canonical_initial

theorem canonical_of_assemble {settings : Settings} {sources : List Source} {program : Program}
    (assembled : assemble settings sources = .ok program) {address : Address} {statement : ProgramStatement}
    (found : program.statementAt? address = some statement) :
    statement.address = address ∧ statement.instruction.IsCanonical := by
  unfold assemble at assembled
  dsimp only at assembled
  split at assembled
  · cases assembled
  · cases assembled
    exact canonical_emission _ _ _ address statement found

/--
The text of each statement of an assembled program is read as one instruction, without labels. At the address of the
statement it becomes the machine instruction of the statement, and no other, without the help of any label or of
anything but machine operations.
-/
theorem reassembles_of_assemble {settings : Settings} {sources : List Source} {program : Program}
    (assembled : assemble settings sources = .ok program) {address : Address} {statement : ProgramStatement}
    (found : program.statementAt? address = some statement) (line : Nat) :
    statement.address = address ∧
      ∃ span written,
        parseLine statement.text line = .ok (some ⟨line, [], some (.instruction written), span⟩) ∧
        ∀ (delayed : Bool) (resolve? : Option (Label → Except Problem Address)),
          written.expand ⟨statement.address, false, delayed, resolve?⟩ = .ok [statement.instruction] := by
  obtain ⟨same, canonical⟩ := canonical_of_assemble assembled found
  obtain ⟨span, read⟩ := statement.instruction.parseLine_disassembly statement.address line
  refine ⟨same, span, statement.instruction.written statement.address, read, ?_⟩
  intro delayed resolve?
  exact Instruction.expand_written canonical ⟨statement.address, false, delayed, resolve?⟩

/-- The branch of a comparison back to its own label is had again from its text, which gives the offset. -/
theorem reassembles_comparison :
    let sources : List Source := [⟨"loop.s", "loop: bge $t0, $t1, loop"⟩]
    ∃ program statement, assemble {} sources = .ok program ∧
      program.statementAt? 0x00400004 = some statement ∧
      statement.text = "beq $at, $zero, -2" ∧
      ∃ span written,
        parseLine statement.text 1 = .ok (some ⟨1, [], some (.instruction written), span⟩) ∧
        written.expand ⟨0x00400004, false, false, none⟩ = .ok [statement.instruction] := by
  intro sources
  have computed : ((assemble {} sources).toOption.bind fun program =>
      (program.statementAt? 0x00400004).map fun statement => statement.text) = some "beq $at, $zero, -2" := by
    decide +kernel
  obtain ⟨program, assembled, stated⟩ := Option.bind_eq_some_iff.1 computed
  obtain ⟨statement, found, text⟩ := Option.map_eq_some_iff.1 stated
  have successful := eq_ok_of_toOption assembled
  obtain ⟨same, span, written, read, expands⟩ := reassembles_of_assemble successful found 1
  rw [same] at expands
  exact ⟨program, statement, successful, found, text, span, written, read, expands false none⟩

end Mips
