import Mips.Proofs.Assembly.Resolution

/-!
What strict settings change. They reject sources, but what they accept is assembled to the same program as without them:
an instruction that is accepted while extended forms are disabled is the machine operation that is written, and warnings
are errors only after everything has been assembled. Main statement: `strictness_rejects`.
-/

namespace Mips

namespace Expansion

variable {context : ExpansionContext} {instructions : List Instruction}

/-- Without extended forms, only the direct encoding is left to settle on. -/
theorem exists_direct_of_settle (basic : context.extended = false) {mnemonic : Mnemonic}
    {direct : Except Problem (Option Instruction)} {expanded : Except Problem (Option (List Instruction))}
    (settled : settle context mnemonic direct expanded = .ok instructions) :
    ∃ instruction, direct = .ok (some instruction) ∧ instructions = [instruction] := by
  unfold settle at settled
  split at settled
  case h_1 instruction =>
    cases settled
    exact ⟨instruction, rfl, rfl⟩
  case h_2 =>
    rw [basic] at settled
    split at settled <;> cases settled
  case h_3 =>
    rw [basic] at settled
    cases settled

/-- The direct encoding does not depend on what else may be written. -/
theorem encode?_extended (context : ExpansionContext) (extended : Bool) (operation : Operation)
    (operands : List Operand) :
    encode? { context with extended := extended } operation operands = encode? context operation operands := rfl

/-- What is accepted without extended forms becomes the same with them. -/
theorem expand_extended {written : WrittenInstruction} (basic : context.extended = false)
    (expanded : written.expand context = .ok instructions) (extended : Bool) :
    written.expand { context with extended := extended } = .ok instructions := by
  unfold WrittenInstruction.expand at expanded ⊢
  split at expanded
  case h_1 => exact expanded
  case h_2 operation _ =>
    obtain ⟨instruction, direct, rfl⟩ := exists_direct_of_settle basic expanded
    rw [encode?_extended, direct]
    rfl
  case h_3 =>
    obtain ⟨instruction, direct, -⟩ := exists_direct_of_settle basic expanded
    cases direct

end Expansion

/-- What the first settings accept the others do too, and it is placed and emitted in the same way. -/
structure Settings.Widens (strict lax : Settings) : Prop where
  layout : lax.layout = strict.layout
  delayed : lax.delayedBranching = strict.delayedBranching
  extended : strict.extendedAssembler = true → lax.extendedAssembler = true

section Widens

variable {strict lax : Settings} (widens : strict.Widens lax)

include widens

theorem WrittenInstruction.expand_of_widens {written : WrittenInstruction} {pc : Address}
    {resolve? : Option (Label → Except Problem Address)} {instructions : List Instruction}
    (expanded : written.expand ⟨pc, strict.extendedAssembler, strict.delayedBranching, resolve?⟩ = .ok instructions) :
    written.expand ⟨pc, lax.extendedAssembler, lax.delayedBranching, resolve?⟩ = .ok instructions := by
  rw [widens.delayed]
  cases allowed : strict.extendedAssembler with
  | true =>
    rw [widens.extended allowed, ← allowed]
    exact expanded
  | false => exact Expansion.expand_extended allowed expanded lax.extendedAssembler

namespace Placement

variable {file : Nat} {placement : Placement} {statement : Statement}

theorem place_of_widens (successful : (place strict file placement statement).Successful) :
    place lax file placement statement = place strict file placement statement := by
  rw [place_eq] at successful
  rw [place_eq, place_eq]
  split at successful
  next => rfl
  next written content =>
    obtain ⟨instructions, text, expanded, same⟩ := expands_of_placeInstruction successful
    have again : written.expand ((placement.labelled statement).sizingContext lax) = .ok instructions :=
      WrittenInstruction.expand_of_widens widens expanded
    rw [same, placeInstruction, text, again, widens.layout]
    rfl
  next directive content =>
    unfold placeDirective
    rw [widens.layout]

theorem statements_of_widens {statements : List Statement}
    (successful : (statements.foldl (place strict file) placement).Successful) :
    statements.foldl (place lax file) placement = statements.foldl (place strict file) placement := by
  induction statements generalizing placement with
  | nil => rfl
  | cons statement rest ih =>
    have first := successful.of_continues (continues_statements _ strict file rest)
    rw [List.foldl_cons, List.foldl_cons, place_of_widens widens first]
    exact ih successful

theorem placeFiles_of_widens {files : List (List Statement)}
    (successful : (placement.placeFiles strict file files).Successful) :
    placement.placeFiles lax file files = placement.placeFiles strict file files := by
  induction files generalizing placement file with
  | nil => rfl
  | cons statements rest ih =>
    have first := successful.of_continues (continues_placeFiles _ strict (file + 1) rest)
    have same : placement.placeFile lax file statements = placement.placeFile strict file statements :=
      congrArg (bind · file) (statements_of_widens widens (first.of_continues (continues_bind _ file)))
    rw [placeFiles, placeFiles, same]
    exact ih successful

theorem ofFiles_of_widens {files : List (List Statement)} (successful : (ofFiles strict files).Successful) :
    ofFiles lax files = ofFiles strict files := by
  have placed : ((initial strict.layout).placeFiles strict 0 files).Successful := successful_unshared successful
  rw [ofFiles, ofFiles, widens.layout, placeFiles_of_widens widens placed]

end Placement

namespace Emission

variable {symbols : SymbolTable} {sources : List (Array String)} {emission : Emission}

theorem emit_of_widens {placed : Placed} (successful : (emit strict symbols sources emission placed).Successful) :
    emit lax symbols sources emission placed = emit strict symbols sources emission placed := by
  cases content : placed.statement.content with
  | none => simp only [emit, content]
  | some written =>
    cases written with
    | directive directive => simp only [emit, content]
    | instruction written =>
      obtain ⟨instructions, -, expanded, -⟩ := expands_of_emit content successful
      have again := WrittenInstruction.expand_of_widens widens expanded
      simp only [emit, content, expanded, again]

theorem foldl_emit_of_widens {placed : List Placed}
    (successful : (placed.foldl (emit strict symbols sources) emission).Successful) :
    placed.foldl (emit lax symbols sources) emission = placed.foldl (emit strict symbols sources) emission := by
  induction placed generalizing emission with
  | nil => rfl
  | cons one rest ih =>
    have first := successful.of_suffix (findings_foldl_emit strict symbols sources _ rest)
    rw [List.foldl_cons, List.foldl_cons, emit_of_widens widens first]
    exact ih successful

end Emission

end Widens

namespace Assembly

/-- Everything that is found in sources, by reading them, by placing their statements and by emitting these. -/
def findings (settings : Settings) (sources : List Source) : List Finding :=
  let placement := Placement.ofFiles settings (statements sources)
  readingFindings 0 (sources.map fun source => (parseLines source.text).2) ++ placement.findings.reverse ++
    (emission settings sources placement).findings.reverse

/-- The program of the sources, if none of the findings is an error. -/
def outcome (settings : Settings) (sources : List Source) : Program :=
  let placement := Placement.ofFiles settings (statements sources)
  let emission := emission settings sources placement
  { statements := emission.statements
    data := emission.data
    symbols := placement.symbols
    entry := entry settings placement.symbols
    warnings := diagnostics settings sources (findings settings sources)
    files := sources.map Source.name }

/-- Assembly fails exactly if an error is among what is reported. -/
theorem assemble_eq (settings : Settings) (sources : List Source) :
    assemble settings sources =
      if (diagnostics settings sources (findings settings sources)).any fun diagnostic => diagnostic.severity = .error
      then .error (diagnostics settings sources (findings settings sources)) else .ok (outcome settings sources) := by
  simp only [assemble, findings, outcome, statements, List.map_map]
  rfl

theorem assemble_eq_ok_iff {settings : Settings} {sources : List Source} {program : Program} :
    assemble settings sources = .ok program ↔
      (∀ diagnostic ∈ diagnostics settings sources (findings settings sources), diagnostic.severity ≠ .error) ∧
        program = outcome settings sources := by
  rw [assemble_eq]
  split
  next some =>
    simp only [List.any_eq_true, decide_eq_true_eq] at some
    obtain ⟨diagnostic, member, severe⟩ := some
    simp only [reduceCtorEq, false_iff, not_and]
    exact fun none => absurd severe (none diagnostic member)
  next none =>
    simp only [List.any_eq_true, decide_eq_true_eq, not_exists, not_and] at none
    rw [Except.ok.injEq]
    exact ⟨fun same => ⟨none, same.symm⟩, fun both => both.2.symm⟩

theorem diagnostics_eq_nil_iff (settings : Settings) (sources : List Source) {findings : List Finding} :
    diagnostics settings sources findings = [] ↔ findings = [] := by
  unfold diagnostics
  dsimp only
  split <;> simp [← List.length_eq_zero_iff]

/-- When warnings are errors, everything that is found is an error. -/
theorem findings_eq_nil_of_assemble {settings : Settings} {sources : List Source} {program : Program}
    (strict : settings.warningsAreErrors = true) (assembled : assemble settings sources = .ok program) :
    findings settings sources = [] := by
  have fine := (assemble_eq_ok_iff.1 assembled).1
  rw [← diagnostics_eq_nil_iff settings sources, List.eq_nil_iff_forall_not_mem]
  intro diagnostic member
  have promoted := member
  rw [diagnostics, if_pos strict] at promoted
  obtain ⟨_, -, rfl⟩ := List.mem_map.1 promoted
  exact fine _ member rfl

/-- Settings that accept more and report the same assemble the same program. -/
theorem assemble_of_widens {strict lax : Settings} (widens : strict.Widens lax)
    (start : lax.startAtMain = strict.startAtMain) {sources : List Source} {program : Program}
    (reported : diagnostics lax sources (findings strict sources) = diagnostics strict sources (findings strict sources))
    (assembled : assemble strict sources = .ok program) : assemble lax sources = .ok program := by
  have placed := Placement.ofFiles_of_widens widens (successful_ofFiles assembled)
  have emitted : emission lax sources (Placement.ofFiles strict (statements sources)) =
      emission strict sources (Placement.ofFiles strict (statements sources)) :=
    Emission.foldl_emit_of_widens widens (emission_of_assemble assembled).2.1
  have found : findings lax sources = findings strict sources := by
    rw [findings, placed, emitted, findings]
  have entered : entry lax = entry strict := by
    funext symbols
    rw [entry, entry, start, widens.layout]
  have same : outcome lax sources = outcome strict sources := by
    rw [outcome, placed, emitted, found, reported, entered, outcome]
  rw [assemble_eq_ok_iff] at assembled ⊢
  rw [found, reported, same]
  exact assembled

end Assembly

open Assembly

/--
Strict settings reject sources and change nothing else: sources that are assembled while extended forms are disabled are
assembled to the same program while they are enabled, and when warnings are errors, sources are assembled exactly if they
are assembled without warnings when they are not, to the same program.
-/
theorem strictness_rejects (settings : Settings) (sources : List Source) :
    (∀ program, assemble { settings with extendedAssembler := false } sources = .ok program →
      assemble { settings with extendedAssembler := true } sources = .ok program) ∧
    ∀ program, assemble { settings with warningsAreErrors := true } sources = .ok program ↔
      assemble { settings with warningsAreErrors := false } sources = .ok program ∧ program.warnings = [] := by
  constructor
  · intro program assembled
    have widens : Settings.Widens { settings with extendedAssembler := false }
        { settings with extendedAssembler := true } := ⟨rfl, rfl, fun _ => rfl⟩
    exact assemble_of_widens widens rfl rfl assembled
  · -- Without findings there is nothing that could be reported in another way.
    have transfer (one other : Bool) {program : Program}
        (none : findings { settings with warningsAreErrors := one } sources = [])
        (assembled : assemble { settings with warningsAreErrors := one } sources = .ok program) :
        assemble { settings with warningsAreErrors := other } sources = .ok program := by
      have widens : Settings.Widens { settings with warningsAreErrors := one }
          { settings with warningsAreErrors := other } := ⟨rfl, rfl, id⟩
      refine assemble_of_widens widens rfl ?_ assembled
      rw [none, (diagnostics_eq_nil_iff _ sources).2 rfl, (diagnostics_eq_nil_iff _ sources).2 rfl]
    have warnings {settings : Settings} {program : Program} (assembled : assemble settings sources = .ok program) :
        program.warnings = [] ↔ findings settings sources = [] := by
      rw [(assemble_eq_ok_iff.1 assembled).2, ← diagnostics_eq_nil_iff settings sources]
      rfl
    intro program
    constructor
    · intro assembled
      have none := findings_eq_nil_of_assemble rfl assembled
      exact ⟨transfer true false none assembled, (warnings assembled).2 none⟩
    · rintro ⟨assembled, none⟩
      exact transfer false true ((warnings assembled).1 none) assembled

/-- An addition that a machine operation can do, and a byte that is cut off. -/
theorem strictness_rejects_truncation :
    let addition : List Source := [⟨"main.s", "addi $t0, $zero, 5"⟩]
    let truncation : List Source := [⟨"main.s", ".data\n.byte 300"⟩]
    (∃ program, assemble { extendedAssembler := false } addition = .ok program ∧ assemble {} addition = .ok program ∧
      assemble { warningsAreErrors := true } addition = .ok program) ∧
    ∃ program, assemble {} truncation = .ok program ∧
      ∀ other, assemble { warningsAreErrors := true } truncation ≠ .ok other := by
  intro addition truncation
  obtain ⟨basic, clean, warned⟩ : (assemble { extendedAssembler := false } addition).toOption.isSome = true ∧
      (assemble {} addition).toOption.map (fun program => program.warnings.isEmpty) = some true ∧
      (assemble {} truncation).toOption.map (fun program => program.warnings.isEmpty) = some false := by
    decide +kernel
  constructor
  · obtain ⟨program, assembled⟩ := Option.isSome_iff_exists.1 basic
    have extended := (strictness_rejects {} addition).1 program (eq_ok_of_toOption assembled)
    obtain ⟨other, found, none⟩ := Option.map_eq_some_iff.1 clean
    cases extended.symm.trans (eq_ok_of_toOption found)
    exact ⟨program, eq_ok_of_toOption assembled, extended,
      ((strictness_rejects {} addition).2 program).2 ⟨extended, List.isEmpty_iff.1 none⟩⟩
  · obtain ⟨program, found, some⟩ := Option.map_eq_some_iff.1 warned
    refine ⟨program, eq_ok_of_toOption found, fun other assembled => ?_⟩
    obtain ⟨again, none⟩ := ((strictness_rejects {} truncation).2 other).1 assembled
    cases again.symm.trans (eq_ok_of_toOption found)
    simp [none] at some

end Mips
