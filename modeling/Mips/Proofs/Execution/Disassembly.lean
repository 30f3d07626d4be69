import Mips.Execution
import Mips.Proofs.Instruction.Decoding
import Mips.Proofs.Instruction.Disassembly

/-!
Execution reads no more of a word than its assembly text shows. The fields that a format leaves out may hold
anything in a word that is decoded; assembling the text of such a word clears them, and what the word does is kept.
Main statement: `executes_of_disassembly`.
-/

namespace Mips

namespace Instruction

/-- The instructions have the same operation, and the same values in all fields that its format shows. -/
def ShowsAlike (first second : Instruction) : Prop :=
  first.operation = second.operation ∧
    match first.operation.format with
    | .threeRegisters | .shiftRegister => first.rd = second.rd ∧ first.rs = second.rs ∧ first.rt = second.rt
    | .shiftAmount => first.rd = second.rd ∧ first.rt = second.rt ∧ first.shamt = second.shamt
    | .source => first.rs = second.rs
    | .linkRegister | .destinationSource => first.rd = second.rd ∧ first.rs = second.rs
    | .destination => first.rd = second.rd
    | .twoSources => first.rs = second.rs ∧ first.rt = second.rt
    | .cop0Move => first.rd = second.rd ∧ first.rt = second.rt
    | .bare => True
    | .code => first.code = second.code
    | .signedImmediate | .unsignedImmediate | .branchTwo | .memory =>
      first.rs = second.rs ∧ first.rt = second.rt ∧ first.half = second.half
    | .upperImmediate => first.rt = second.rt ∧ first.half = second.half
    | .branchOne | .trapImmediate => first.rs = second.rs ∧ first.half = second.half
    | .jump => first.target = second.target

section

variable {operation : Operation}

theorem shamt_ofRegisters_shamt {rd rs rt : Register} (instruction : Instruction) :
    (ofRegisters operation rd rs rt instruction.shamt).shamt = instruction.shamt := by
  rw [shamt_ofRegisters, Instruction.shamt, UInt32.and_assoc, UInt32.and_self]

theorem code_ofCode_code (coded : operation.format = .code) (instruction : Instruction) :
    (ofCode operation instruction.code).code = instruction.code := by
  have free : (operation.encoding.base >>> 6) &&& 0xFFFFF = 0 := by
    cases operation <;> first | rfl | cases coded
  rw [code_ofCode free, Instruction.code, UInt32.and_assoc, UInt32.and_self]

theorem target_ofTarget_target (jumps : operation.format = .jump) (instruction : Instruction) :
    (ofTarget operation instruction.target).target = instruction.target := by
  have free : operation.encoding.base &&& 0x03FFFFFF = 0 := by
    cases operation <;> first | rfl | cases jumps
  rw [target_ofTarget free, Instruction.target, UInt32.and_assoc, UInt32.and_self]

end

@[simp] theorem operation_canonical (instruction : Instruction) :
    instruction.canonical.operation = instruction.operation := by
  unfold canonical
  dsimp only
  split <;> rfl

/-- An instruction keeps the fields that its format shows when the others are cleared. -/
theorem showsAlike_canonical (instruction : Instruction) : instruction.canonical.ShowsAlike instruction := by
  have half {rs rt : Register} (shown : instruction.operation.format.ShowsImmediate rs rt) :
      (ofImmediate instruction.operation rs rt instruction.half).half = instruction.half :=
    half_ofImmediate (base_half shown)
  refine ⟨operation_canonical instruction, ?_⟩
  rw [operation_canonical]
  unfold canonical
  dsimp only
  cases layout : instruction.operation.format <;> dsimp only
  case threeRegisters | shiftRegister =>
    simp (disch := simp [layout]) only [rd_ofRegisters, rs_ofRegisters, rt_ofRegisters, and_self]
  case shiftAmount =>
    simp (disch := simp [layout]) only [rd_ofRegisters, rt_ofRegisters, shamt_ofRegisters_shamt, and_self]
  case source => exact rs_ofRegisters (by simp [layout]) (by simp [layout])
  case linkRegister | destinationSource =>
    simp (disch := simp [layout]) only [rd_ofRegisters, rs_ofRegisters, and_self]
  case destination => exact rd_ofRegisters
  case twoSources => simp (disch := simp [layout]) only [rs_ofRegisters, rt_ofRegisters, and_self]
  case cop0Move => simp (disch := simp [layout]) only [rd_ofRegisters, rt_ofRegisters, and_self]
  case code => exact code_ofCode_code layout instruction
  case signedImmediate | unsignedImmediate | branchTwo | memory =>
    have kept := @half instruction.rs instruction.rt (by rw [layout]; trivial)
    simp (disch := simp [layout]) only [rs_ofImmediate, rt_ofImmediate, kept, and_self]
  case upperImmediate =>
    have kept := @half .zero instruction.rt (by rw [layout]; rfl)
    simp (disch := simp [layout]) only [rt_ofImmediate, kept, and_self]
  case branchOne | trapImmediate =>
    have kept := @half instruction.rs .zero (by rw [layout]; rfl)
    simp (disch := simp [layout]) only [rs_ofImmediate, kept, and_self]
  case jump => exact target_ofTarget_target layout instruction

/-- The immediate as a word depends on the lowest half alone. -/
theorem extended_congr {first second : Instruction} (same : first.half = second.half) :
    first.extended = second.extended := by
  have numbers := congrArg UInt16.toNat same
  rw [toNat_half_eq, toNat_half_eq] at numbers
  have same : (first.word.toNat : Int).bmod 0x10000 = (second.word.toNat : Int).bmod 0x10000 := by
    rw [← Int.emod_bmod, ← Int.emod_bmod (second.word.toNat : Int)]
    congr 1
    omega
  exact congrArg Word.ofInt same

theorem immediate_congr {first second : Instruction} (same : first.half = second.half) :
    first.immediate = second.immediate := by
  have numbers := congrArg UInt16.toNat same
  rw [toNat_half_eq, toNat_half_eq] at numbers
  have masked (instruction : Instruction) : instruction.immediate.toNat = instruction.word.toNat % 0x10000 :=
    Word.toNat_and_mask instruction.word 16 0xFFFF rfl
  rw [← UInt32.toNat_inj, masked, masked, numbers]

theorem signedImmediate_congr {first second : Instruction} (same : first.half = second.half) :
    first.signedImmediate = second.signedImmediate := congrArg Word.signed (extended_congr same)

theorem branchTarget_congr {first second : Instruction} (same : first.half = second.half) (pc : Address) :
    first.branchTarget pc = second.branchTarget pc := by
  rw [branchTarget, extended_congr same, branchTarget]

theorem jumpTarget_congr {first second : Instruction} (same : first.target = second.target) (pc : Address) :
    first.jumpTarget pc = second.jumpTarget pc := by
  rw [jumpTarget, same, jumpTarget]

/-- What an instruction does depends on the fields that its format shows. -/
theorem effect_congr [Generator] {first second : Instruction} (alike : first.ShowsAlike second) (machine : Machine)
    (pc : Address) (delayed : Bool) : first.effect machine pc delayed = second.effect machine pc delayed := by
  obtain ⟨operation, word⟩ := first
  obtain ⟨_, other⟩ := second
  obtain ⟨same, fields⟩ := alike
  dsimp only at same
  subst same
  have extended := @extended_congr ⟨operation, word⟩ ⟨operation, other⟩
  have immediate := @immediate_congr ⟨operation, word⟩ ⟨operation, other⟩
  have number := @signedImmediate_congr ⟨operation, word⟩ ⟨operation, other⟩
  have branch := @branchTarget_congr ⟨operation, word⟩ ⟨operation, other⟩
  have jump := @jumpTarget_congr ⟨operation, word⟩ ⟨operation, other⟩
  -- Each operation reads fields that its format shows, and no others.
  cases operation <;> simp only [Operation.format, Operation.description] at fields <;> simp_all only [effect]

theorem effect_canonical [Generator] (instruction : Instruction) (machine : Machine) (pc : Address) (delayed : Bool) :
    instruction.canonical.effect machine pc delayed = instruction.effect machine pc delayed :=
  effect_congr instruction.showsAlike_canonical machine pc delayed

/-- Without the fields that its format does not show, an instruction has no others left. -/
theorem isCanonical_canonical (instruction : Instruction) : instruction.canonical.IsCanonical := by
  unfold canonical
  dsimp only
  cases layout : instruction.operation.format <;> dsimp only
  case threeRegisters | shiftRegister | shiftAmount => exact isCanonical_ofRegisters (by rw [layout]; rfl)
  case source | destination => exact isCanonical_ofRegisters (by rw [layout]; exact ⟨rfl, rfl, rfl⟩)
  case linkRegister | twoSources | destinationSource | cop0Move =>
    exact isCanonical_ofRegisters (by rw [layout]; exact ⟨rfl, rfl⟩)
  case bare => exact isCanonical_ofCode_zero layout
  case code => exact isCanonical_ofCode layout
  case signedImmediate | unsignedImmediate | branchTwo | memory =>
    exact isCanonical_ofImmediate (by rw [layout]; trivial)
  case upperImmediate | branchOne | trapImmediate => exact isCanonical_ofImmediate (by rw [layout]; rfl)
  case jump => exact isCanonical_ofTarget layout

/-- An instruction is what its text becomes, but for the fields that the text does not show. -/
theorem expand_written_of_decode {word : Word} {instruction : Instruction} (decoded : decode? word = some instruction)
    (context : ExpansionContext) :
    (instruction.written context.pc).expand context = .ok [instruction.canonical] := by
  by_cases zero : instruction.word = 0
  · obtain ⟨rfl, -⟩ := decode?_eq_some_iff.1 decoded
    rw [zero] at decoded
    cases decoded
    rfl
  · rw [written, if_neg zero]
    simp only [WrittenInstruction.expand, Expansion.encode?_operands, Expansion.settle]

end Instruction

/-- Wherever one of the words is executed, the other does the same. -/
def Word.ExecutesAs (word other : Word) : Prop :=
  ∀ [Generator] {κ : Type} [Console κ] (machine : Machine) (delayed : Bool) (console : κ) (surroundings : Surroundings),
    Step.ofWord machine word delayed console surroundings = Step.ofWord machine other delayed console surroundings

open Instruction in
theorem executesAs_canonical {word : Word} {instruction : Instruction} (decoded : decode? word = some instruction) :
    instruction.canonical.word.ExecutesAs word := by
  intro _ κ _ machine delayed console surroundings
  unfold Step.ofWord
  simp only [decoded, decode?_of_isCanonical instruction.isCanonical_canonical, effect_canonical]

open Instruction in
/--
The text that a word is shown as can be read, and becomes one machine operation even where nothing else may be
written. Its word has the operation of the first one, and does the same.
-/
theorem executes_of_disassembly {word : Word} {instruction : Instruction} (decoded : decode? word = some instruction)
    (pc : Address) (number : Nat) :
    ∃ written span other,
      parseLine (instruction.disassembly pc) number =
        .ok (some ⟨number, [], some (.instruction written), span⟩) ∧
      (∀ delayed resolve?, written.expand ⟨pc, false, delayed, resolve?⟩ = .ok [other]) ∧
      decode? other.word = some other ∧ other.operation = instruction.operation ∧ other.word.ExecutesAs word := by
  obtain ⟨span, parsed⟩ := parseLine_disassembly instruction pc number
  have expanded (delayed resolve?) := expand_written_of_decode decoded ⟨pc, false, delayed, resolve?⟩
  exact ⟨instruction.written pc, span, instruction.canonical, parsed, expanded,
    decode?_of_isCanonical instruction.isCanonical_canonical, operation_canonical instruction,
    executesAs_canonical decoded⟩

open Instruction in
/-- A multiplication is shown without its fields for a destination and a shift amount, which are set here. -/
theorem executes_of_unread_fields :
    decode? 0x0109FFD8 = some ⟨.mult, 0x0109FFD8⟩ ∧
      Instruction.disassembly ⟨.mult, 0x0109FFD8⟩ 0x00400000 = "mult $t0, $t1" ∧
      ∃ written span other,
        parseLine (Instruction.disassembly ⟨.mult, 0x0109FFD8⟩ 0x00400000) 1 =
          .ok (some ⟨1, [], some (.instruction written), span⟩) ∧
        (∀ delayed resolve?, written.expand ⟨0x00400000, false, delayed, resolve?⟩ = .ok [other]) ∧
        decode? other.word = some other ∧ other.operation = .mult ∧ other.word.ExecutesAs 0x0109FFD8 :=
  have decoded : decode? 0x0109FFD8 = some ⟨.mult, 0x0109FFD8⟩ := by decide +kernel
  ⟨decoded, by decide +kernel, executes_of_disassembly decoded 0x00400000 1⟩

end Mips
