import Mips.Proofs.Expansion.Canonical
import Mips.Proofs.Expansion.Computation
import Mips.Proofs.Expansion.Direct
import Mips.Proofs.Instruction.Decoding

/-!
What is written into the fields of instructions is read from them again. Whatever is emitted was made of fields that its
format shows, so that it is decoded from its word as it is, and each of these fields is the one that was written. Main
statements: `readFrom_of_fits`, `shows_of_encode?` and `recovers_of_expand`.
-/

namespace Mips

/-- The fields that an instruction is made of. -/
inductive Fields where
  | registers (rd rs rt : Register) (shamt : Word)
  | immediate (rs rt : Register) (half : UInt16)
  | target (index : Word)
  | code (number : Word)

namespace Fields

/-- The instruction that is made of the fields. -/
def instruction (operation : Operation) : Fields → Instruction
  | .registers rd rs rt shamt => .ofRegisters operation rd rs rt shamt
  | .immediate rs rt half => .ofImmediate operation rs rt half
  | .target index => .ofTarget operation index
  | .code number => .ofCode operation number

/-- The fields are those of the format, and no wider than they may be. -/
def Fits (format : Format) : Fields → Prop
  | .registers rd rs rt shamt => format.ShowsRegisters rd rs rt shamt ∧ shamt.toNat < 32
  | .immediate rs rt _ => format.ShowsImmediate rs rt
  | .target index => format = .jump ∧ index.toNat < 0x4000000
  | .code number => format = .code ∧ number.toNat < 0x100000 ∨ format = .bare ∧ number = 0

/--
Each of the fields is read from the instruction as it was written. A register in whose place the operation is found is
no field of the format.
-/
def ReadFrom (instruction : Instruction) : Fields → Prop
  | .registers rd rs rt shamt =>
    instruction.rd = rd ∧ (instruction.operation.format ≠ .cop0Move → instruction.rs = rs) ∧
      instruction.rt = rt ∧ instruction.shamt = shamt
  | .immediate rs rt half =>
    instruction.rs = rs ∧
      (instruction.operation.format ∉ [.branchOne, .trapImmediate] → instruction.rt = rt) ∧
      instruction.half = half ∧ instruction.immediate = half.toUInt32 ∧
      instruction.extended = Word.signExtend 16 half.toUInt32
  | .target index => instruction.target = index
  | .code number => instruction.operation.format = .code → instruction.code = number

/-- Whatever fields an instruction is made of, if they are those of its format, then they are read from it. -/
theorem readFrom_of_fits {operation : Operation} {fields : Fields} (fits : fields.Fits operation.format) :
    fields.ReadFrom (fields.instruction operation) := by
  cases fields with
  | registers rd rs rt shamt =>
    obtain ⟨shown, small⟩ := fits
    have layout : operation.format ≠ .branchOne ∧ operation.format ≠ .trapImmediate ∧
        operation.format ≠ .bare := by
      refine ⟨?_, ?_, ?_⟩ <;> intro layout <;> rw [layout] at shown <;> exact shown
    refine ⟨Instruction.rd_ofRegisters, fun moves => Instruction.rs_ofRegisters moves layout.2.2,
      Instruction.rt_ofRegisters layout.1 layout.2.1, Instruction.shamt_ofRegisters.trans ?_⟩
    exact Word.and_mask_of_lt 5 rfl small
  | immediate rs rt half =>
    have free := Instruction.base_half fits
    have layout : operation.format ≠ .cop0Move ∧ operation.format ≠ .bare := by
      constructor <;> intro layout <;> rw [Fits, layout] at fits <;> exact fits
    refine ⟨Instruction.rs_ofImmediate layout.1 layout.2, fun free => ?_, Instruction.half_ofImmediate free,
      Instruction.immediate_ofImmediate free, Instruction.extended_ofImmediate free⟩
    simp only [List.mem_cons, List.not_mem_nil, or_false, not_or] at free
    exact Instruction.rt_ofImmediate free.1 free.2
  | target index =>
    obtain ⟨jumps, small⟩ := fits
    exact (Instruction.target_ofTarget (Instruction.base_target jumps)).trans (Word.and_mask_of_lt 26 rfl small)
  | code number =>
    intro coded
    rcases fits with ⟨-, small⟩ | ⟨bare, -⟩
    · exact (Instruction.code_ofCode (Instruction.base_code coded)).trans (Word.and_mask_of_lt 20 rfl small)
    · cases bare.symm.trans coded

end Fields

namespace Instruction

/-- The fields of an instruction that its format shows. -/
def fields (instruction : Instruction) : Fields :=
  match instruction.operation.format with
  | .threeRegisters | .shiftRegister => .registers instruction.rd instruction.rs instruction.rt 0
  | .shiftAmount => .registers instruction.rd .zero instruction.rt instruction.shamt
  | .source => .registers .zero instruction.rs .zero 0
  | .linkRegister => .registers instruction.rd instruction.rs .zero 0
  | .destination => .registers instruction.rd .zero .zero 0
  | .twoSources => .registers .zero instruction.rs instruction.rt 0
  | .destinationSource => .registers instruction.rd instruction.rs instruction.rd 0
  | .cop0Move => .registers instruction.rd .zero instruction.rt 0
  | .bare => .code 0
  | .code => .code instruction.code
  | .signedImmediate | .unsignedImmediate | .branchTwo | .memory =>
    .immediate instruction.rs instruction.rt instruction.half
  | .upperImmediate => .immediate .zero instruction.rt instruction.half
  | .branchOne | .trapImmediate => .immediate instruction.rs .zero instruction.half
  | .jump => .target instruction.target

/-- The fields that a format shows are those of the format. -/
theorem fits_fields (instruction : Instruction) : instruction.fields.Fits instruction.operation.format := by
  unfold fields
  cases layout : instruction.operation.format
  case shiftAmount => exact ⟨rfl, instruction.shamt_lt⟩
  case code => exact .inl ⟨rfl, instruction.code_lt⟩
  case bare => exact .inr ⟨rfl, rfl⟩
  case jump => exact ⟨rfl, instruction.target_lt⟩
  all_goals simp [Fields.Fits, Format.ShowsRegisters, Format.ShowsImmediate]

/-- A canonical instruction is made of the fields that its format shows. -/
theorem instruction_fields {instruction : Instruction} (canonical : instruction.IsCanonical) :
    instruction.fields.instruction instruction.operation = instruction := by
  refine Eq.trans ?_ canonical
  dsimp only [fields, Instruction.canonical]
  cases instruction.operation.format <;> rfl

/-- The offset of a branch is read as it was found for the target. -/
def ShowsOffset (instruction : Instruction) (context : ExpansionContext) (operand : Operand) : Prop :=
  ∃ target offset, operand.target? = some target ∧ Expansion.branchOffset context context.pc target = .ok offset ∧
    instruction.extended = Word.signExtend 16 offset.toUInt32

/-- The word index of a jump is read as it was found for the target. -/
def ShowsIndex (instruction : Instruction) (context : ExpansionContext) (operand : Operand) : Prop :=
  ∃ target, operand.target? = some target ∧ Expansion.jumpIndex context target = .ok instruction.target

/-- The operands that were written are read from the fields of the instruction. -/
def Shows (instruction : Instruction) (context : ExpansionContext) (operands : List Operand) : Prop :=
  match instruction.operation.format, operands with
  | .threeRegisters, [.register rd, .register rs, .register rt] =>
    instruction.rd = rd ∧ instruction.rs = rs ∧ instruction.rt = rt
  | .shiftAmount, [.register rd, .register rt, .immediate amount] =>
    instruction.rd = rd ∧ instruction.rt = rt ∧ (instruction.shamt.toNat : Int) = amount
  | .shiftRegister, [.register rd, .register rt, .register rs] =>
    instruction.rd = rd ∧ instruction.rt = rt ∧ instruction.rs = rs
  | .source, [.register rs] => instruction.rs = rs
  | .linkRegister, [.register rs] => instruction.rd = .ra ∧ instruction.rs = rs
  | .linkRegister, [.register rd, .register rs] => instruction.rd = rd ∧ instruction.rs = rs
  | .destination, [.register rd] => instruction.rd = rd
  | .twoSources, [.register rs, .register rt] => instruction.rs = rs ∧ instruction.rt = rt
  | .destinationSource, [.register rd, .register rs] => instruction.rd = rd ∧ instruction.rs = rs
  | .bare, [] => True
  | .code, [] => instruction.code = 0
  | .code, [.immediate code] => (instruction.code.toNat : Int) = code
  | .signedImmediate, [.register rt, .register rs, .immediate value] =>
    instruction.rt = rt ∧ instruction.rs = rs ∧ instruction.signedImmediate = value
  | .unsignedImmediate, [.register rt, .register rs, .immediate value] =>
    instruction.rt = rt ∧ instruction.rs = rs ∧ (instruction.immediate.toNat : Int) = value
  | .upperImmediate, [.register rt, .immediate value] =>
    instruction.rt = rt ∧ (instruction.immediate.toNat : Int) = value
  | .trapImmediate, [.register rs, .immediate value] =>
    instruction.rs = rs ∧ instruction.signedImmediate = value
  | .branchTwo, [.register rs, .register rt, operand] =>
    instruction.rs = rs ∧ instruction.rt = rt ∧ instruction.ShowsOffset context operand
  | .branchOne, [.register rs, operand] => instruction.rs = rs ∧ instruction.ShowsOffset context operand
  | .jump, [operand] => instruction.ShowsIndex context operand
  | .memory, [.register rt, .based none offset base] =>
    instruction.rt = rt ∧ instruction.rs = base ∧ instruction.signedImmediate = offset
  | .cop0Move, [.register rt, .register rd] => instruction.rt = rt ∧ instruction.rd = rd
  | _, _ => False

section Immediate

variable {operation : Operation} {rs rt : Register} {value : Int} {field : UInt16}

/-- A number that fits the immediate with its sign is read from there as it was. -/
theorem signedImmediate_ofImmediate (free : operation.encoding.base.toUInt16 = 0)
    (fits : Expansion.signedHalf value = .ok field) :
    (ofImmediate operation rs rt field).signedImmediate = value := by
  unfold Expansion.signedHalf at fits
  split at fits
  next small =>
    cases fits
    simp only [Expansion.fitsSigned, Bool.and_eq_true, decide_eq_true_eq] at small
    have number := Expansion.toNat_half value
    have reduced : (value % 0x10000).bmod 0x10000 = value.bmod 0x10000 := Int.emod_bmod value 0x10000
    rw [signedImmediate, extended_ofImmediate free, Word.signed_signExtend_half, UInt16.toNat_toUInt32, number,
      reduced, Int.bmod_eq_of_le] <;> omega
  next => cases fits

/-- A number that fits the immediate without a sign is read from there as it was. -/
theorem toNat_immediate_ofImmediate (free : operation.encoding.base.toUInt16 = 0)
    (fits : Expansion.unsignedHalf value = .ok field) :
    ((ofImmediate operation rs rt field).immediate.toNat : Int) = value := by
  unfold Expansion.unsignedHalf at fits
  split at fits
  next small =>
    cases fits
    simp only [Expansion.fitsUnsigned, Bool.and_eq_true, decide_eq_true_eq] at small
    have number := Expansion.toNat_half value
    rw [immediate_ofImmediate free, UInt16.toNat_toUInt32, number]
    omega
  next => cases fits

end Immediate

theorem toNat_of_shiftAmount {value : Int} {amount : Word} (fits : Expansion.shiftAmount value = .ok amount) :
    (amount.toNat : Int) = value ∧ amount.toNat < 32 := by
  unfold Expansion.shiftAmount at fits
  split at fits
  next small =>
    cases fits
    simp only [Bool.and_eq_true, decide_eq_true_eq] at small
    have number := Word.toNat_ofInt value
    omega
  next => cases fits

/-- A number that fits the shift amount is read from there as it was. -/
theorem toNat_shamt_ofRegisters {operation : Operation} {rd rs rt : Register} {value : Int} {amount : Word}
    (fits : Expansion.shiftAmount value = .ok amount) :
    ((ofRegisters operation rd rs rt amount).shamt.toNat : Int) = value := by
  obtain ⟨number, narrow⟩ := toNat_of_shiftAmount fits
  rw [shamt_ofRegisters, Word.and_mask_of_lt 5 rfl narrow]
  exact number

end Instruction

namespace Expansion

open Instruction

/-- The word index that is found for a jump is no wider than its field. -/
theorem narrow_jumpIndex {context : ExpansionContext} {target : Target} {index : Word}
    (found : jumpIndex context target = .ok index) : index &&& 0x03FFFFFF = index := by
  unfold jumpIndex at found
  dsimp only at found
  cases target <;> obtain ⟨address?, -, found⟩ := bind_eq_ok_iff.1 found
  all_goals
    cases address? with
    | none =>
      cases found
      rfl
    | some address =>
      dsimp only at found
      split at found
      · cases found
      · split at found <;> cases found
        rw [UInt32.and_assoc, UInt32.and_self]

/-- A machine operation holds the operands that were written, each in the field from which it is read. -/
theorem shows_of_encode? {context : ExpansionContext} {operation : Operation} {operands : List Operand}
    {instruction : Instruction} (encoded : encode? context operation operands = .ok (some instruction)) :
    instruction.operation = operation ∧ instruction.Shows context operands := by
  have free : operation.format.ShowsImmediate .zero .zero → operation.encoding.base.toUInt16 = 0 := base_half
  unfold encode? at encoded
  split at encoded
  case h_1 layout | h_3 layout | h_4 layout | h_5 layout | h_6 layout | h_7 layout | h_8 layout | h_9 layout |
      h_21 layout =>
    cases encoded
    simp (disch := simp [layout]) [Shows, layout, rs_ofRegisters, rt_ofRegisters]
  case h_2 layout =>
    obtain ⟨amount, fits, made⟩ := map_eq_ok_iff.1 encoded
    cases made
    simp (disch := simp [layout]) [Shows, layout, rt_ofRegisters, toNat_shamt_ofRegisters fits, -shamt_ofRegisters]
  case h_10 layout =>
    cases encoded
    simp [Shows, layout]
  case h_11 layout =>
    cases encoded
    simp [Shows, layout, code_ofCode (base_code layout)]
  case h_12 code layout =>
    split at encoded
    next small =>
      cases encoded
      simp only [Bool.and_eq_true, decide_eq_true_eq] at small
      have number := Word.toNat_ofInt code
      have narrow : (Word.ofInt code).toNat < Nat.pow 2 20 := by
        change _ < 0x100000
        omega
      simp only [Shows, operation_ofCode, layout, code_ofCode (base_code layout), true_and]
      rw [Word.and_mask_of_lt 20 rfl narrow]
      omega
    next => cases encoded
  case h_13 layout | h_16 layout | h_20 layout =>
    obtain ⟨field, fits, made⟩ := map_eq_ok_iff.1 encoded
    cases made
    have read := free (by simp [layout, Format.ShowsImmediate])
    simp (disch := simp [layout]) [Shows, layout, rs_ofImmediate, rt_ofImmediate, signedImmediate_ofImmediate read fits]
  case h_14 layout | h_15 layout =>
    obtain ⟨field, fits, made⟩ := map_eq_ok_iff.1 encoded
    cases made
    have read := free (by simp [layout, Format.ShowsImmediate])
    simp (disch := simp [layout]) [Shows, layout, rs_ofImmediate, rt_ofImmediate, toNat_immediate_ofImmediate read fits]
  case h_17 layout | h_18 layout =>
    split at encoded
    next target aimed =>
      obtain ⟨offset, found, made⟩ := map_eq_ok_iff.1 encoded
      cases made
      have read := free (by simp [layout, Format.ShowsImmediate])
      simp (disch := simp [layout]) [Shows, layout, rs_ofImmediate, rt_ofImmediate]
      exact ⟨target, offset, aimed, found, extended_ofImmediate read⟩
    next => cases encoded
  case h_19 layout =>
    split at encoded
    next target aimed =>
      obtain ⟨index, found, made⟩ := map_eq_ok_iff.1 encoded
      cases made
      simp only [Shows, operation_ofTarget, layout, true_and]
      refine ⟨target, aimed, ?_⟩
      rw [target_ofTarget (base_target layout), narrow_jumpIndex found]
      exact found
    next => cases encoded
  case h_22 => cases encoded

/-- Operands of which one was left out are not those of a machine operation. -/
theorem encode?_of_unabbreviated? {context : ExpansionContext} {operation : Operation} {operands full : List Operand}
    (abbreviated : unabbreviated? operation operands = some full) : encode? context operation operands = .ok none := by
  unfold unabbreviated? at abbreviated
  split at abbreviated
  case h_1 =>
    split at abbreviated
    next allowed =>
      simp only [Bool.and_eq_true, decide_eq_true_eq] at allowed
      simp only [encode?, allowed.1]
    next => cases abbreviated
  case h_2 =>
    split at abbreviated
    next allowed =>
      simp only [Bool.or_eq_true, Bool.and_eq_true, decide_eq_true_eq] at allowed
      rcases allowed with (⟨layout, -⟩ | layout) | layout <;> simp only [encode?, layout]
    next => cases abbreviated
  case h_3 => cases abbreviated

/-- The amounts of a rotation are read from its two shifts. -/
theorem shamt_of_rotate {first second : Operation} {rd rs : Register} {amount : Int} {instructions : List Instruction}
    (rotated : rotate first second rd rs amount = .ok instructions) :
    ∃ out back joined, instructions = [out, back, joined] ∧ (out.shamt.toNat : Int) = (32 - amount) % 32 ∧
      (back.shamt.toNat : Int) = amount := by
  obtain ⟨word, found, rfl⟩ := map_eq_ok_iff.1 rotated
  obtain ⟨number, narrow⟩ := toNat_of_shiftAmount found
  refine ⟨_, _, _, rfl, ?_, toNat_shamt_ofRegisters found⟩
  have difference : (32 - word).toNat = 32 - word.toNat :=
    UInt32.toNat_sub_of_le 32 word (UInt32.le_iff_toNat_le.2 (Nat.le_of_lt narrow))
  have masked : ((32 - word) &&& 0x1F).toNat = (32 - word).toNat % 32 := Word.toNat_and_mask _ 5 0x1F rfl
  rw [shift, shamt_ofRegisters, UInt32.and_assoc, UInt32.and_self, masked, difference]
  omega

end Expansion

/-- The operation reads the operands as they were written, or with the first one repeated. -/
def Operation.Reads (operation : Operation) (written operands : List Operand) : Prop :=
  operands = written ∨ Expansion.unabbreviated? operation written = some operands

open Expansion in
/-- An instruction whose operands fit the machine operation that it names becomes that operation on these operands. -/
theorem expand_eq_of_encode? {context : ExpansionContext} {operation : Operation} {written operands : List Operand}
    {instruction : Instruction} {instructions : List Instruction}
    (expanded : (WrittenInstruction.mk (.machine operation) written).expand context = .ok instructions)
    (read : operation.Reads written operands)
    (encoded : encode? context operation operands = .ok (some instruction)) : instructions = [instruction] := by
  change settle context (.machine operation) (encode? context operation written)
    (machine? context operation written) = _ at expanded
  rcases read with rfl | abbreviated
  · rw [encoded] at expanded
    cases expanded
    rfl
  · have found : machine? context operation written = .ok (some [instruction]) := by
      rw [machine?, abbreviated]
      simp only [encoded, settle, Except.map]
    rw [encode?_of_unabbreviated? abbreviated, found] at expanded
    simp only [settle] at expanded
    split at expanded <;> cases expanded
    rfl

open Expansion in
/-- A rotation by a number becomes two shifts, which show by how much they shift, and a union. -/
theorem shamt_of_expand {context : ExpansionContext} {rotation : Pseudo} {rd rs : Register} {amount : Int}
    {instructions : List Instruction} (rotates : rotation = .rol ∨ rotation = .ror)
    (expanded : (WrittenInstruction.mk (.pseudo rotation) [.register rd, .register rs, .immediate amount]).expand
      context = .ok instructions) :
    ∃ out back joined, instructions = [out, back, joined] ∧ (out.shamt.toNat : Int) = (32 - amount) % 32 ∧
      (back.shamt.toNat : Int) = amount := by
  have settled : settle context (.pseudo rotation) (.ok none)
      (pseudo? context rotation [.register rd, .register rs, .immediate amount]) = .ok instructions := expanded
  rcases ok_of_settle settled with ⟨_, impossible, -⟩ | found
  · cases impossible
  · rcases rotates with rfl | rfl
    all_goals
      obtain ⟨rotated, computed, ⟨⟩⟩ := map_eq_ok_iff.1 found
      exact shamt_of_rotate computed

open Expansion in
/--
Everything that is emitted decodes to itself and is made of fields that its format has room for, and whatever fields
of this kind it was made of are read from it again. Operands that fit a machine operation are read from the instruction
that they become, and the number by which a rotation rotates is read from its shifts.
-/
theorem recovers_of_expand {written : WrittenInstruction} {context : ExpansionContext} {instructions : List Instruction}
    (expanded : written.expand context = .ok instructions) :
    (∀ instruction ∈ instructions,
      Instruction.decode? instruction.word = some instruction ∧
        (∃ fields : Fields, fields.Fits instruction.operation.format ∧
          fields.instruction instruction.operation = instruction) ∧
        ∀ fields : Fields, fields.Fits instruction.operation.format →
          fields.instruction instruction.operation = instruction → fields.ReadFrom instruction) ∧
      (∀ operation operands instruction, written.mnemonic = .machine operation →
        operation.Reads written.operands operands →
        encode? context operation operands = .ok (some instruction) →
        instructions = [instruction] ∧ instruction.operation = operation ∧ instruction.Shows context operands) ∧
      ∀ rotation rd rs amount, rotation = .rol ∨ rotation = .ror →
        written = ⟨.pseudo rotation, [.register rd, .register rs, .immediate amount]⟩ →
        ∃ out back joined, instructions = [out, back, joined] ∧ (out.shamt.toNat : Int) = (32 - amount) % 32 ∧
          (back.shamt.toNat : Int) = amount := by
  refine ⟨?_, ?_, ?_⟩
  · intro instruction emitted
    have canonical := canonical_of_expand expanded instruction emitted
    have made := Instruction.instruction_fields canonical
    refine ⟨Instruction.decode?_of_isCanonical canonical, ⟨instruction.fields, instruction.fits_fields, made⟩, ?_⟩
    intro fields fits same
    have read := Fields.readFrom_of_fits fits
    rwa [same] at read
  · intro operation operands instruction named read encoded
    obtain ⟨mnemonic, writtenOperands⟩ := written
    cases named
    exact ⟨expand_eq_of_encode? expanded read encoded, shows_of_encode? encoded⟩
  · rintro rotation rd rs amount rotates rfl
    exact shamt_of_expand rotates expanded

/-- A branch that is told by the bits in the place of `rt` shows its register and its offset. -/
theorem recovers_branch :
    let written : WrittenInstruction := ⟨.machine .bgez, [.register .a0, .immediate (-3)]⟩
    let context : ExpansionContext := ⟨0x00400000, false, true, none⟩
    let instruction : Instruction := .ofImmediate .bgez .a0 .zero 0xFFFD
    written.expand context = .ok [instruction] ∧ Instruction.decode? instruction.word = some instruction ∧
      instruction.rs = .a0 ∧ instruction.ShowsOffset context (.immediate (-3)) := by
  intro written context instruction
  have expanded : written.expand context = .ok [instruction] := by rfl
  obtain ⟨each, direct, -⟩ := recovers_of_expand expanded
  have decoded := (each instruction (List.mem_singleton.2 rfl)).1
  obtain ⟨-, -, source, offset⟩ := direct .bgez written.operands instruction rfl (.inl rfl) rfl
  exact ⟨expanded, decoded, source, offset⟩

end Mips
