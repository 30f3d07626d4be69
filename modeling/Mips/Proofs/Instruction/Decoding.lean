import Mips.Proofs.Instruction.Canonical

/-!
Instructions are found again in the words that encode them. Only a few bits of a word identify its operation, and
what an instruction holds besides leaves these bits alone. Main statement: `decode?_of_isCanonical`.
-/

namespace Mips

namespace Encoding

/--
The bits that tell apart the operations with this kind of encoding. An operation that two fields beside the opcode
identify has no operands, so that its whole word is known.
-/
def selection (encoding : Encoding) (word : Word) : Word :=
  match encoding with
  | .special _ | .special2 _ => word &&& 0x3F
  | .regImm _ => (word >>> 16) &&& 0x1F
  | .primary _ => 0
  | .cop0 _ => (word >>> 21) &&& 0x1F
  | .cop0Function _ => word

/-- The encoding that a word has depends on its opcode, and then on what such encodings select. -/
theorem ofWord_congr {word other : Word} (opcode : word >>> 26 = other >>> 26)
    (selected : (ofWord other).selection word = (ofWord other).selection other) : ofWord word = ofWord other := by
  unfold ofWord at selected ⊢
  dsimp only at selected ⊢
  rw [opcode]
  by_cases special : (other >>> 26).toUInt8 = 0x00
  · simp only [if_pos special, selection] at selected ⊢
    rw [selected]
  by_cases regImm : (other >>> 26).toUInt8 = 0x01
  · simp only [if_neg special, if_pos regImm, selection] at selected ⊢
    rw [selected]
  by_cases special2 : (other >>> 26).toUInt8 = 0x1C
  · simp only [if_neg special, if_neg regImm, if_pos special2, selection] at selected ⊢
    rw [selected]
  simp only [if_neg special, if_neg regImm, if_neg special2] at selected ⊢
  by_cases cop0 : (other >>> 26).toUInt8 = 0x10
  · simp only [if_pos cop0] at selected ⊢
    by_cases function : ((other >>> 21) &&& 0x1F).toUInt8 &&& 0x10 ≠ 0
    · simp only [if_pos function, selection] at selected ⊢
      rw [selected, if_pos function]
    · simp only [if_neg function, selection] at selected ⊢
      rw [selected, if_neg function]
  · simp only [if_neg cop0]

theorem ofWord_base (operation : Operation) : ofWord operation.encoding.base = operation.encoding := by
  have table : ∀ operation ∈ Operation.all, ofWord operation.encoding.base = operation.encoding := by
    decide +kernel
  exact table operation operation.mem_all

/-- The operands of an operation with this encoding leave the bits alone that identify it. -/
structure Ignores (encoding : Encoding) (operands : Word) : Prop where
  opcode : operands >>> 26 = 0
  selection : ∀ base, encoding.selection (base ||| operands) = encoding.selection base

theorem Ignores.union {encoding : Encoding} {first second : Word} (ignoresFirst : encoding.Ignores first)
    (ignoresSecond : encoding.Ignores second) : encoding.Ignores (first ||| second) where
  opcode := by rw [UInt32.shiftRight_or, ignoresFirst.opcode, ignoresSecond.opcode, UInt32.or_zero]
  selection base := by rw [← UInt32.or_assoc, ignoresSecond.selection, ignoresFirst.selection]

theorem ofWord_of_ignores {operation : Operation} {operands : Word} (ignored : operation.encoding.Ignores operands) :
    ofWord (operation.encoding.base ||| operands) = operation.encoding := by
  have opcode : (operation.encoding.base ||| operands) >>> 26 = operation.encoding.base >>> 26 := by
    rw [UInt32.shiftRight_or, ignored.opcode, UInt32.or_zero]
  have same := ofWord_base operation
  refine (ofWord_congr opcode ?_).trans same
  rw [same]
  exact ignored.selection _

/-- Whether an operation with this encoding has a field of an operand in this place. -/
def Frees (encoding : Encoding) (position : Word) : Prop :=
  match encoding with
  | .special _ | .special2 _ | .primary _ => True
  | .regImm _ => position ≠ 16
  | .cop0 _ => position ≠ 21
  | .cop0Function _ => False

end Encoding

namespace Instruction

open Encoding

/-- A register that was put in its place reaches neither into the function field nor into the opcode. -/
theorem registerField_inside (register : Register) {position : Word} (placed : position ∈ fieldPositions) :
    (registerField register <<< position) &&& 0x3F = 0 ∧ (registerField register <<< position) >>> 26 = 0 := by
  obtain ⟨number⟩ := register
  simp only [fieldPositions, List.mem_cons, List.not_mem_nil, or_false] at placed
  rcases placed with rfl | rfl | rfl | rfl <;> revert number <;> decide +kernel

theorem ignores_zero (encoding : Encoding) : encoding.Ignores 0 := ⟨rfl, fun base => by rw [UInt32.or_zero]⟩

theorem ignores_registerField {encoding : Encoding} {position : Word} (register : Register)
    (placed : position ∈ fieldPositions) (free : encoding.Frees position) :
    encoding.Ignores (registerField register <<< position) := by
  obtain ⟨low, high⟩ := registerField_inside register placed
  refine ⟨high, fun base => ?_⟩
  cases encoding with
  | special n | special2 n => simp only [selection, Word.or_and, low, UInt32.or_zero]
  | primary n => rfl
  | regImm n =>
    have free : position ≠ 16 := free
    have unread := registerField_read register placed (show (16 : Word) ∈ fieldPositions by decide)
    simp only [selection, Word.or_field, unread, if_neg free.symm, UInt32.or_zero]
  | cop0 n =>
    have free : position ≠ 21 := free
    have unread := registerField_read register placed (show (21 : Word) ∈ fieldPositions by decide)
    simp only [selection, Word.or_field, unread, if_neg free.symm, UInt32.or_zero]
  | cop0Function n => exact free.elim

/-- A register that is not given is zero, and so is its field. -/
theorem ignores_registerField_zero {encoding : Encoding} {position : Word} (placed : position ∈ fieldPositions) :
    encoding.Ignores (registerField .zero <<< position) := by
  have zero : registerField .zero <<< position = 0 := by
    simp only [fieldPositions, List.mem_cons, List.not_mem_nil, or_false] at placed
    rcases placed with rfl | rfl | rfl | rfl <;> rfl
  rw [zero]
  exact ignores_zero encoding

section

variable {operation : Operation} {rd rs rt : Register}

/-- Only moves from and to coprocessor 0 are identified by a field in the place of a register, and they show no `rs`. -/
theorem frees_of_showsRegisters {shamt : Word} (shown : operation.format.ShowsRegisters rd rs rt shamt) :
    (∀ position ∈ fieldPositions, operation.encoding.Frees position) ∨
      rs = .zero ∧ ∀ position ∈ fieldPositions, position ≠ 21 → operation.encoding.Frees position := by
  cases operation <;>
    first
    | exact shown.elim
    | exact .inl fun _ _ => trivial
    | exact .inr ⟨shown.1, fun _ _ other => other⟩

theorem ofWord_ofRegisters {shamt : Word} (shown : operation.format.ShowsRegisters rd rs rt shamt) :
    ofWord (ofRegisters operation rd rs rt shamt).word = operation.encoding := by
  have source : operation.encoding.Ignores (registerField rs <<< 21) := by
    rcases frees_of_showsRegisters shown with free | ⟨rfl, -⟩
    · exact ignores_registerField rs (by decide) (free 21 (by decide))
    · exact ignores_registerField_zero (by decide)
  have free : ∀ position ∈ fieldPositions, position ≠ 21 → operation.encoding.Frees position := by
    rcases frees_of_showsRegisters shown with free | ⟨-, free⟩
    · exact fun position placed _ => free position placed
    · exact free
  have second := ignores_registerField rt (show (16 : Word) ∈ fieldPositions by decide) (free 16 (by decide) (by decide))
  have target := ignores_registerField rd (show (11 : Word) ∈ fieldPositions by decide) (free 11 (by decide) (by decide))
  have amount := ignores_registerField (.ofField (shamt &&& 0x1F)) (show (6 : Word) ∈ fieldPositions by decide)
    (free 6 (by decide) (by decide))
  rw [registerField_ofField] at amount
  have all := ofWord_of_ignores (((source.union second).union target).union amount)
  simpa only [ofRegisters, UInt32.or_assoc] using all

/-- Operations with an immediate are identified by their opcode, or by the place of the register that they lack. -/
theorem frees_of_showsImmediate (shown : operation.format.ShowsImmediate rs rt) :
    (∀ position ∈ fieldPositions, operation.encoding.Frees position) ∨
      rt = .zero ∧ ∀ position ∈ fieldPositions, position ≠ 16 → operation.encoding.Frees position := by
  cases operation <;>
    first
    | exact shown.elim
    | exact .inl fun _ _ => trivial
    | exact .inr ⟨shown, fun _ _ other => other⟩

theorem ignores_immediate (shown : operation.format.ShowsImmediate rs rt) (immediate : UInt16) :
    operation.encoding.Ignores immediate.toUInt32 := by
  have small := immediate.toNat_lt
  refine ⟨?_, fun base => ?_⟩
  · rw [← UInt32.toNat_inj, UInt32.toNat_shiftRight, Nat.shiftRight_eq_div_pow, UInt16.toNat_toUInt32]
    simp
    omega
  · have high : immediate.toUInt32 >>> 16 = 0 := shiftRight_immediate immediate (.inl rfl)
    cases operation <;>
      first
      | exact shown.elim
      | rfl
      | simp [selection, Word.or_field, high, Operation.encoding, Operation.description]

theorem ofWord_ofImmediate {immediate : UInt16} (shown : operation.format.ShowsImmediate rs rt) :
    ofWord (ofImmediate operation rs rt immediate).word = operation.encoding := by
  have second : operation.encoding.Ignores (registerField rt <<< 16) := by
    rcases frees_of_showsImmediate shown with free | ⟨rfl, -⟩
    · exact ignores_registerField rt (by decide) (free 16 (by decide))
    · exact ignores_registerField_zero (by decide)
  have free : operation.encoding.Frees 21 := by
    rcases frees_of_showsImmediate shown with free | ⟨-, free⟩
    · exact free 21 (by decide)
    · exact free 21 (by decide) (by decide)
  have source := ignores_registerField rs (show (21 : Word) ∈ fieldPositions by decide) free
  have all := ofWord_of_ignores ((source.union second).union (ignores_immediate shown immediate))
  simpa only [ofImmediate, UInt32.or_assoc] using all

theorem ofWord_ofTarget {target : Word} (jumps : operation.format = .jump) :
    ofWord (ofTarget operation target).word = operation.encoding := by
  have small : (target &&& 0x03FFFFFF).toNat = target.toNat % 0x4000000 := Word.toNat_and_mask target 26 0x03FFFFFF rfl
  have high : (target &&& 0x03FFFFFF) >>> 26 = 0 := by
    rw [← UInt32.toNat_inj, UInt32.toNat_shiftRight, Nat.shiftRight_eq_div_pow, small]
    simp
  refine ofWord_of_ignores ⟨high, fun base => ?_⟩
  cases operation <;> first | rfl | cases jumps

theorem ofWord_ofCode {code : Word} (coded : operation.format = .code) :
    ofWord (ofCode operation code).word = operation.encoding := by
  have small : (code &&& 0xFFFFF).toNat = code.toNat % 0x100000 := Word.toNat_and_mask code 20 0xFFFFF rfl
  have high : ((code &&& 0xFFFFF) <<< 6) >>> 26 = 0 := by
    rw [← UInt32.toNat_inj, UInt32.toNat_shiftRight, Nat.shiftRight_eq_div_pow, UInt32.toNat_shiftLeft, small]
    simp [Nat.shiftLeft_eq]
    omega
  have low : ((code &&& 0xFFFFF) <<< 6) &&& 0x3F = 0 := by
    have masked : (((code &&& 0xFFFFF) <<< 6) &&& 0x3F).toNat = _ % 0x40 :=
      Word.toNat_and_mask ((code &&& 0xFFFFF) <<< 6) 6 0x3F rfl
    rw [← UInt32.toNat_inj, masked, UInt32.toNat_shiftLeft, small]
    simp [Nat.shiftLeft_eq]
  have free (base : Word) : (base ||| ((code &&& 0xFFFFF) <<< 6)) &&& 0x3F = base &&& 0x3F := by
    rw [Word.or_and, low, UInt32.or_zero]
  refine ofWord_of_ignores ⟨high, ?_⟩
  cases operation <;> first | exact free | cases coded

end

/-- An instruction that its text shows completely is decoded from its word. -/
theorem decode?_of_isCanonical {instruction : Instruction} (canonical : instruction.IsCanonical) :
    decode? instruction.word = some instruction := by
  refine decode?_eq_some_iff.2 ⟨rfl, ?_⟩
  have same := canonical
  unfold IsCanonical Instruction.canonical at same
  rw [← congrArg word same]
  dsimp only
  cases layout : instruction.operation.format <;> dsimp only <;> symm
  case threeRegisters | shiftRegister => exact ofWord_ofRegisters (by rw [layout]; rfl)
  case shiftAmount => exact ofWord_ofRegisters (by rw [layout]; rfl)
  case source => exact ofWord_ofRegisters (by rw [layout]; exact ⟨rfl, rfl, rfl⟩)
  case destination => exact ofWord_ofRegisters (by rw [layout]; exact ⟨rfl, rfl, rfl⟩)
  case linkRegister | twoSources | destinationSource | cop0Move =>
    exact ofWord_ofRegisters (by rw [layout]; exact ⟨rfl, rfl⟩)
  case bare =>
    have alone : (ofCode instruction.operation 0).word = instruction.operation.encoding.base := UInt32.or_zero
    rw [alone]
    exact ofWord_base _
  case code => exact ofWord_ofCode layout
  case signedImmediate | unsignedImmediate | branchTwo | memory =>
    exact ofWord_ofImmediate (by rw [layout]; trivial)
  case upperImmediate | branchOne | trapImmediate => exact ofWord_ofImmediate (by rw [layout]; rfl)
  case jump => exact ofWord_ofTarget layout

end Instruction

end Mips
