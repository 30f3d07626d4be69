import Mips.Proofs.Expansion.Direct
import Mips.Proofs.Expansion.References
import Mips.Proofs.Statement.Reading
import Mips.Proofs.Token.Literal

/-!
The assembly text of an instruction can be read, and says what the instruction shows.
Main statement: `parseLine_disassembly`.
-/

namespace Mips

open Text

theorem showsOperand_register (register : Register) : ShowsOperand register.text (.register register) :=
  ⟨_, Token.reads_register register, by simp [Token.isPlain], readsOperand_register register⟩

theorem showsOperand_number (register : Register) :
    ShowsOperand ("$" ++ natural register.number) (.register register) :=
  ⟨_, Token.reads_number register, by simp [Token.isPlain], readsOperand_register register⟩

theorem showsOperand_decimal {value : Int} (holds : Word.holds value = true) :
    ShowsOperand (decimal value) (.immediate value) :=
  ⟨_, Token.reads_decimal holds, by simp [Token.isPlain], readsOperand_immediate value⟩

theorem showsOperand_natural {value : Nat} (small : value < 0x100000000) :
    ShowsOperand (natural value) (.immediate value) :=
  ⟨_, Token.reads_natural small, by simp [Token.isPlain], readsOperand_immediate value⟩

theorem showsOperand_hex (word : Word) : ShowsOperand (hex word) (.immediate word.toNat) :=
  ⟨_, Token.reads_hex word, by simp [Token.isPlain], readsOperand_immediate word.toNat⟩

/-- A base register in parentheses. -/
theorem reads_base (base : Register) :
    Token.Reads ('(' :: (base.text.toList ++ [')'])) (baseTokens base) := by
  refine Token.Reads.leftParenthesis ?_
  exact (Token.reads_register base).append Token.reads_nil.rightParenthesis fun rest _ =>
    Token.endsWord_cons (by decide +kernel)

/-- An offset and a base register in parentheses are read as an operand of memory. -/
theorem showsOperand_based {offset : Int} (holds : Word.holds offset = true) (base : Register) :
    ShowsOperand (decimal offset ++ "(" ++ base.text ++ ")") (.based none offset base) := by
  have reads := (Token.reads_decimal holds).append (reads_base base) fun rest _ =>
    Token.endsWord_cons (by decide +kernel)
  refine ⟨_, ?_, List.forall_mem_cons.2 ⟨rfl, isPlain_baseTokens base⟩, readsOperand_based offset base⟩
  simpa using reads

/-- An operand without a label is the same wherever it is written. -/
theorem Operand.eq_of_unplaced {found operand : Operand} (same : found.unplaced = operand.unplaced)
    (unlabelled : operand.reference? = none) : found = operand := by
  cases operand with
  | label => cases unlabelled
  | register | immediate =>
    cases found <;> cases same
    rfl
  | based target offset base =>
    obtain rfl : target = none := unlabelled
    cases found with
    | register | immediate | label => cases same
    | based other =>
      cases other <;> cases same
      rfl

theorem Operand.eq_of_map_unplaced {found operands : List Operand}
    (same : found.map unplaced = operands.map unplaced) (unlabelled : ∀ operand ∈ operands, operand.reference? = none) :
    found = operands := by
  induction operands generalizing found with
  | nil => exact List.map_eq_nil_iff.1 same
  | cons operand rest ih =>
    obtain ⟨first, later, rfl, head, tail⟩ := List.map_eq_cons_iff.1 same
    obtain ⟨plain, others⟩ := List.forall_mem_cons.1 unlabelled
    rw [eq_of_unplaced head plain, ih tail others]

namespace Instruction

theorem holds_signedImmediate (instruction : Instruction) : Word.holds instruction.signedImmediate = true := by
  have bounds := Word.bmod_half_bounds instruction.word.toNat
  simp only [Word.holds, signedImmediate_eq, Bool.and_eq_true, decide_eq_true_eq]
  omega

/-- Each operand of the text is read as what it shows. -/
theorem showsOperand_operands (instruction : Instruction) (pc : Address) :
    List.Forall₂ ShowsOperand (instruction.operandTexts pc) (instruction.operands pc) := by
  have rd := showsOperand_register instruction.rd
  have rs := showsOperand_register instruction.rs
  have rt := showsOperand_register instruction.rt
  have signed := showsOperand_decimal instruction.holds_signedImmediate
  have unsigned : ShowsOperand (natural instruction.immediate.toNat) (.immediate instruction.immediate.toNat) :=
    showsOperand_natural instruction.immediate.toNat_lt
  unfold operandTexts operands
  cases instruction.operation.format
  case shiftAmount => exact .cons rd (.cons rt (.cons (showsOperand_natural instruction.shamt.toNat_lt) .nil))
  case code =>
    by_cases zero : instruction.code = 0
    · simp only [if_pos zero]
      exact .nil
    · simp only [if_neg zero]
      exact .cons (showsOperand_natural instruction.code.toNat_lt) .nil
  case jump => exact .cons (showsOperand_hex _) .nil
  case memory => exact .cons rt (.cons (showsOperand_based instruction.holds_signedImmediate instruction.rs) .nil)
  case cop0Move => exact .cons rt (.cons (showsOperand_number instruction.rd) .nil)
  all_goals simp only [List.forall₂_cons, List.Forall₂.nil, rd, rs, rt, signed, unsigned, and_self]

/-- An instruction of the machine shows no labels. -/
theorem unlabelled_operands (instruction : Instruction) (pc : Address) :
    ∀ operand ∈ instruction.operands pc, operand.reference? = none := by
  unfold operands
  cases instruction.operation.format
  case code => by_cases zero : instruction.code = 0 <;> simp [zero, Operand.reference?]
  all_goals simp [Operand.reference?]

/-- The text of an instruction is a line that says what the instruction shows. -/
theorem parseLine_disassembly (instruction : Instruction) (pc : Address) (number : Nat) :
    ∃ span, parseLine (instruction.disassembly pc) number =
      .ok (some ⟨number, [], some (.instruction (instruction.written pc)), span⟩) := by
  unfold disassembly written
  by_cases zero : instruction.word = 0
  · rw [if_pos zero, if_pos zero]
    obtain ⟨found, span, read, alike⟩ := parseLine_line .nop .nil number
    rw [List.map_nil, List.map_eq_nil_iff] at alike
    exact ⟨span, alike ▸ read⟩
  · rw [if_neg zero, if_neg zero]
    obtain ⟨found, span, read, alike⟩ :=
      parseLine_line (.machine instruction.operation) (instruction.showsOperand_operands pc) number
    have same : found = instruction.operands pc :=
      Operand.eq_of_map_unplaced alike (instruction.unlabelled_operands pc)
    exact ⟨span, same ▸ read⟩

end Instruction

end Mips
