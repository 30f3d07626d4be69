import Mips.Instruction.Disassembly
import Mips.Proofs.Token.Reading
import Mips.Statement.Parser
import Mathlib.Data.List.Forall2

/-!
How a line is read that consists of a mnemonic and operands with commas between them.
Main statement: `parseLine_line`.
-/

namespace Mips

open Token (Reads EndsWord)

/-- The tokens of a line that is an instruction with its operands. -/
def Token.isPlain : Token → Bool
  | .integer _ | .register _ | .identifier _ | .comma | .leftParenthesis | .rightParenthesis | .plus => true
  | _ => false

theorem Definitions.expand_nil (defining : Bool) (token : Token) : Definitions.expand [] defining token = [token] := by
  unfold expand
  split <;> simp

/-- Without definitions and comments, a line has the tokens that are written there. -/
theorem Definitions.tokens_of_plain {items : List Token.Item} {tokens : List Token}
    (means : items.map Token.Item.meaning = tokens.map .ok) (plain : ∀ token ∈ tokens, token.isPlain = true) :
    ∃ placed, Definitions.tokens [] false items = (placed, none) ∧ placed.map Prod.fst = tokens := by
  induction items generalizing tokens with
  | nil =>
    cases tokens with
    | nil => exact ⟨[], rfl, rfl⟩
    | cons token rest => cases means
  | cons item items ih =>
    cases tokens with
    | nil => cases means
    | cons token rest =>
      simp only [List.map_cons, List.cons.injEq] at means
      obtain ⟨placed, read, same⟩ := ih means.2 fun other member => plain other (List.mem_cons_of_mem _ member)
      have first := plain token List.mem_cons_self
      have visible : ¬(decide (token = .comment) || decide (token = .newLine)) = true := by
        cases token <;> simp_all [Token.isPlain]
      have undefining : decide (token = .directive "eqv") = false := by
        cases token <;> simp_all [Token.isPlain]
      refine ⟨(token, item.span) :: placed, ?_, by simp [same]⟩
      simp only [Definitions.tokens, means.1, undefining, read, expand_nil]
      rw [if_neg visible]
      rfl

theorem leadingLabels_of_plain {placed : Rest} (plain : ∀ token ∈ placed.map Prod.fst, token.isPlain = true) :
    leadingLabels placed = ([], placed) := by
  unfold leadingLabels
  split
  · next => simp [Token.isPlain] at plain
  · rfl

/-- The operand with its label at the head of the line. Operands that agree in this have labels of the same names. -/
def Operand.unplaced : Operand → Operand
  | .label target addend => .label { target with start := 0 } addend
  | .based target offset base => .based (target.map ({ · with start := 0 })) offset base
  | operand => operand

/-- What may follow an operand: the end of the line, or a comma. -/
def EndsOperand (remaining : Rest) : Prop := ∀ placed, remaining.head? = some placed → placed.1 = .comma

/-- Wherever the end of an operand follows, the tokens are read as the operand, with its label where they stand. -/
def ReadsOperand (tokens : List Token) (operand : Operand) : Prop :=
  ∀ (line : TokenLine) (placed rest : Rest), placed.map Prod.fst = tokens → EndsOperand rest →
    ∃ found, line.readOperand (placed ++ rest) = .ok (found, rest) ∧ found.unplaced = operand.unplaced

theorem readsOperand_register (register : Register) : ReadsOperand [.register register] (.register register) := by
  intro line placed rest same _
  obtain ⟨⟨token, span⟩, tail, rfl, rfl, none⟩ := List.map_eq_cons_iff.1 same
  rw [List.map_eq_nil_iff.1 none]
  exact ⟨_, rfl, rfl⟩

theorem readsOperand_immediate (value : Int) : ReadsOperand [.integer value] (.immediate value) := by
  intro line placed rest same ends
  obtain ⟨⟨token, span⟩, tail, rfl, rfl, none⟩ := List.map_eq_cons_iff.1 same
  rw [List.map_eq_nil_iff.1 none]
  cases rest with
  | nil => exact ⟨_, rfl, rfl⟩
  | cons next rest =>
    obtain ⟨token, place⟩ := next
    obtain rfl : token = .comma := ends _ rfl
    exact ⟨_, rfl, rfl⟩

/-- The tokens of a base register in parentheses. -/
def baseTokens (base : Register) : List Token := [.leftParenthesis, .register base, .rightParenthesis]

theorem isPlain_baseTokens (base : Register) : ∀ token ∈ baseTokens base, token.isPlain = true := by
  simp [baseTokens, Token.isPlain]

theorem exists_of_baseTokens {placed : Rest} {base : Register} (same : placed.map Prod.fst = baseTokens base) :
    ∃ first second third,
      placed = [(.leftParenthesis, first), (.register base, second), (.rightParenthesis, third)] := by
  simp only [baseTokens, List.map_eq_cons_iff, List.map_eq_nil_iff] at same
  obtain ⟨⟨_, _⟩, _, rfl, rfl, ⟨_, _⟩, _, rfl, rfl, ⟨_, _⟩, _, rfl, rfl, rfl⟩ := same
  exact ⟨_, _, _, rfl⟩

theorem readsOperand_based (offset : Int) (base : Register) :
    ReadsOperand (.integer offset :: baseTokens base) (.based none offset base) := by
  intro line placed rest same _
  obtain ⟨⟨_, _⟩, behind, rfl, rfl, based⟩ := List.map_eq_cons_iff.1 same
  obtain ⟨_, _, _, rfl⟩ := exists_of_baseTokens based
  exact ⟨_, rfl, rfl⟩

/-- The text is read as the operand, with its label somewhere in the line. -/
def ShowsOperand (text : String) (operand : Operand) : Prop :=
  ∃ tokens, Reads text.toList tokens ∧ (∀ token ∈ tokens, token.isPlain = true) ∧ ReadsOperand tokens operand

/-- The tokens of an operand are not nothing. -/
theorem ne_nil_of_readsOperand {tokens : List Token} {operand : Operand} (reads : ReadsOperand tokens operand) :
    tokens ≠ [] := by
  rintro rfl
  obtain ⟨found, read, -⟩ := reads ⟨[], 0⟩ [] [] rfl (by simp [EndsOperand])
  exact absurd (TokenLine.length_readOperand read) (by simp)

/-- After an operand the tokens behind a comma are read. -/
theorem readOperands_append {tokens : List Token} {operand : Operand} (reads : ReadsOperand tokens operand)
    (line : TokenLine) (placed rest : Rest) (same : placed.map Prod.fst = tokens) (ends : EndsOperand rest) :
    ∃ found, line.readOperands (placed ++ rest) = (line.readOperands (TokenLine.afterComma rest)).map (found :: ·) ∧
      found.unplaced = operand.unplaced := by
  have visible : ¬(placed ++ rest).isEmpty = true := by
    have nonempty : placed ≠ [] := by
      rintro rfl
      exact ne_nil_of_readsOperand reads same.symm
    simp [nonempty]
  obtain ⟨found, expected, alike⟩ := reads line placed rest same ends
  refine ⟨found, ?_, alike⟩
  rw [TokenLine.readOperands, if_neg visible]
  split
  next error failed =>
    rw [expected] at failed
    cases failed
  next other remaining read =>
    rw [expected] at read
    cases read
    rfl

/-- Operands with commas between them are read one by one. -/
theorem readOperands_of_shows {texts : List String} {operands : List Operand}
    (shows : List.Forall₂ ShowsOperand texts operands) :
    ∃ tokens, Reads (", ".intercalate texts).toList tokens ∧ (∀ token ∈ tokens, token.isPlain = true) ∧
      ∀ (line : TokenLine) (placed : Rest), placed.map Prod.fst = tokens →
        ∃ found, line.readOperands placed = .ok found ∧
          found.map Operand.unplaced = operands.map Operand.unplaced := by
  -- A comma stands only before a further operand, so the last one is a case of its own.
  induction shows with
  | nil =>
    refine ⟨[], Token.reads_nil, by simp, ?_⟩
    intro line placed same
    rw [List.map_eq_nil_iff.1 same, TokenLine.readOperands]
    exact ⟨[], rfl, rfl⟩
  | @cons text operand texts operands shown later ih =>
    obtain ⟨tokens, reads, plain, readsOperand⟩ := shown
    obtain ⟨further, readsFurther, plainFurther, readsOperands⟩ := ih
    cases later with
    | nil =>
      refine ⟨tokens, by rwa [String.intercalate_singleton], plain, ?_⟩
      intro line placed same
      have finished : line.readOperands (TokenLine.afterComma []) = .ok [] := by
        rw [show TokenLine.afterComma [] = [] from rfl, TokenLine.readOperands]
        rfl
      obtain ⟨found, read, alike⟩ := readOperands_append readsOperand line placed [] same (by simp [EndsOperand])
      rw [List.append_nil, finished] at read
      exact ⟨[found], read, by rw [List.map_singleton, alike, List.map_singleton]⟩
    | @cons nextText nextOperand texts operands _ _ =>
      refine ⟨tokens ++ .comma :: further, ?_, ?_, ?_⟩
      · rw [String.intercalate_cons_cons, String.toList_append, String.toList_append]
        rw [List.append_assoc]
        exact reads.append (Reads.comma (Reads.gap (by decide) readsFurther)) fun rest _ =>
          Token.endsWord_cons (by decide +kernel)
      · intro token member
        rcases List.mem_append.1 member with first | second
        · exact plain token first
        · rcases List.mem_cons.1 second with rfl | last
          · rfl
          · exact plainFurther token last
      · intro line placed same
        obtain ⟨first, second, rfl, firstSame, secondSame⟩ := List.map_eq_append_iff.1 same
        obtain ⟨⟨token, span⟩, rest, rfl, rfl, restSame⟩ := List.map_eq_cons_iff.1 secondSame
        obtain ⟨found, read, alike⟩ :=
          readOperands_append readsOperand line first ((.comma, span) :: rest) firstSame (by simp [EndsOperand])
        obtain ⟨later, readLater, alikeLater⟩ := readsOperands line rest restSame
        rw [TokenLine.afterComma, readLater] at read
        exact ⟨found :: later, read, by rw [List.map_cons, List.map_cons, alike, alikeLater]⟩

/-- The name of a mnemonic is an identifier in lowercase. -/
theorem identifier_name (mnemonic : Mnemonic) :
    Token.isIdentifier mnemonic.name = true ∧ Text.lowercase mnemonic.name = mnemonic.name := by
  cases mnemonic with
  | nop => decide +kernel
  | machine operation =>
    have table : ∀ operation ∈ Operation.all, Token.isIdentifier operation.mnemonic = true ∧
        Text.lowercase operation.mnemonic = operation.mnemonic := by
      decide +kernel
    exact table operation operation.mem_all
  | pseudo instruction => cases instruction <;> decide +kernel

theorem readMnemonic_name (mnemonic : Mnemonic) (span : Span) :
    TokenLine.readMnemonic mnemonic.name span = .ok mnemonic := by
  simp only [TokenLine.readMnemonic, (identifier_name mnemonic).2, Mnemonic.ofName?_name]

/-- The tokens of the line of a mnemonic with operands. -/
theorem reads_line {mnemonic : Mnemonic} {texts : List String} {tokens : List Token}
    (reads : Reads (", ".intercalate texts).toList tokens) :
    Reads (Instruction.line mnemonic.name texts).toList (.identifier mnemonic.name :: tokens) := by
  have name := Token.reads_of_isIdentifier (identifier_name mnemonic).1
  cases texts with
  | nil =>
    have nothing := Token.meanings_of_reads reads
    rw [String.intercalate_nil, String.toList_empty, Token.meanings_nil, eq_comm, List.map_eq_nil_iff] at nothing
    rw [nothing]
    exact name
  | cons first later =>
    rw [Instruction.line, if_neg (by simp), String.toList_append, String.toList_append, List.append_assoc]
    exact name.append (Token.Reads.gap (by decide) reads) fun rest _ => Token.endsWord_cons (by decide +kernel)

/-- The line of a mnemonic with operands is read as the instruction, with its labels somewhere in the line. -/
theorem parseLine_line (mnemonic : Mnemonic) {texts : List String} {operands : List Operand}
    (shows : List.Forall₂ ShowsOperand texts operands) (number : Nat) :
    ∃ found span, parseLine (Instruction.line mnemonic.name texts) number =
        .ok (some ⟨number, [], some (.instruction ⟨mnemonic, found⟩), span⟩) ∧
      found.map Operand.unplaced = operands.map Operand.unplaced := by
  obtain ⟨tokens, reads, plain, readsOperands⟩ := readOperands_of_shows shows
  have allPlain : ∀ token ∈ Token.identifier mnemonic.name :: tokens, token.isPlain = true := by
    intro token member
    rcases List.mem_cons.1 member with rfl | later
    · rfl
    · exact plain token later
  have lineReads : Reads (Instruction.line mnemonic.name texts).toList (.identifier mnemonic.name :: tokens) :=
    reads_line reads
  obtain ⟨placed, read, same⟩ := Definitions.tokens_of_plain (Token.meanings_of_reads lineReads) allPlain
  have unlabelled : leadingLabels placed = ([], placed) := leadingLabels_of_plain (by rwa [same])
  obtain ⟨⟨_, span⟩, rest, rfl, rfl, restSame⟩ := List.map_eq_cons_iff.1 same
  let line : TokenLine :=
    ⟨(.identifier mnemonic.name, span) :: rest, (Instruction.line mnemonic.name texts).utf8ByteSize⟩
  obtain ⟨found, operandsRead, alike⟩ := readsOperands line rest restSame
  refine ⟨found, ?span, ?read, alike⟩
  case read =>
    simp only [parseLine, parseLineWith, Token.items, read, parseTokens, unlabelled, bind, Except.bind, pure, Except.pure,
      readMnemonic_name, operandsRead, line]
    rfl

end Mips
