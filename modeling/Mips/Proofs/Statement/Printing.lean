import Mips.Proofs.Instruction.Disassembly
import Mips.Proofs.Statement.Spans
import Mips.Statement.Printer

/-!
Instructions are read again from their text. Commas keep the operands apart, and the sign of an addend ends the name before
it, so the parts of the text are what they were as long as names are identifiers and numbers fit words.
Main statements: `showsOperand_text`, `parseLine_written` and `parseLine_text`.
-/

namespace Mips

open Token (Reads EndsWord endsWord_cons)

section Addend

variable {addend : Int}

/-- The tokens of a number after a label. -/
def addendTokens (addend : Int) : List Token :=
  if addend = 0 then [] else if addend < 0 then [.integer addend] else [.plus, .integer addend]

theorem isPlain_addendTokens (addend : Int) : ∀ token ∈ addendTokens addend, token.isPlain = true := by
  unfold addendTokens
  split
  · simp
  · split <;> simp [Token.isPlain]

/-- The text of a negative number begins with a sign. -/
theorem head?_decimal (negative : addend < 0) : (Text.decimal addend).toList.head? = some '-' := by
  rw [Text.decimal, String.toList_ofList, Text.signedDigits, if_pos negative]
  rfl

/-- A name ends where an addend begins, as that is a sign. -/
theorem endsWord_addend (addend : Int) {rest : List Char} (ends : EndsWord rest) :
    EndsWord ((addendText addend).toList ++ rest) := by
  unfold addendText
  split
  next => exact ends
  next =>
    split
    next negative =>
      intro c first
      rw [List.head?_append, head?_decimal negative] at first
      cases first
      decide +kernel
    next =>
      rw [String.toList_append]
      exact endsWord_cons (by decide +kernel)

theorem reads_addend (holds : Word.holds addend = true) : Reads (addendText addend).toList (addendTokens addend) := by
  have number := Token.reads_decimal holds
  unfold addendText addendTokens
  split
  next => exact Token.reads_nil
  next =>
    split
    next => exact number
    next =>
      rw [String.toList_append]
      exact number.plus

/-- What may follow an addend: the end of an operand, or the parenthesis before a base register. -/
def EndsAddend (remaining : Rest) : Prop :=
  ∀ placed, remaining.head? = some placed → placed.1 = .comma ∨ placed.1 = .leftParenthesis

theorem readAddend_append (line : TokenLine) {placed rest : Rest} (same : placed.map Prod.fst = addendTokens addend)
    (ends : EndsAddend rest) : line.readAddend (placed ++ rest) = .ok (addend, rest) := by
  unfold addendTokens at same
  split at same
  next zero =>
    rw [List.map_eq_nil_iff.1 same, List.nil_append, zero]
    cases rest with
    | nil => rfl
    | cons next rest =>
      obtain ⟨token, span⟩ := next
      obtain rfl | rfl : token = .comma ∨ token = .leftParenthesis := ends _ rfl <;> rfl
  next =>
    split at same
    next negative =>
      obtain ⟨⟨_, _⟩, tail, rfl, rfl, none⟩ := List.map_eq_cons_iff.1 same
      rw [List.map_eq_nil_iff.1 none, List.singleton_append, TokenLine.readAddend, if_pos negative]
    next =>
      simp only [List.map_eq_cons_iff, List.map_eq_nil_iff] at same
      obtain ⟨⟨_, _⟩, _, rfl, rfl, ⟨_, _⟩, _, rfl, rfl, rfl⟩ := same
      rfl

end Addend

section Shows

/-- A label with an addend is read as one, where nothing follows that could belong to it. -/
theorem readsOperand_label (target : Label) (addend : Int) :
    ReadsOperand (.identifier target.name :: addendTokens addend) (.label target addend) := by
  intro line placed rest same ends
  obtain ⟨⟨_, span⟩, addends, rfl, rfl, addendSame⟩ := List.map_eq_cons_iff.1 same
  have read := readAddend_append line addendSame fun next first => .inl (ends next first)
  refine ⟨.label ⟨target.name, span.start⟩ addend, ?_, rfl⟩
  rw [List.cons_append, TokenLine.readOperand, read]
  cases rest with
  | nil => rfl
  | cons next rest =>
    obtain ⟨token, place⟩ := next
    obtain rfl : token = .comma := ends _ rfl
    rfl

/-- A label with an addend and a base register behind it. -/
theorem readsOperand_labelled (target : Label) (offset : Int) (base : Register) :
    ReadsOperand (.identifier target.name :: (addendTokens offset ++ baseTokens base))
      (.based (some target) offset base) := by
  intro line placed rest same _
  obtain ⟨⟨_, span⟩, behind, rfl, rfl, behindSame⟩ := List.map_eq_cons_iff.1 same
  obtain ⟨addends, based, rfl, addendSame, baseSame⟩ := List.map_eq_append_iff.1 behindSame
  obtain ⟨_, _, _, rfl⟩ := exists_of_baseTokens baseSame
  refine ⟨.based (some ⟨target.name, span.start⟩) offset base, ?_, rfl⟩
  rw [List.cons_append, List.append_assoc, TokenLine.readOperand,
    readAddend_append line addendSame (by rintro _ ⟨⟩; exact .inr rfl)]
  rfl

theorem readsOperand_base (base : Register) : ReadsOperand (baseTokens base) (.based none 0 base) := by
  intro line placed rest same _
  obtain ⟨_, _, _, rfl⟩ := exists_of_baseTokens same
  exact ⟨_, rfl, rfl⟩

/-- The immediate, the offset or the addend of an operand. -/
def Operand.number? : Operand → Option Int
  | .register _ => none
  | .immediate value => some value
  | .label _ addend => some addend
  | .based _ offset _ => some offset

/-- What is needed for the text of an operand to be read: a number that fits a word, and a name that is an identifier. -/
structure Operand.Printable (operand : Operand) : Prop where
  fits : ∀ number, operand.number? = some number → Word.holds number = true
  named : ∀ label, operand.reference? = some label → Token.isIdentifier label.name = true

/-- The text of an operand is read as the operand. -/
theorem showsOperand_text {operand : Operand} (printable : operand.Printable) : ShowsOperand operand.text operand := by
  obtain ⟨fits, named⟩ := printable
  cases operand with
  | register value => exact showsOperand_register value
  | immediate value => exact showsOperand_decimal (fits value rfl)
  | label target addend =>
    have name := Token.reads_of_isIdentifier (named target rfl)
    refine ⟨_, ?_, List.forall_mem_cons.2 ⟨rfl, isPlain_addendTokens addend⟩, readsOperand_label target addend⟩
    rw [Operand.text, String.toList_append]
    exact name.append (reads_addend (fits addend rfl)) fun rest ends => endsWord_addend addend ends
  | based target offset base =>
    have holds := fits offset rfl
    cases target with
    | some target =>
      have name := Token.reads_of_isIdentifier (named target rfl)
      have behind := (reads_addend holds).append (reads_base base) fun rest _ => endsWord_cons (by decide +kernel)
      have reads := name.append behind fun rest _ => by
        rw [List.append_assoc]
        exact endsWord_addend offset (endsWord_cons (by decide +kernel))
      have plain := List.forall_mem_append.2 ⟨isPlain_addendTokens offset, isPlain_baseTokens base⟩
      refine ⟨_, ?_, List.forall_mem_cons.2 ⟨rfl, plain⟩, readsOperand_labelled target offset base⟩
      simpa [Operand.text] using reads
    | none =>
      -- An offset of zero is left out, so that nothing stands before the parenthesis.
      by_cases zero : offset = 0
      · refine ⟨_, ?_, isPlain_baseTokens base, zero ▸ readsOperand_base base⟩
        simpa [Operand.text, zero] using reads_base base
      · simpa [Operand.text, zero] using showsOperand_based holds base

end Shows

/-- An instruction is read again from its text, but its labels may stand elsewhere, if its operands are printable. -/
theorem parseLine_written {written : WrittenInstruction} (printable : ∀ operand ∈ written.operands, operand.Printable)
    (number : Nat) :
    ∃ operands span, parseLine written.text number =
        .ok (some ⟨number, [], some (.instruction ⟨written.mnemonic, operands⟩), span⟩) ∧
      operands.map Operand.unplaced = written.operands.map Operand.unplaced := by
  apply parseLine_line
  rw [List.forall₂_map_left_iff, List.forall₂_same]
  exact fun operand member => showsOperand_text (printable operand member)

section Named

variable {line : TokenLine} {remaining : Rest}

theorem suffix_readInteger (expected : String) :
    Yields (fun found => found.2 <:+ remaining) (line.readInteger expected remaining) := by
  unfold TokenLine.readInteger
  split
  · exact List.suffix_cons _ _
  · trivial

theorem suffix_readBase : Yields (fun found => found.2 <:+ remaining) (line.readBase remaining) := by
  unfold TokenLine.readBase TokenLine.readRegister
  split
  next register span rest =>
    rw [yields_bind, yields_ok]
    dsimp only
    split
    · exact (List.suffix_cons _ _).trans (List.suffix_cons _ _)
    · trivial
  next => trivial

theorem suffix_readAddend : Yields (fun found => found.2 <:+ remaining) (line.readAddend remaining) := by
  unfold TokenLine.readAddend
  split
  case h_1 | h_2 =>
    rw [yields_bind]
    exact (suffix_readInteger "integer").mono fun found suffix => suffix.trans (List.suffix_cons _ _)
  case h_3 =>
    split
    · exact List.suffix_cons _ _
    · exact List.suffix_rfl
  case h_4 => exact List.suffix_rfl

/-- What is left behind an operand is the end of what there was, and the label of the operand is among its tokens. -/
theorem mentioned_of_readOperand :
    Yields (fun found => found.2 <:+ remaining ∧
        ∀ label, found.1.reference? = some label → ∃ span, (.identifier label.name, span) ∈ remaining)
      (line.readOperand remaining) := by
  unfold TokenLine.readOperand
  split
  case h_1 => exact ⟨List.suffix_cons _ _, nofun⟩
  case h_2 =>
    rw [yields_bind]
    refine suffix_readBase.mono fun found suffix => ⟨?_, nofun⟩
    exact suffix.trans ((List.suffix_cons _ _).trans (List.suffix_cons _ _))
  case h_3 => exact ⟨List.suffix_cons _ _, nofun⟩
  case h_4 =>
    rw [yields_bind]
    exact (suffix_readInteger "integer").mono fun found suffix => ⟨suffix.trans (List.suffix_cons _ _), nofun⟩
  case h_5 =>
    rw [yields_bind]
    exact suffix_readBase.mono fun found suffix => ⟨suffix.trans (List.suffix_cons _ _), nofun⟩
  case h_6 name span rest =>
    have first (label : Label) (same : (Label.mk name span.start) = label) :
        ∃ place, (Token.identifier label.name, place) ∈ (Token.identifier name, span) :: rest :=
      ⟨span, same ▸ List.mem_cons_self⟩
    dsimp only
    rw [yields_bind]
    refine suffix_readAddend.mono fun found suffix => ?_
    split
    next place behind follows =>
      rw [yields_bind]
      refine suffix_readBase.mono fun based later => ⟨?_, fun label same => first label (Option.some.inj same)⟩
      rw [follows] at suffix
      exact later.trans ((List.suffix_cons _ _).trans (suffix.trans (List.suffix_cons _ _)))
    next => exact ⟨suffix.trans (List.suffix_cons _ _), fun label same => first label (Option.some.inj same)⟩
  case h_7 => trivial

theorem mentioned_of_readOperands :
    Yields (fun operands => ∀ operand ∈ operands, ∀ label, operand.reference? = some label →
        ∃ span, (.identifier label.name, span) ∈ remaining)
      (line.readOperands remaining) := by
  fun_induction line.readOperands remaining with
  | case1 remaining empty => simp
  | case2 remaining visible error read => trivial
  | case3 remaining visible operand rest read ih =>
    have first := @mentioned_of_readOperand line remaining
    rw [read, yields_ok] at first
    obtain ⟨suffix, mentioned⟩ := first
    have behind : TokenLine.afterComma rest <:+ remaining := by
      refine List.IsSuffix.trans ?_ suffix
      unfold TokenLine.afterComma
      split
      · exact List.suffix_cons _ _
      · exact List.suffix_rfl
    rw [yields_map]
    refine ih.mono fun operands later => List.forall_mem_cons.2 ⟨mentioned, fun operand member label same => ?_⟩
    obtain ⟨span, among⟩ := later operand member label same
    exact ⟨span, behind.mem among⟩

/-- Without definitions the tokens of a line are those that are written there. -/
theorem mem_items_of_mem_tokens {defining : Bool} {items : List Token.Item} {placed : PlacedToken}
    (member : placed ∈ (Definitions.tokens [] defining items).1) : ∃ item ∈ items, item.meaning = .ok placed.1 := by
  induction items generalizing defining with
  | nil => cases member
  | cons item rest ih =>
    have later {defining : Bool} (member : placed ∈ (Definitions.tokens [] defining rest).1) :
        ∃ other ∈ item :: rest, other.meaning = .ok placed.1 := by
      obtain ⟨other, among, means⟩ := ih member
      exact ⟨other, List.mem_cons_of_mem _ among, means⟩
    unfold Definitions.tokens at member
    split at member
    next => cases member
    next token means =>
      split at member
      next => exact later member
      next =>
        rcases List.mem_append.1 member with first | behind
        · rw [Definitions.expand_nil, List.map_singleton, List.mem_singleton] at first
          exact ⟨item, List.mem_cons_self, by rw [first, means]⟩
        · exact later behind

/-- If the statement is an instruction, the labels in its operands have names that are identifiers. -/
def Statement.Named (statement : Statement) : Prop :=
  ∀ written, statement.content = some (.instruction written) →
    ∀ operand ∈ written.operands, ∀ label, operand.reference? = some label → Token.isIdentifier label.name = true

theorem named_of_parseLineWith (text : String) (number : Nat) :
    Yields (fun found => ∀ statement, found.1 = some statement → statement.Named) (parseLineWith [] text number) := by
  have identifies {name : String} {span : Span}
      (member : (.identifier name, span) ∈ (Definitions.tokens [] false (Token.items text)).1) :
      Token.isIdentifier name = true := by
    obtain ⟨item, among, means⟩ := mem_items_of_mem_tokens member
    exact Token.isIdentifier_of_mem_items among means
  unfold parseLineWith
  generalize Definitions.tokens [] false (Token.items text) = found at identifies
  obtain ⟨tokens, failure⟩ := found
  unfold parseTokens
  have suffix := suffix_leadingLabels tokens
  dsimp only at identifies ⊢
  generalize leadingLabels tokens = found at suffix ⊢
  obtain ⟨labels, rest⟩ := found
  dsimp only at suffix ⊢
  -- Only an instruction has operands.
  have silent {further : Definitions} {content : Option Content} {span : Span}
      (other : ∀ written, content ≠ some (.instruction written)) (statement : Statement)
      (same : (some ⟨number, labels, content, span⟩, further).1 = some statement) : statement.Named := by
    cases same
    exact fun written same => absurd same (other written)
  split
  next =>
    split
    · rw [yields_bind]
      exact yields_of_forall fun _ => trivial
    · trivial
  next =>
    split
    next =>
      split
      · exact nofun
      · exact silent nofun
    next =>
      rw [yields_bind]
      refine yields_of_forall fun _ => ?_
      split
      · exact nofun
      · exact silent nofun
    next =>
      rw [yields_bind]
      refine yields_of_forall fun _ => ?_
      split
      · trivial
      · exact silent nofun
    next name span rest =>
      rw [yields_bind]
      refine yields_of_forall fun mnemonic => ?_
      rw [yields_bind]
      refine mentioned_of_readOperands.mono fun operands mentioned => ?_
      rintro _ ⟨⟩ written ⟨⟩ operand member label same
      obtain ⟨place, among⟩ := mentioned operand member label same
      exact identifies (suffix.mem (List.mem_cons_of_mem _ among))
    next => trivial

end Named

/--
The text of an instruction that was read is read again as an instruction with the same mnemonic and the same operands, and
without labels at the head of the line, if the immediates, offsets and addends fit words. Where its labels are written may
differ.
-/
theorem parseLine_text {text : String} {number : Nat} {statement : Statement} {written : WrittenInstruction}
    (read : parseLine text number = .ok (some statement)) (instruction : statement.content = some (.instruction written))
    (fits : ∀ operand ∈ written.operands, ∀ value, operand.number? = some value → Word.holds value = true)
    (line : Nat) :
    ∃ operands span, parseLine written.text line =
        .ok (some ⟨line, [], some (.instruction ⟨written.mnemonic, operands⟩), span⟩) ∧
      operands.map Operand.unplaced = written.operands.map Operand.unplaced := by
  have named : statement.Named := by
    have yields := named_of_parseLineWith text number
    unfold parseLine at read
    split at read
    next parsed =>
      cases read
      rw [parsed] at yields
      exact yields statement rfl
    next => cases read
  exact parseLine_written (fun operand member => ⟨fits operand member, named written instruction operand member⟩) line

/-- An instruction behind a label, without a comma, and with gaps between the parts of its last operand. -/
theorem parseLine_text_of_store :
    let text := "loop: SW $8 arr + 0x8 ( $sp )  # spilled"
    ∃ statement written, parseLine text 1 = .ok (some statement) ∧
      statement.content = some (.instruction written) ∧ written.text = "sw $t0, arr+8($sp)" ∧
      ∃ operands span, parseLine written.text 1 =
          .ok (some ⟨1, [], some (.instruction ⟨written.mnemonic, operands⟩), span⟩) ∧
        operands.map Operand.unplaced = written.operands.map Operand.unplaced := by
  intro text
  let written : WrittenInstruction :=
    ⟨.machine .sw, [.register ⟨8⟩, .based (some ⟨"arr", 12⟩) 8 ⟨29⟩]⟩
  have read : parseLine text 1 = .ok (some ⟨1, [⟨"loop", 0⟩], some (.instruction written), ⟨6, 29⟩⟩) :=
    eq_ok_of_toOption (by decide +kernel)
  refine ⟨_, written, read, rfl, by decide +kernel, parseLine_text read rfl ?_ 1⟩
  decide +kernel

end Mips
