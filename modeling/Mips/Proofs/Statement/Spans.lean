import Mips.Proofs.Expansion.References
import Mips.Proofs.Text.Utf8
import Mips.Proofs.Token.Spans
import Mips.Statement.Parser

/-!
Where the parts of a statement stand in its line. Whatever is read of a line is a slice of it, and so is the part that an
error concerns; only a label that a definition has put in the place of another name is not written there.
Main statement: `ends_parseLineWith`.
-/

namespace Mips

namespace Label

/-- The label is written in the text, where it starts, as it is named. -/
def Spelled (label : Label) (text : List Char) : Prop :=
  ∃ before after, text = before ++ label.name.toList ++ after ∧ label.start = byteLength before

/-- Another name is written where the label starts, and the definitions make it stand for tokens that name the label. -/
def Substituted (label : Label) (definitions : Definitions) (text : List Char) : Prop :=
  ∃ name tokens, (Label.mk name label.start).Spelled text ∧ definitions.lookup name = some tokens ∧
    .identifier label.name ∈ tokens

def Written (definitions : Definitions) (text : List Char) (label : Label) : Prop :=
  label.Spelled text ∨ label.Substituted definitions text

theorem within_of_spelled {label : Label} {text : List Char} (spelled : label.Spelled text) :
    label.span.Within text := by
  obtain ⟨before, after, same, start⟩ := spelled
  refine ⟨before, label.name.toList, after, same, ?_⟩
  rw [span, start, byteLength_append, Text.Utf8.byteLength_toList]

end Label

/-- The token is written in the text, and if it is an identifier, so is the label that it names. -/
def Stands (definitions : Definitions) (text : List Char) (placed : PlacedToken) : Prop :=
  placed.2.Within text ∧
    ∀ name, placed.1 = .identifier name → (Label.mk name placed.2.start).Written definitions text

def Standing (definitions : Definitions) (text : List Char) (remaining : Rest) : Prop :=
  ∀ placed ∈ remaining, Stands definitions text placed

theorem standing_cons {definitions : Definitions} {text : List Char} {placed : PlacedToken} {rest : Rest} :
    Standing definitions text (placed :: rest) ↔ Stands definitions text placed ∧ Standing definitions text rest :=
  List.forall_mem_cons

section Tokens

variable {definitions : Definitions} {text : List Char}

/-- The tokens that a slice of the text stands for stand there. -/
theorem standing_expand {item : Token.Item} {token : Token} {defining : Bool} (cut : item.Cut 0 text)
    (means : item.meaning = .ok token) :
    Standing definitions text ((definitions.expand defining token).map (·, item.span)) := by
  obtain ⟨before, inside, after, same, place, spelled⟩ := cut
  simp only [Nat.zero_add] at place
  have within : item.span.Within text := ⟨before, inside, after, same, place⟩
  have written (name : String) (identifies : token = .identifier name) :
      (Label.mk name item.span.start).Spelled text := by
    rw [identifies] at means
    rw [spelled name means] at same
    exact ⟨before, after, same, by rw [place]⟩
  intro placed member
  obtain ⟨replaced, among, rfl⟩ := List.mem_map.1 member
  refine ⟨within, fun name identifies => ?_⟩
  replace identifies : replaced = .identifier name := identifies
  subst identifies
  unfold Definitions.expand at among
  split at among
  next other =>
    split at among
    next =>
      rw [List.mem_singleton] at among
      exact .inl (written name among.symm)
    next =>
      cases found : definitions.lookup other with
      | none =>
        rw [found, Option.getD_none, List.mem_singleton] at among
        exact .inl (written name among.symm)
      | some tokens =>
        rw [found, Option.getD_some] at among
        exact .inr ⟨other, tokens, written other rfl, found, among⟩
  next =>
    rw [List.mem_singleton] at among
    exact .inl (written name among.symm)

/-- Whatever the tokens of a line are, they stand in it, and so does the first error. -/
theorem standing_tokens {items : List Token.Item} (cut : ∀ item ∈ items, item.Cut 0 text) (defining : Bool) :
    Standing definitions text (definitions.tokens defining items).1 ∧
      ∀ failure, (definitions.tokens defining items).2 = some failure → failure.span.Within text := by
  induction items generalizing defining with
  | nil => exact ⟨by simp [Definitions.tokens, Standing], by simp [Definitions.tokens]⟩
  | cons item rest ih =>
    obtain ⟨first, later⟩ := List.forall_mem_cons.1 cut
    unfold Definitions.tokens
    split
    next error means =>
      refine ⟨by simp [Standing], ?_⟩
      rintro _ ⟨⟩
      obtain ⟨before, inside, after, same, place, -⟩ := first
      simp only [Nat.zero_add] at place
      exact ⟨before, inside, after, same, place⟩
    next token means =>
      split
      next => exact ih later defining
      next =>
        obtain ⟨standing, failure⟩ := ih later (token = .directive "eqv")
        exact ⟨List.forall_mem_append.2 ⟨standing_expand first means, standing⟩, failure⟩

end Tokens

/-- The label that is written in an item of a data directive. -/
def DataItem.reference? (item : DataItem) : Option Label :=
  match item.value with
  | .label target _ => some target
  | .integer _ => none

/-- The labels that a directive refers to, or shares with other files. -/
def Directive.mentions : Directive → List Label
  | .word items => items.filterMap DataItem.reference?
  | .globl labels => labels
  | _ => []

/-- All labels that a statement defines, refers to or shares. -/
def Statement.mentions (statement : Statement) : List Label :=
  statement.labels ++
    match statement.content with
    | some (.instruction written) => written.operands.filterMap Operand.reference?
    | some (.directive directive) => directive.mentions
    | none => []

namespace TokenLine

variable {definitions : Definitions} {text : List Char} {line : TokenLine}

/-- What is read leaves tokens that stand in the text, and an error concerns a slice of it. -/
def ReadsWithin {α : Type} (definitions : Definitions) (text : List Char) (good : α → Prop)
    (outcome : Except LineError (α × Rest)) : Prop :=
  Ends (fun found => good found.1 ∧ Standing definitions text found.2) (fun error => error.span.Within text) outcome

section ReadsWithin

variable {α β : Type} {good : α → Prop} {better : β → Prop}

theorem readsWithin_ok {value : α} {rest : Rest} (holds : good value) (standing : Standing definitions text rest) :
    ReadsWithin definitions text good (.ok (value, rest)) := ⟨holds, standing⟩

theorem ReadsWithin.bind {outcome : Except LineError (α × Rest)} {next : α × Rest → Except LineError (β × Rest)}
    (read : ReadsWithin definitions text good outcome)
    (each : ∀ value rest, good value → Standing definitions text rest →
      ReadsWithin definitions text better (next (value, rest))) :
    ReadsWithin definitions text better (outcome >>= next) :=
  Ends.bind read fun found both => each found.1 found.2 both.1 both.2

end ReadsWithin

theorem readsWithin_error {α : Type} {good : α → Prop} {error : LineError} (within : error.span.Within text) :
    ReadsWithin definitions text good (.error error) := within

theorem span_unexpected (line : TokenLine) (expected : String) (remaining : Rest) :
    (line.unexpected expected remaining).span = line.here remaining := by
  unfold unexpected
  dsimp only
  split <;> rfl

variable (size : line.length = byteLength text)

include size

theorem within_here {remaining : Rest} (standing : Standing definitions text remaining) :
    (line.here remaining).Within text := by
  cases remaining with
  | nil =>
    rw [here, size]
    exact Span.within_empty (Span.boundary_end text)
  | cons placed rest => exact (standing placed List.mem_cons_self).1

theorem readsWithin_unexpected {α : Type} {good : α → Prop} (expected : String) {remaining : Rest}
    (standing : Standing definitions text remaining) :
    ReadsWithin definitions text good (.error (line.unexpected expected remaining)) := by
  apply readsWithin_error
  rw [span_unexpected]
  exact within_here size standing

theorem readsWithin_readRegister {remaining : Rest} (standing : Standing definitions text remaining) :
    ReadsWithin definitions text (fun _ => True) (line.readRegister remaining) := by
  unfold readRegister
  split
  · exact readsWithin_ok trivial (standing_cons.1 standing).2
  · exact readsWithin_unexpected size _ standing

theorem readsWithin_readInteger (expected : String) {remaining : Rest}
    (standing : Standing definitions text remaining) :
    ReadsWithin definitions text (fun found => found.2.Within text) (line.readInteger expected remaining) := by
  unfold readInteger
  split
  · obtain ⟨first, rest⟩ := standing_cons.1 standing
    exact readsWithin_ok first.1 rest
  · exact readsWithin_unexpected size _ standing

theorem readsWithin_readUnsigned (expected : String) {remaining : Rest}
    (standing : Standing definitions text remaining) :
    ReadsWithin definitions text (fun _ => True) (line.readUnsigned expected remaining) := by
  unfold readUnsigned
  apply (readsWithin_readInteger size expected standing).bind
  rintro ⟨value, span⟩ rest within standing
  dsimp only
  split
  · exact readsWithin_ok trivial standing
  · exact readsWithin_error within

theorem readsWithin_readLabel {remaining : Rest} (standing : Standing definitions text remaining) :
    ReadsWithin definitions text (Label.Written definitions text) (line.readLabel remaining) := by
  unfold readLabel
  split
  · obtain ⟨first, rest⟩ := standing_cons.1 standing
    exact readsWithin_ok (first.2 _ rfl) rest
  · exact readsWithin_unexpected size _ standing

theorem readsWithin_readBase {remaining : Rest} (standing : Standing definitions text remaining) :
    ReadsWithin definitions text (fun _ => True) (line.readBase remaining) := by
  unfold readBase
  apply (readsWithin_readRegister size standing).bind
  intro base rest _ standing
  dsimp only
  split
  · exact readsWithin_ok trivial (standing_cons.1 standing).2
  · exact readsWithin_unexpected size _ standing

theorem readsWithin_readAddend {remaining : Rest} (standing : Standing definitions text remaining) :
    ReadsWithin definitions text (fun _ => True) (line.readAddend remaining) := by
  unfold readAddend
  split
  case h_1 | h_2 =>
    apply (readsWithin_readInteger size _ (standing_cons.1 standing).2).bind
    intro value rest _ standing
    exact readsWithin_ok trivial standing
  case h_3 =>
    split
    · exact readsWithin_ok trivial (standing_cons.1 standing).2
    · exact readsWithin_ok trivial standing
  case h_4 => exact readsWithin_ok trivial standing

/-- The label of an operand is written in the text. -/
def OperandWritten (definitions : Definitions) (text : List Char) (operand : Operand) : Prop :=
  ∀ label, operand.reference? = some label → label.Written definitions text

theorem readsWithin_readOperand {remaining : Rest} (standing : Standing definitions text remaining) :
    ReadsWithin definitions text (OperandWritten definitions text) (line.readOperand remaining) := by
  have plain (operand : Operand) (none : operand.reference? = none) : OperandWritten definitions text operand := by
    intro label found
    rw [none] at found
    cases found
  unfold readOperand
  split
  case h_1 => exact readsWithin_ok (plain _ rfl) (standing_cons.1 standing).2
  case h_2 =>
    have behind := (standing_cons.1 (standing_cons.1 standing).2).2
    apply (readsWithin_readBase size behind).bind
    intro base rest _ standing
    exact readsWithin_ok (plain _ rfl) standing
  case h_3 => exact readsWithin_ok (plain _ rfl) (standing_cons.1 standing).2
  case h_4 =>
    apply (readsWithin_readInteger size _ (standing_cons.1 standing).2).bind
    intro value rest _ standing
    exact readsWithin_ok (plain _ rfl) standing
  case h_5 =>
    apply (readsWithin_readBase size (standing_cons.1 standing).2).bind
    intro base rest _ standing
    exact readsWithin_ok (plain _ rfl) standing
  case h_6 name span rest =>
    obtain ⟨first, behind⟩ := standing_cons.1 standing
    have written : (Label.mk name span.start).Written definitions text := first.2 name rfl
    apply (readsWithin_readAddend size behind).bind
    intro addend rest _ standing
    dsimp only
    split
    · apply (readsWithin_readBase size (standing_cons.1 standing).2).bind
      intro base rest _ standing
      refine readsWithin_ok ?_ standing
      rintro _ ⟨⟩
      exact written
    · refine readsWithin_ok ?_ standing
      rintro _ ⟨⟩
      exact written
  case h_7 => exact readsWithin_unexpected size _ standing

omit size in
theorem standing_afterComma {remaining : Rest} (standing : Standing definitions text remaining) :
    Standing definitions text (afterComma remaining) := by
  unfold afterComma
  split
  · exact (standing_cons.1 standing).2
  · exact standing

theorem ends_readOperands {remaining : Rest} (standing : Standing definitions text remaining) :
    Ends (fun operands => ∀ operand ∈ operands, OperandWritten definitions text operand)
      (fun error => error.span.Within text) (line.readOperands remaining) := by
  fun_induction line.readOperands remaining with
  | case1 remaining empty => simp [Ends]
  | case2 remaining visible error read =>
    have ends := readsWithin_readOperand size standing
    rw [read] at ends
    exact ends
  | case3 remaining visible operand rest read ih =>
    have ends := readsWithin_readOperand size standing
    rw [read] at ends
    obtain ⟨written, behind⟩ := ends
    apply (ih (standing_afterComma behind)).map
    intro operands later
    exact List.forall_mem_cons.2 ⟨written, later⟩

theorem readsWithin_readAddress {remaining : Rest} (standing : Standing definitions text remaining) :
    ReadsWithin definitions text (fun _ => True) (line.readAddress remaining) := by
  unfold readAddress
  split
  · apply (readsWithin_readUnsigned size _ standing).bind
    intro value rest _ standing
    exact readsWithin_ok trivial standing
  · exact readsWithin_ok trivial standing

theorem readsWithin_readText {remaining : Rest} (standing : Standing definitions text remaining) :
    ReadsWithin definitions text (fun _ => True) (line.readText remaining) := by
  unfold readText
  split
  · exact readsWithin_ok trivial (standing_cons.1 standing).2
  · exact readsWithin_unexpected size _ standing

/-- The label of a value is written in the text. -/
def ValueWritten (definitions : Definitions) (text : List Char) (value : DataValue) : Prop :=
  ∀ target addend, value = .label target addend → target.Written definitions text

theorem readsWithin_readValue (labels first : Bool) {remaining : Rest}
    (standing : Standing definitions text remaining) :
    ReadsWithin definitions text (ValueWritten definitions text) (line.readValue labels first remaining) := by
  unfold readValue
  split
  case h_1 =>
    refine readsWithin_ok ?_ (standing_cons.1 standing).2
    rintro _ _ ⟨⟩
  case h_2 name span rest =>
    split
    · obtain ⟨placed, behind⟩ := standing_cons.1 standing
      have written : (Label.mk name span.start).Written definitions text := placed.2 name rfl
      apply (readsWithin_readAddend size behind).bind
      intro addend rest _ standing
      refine readsWithin_ok ?_ standing
      rintro _ _ ⟨⟩
      exact written
    · exact readsWithin_unexpected size _ standing
  case h_3 => exact readsWithin_unexpected size _ standing

theorem readsWithin_readCount {remaining : Rest} (standing : Standing definitions text remaining) :
    ReadsWithin definitions text (fun _ => True) (line.readCount remaining) := by
  unfold readCount
  split
  · exact readsWithin_readUnsigned size _ (standing_cons.1 standing).2
  · exact readsWithin_ok trivial standing

theorem ends_readItems (labels first : Bool) {remaining : Rest} (standing : Standing definitions text remaining) :
    Ends (fun items => ∀ item ∈ items, ValueWritten definitions text item.value)
      (fun error => error.span.Within text) (line.readItems labels first remaining) := by
  fun_induction line.readItems labels first remaining with
  | case1 first remaining error read =>
    have ends := readsWithin_readValue size labels first standing
    rw [read] at ends
    exact ends
  | case2 first remaining value rest read error counted =>
    have ends := readsWithin_readValue size labels first standing
    rw [read] at ends
    have fails := readsWithin_readCount size ends.2
    rw [counted] at fails
    exact fails
  | case3 first remaining value rest read count behind counted last =>
    have ends := readsWithin_readValue size labels first standing
    rw [read] at ends
    exact List.forall_mem_singleton.2 ends.1
  | case4 first remaining value rest read count behind counted more ih =>
    have ends := readsWithin_readValue size labels first standing
    rw [read] at ends
    have stands := readsWithin_readCount size ends.2
    rw [counted] at stands
    apply (ih (standing_afterComma stands.2)).map
    intro items later
    exact List.forall_mem_cons.2 ⟨ends.1, later⟩

theorem ends_readLabels {remaining : Rest} (standing : Standing definitions text remaining) :
    Ends (fun labels => ∀ label ∈ labels, label.Written definitions text)
      (fun error => error.span.Within text) (line.readLabels remaining) := by
  fun_induction line.readLabels remaining with
  | case1 remaining error read =>
    have ends := readsWithin_readLabel size standing
    rw [read] at ends
    exact ends
  | case2 remaining label rest read last =>
    have ends := readsWithin_readLabel size standing
    rw [read] at ends
    exact List.forall_mem_singleton.2 ends.1
  | case3 remaining label rest read more ih =>
    have ends := readsWithin_readLabel size standing
    rw [read] at ends
    apply (ih (standing_afterComma ends.2)).map
    intro labels later
    exact List.forall_mem_cons.2 ⟨ends.1, later⟩

/-- The labels that a directive mentions are written in the text. -/
def DirectiveWritten (definitions : Definitions) (text : List Char) (directive : Directive) : Prop :=
  ∀ label ∈ directive.mentions, label.Written definitions text

theorem readsWithin_readDirective (name : String) {span : Span} (within : span.Within text) {remaining : Rest}
    (standing : Standing definitions text remaining) :
    ReadsWithin definitions text (DirectiveWritten definitions text) (line.readDirective name span remaining) := by
  have nothing : Standing definitions text [] := by simp [Standing]
  have plain {directive : Directive} (none : directive.mentions = []) :
      DirectiveWritten definitions text directive := by
    simp [DirectiveWritten, none]
  unfold readDirective
  split
  case h_1 | h_2 | h_3 | h_4 =>
    apply (readsWithin_readAddress size standing).bind
    intro address rest _ standing
    exact readsWithin_ok (plain rfl) standing
  case h_5 =>
    refine Ends.bind (ends_readItems size true true standing) fun items written => ?_
    refine readsWithin_ok ?_ nothing
    intro label mentioned
    obtain ⟨item, member, names⟩ := List.mem_filterMap.1 mentioned
    unfold DataItem.reference? at names
    split at names
    next target addend value =>
      cases names
      exact written item member _ _ value
    next => cases names
  case h_6 | h_7 =>
    refine Ends.bind (ends_readItems size false true standing) fun items _ => ?_
    exact readsWithin_ok (plain rfl) nothing
  case h_8 | h_9 =>
    apply (readsWithin_readText size standing).bind
    intro content rest _ standing
    exact readsWithin_ok (plain rfl) standing
  case h_10 =>
    apply (readsWithin_readUnsigned size _ standing).bind
    intro count rest _ standing
    exact readsWithin_ok (plain rfl) standing
  case h_11 =>
    apply (readsWithin_readInteger size _ standing).bind
    rintro ⟨exponent, place⟩ rest here standing
    dsimp only
    split
    · exact readsWithin_ok (plain rfl) standing
    · exact readsWithin_error here
  case h_12 | h_13 =>
    refine Ends.bind (ends_readLabels size standing) fun labels written => ?_
    exact readsWithin_ok written nothing
  case h_14 =>
    apply (readsWithin_readLabel size standing).bind
    intro label rest _ standing
    apply (readsWithin_readInteger size _ (standing_afterComma standing)).bind
    rintro ⟨count, place⟩ rest here standing
    dsimp only
    split
    · exact readsWithin_ok (plain rfl) standing
    · exact readsWithin_error here
  case h_15 => split <;> exact readsWithin_ok (plain rfl) nothing
  all_goals exact readsWithin_error within

theorem ends_readDefinition {remaining : Rest} (standing : Standing definitions text remaining) :
    Ends (fun _ => True) (fun error => error.span.Within text) (line.readDefinition definitions remaining) := by
  unfold readDefinition
  split
  · split
    · exact (standing_cons.1 standing).1.1
    · trivial
  · exact within_here size standing
  · exact within_here size (standing_cons.1 standing).2

omit size in
theorem ends_readMnemonic (name : String) {span : Span} (within : span.Within text) :
    Ends (fun _ => True) (fun error => error.span.Within text) (readMnemonic name span) := by
  unfold readMnemonic
  dsimp only
  split
  · trivial
  · exact within

end TokenLine

variable {definitions : Definitions}

theorem suffix_leadingLabels (tokens : Rest) : (leadingLabels tokens).2 <:+ tokens := by
  fun_induction leadingLabels tokens with
  | case1 name span colon rest labels behind found ih =>
    rw [found] at ih
    exact ih.trans ((List.suffix_cons _ _).trans (List.suffix_cons _ _))
  | case2 tokens other => exact List.suffix_rfl

/-- The labels at the head of a line are written in it, and the other tokens stand there. -/
theorem standing_leadingLabels {text : List Char} {tokens : Rest} (standing : Standing definitions text tokens) :
    (∀ label ∈ (leadingLabels tokens).1, label.Written definitions text) ∧
      Standing definitions text (leadingLabels tokens).2 := by
  refine ⟨?_, fun placed member => standing placed ((suffix_leadingLabels tokens).mem member)⟩
  fun_induction leadingLabels tokens with
  | case1 name span colon rest labels behind found ih =>
    obtain ⟨first, later⟩ := standing_cons.1 standing
    have written := ih (standing_cons.1 later).2
    rw [found] at written
    exact List.forall_mem_cons.2 ⟨first.2 name rfl, written⟩
  | case2 tokens other => simp

/-- The statement is a slice of the text, and its labels are written there. -/
structure Statement.Stands (definitions : Definitions) (text : List Char) (statement : Statement) : Prop where
  within : statement.span.Within text
  written : ∀ label ∈ statement.mentions, label.Written definitions text

/-- From where a token starts to the end of the last token is a slice of the line. -/
theorem within_from {text : List Char} {tokens : Rest} (standing : Standing definitions text tokens) {first : Span}
    (within : first.Within text) :
    Span.Within ⟨first.start, max ((tokens.getLast?.map fun placed => placed.2.stop).getD 0) first.start⟩ text := by
  have last : Span.Boundary text ((tokens.getLast?.map fun placed => placed.2.stop).getD 0) := by
    cases found : tokens.getLast? with
    | none => exact Span.boundary_zero text
    | some placed => exact (standing placed (List.mem_of_getLast? found)).1.boundary_stop
  refine Span.within_of_boundaries within.boundary_start ?_ (Nat.le_max_right _ _)
  rcases Nat.le_total ((tokens.getLast?.map fun placed => placed.2.stop).getD 0) first.start with short | long
  · rw [Nat.max_eq_right short]
    exact within.boundary_start
  · rw [Nat.max_eq_left long]
    exact last

/-- Whatever is read of a line stands in it, and an error concerns a slice of it. -/
theorem ends_parseLineWith (definitions : Definitions) (text : String) (number : Nat) :
    Ends (fun found => ∀ statement, found.1 = some statement →
        statement.line = number ∧ statement.Stands definitions text.toList)
      (fun error => error.span.Within text.toList) (parseLineWith definitions text number) := by
  have cut : ∀ item ∈ Token.items text, item.Cut 0 text.toList := fun item => Token.cut_of_mem_itemsFrom
  have size : text.utf8ByteSize = byteLength text.toList := (Text.Utf8.byteLength_toList text).symm
  unfold parseLineWith
  dsimp only
  obtain ⟨standing, fails⟩ := @standing_tokens definitions text.toList (Token.items text) cut false
  generalize definitions.tokens false (Token.items text) = found at standing fails ⊢
  obtain ⟨tokens, failure⟩ := found
  replace standing : Standing definitions text.toList tokens := standing
  obtain ⟨written, remaining⟩ := standing_leadingLabels standing
  unfold parseTokens
  dsimp only at fails ⊢
  generalize leadingLabels tokens = found at written remaining ⊢
  obtain ⟨labels, rest⟩ := found
  dsimp only at written remaining ⊢
  generalize isLine : TokenLine.mk tokens text.utf8ByteSize = line
  have lineSize : line.length = byteLength text.toList := by rw [← isLine, size]
  -- A line without an instruction or a directive mentions the labels at its head only.
  have silent {further : Definitions} {span : Span} (within : span.Within text.toList) (statement : Statement)
      (same : (some ⟨number, labels, none, span⟩, further).1 = some statement) :
      statement.line = number ∧ statement.Stands definitions text.toList := by
    cases same
    refine ⟨rfl, within, ?_⟩
    simpa [Statement.mentions] using written
  split
  case h_1 error =>
    have within := fails error rfl
    split
    case h_1 =>
      refine Ends.bind (TokenLine.ends_readMnemonic _ (standing_cons.1 remaining).1.1) fun _ _ => within
    case h_2 => exact within
  case h_2 =>
    split
    case h_1 =>
      split
      · rintro _ ⟨⟩
      · refine silent ?_
        rw [size]
        exact Span.within_empty (Span.boundary_end _)
    case h_2 =>
      obtain ⟨first, later⟩ := standing_cons.1 remaining
      refine Ends.bind (TokenLine.ends_readDefinition lineSize later) fun further _ => ?_
      split
      · rintro _ ⟨⟩
      · exact silent (within_from standing first.1)
    case h_3 =>
      obtain ⟨first, later⟩ := standing_cons.1 remaining
      refine Ends.bind (TokenLine.readsWithin_readDirective lineSize _ first.1 later) fun read stands => ?_
      split
      · have ended := TokenLine.within_here lineSize stands.2
        rw [← TokenLine.span_unexpected line "end of line"] at ended
        exact ended
      · rintro _ ⟨⟩
        exact ⟨rfl, within_from standing first.1, List.forall_mem_append.2 ⟨written, stands.1⟩⟩
    case h_4 =>
      obtain ⟨first, later⟩ := standing_cons.1 remaining
      refine Ends.bind (TokenLine.ends_readMnemonic _ first.1) fun mnemonic _ => ?_
      refine Ends.bind (TokenLine.ends_readOperands lineSize later) fun operands mentioned => ?_
      rintro _ ⟨⟩
      refine ⟨rfl, within_from standing first.1, List.forall_mem_append.2 ⟨written, ?_⟩⟩
      intro label mentions
      obtain ⟨operand, member, names⟩ := List.mem_filterMap.1 mentions
      exact mentioned operand member label names
    case h_5 =>
      have ended := TokenLine.within_here lineSize remaining
      rw [← TokenLine.span_unexpected line "instruction, directive, or label"] at ended
      exact ended

end Mips
