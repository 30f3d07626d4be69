import Mips.Proofs.Outcome
import Mips.Proofs.Statement.Deciding

/-!
Where the reading of a line stops. Labels, instructions and directives are read in parts that decide on what they have seen, so
that the tokens before the place where something else was expected can be the first ones of a line without errors, and with the
next one they cannot. Main statements: `decides_readOperands`, `decides_arguments`, `decides_readSentence` and
`stopped_of_parseTokens`.
-/

namespace Mips

namespace TokenLine

variable {line : TokenLine} {remaining : Rest}

section Token

def register? : PlacedToken → Option Register
  | (.register register, _) => some register
  | _ => none

def integer? : PlacedToken → Option (Int × Span)
  | (.integer value, span) => some (value, span)
  | _ => none

def label? : PlacedToken → Option Label
  | (.identifier name, span) => some ⟨name, span.start⟩
  | _ => none

def text? : PlacedToken → Option String
  | (.text content, _) => some content
  | _ => none

/-- The base in parentheses that are closed. -/
def closed? (base : Register) : PlacedToken → Option Register
  | (.rightParenthesis, _) => some base
  | _ => none

theorem readRegister_eq : readRegister = Reader.token "register" register? := by
  funext line remaining
  rcases remaining with _ | ⟨⟨_ | _, _⟩, _⟩ <;> rfl

theorem readInteger_eq (expected : String) : (readInteger · expected) = Reader.token expected integer? := by
  funext line remaining
  rcases remaining with _ | ⟨⟨_ | _, _⟩, _⟩ <;> rfl

theorem readLabel_eq : readLabel = Reader.token "label" label? := by
  funext line remaining
  rcases remaining with _ | ⟨⟨_ | _, _⟩, _⟩ <;> rfl

theorem readText_eq : readText = Reader.token "string literal" text? := by
  funext line remaining
  rcases remaining with _ | ⟨⟨_ | _, _⟩, _⟩ <;> rfl

theorem readBase_eq : readBase = Reader.bind readRegister fun base => Reader.token "')'" (closed? base) := by
  funext line remaining
  unfold readBase Reader.bind
  congr 1
  funext found
  obtain ⟨base, rest⟩ := found
  rcases rest with _ | ⟨⟨_ | _, _⟩, _⟩ <;> rfl

end Token

section Operand

theorem decides_readRegister : Decides readRegister line remaining := by
  rw [readRegister_eq]
  exact decides_token (show register? (.register ⟨0⟩, ⟨0, 0⟩) = _ from rfl)

theorem decides_readInteger (expected : String) : Decides (readInteger · expected) line remaining := by
  rw [readInteger_eq]
  exact decides_token (show integer? (.integer 1, ⟨0, 0⟩) = _ from rfl)

theorem decides_readBase : Decides readBase line remaining := by
  rw [readBase_eq]
  refine decides_readRegister.bind ?_ ?_
  · intro base rest _
    exact decides_token (show closed? base (.rightParenthesis, ⟨0, 0⟩) = _ from rfl)
  · rw [readRegister_eq]
    exact completable_token fun base => ⟨[(.rightParenthesis, ⟨0, 0⟩)], base, fun _ => rfl⟩

/-- An operand with a base behind it, or the plain one without. -/
def based (plain : Operand) (withBase : Register → Operand) : Reader Operand
  | line, (.leftParenthesis, _) :: rest => Reader.map withBase readBase line rest
  | _, rest => .ok (plain, rest)

theorem decides_based (plain : Operand) (withBase : Register → Operand) :
    Decides (based plain withBase) line remaining := by
  cases remaining with
  | nil => exact decides_whole plain fun _ => rfl
  | cons placed rest =>
    obtain ⟨token, place⟩ := placed
    cases token with
    | leftParenthesis => exact (decides_readBase.map withBase).cons fun _ _ => rfl
    | _ => exact decides_missing plain (fun _ => rfl) fun _ _ => rfl

theorem decides_readAddend : Decides readAddend line remaining := by
  cases remaining with
  | nil => exact decides_whole 0 fun _ => rfl
  | cons placed rest =>
    obtain ⟨token, place⟩ := placed
    cases token with
    | plus => exact ((decides_readInteger "integer").map Prod.fst).cons fun _ _ => rfl
    | minus => exact ((decides_readInteger "integer").map fun found : Int × Span => -found.1).cons fun _ _ => rfl
    | integer value =>
      have read (other : TokenLine) (more : Rest) : other.readAddend ((.integer value, place) :: more) =
          if value < 0 then .ok (value, more) else .ok (0, (.integer value, place) :: more) := rfl
      by_cases negative : value < 0
      · exact (decides_done value).cons fun other more => (read other more).trans (if_pos negative)
      · exact decides_missing 0 (fun _ => rfl) fun other more => (read other more).trans (if_neg negative)
    | _ => exact decides_missing 0 (fun _ => rfl) fun _ _ => rfl

theorem decides_readOperand : Decides readOperand line remaining := by
  have completes : Completes readOperand [] := ⟨[(.register ⟨0⟩, ⟨0, 0⟩)], .register ⟨0⟩, fun _ => rfl⟩
  cases remaining with
  | nil => exact decides_lacking completes rfl
  | cons placed rest =>
    obtain ⟨token, place⟩ := placed
    cases token with
    | register register => exact (decides_done (Operand.register register)).cons fun _ _ => rfl
    | integer value =>
      refine (decides_based (.immediate value) (.based none value)).cons fun other more => ?_
      rcases more with _ | ⟨⟨_ | _, _⟩, _⟩ <;> rfl
    | minus =>
      exact ((decides_readInteger "integer").map fun found : Int × Span => Operand.immediate (-found.1)).cons fun _ _ => rfl
    | leftParenthesis => exact (decides_readBase.map (Operand.based none 0)).cons fun _ _ => rfl
    | identifier name =>
      let label : Label := ⟨name, place.start⟩
      have decides : Decides (Reader.bind readAddend fun addend => based (.label label addend) (.based (some label) addend))
          line rest :=
        decides_readAddend.bind (fun _ _ _ => decides_based _ _)
          (completable_of_optional fun addend => ⟨.label label addend, fun _ => rfl⟩)
      refine decides.cons fun other more => ?_
      rw [readOperand, Reader.bind]
      congr 1
      funext found
      obtain ⟨addend, rest⟩ := found
      rcases rest with _ | ⟨⟨_ | _, _⟩, _⟩ <;> rfl
    | _ => exact decides_unexpected completes fun _ _ => rfl

theorem readOperands_eq :
    Reader.toEnd readOperands =
      (Reader.bind readOperand fun operand => (Reader.toEnd readOperands).behindComma.map (operand :: ·)).unlessEnded := by
  funext line remaining
  rw [Reader.toEnd, readOperands, Reader.unlessEnded]
  cases remaining.isEmpty with
  | true => rfl
  | false =>
    simp only [Bool.false_eq_true, if_false, Reader.bind]
    split
    next failure read =>
      rw [read]
      rfl
    next operand rest read =>
      rw [read]
      simp only [bind, Except.bind, Reader.map, Reader.bind, Reader.behindComma, Reader.toEnd, Reader.done]
      cases line.readOperands (afterComma rest) <;> rfl

theorem readOperands_of_unexpected {placed : PlacedToken} {rest : Rest}
    (unexpected : line.readOperand (placed :: rest) = .error (line.unexpected "operand" (placed :: rest))) :
    Reader.toEnd readOperands line (placed :: rest) = .error (line.unexpected "operand" (placed :: rest)) := by
  rw [readOperands_eq, Reader.unlessEnded, if_neg (by simp)]
  exact bind_eq_of_error unexpected

theorem decides_readOperands (line : TokenLine) (remaining : Rest) : Decides (.toEnd readOperands) line remaining := by
  have nothing (other : TokenLine) : (Reader.toEnd readOperands).behindComma other [] = .ok ([], []) := by
    rw [readOperands_eq]
    rfl
  have rejects (other : TokenLine) (place : Span) (more : Rest) :
      ∃ failure, Reader.toEnd readOperands other ((.comma, place) :: more) = .error failure :=
    ⟨_, readOperands_of_unexpected rfl⟩
  rw [readOperands_eq]
  refine Decides.unlessEnded (fun other => ⟨_, rfl⟩) fun _ => decides_readOperand.bind ?_ ?_
  · intro operand rest read
    have shorter := length_readOperand read
    have bound := length_afterComma rest
    exact ((decides_readOperands line (afterComma rest)).behindComma rejects).map _
  · exact completable_of_optional fun operand => ⟨[operand], fun other => map_eq_ok (nothing other)⟩
termination_by remaining.length
decreasing_by omega

end Operand

section Directive

theorem decides_readUnsigned (expected : String) : Decides (readUnsigned · expected) line remaining :=
  have same : (readUnsigned · expected) =
      Reader.number expected (fun value => 0 ≤ value && value < 0x100000000) Int.toNat := rfl
  same ▸ decides_number (by decide) Int.toNat

theorem decides_readText : Decides readText line remaining := by
  rw [readText_eq]
  exact decides_token (show text? (.text "", ⟨0, 0⟩) = _ from rfl)

theorem decides_readAddress : Decides readAddress line remaining := by
  cases remaining with
  | nil => exact decides_whole none fun _ => rfl
  | cons placed rest =>
    obtain ⟨token, place⟩ := placed
    cases token with
    | integer value =>
      by_cases fits : (0 ≤ value && value < 0x100000000) = true
      · refine (decides_done (some (UInt32.ofNat value.toNat))).cons fun other more => ?_
        simp only [readAddress, readUnsigned, readInteger, bind, Except.bind, if_pos fits, Reader.done]
      · have failed : line.readAddress ((.integer value, place) :: rest) =
            .error ⟨.invalidArgument "an address", place⟩ := by
          simp only [readAddress, readUnsigned, readInteger, bind, Except.bind]
          rw [if_neg fits]
        exact .faults failed rfl
    | _ => exact decides_missing none (fun _ => rfl) fun _ _ => rfl

theorem decides_readValue (labels first : Bool) : Decides (readValue · labels first) line remaining := by
  have completes : Completes (readValue · labels first) [] := ⟨[(.integer 1, ⟨0, 0⟩)], .integer 1, fun _ => rfl⟩
  cases remaining with
  | nil => exact decides_lacking completes rfl
  | cons placed rest =>
    obtain ⟨token, place⟩ := placed
    cases token with
    | integer value => exact (decides_done (DataValue.integer value)).cons fun _ _ => rfl
    | identifier name =>
      cases labels with
      | true => exact (decides_readAddend.map (DataValue.label ⟨name, place.start⟩)).cons fun _ _ => rfl
      | false => exact decides_unexpected completes fun _ _ => rfl
    | _ => exact decides_unexpected completes fun _ _ => rfl

theorem decides_readCount : Decides readCount line remaining := by
  cases remaining with
  | nil => exact decides_whole 1 fun _ => rfl
  | cons placed rest =>
    obtain ⟨token, place⟩ := placed
    cases token with
    | colon => exact (decides_readUnsigned "a repeat count").cons fun _ _ => rfl
    | _ => exact decides_missing 1 (fun _ => rfl) fun _ _ => rfl

theorem readItems_eq (labels first : Bool) :
    Reader.toEnd (readItems · labels first) =
      Reader.bind (readValue · labels first) fun value => Reader.bind readCount fun count =>
        (Reader.toEnd (readItems · labels false)).unlessEnded.behindComma.map (⟨value, count⟩ :: ·) := by
  funext line remaining
  rw [Reader.toEnd, readItems, Reader.bind]
  split
  next failure read =>
    rw [read]
    rfl
  next value rest read =>
    rw [read]
    simp only [bind, Except.bind, Reader.bind]
    split
    next failure count =>
      rw [count]
      rfl
    next count rest found =>
      rw [found]
      simp only [Reader.map, Reader.bind, Reader.behindComma, Reader.unlessEnded, Reader.toEnd, Reader.done, bind, Except.bind]
      cases (afterComma rest).isEmpty with
      | true => rfl
      | false =>
        simp only [Bool.false_eq_true, if_false]
        cases line.readItems labels false (afterComma rest) <;> rfl

theorem decides_readItems (line : TokenLine) (labels first : Bool) (remaining : Rest) :
    Decides (.toEnd (readItems · labels first)) line remaining := by
  have rejects (first : Bool) (other : TokenLine) :
      ∃ failure, Reader.toEnd (readItems · labels first) other [] = .error failure := by
    rw [readItems_eq]
    exact ⟨_, rfl⟩
  have rejectsComma (other : TokenLine) (place : Span) (more : Rest) :
      ∃ failure, (Reader.toEnd (readItems · labels false)).unlessEnded other ((.comma, place) :: more) = .error failure := by
    rw [Reader.unlessEnded, if_neg (by simp), readItems_eq]
    exact ⟨_, rfl⟩
  rw [readItems_eq]
  have ended (value : DataValue) (count : Nat) (other : TokenLine) :
      ((Reader.toEnd (readItems · labels false)).unlessEnded.behindComma.map (DataItem.mk value count :: ·)) other [] =
        .ok ([⟨value, count⟩], []) := rfl
  refine (decides_readValue labels first).bind ?_ (completable_of_optional fun value => ⟨[⟨value, 1⟩], ended value 1⟩)
  intro value behind readValue
  refine decides_readCount.bind ?_ (completable_of_optional fun count => ⟨[⟨value, count⟩], ended value count⟩)
  intro count rest readCount
  have shorter := length_readValue readValue
  have bound := length_readCount readCount
  have last := length_afterComma rest
  have decides : Decides (Reader.toEnd (readItems · labels false)).unlessEnded line (afterComma rest) :=
    .unlessEnded (rejects false) fun _ => decides_readItems line labels false (afterComma rest)
  exact (decides.behindComma rejectsComma).map _
termination_by remaining.length
decreasing_by omega

theorem readLabels_eq :
    Reader.toEnd readLabels =
      Reader.bind readLabel fun label => (Reader.toEnd readLabels).behindComma.unlessEnded.map (label :: ·) := by
  funext line remaining
  rw [Reader.toEnd, readLabels, Reader.bind]
  split
  next failure read =>
    rw [read]
    rfl
  next label rest read =>
    rw [read]
    simp only [Reader.map, Reader.bind, Reader.behindComma, Reader.unlessEnded, Reader.toEnd, Reader.done, bind, Except.bind]
    cases rest.isEmpty with
    | true => rfl
    | false =>
      simp only [Bool.false_eq_true, if_false]
      cases line.readLabels (afterComma rest) <;> rfl

theorem decides_readLabel : Decides readLabel line remaining := by
  rw [readLabel_eq]
  exact decides_token (show label? (.identifier "", ⟨0, 0⟩) = _ from rfl)

theorem decides_readLabels (line : TokenLine) (remaining : Rest) : Decides (.toEnd readLabels) line remaining := by
  have rejects (other : TokenLine) : ∃ failure, (Reader.toEnd readLabels).behindComma other [] = .error failure := by
    rw [readLabels_eq]
    exact ⟨_, rfl⟩
  have rejectsComma (other : TokenLine) (place : Span) (more : Rest) :
      ∃ failure, Reader.toEnd readLabels other ((.comma, place) :: more) = .error failure := by
    rw [readLabels_eq]
    exact ⟨_, rfl⟩
  rw [readLabels_eq]
  refine decides_readLabel.bind ?_ (completable_of_optional fun label => ⟨[label], fun _ => rfl⟩)
  intro label rest read
  have shorter := length_readLabel read
  have bound := length_afterComma rest
  have decides : Decides (Reader.toEnd readLabels).behindComma line rest :=
    (decides_readLabels line (afterComma rest)).behindComma rejectsComma
  exact (Decides.unlessEnded rejects fun _ => decides).map _
termination_by remaining.length
decreasing_by omega

/-- The option of a directive without effect, and whatever stands behind it. -/
def readOption : Reader Directive
  | _, (.identifier option, _) :: _ => .ok (.set option, [])
  | _, _ => .ok (.set "", [])

/-- The part behind the name of a directive. -/
def arguments (name : String) (span : Span) : Reader Directive :=
  match name with
  | "text" => Reader.map .text readAddress
  | "data" => Reader.map .data readAddress
  | "ktext" => Reader.map .ktext readAddress
  | "kdata" => Reader.map .kdata readAddress
  | "word" => Reader.map .word (.toEnd (readItems · true true))
  | "half" => Reader.map .half (.toEnd (readItems · false true))
  | "byte" => Reader.map .byte (.toEnd (readItems · false true))
  | "ascii" => Reader.map .ascii readText
  | "asciiz" => Reader.map .asciiz readText
  | "space" => Reader.map .space (readUnsigned · "a non-negative byte count")
  | "align" => .number "an alignment between 0 and 3" (fun exponent => 0 ≤ exponent && exponent ≤ 3) fun exponent =>
      .align exponent.toNat
  | "globl" | "global" => Reader.map .globl (.toEnd readLabels)
  | "extern" => Reader.bind readLabel fun label =>
      (Reader.number "a positive size" (fun size => 0 < size && size < 0x100000000) fun size =>
        .external label size.toNat).behindComma
  | "set" => readOption
  | "float" | "double" | "macro" | "end_macro" | "include" => fun _ _ => .error ⟨.unsupportedDirective name, span⟩
  | _ => fun _ _ => .error ⟨.unknownDirective name, span⟩

theorem toEnd_map {α β : Type} (read : TokenLine → Rest → Except LineError α) (change : α → β) (line : TokenLine)
    (remaining : Rest) :
    (Reader.toEnd read).map change line remaining =
      (read line remaining >>= fun value => .ok (change value, [])) := by
  simp only [Reader.map, Reader.bind, Reader.toEnd, Reader.done, bind, Except.bind]
  cases read line remaining <;> rfl

theorem readDirective_eq (line : TokenLine) (name : String) (span : Span) (rest : Rest) :
    line.readDirective name span rest = arguments name span line rest := by
  unfold readDirective
  split
  case h_5 => exact (toEnd_map (readItems · true true) Directive.word line rest).symm
  case h_6 => exact (toEnd_map (readItems · false true) Directive.half line rest).symm
  case h_7 => exact (toEnd_map (readItems · false true) Directive.byte line rest).symm
  case h_12 | h_13 => exact (toEnd_map readLabels Directive.globl line rest).symm
  case h_15 =>
    rcases rest with _ | ⟨⟨_ | _, _⟩, _⟩ <;> rfl
  case h_21 =>
    unfold arguments
    split
    all_goals first | rfl | contradiction
  all_goals rfl

theorem decides_arguments (name : String) (span : Span) (line : TokenLine) (remaining : Rest) :
    Decides (arguments name span) line remaining := by
  unfold arguments
  split
  case h_1 | h_2 | h_3 | h_4 => exact decides_readAddress.map _
  case h_5 | h_6 | h_7 => exact (decides_readItems line _ true remaining).map _
  case h_8 | h_9 => exact decides_readText.map _
  case h_10 => exact (decides_readUnsigned _).map _
  case h_11 => exact decides_number (by decide) _
  case h_12 | h_13 => exact (decides_readLabels line remaining).map _
  case h_14 =>
    refine decides_readLabel.bind ?_ ?_
    · intro label rest _
      exact (decides_number (by decide) _).behindComma fun other place more => ⟨_, rfl⟩
    · rw [readLabel_eq]
      exact completable_token fun label => ⟨[(.integer 1, ⟨0, 0⟩)], .external label 1, fun _ => rfl⟩
  case h_15 =>
    rcases remaining with _ | ⟨⟨_ | _, _⟩, _⟩ <;> exact decides_whole _ fun _ => rfl
  all_goals exact .faults rfl rfl

end Directive

section Sentence

/-- Nothing more stands in the line. -/
def readEnd : Reader Unit
  | _, [] => .ok ((), [])
  | line, rest => .error (line.unexpected "end of line" rest)

def readInstruction (name : String) (span : Span) : Reader Unit := fun line rest =>
  readMnemonic name span >>= fun _ => Reader.map (fun _ => ()) (.toEnd readOperands) line rest

/-- Labels, and what stands behind them. -/
def readSentence : Reader Unit := fun line tokens =>
  match (leadingLabels tokens).2 with
  | [] => .ok ((), [])
  | (.directive "eqv", _) :: rest => (line.readDefinition [] rest).map fun _ => ((), [])
  | (.directive name, span) :: rest => (arguments name span).bind (fun _ => readEnd) line rest
  | (.identifier name, span) :: rest => readInstruction name span line rest
  | rest => .error (line.unexpected "instruction, directive, or label" rest)

theorem decides_readEnd : Decides readEnd line remaining := by
  cases remaining with
  | nil => exact decides_whole () fun _ => rfl
  | cons placed rest => exact decides_unexpected ⟨[], (), fun _ => rfl⟩ fun _ _ => rfl

theorem decides_readDefinition :
    Decides (fun line rest => (line.readDefinition [] rest).map fun _ => ((), [])) line remaining := by
  cases remaining with
  | nil => exact .faults rfl rfl
  | cons placed value =>
    obtain ⟨token, place⟩ := placed
    cases token with
    | identifier name =>
      cases value with
      | nil => exact .faults rfl rfl
      | cons first further => exact decides_whole () fun _ => rfl
    | _ => exact .faults rfl rfl

theorem isSpecific_of_readMnemonic {name : String} {span : Span} {failure : LineError}
    (failed : readMnemonic name span = .error failure) : failure.error.isSpecific = true := by
  unfold readMnemonic at failed
  dsimp only at failed
  split at failed
  · cases failed
  · cases failed
    rfl

theorem decides_readInstruction (name : String) (span : Span) : Decides (readInstruction name span) line remaining := by
  cases known : readMnemonic name span with
  | error failure =>
    have failed (other : TokenLine) (rest : Rest) : readInstruction name span other rest = .error failure := by
      rw [readInstruction, known]
      rfl
    exact .faults (failed line remaining) (isSpecific_of_readMnemonic known)
  | ok mnemonic =>
    have same : readInstruction name span = Reader.map (fun _ => ()) (.toEnd readOperands) := by
      funext other rest
      rw [readInstruction, known]
      rfl
    rw [same]
    exact (decides_readOperands line remaining).map _

theorem readSentence_identifier {name : String} {span : Span} {rest : Rest} (line : TokenLine)
    (plain : ahead rest ≠ some .colon) :
    readSentence line ((.identifier name, span) :: rest) = readInstruction name span line rest := by
  rcases rest with _ | ⟨⟨token, place⟩, rest⟩
  · rfl
  · cases token with
    | colon => exact absurd rfl plain
    | _ => rfl

theorem readInstruction_colon (name : String) (span place : Span) (line : TokenLine) (more : Rest) :
    ∃ failure, readInstruction name span line ((.colon, place) :: more) = .error failure := by
  rw [readInstruction]
  cases readMnemonic name span with
  | error failure => exact ⟨failure, rfl⟩
  | ok mnemonic =>
    change ∃ failure, Reader.map (fun _ => ()) (.toEnd readOperands) line ((.colon, place) :: more) = .error failure
    exact ⟨_, bind_eq_of_error (readOperands_of_unexpected rfl)⟩

theorem decides_readSentence (line : TokenLine) (tokens : Rest) : Decides readSentence line tokens := by
  have completes : Completes readSentence [] := ⟨[], (), fun _ => rfl⟩
  induction tokens using leadingLabels.induct with
  | case1 name span colon rest labels behind found ih =>
    exact (Decides.cons (fun _ _ => rfl) ih).cons fun _ _ => rfl
  | case2 tokens other =>
    cases tokens with
    | nil => exact decides_whole () fun _ => rfl
    | cons placed rest =>
      obtain ⟨token, place⟩ := placed
      cases token with
      | directive name =>
        by_cases defines : name = "eqv"
        · subst defines
          exact decides_readDefinition.cons fun _ _ => rfl
        · refine Decides.cons (fun other more => ?_) ((decides_arguments name place line rest).bind
            (fun _ _ _ => decides_readEnd) (completable_of_optional fun _ => ⟨(), fun _ => rfl⟩))
          simp only [readSentence, leadingLabels]
      | identifier name =>
        have plain : ahead rest ≠ some .colon := by
          intro next
          obtain ⟨_, _, rfl⟩ := ahead_eq_some.1 next
          exact other _ _ _ _ rfl
        refine Decides.cons (fun _ _ => rfl) ((decides_readInstruction name place).congr (some .colon) ?_ ?_ plain)
        · exact fun other more plain => readSentence_identifier other plain
        · intro other more next
          obtain ⟨colon, more, rfl⟩ := ahead_eq_some.1 next
          exact readInstruction_colon name place colon other more
      | _ => exact decides_unexpected completes fun _ _ => rfl

end Sentence

end TokenLine

/-- What is read of a line whose tokens are all right is read of its tokens. -/
theorem parseLineWith_of_tokens {definitions : Definitions} {text : String} {tokens : Rest}
    (lexed : definitions.tokens false (Token.items text) = (tokens, none)) (number : Nat) :
    parseLineWith definitions text number = parseTokens definitions number ⟨tokens, text.utf8ByteSize⟩ := by
  rw [parseLineWith, lexed]

/-- Whether there is a definition does not depend on the definitions before it. -/
theorem readDefinition_eq (definitions : Definitions) (line : TokenLine) (rest : Rest) :
    ((line.readDefinition [] rest).map fun _ => ((), ([] : Rest))) =
      (line.readDefinition definitions rest).map fun _ => ((), []) := by
  rcases rest with _ | ⟨⟨_ | _, _⟩, _ | _⟩ <;> rfl

theorem readSentence_eq (definitions : Definitions) (number : Nat) (line : TokenLine) :
    line.readSentence line.tokens = (parseTokens definitions number line).map fun _ => ((), []) := by
  unfold parseTokens TokenLine.readSentence
  generalize leadingLabels line.tokens = found
  obtain ⟨labels, rest⟩ := found
  dsimp only
  rcases rest with _ | ⟨⟨token, span⟩, rest⟩
  · cases labels.isEmpty <;> rfl
  cases token with
  | directive name =>
    by_cases defines : name = "eqv"
    · subst defines
      simp only [readDefinition_eq definitions, bind, Except.bind]
      cases line.readDefinition definitions rest with
      | error failure => rfl
      | ok further => cases labels.isEmpty <;> rfl
    · simp only [Reader.bind, ← TokenLine.readDirective_eq, bind, Except.bind]
      cases line.readDirective name span rest with
      | error failure => rfl
      | ok found =>
        obtain ⟨directive, rest⟩ := found
        cases rest <;> rfl
  | identifier name =>
    simp only [TokenLine.readInstruction, bind, Except.bind, Reader.map, Reader.bind, Reader.toEnd]
    cases TokenLine.readMnemonic name span with
    | error failure => rfl
    | ok mnemonic => cases line.readOperands rest <;> rfl
  | _ => rfl

/-- The tokens are those of a line without errors. -/
def Accepted (tokens : Rest) : Prop :=
  ∃ definitions number length found, parseTokens definitions number ⟨tokens, length⟩ = .ok found

/-- The tokens are those that a line without errors begins with. -/
def Continuable (tokens : Rest) : Prop := ∃ more, Accepted (tokens ++ more)

theorem accepted_of_readSentence {tokens : Rest} {found : Unit × Rest}
    (read : ∀ line, TokenLine.readSentence line tokens = .ok found) : Accepted tokens := by
  have same := readSentence_eq [] 0 ⟨tokens, 0⟩
  rw [read] at same
  obtain ⟨result, success, -⟩ := map_eq_ok_iff.1 same.symm
  exact ⟨[], 0, 0, result, success⟩

theorem readSentence_of_accepted {tokens : Rest} (accepted : Accepted tokens) :
    ∃ found, ∀ line, TokenLine.readSentence line tokens = .ok found := by
  obtain ⟨definitions, number, length, result, success⟩ := accepted
  have read := readSentence_eq definitions number ⟨tokens, length⟩
  rw [success] at read
  cases TokenLine.decides_readSentence ⟨tokens, length⟩ tokens with
  | @reads taken rest value whole same =>
    refine ⟨(value, rest), fun line => ?_⟩
    rw [whole]
    exact same line rest (.inr rfl)
  | stops taken whole failed =>
    rw [failed] at read
    cases read
  | faults failed =>
    rw [failed] at read
    cases read

/--
The tokens of a line fall into those that a line without errors could begin with and those from the place on where something
else was expected; with the first of these no line without errors begins as this one does, and if there are none, the line
lacks something.
-/
theorem stopped_of_parseTokens {definitions : Definitions} {number : Nat} {line : TokenLine} {failure : LineError}
    (failed : parseTokens definitions number line = .error failure) (vague : failure.error.isSpecific = false) :
    ∃ before after expected, line.tokens = before ++ after ∧ failure = line.unexpected expected after ∧
      Continuable before ∧ ¬Accepted line.tokens ∧
        ∀ stop, after.head? = some stop → ¬Continuable (before ++ [stop]) := by
  have read := readSentence_eq definitions number line
  rw [failed] at read
  have refused : ¬Accepted line.tokens := by
    intro accepted
    obtain ⟨found, success⟩ := readSentence_of_accepted accepted
    rw [success] at read
    cases read
  cases TokenLine.decides_readSentence line line.tokens with
  | reads taken value whole same =>
    rw [whole, same line _ (.inr rfl)] at read
    cases read
  | @stops before after expected whole stopped completes decided =>
    rw [stopped] at read
    cases read
    refine ⟨before, after, expected, whole, rfl, ?_, refused, ?_⟩
    · obtain ⟨more, value, success⟩ := completes
      exact ⟨more, accepted_of_readSentence success⟩
    · rintro stop head ⟨more, accepted⟩
      rw [List.append_assoc] at accepted
      obtain ⟨found, success⟩ := readSentence_of_accepted accepted
      obtain ⟨failure, failed⟩ := decided stop head line more
      cases (success line).symm.trans failed
  | faults stopped specific =>
    rw [stopped] at read
    cases read
    rw [specific] at vague
    cases vague

end Mips
