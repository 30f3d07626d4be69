import Mips.Source
import Mips.Statement
import Mips.Statement.SyntaxError
import Mips.Token.Lexer

/-!
Reading statements. Each line is read by itself, after the names that earlier lines gave to lists of tokens have
been replaced. A line that cannot be read yields one error and leaves the others alone.
Main statement: `length_readOperand`, by which reading operands ends.
-/

namespace Mips

/-- A token and the part of the line where it is written. -/
abbrev PlacedToken := Token × Span

/-- The tokens of a line that are still to be read. -/
abbrev Rest := List PlacedToken

/-- Names for lists of tokens, the latest definition first. -/
abbrev Definitions := List (String × List Token)

/-- An error in a line, and the part of the line it concerns. -/
structure LineError where
  error : SyntaxError
  span : Span
  deriving DecidableEq, Repr

/-- The tokens of a line after replacement, and how many bytes the line has. -/
structure TokenLine where
  tokens : List PlacedToken
  length : Nat

namespace TokenLine

/-- Where the first of the remaining tokens is written, or the end of the line. -/
def here (line : TokenLine) : Rest → Span
  | [] => ⟨line.length, line.length⟩
  | (_, span) :: _ => span

/-- The error that something else was expected than the remaining tokens. -/
def unexpected (line : TokenLine) (expected : String) (remaining : Rest) : LineError :=
  let span := line.here remaining
  match line.tokens.find? fun placed => placed.2 = span with
  | some (token, _) => ⟨.unexpectedToken token.description expected, span⟩
  | none => ⟨.unexpectedEnd expected, span⟩

def readRegister (line : TokenLine) : Rest → Except LineError (Register × Rest)
  | (.register register, _) :: rest => .ok (register, rest)
  | rest => .error (line.unexpected "register" rest)

def readInteger (line : TokenLine) (expected : String) : Rest → Except LineError ((Int × Span) × Rest)
  | (.integer value, span) :: rest => .ok ((value, span), rest)
  | rest => .error (line.unexpected expected rest)

/-- Reads a number that is not negative and fits a word. -/
def readUnsigned (line : TokenLine) (expected : String) (remaining : Rest) : Except LineError (Nat × Rest) := do
  let ((value, span), rest) ← line.readInteger expected remaining
  if 0 ≤ value && value < 0x100000000 then .ok (value.toNat, rest)
  else .error ⟨.invalidArgument expected, span⟩

def readLabel (line : TokenLine) : Rest → Except LineError (Label × Rest)
  | (.identifier name, span) :: rest => .ok (⟨name, span.start⟩, rest)
  | rest => .error (line.unexpected "label" rest)

def readBase (line : TokenLine) (remaining : Rest) : Except LineError (Register × Rest) := do
  let (base, rest) ← line.readRegister remaining
  match rest with
  | (.rightParenthesis, _) :: rest => .ok (base, rest)
  | rest => .error (line.unexpected "')'" rest)

/-- Reads the number after a label, which is zero if there is none; a negative one needs no sign before it. -/
def readAddend (line : TokenLine) : Rest → Except LineError (Int × Rest)
  | (.plus, _) :: rest => do
    let ((value, _), rest) ← line.readInteger "integer" rest
    .ok (value, rest)
  | (.minus, _) :: rest => do
    let ((value, _), rest) ← line.readInteger "integer" rest
    .ok (-value, rest)
  | (.integer value, span) :: rest =>
    if value < 0 then .ok (value, rest) else .ok (0, (.integer value, span) :: rest)
  | rest => .ok (0, rest)

/-- Reads an operand, as long a one as there is. -/
def readOperand (line : TokenLine) : Rest → Except LineError (Operand × Rest)
  | (.register register, _) :: rest => .ok (.register register, rest)
  | (.integer value, _) :: (.leftParenthesis, _) :: rest => do
    let (base, rest) ← line.readBase rest
    .ok (.based none value base, rest)
  | (.integer value, _) :: rest => .ok (.immediate value, rest)
  | (.minus, _) :: rest => do
    let ((value, _), rest) ← line.readInteger "integer" rest
    .ok (.immediate (-value), rest)
  | (.leftParenthesis, _) :: rest => do
    let (base, rest) ← line.readBase rest
    .ok (.based none 0 base, rest)
  | (.identifier name, span) :: rest => do
    let label : Label := ⟨name, span.start⟩
    let (addend, rest) ← line.readAddend rest
    match rest with
    | (.leftParenthesis, _) :: rest => do
      let (base, rest) ← line.readBase rest
      .ok (.based (some label) addend base, rest)
    | rest => .ok (.label label addend, rest)
  | rest => .error (line.unexpected "operand" rest)

/-- The tokens after a comma, if there is one. -/
def afterComma : Rest → Rest
  | (.comma, _) :: rest => rest
  | rest => rest

theorem length_afterComma (remaining : Rest) :
    (afterComma remaining).length ≤ remaining.length := by
  unfold afterComma
  split <;> simp

theorem length_readInteger {line : TokenLine} {expected : String} {remaining rest : Rest}
    {value : Int × Span} (read : line.readInteger expected remaining = .ok (value, rest)) :
    rest.length < remaining.length := by
  unfold readInteger at read
  split at read
  · cases read
    simp
  · cases read

theorem length_readBase {line : TokenLine} {remaining rest : Rest} {base : Register}
    (read : line.readBase remaining = .ok (base, rest)) : rest.length < remaining.length := by
  unfold readBase readRegister at read
  split at read
  · simp only [bind, Except.bind] at read
    split at read
    · cases read
      simp only [List.length_cons]
      omega
    · cases read
  · cases read

theorem length_readAddend {line : TokenLine} {remaining rest : Rest} {addend : Int}
    (read : line.readAddend remaining = .ok (addend, rest)) : rest.length ≤ remaining.length := by
  unfold readAddend at read
  split at read
  · simp only [bind, Except.bind] at read
    split at read
    · cases read
    · next found =>
      have := length_readInteger found
      cases read
      simp only [List.length_cons]
      omega
  · simp only [bind, Except.bind] at read
    split at read
    · cases read
    · next found =>
      have := length_readInteger found
      cases read
      simp only [List.length_cons]
      omega
  · split at read <;> cases read <;> simp
  · cases read
    exact Nat.le_refl _

theorem length_readOperand {line : TokenLine} {remaining rest : Rest} {operand : Operand}
    (read : line.readOperand remaining = .ok (operand, rest)) : rest.length < remaining.length := by
  unfold readOperand at read
  split at read
  · cases read
    simp
  · simp only [bind, Except.bind] at read
    split at read
    · cases read
    · next found =>
      have := length_readBase found
      cases read
      simp only [List.length_cons]
      omega
  · cases read
    simp
  · simp only [bind, Except.bind] at read
    split at read
    · cases read
    · next found =>
      have := length_readInteger found
      cases read
      simp only [List.length_cons]
      omega
  · simp only [bind, Except.bind] at read
    split at read
    · cases read
    · next found =>
      have := length_readBase found
      cases read
      simp only [List.length_cons]
      omega
  · simp only [bind, Except.bind] at read
    split at read
    · cases read
    · next found =>
      have shorter := length_readAddend found
      split at read
      · next same =>
        rw [same] at shorter
        split at read
        · cases read
        · next closed =>
          have := length_readBase closed
          cases read
          simp only [List.length_cons] at shorter ⊢
          omega
      · cases read
        simp only [List.length_cons]
        omega
  · cases read

/-- Reads operands up to the end of the line; commas between them may be left out. -/
def readOperands (line : TokenLine) (remaining : Rest) : Except LineError (List Operand) :=
  if remaining.isEmpty then .ok []
  else
    match _read : line.readOperand remaining with
    | .error error => .error error
    | .ok (operand, rest) => (line.readOperands (afterComma rest)).map (operand :: ·)
termination_by remaining.length
decreasing_by exact Nat.lt_of_le_of_lt (length_afterComma rest) (length_readOperand _read)

/-- Reads the mnemonic that a name is, in any case. -/
def readMnemonic (name : String) (span : Span) : Except LineError Mnemonic :=
  let lower := Text.lowercase name
  match Mnemonic.ofName? lower with
  | some mnemonic => .ok mnemonic
  | none => .error ⟨.unknownInstruction lower, span⟩

/-- Reads the address after a directive that switches segments, if there is one. -/
def readAddress (line : TokenLine) : Rest → Except LineError ((Option Word) × Rest)
  | (.integer value, span) :: rest => do
    let (value, rest) ← line.readUnsigned "an address" ((.integer value, span) :: rest)
    .ok (some (UInt32.ofNat value), rest)
  | rest => .ok (none, rest)

def readText (line : TokenLine) : Rest → Except LineError (String × Rest)
  | (.text content, _) :: rest => .ok (content, rest)
  | rest => .error (line.unexpected "string literal" rest)

/-- Reads a value of a data directive; `first` tells whether it is the first one. -/
def readValue (line : TokenLine) (labels first : Bool) : Rest → Except LineError (DataValue × Rest)
  | (.integer value, _) :: rest => .ok (.integer value, rest)
  | (.identifier name, span) :: rest =>
    if labels then do
      let (addend, rest) ← line.readAddend rest
      .ok (.label ⟨name, span.start⟩ addend, rest)
    else
      .error (line.unexpected (if first then "value" else "value or end of line")
        ((.identifier name, span) :: rest))
  | rest => .error (line.unexpected (if first then "value" else "value or end of line") rest)

/-- Reads how often a value is repeated, which is once if nothing else is said. -/
def readCount (line : TokenLine) : Rest → Except LineError (Nat × Rest)
  | (.colon, _) :: rest => line.readUnsigned "a repeat count" rest
  | rest => .ok (1, rest)

theorem length_readUnsigned {line : TokenLine} {expected : String} {remaining rest : Rest}
    {value : Nat} (read : line.readUnsigned expected remaining = .ok (value, rest)) :
    rest.length < remaining.length := by
  simp only [readUnsigned, bind, Except.bind] at read
  split at read
  · cases read
  · next found =>
    have := length_readInteger found
    split at read
    · cases read
      exact this
    · cases read

theorem length_readValue {line : TokenLine} {labels first : Bool} {remaining rest : Rest}
    {value : DataValue} (read : line.readValue labels first remaining = .ok (value, rest)) :
    rest.length < remaining.length := by
  unfold readValue at read
  split at read
  · cases read
    simp
  · split at read
    · simp only [bind, Except.bind] at read
      split at read
      · cases read
      · next found =>
        have := length_readAddend found
        cases read
        simp only [List.length_cons]
        omega
    · cases read
  · cases read

theorem length_readCount {line : TokenLine} {remaining rest : Rest} {count : Nat}
    (read : line.readCount remaining = .ok (count, rest)) : rest.length ≤ remaining.length := by
  unfold readCount at read
  split at read
  · have := length_readUnsigned read
    simp only [List.length_cons]
    omega
  · cases read
    exact Nat.le_refl _

/-- Reads one or more values up to the end of the line; commas between them may be left out. -/
def readItems (line : TokenLine) (labels first : Bool) (remaining : Rest) :
    Except LineError (List DataItem) :=
  match _value : line.readValue labels first remaining with
  | .error error => .error error
  | .ok (value, rest) =>
    match _count : line.readCount rest with
    | .error error => .error error
    | .ok (count, rest) =>
      if (afterComma rest).isEmpty then .ok [⟨value, count⟩]
      else (line.readItems labels false (afterComma rest)).map (⟨value, count⟩ :: ·)
termination_by remaining.length
decreasing_by
  exact Nat.lt_of_le_of_lt (Nat.le_trans (length_afterComma _) (length_readCount _count))
    (length_readValue _value)

theorem length_readLabel {line : TokenLine} {remaining rest : Rest} {label : Label}
    (read : line.readLabel remaining = .ok (label, rest)) : rest.length < remaining.length := by
  unfold readLabel at read
  split at read
  · cases read
    simp
  · cases read

/-- Reads one or more labels up to the end of the line; commas between them may be left out. -/
def readLabels (line : TokenLine) (remaining : Rest) : Except LineError (List Label) :=
  match _read : line.readLabel remaining with
  | .error error => .error error
  | .ok (label, rest) =>
    if rest.isEmpty then .ok [label]
    else (line.readLabels (afterComma rest)).map (label :: ·)
termination_by remaining.length
decreasing_by exact Nat.lt_of_le_of_lt (length_afterComma rest) (length_readLabel _read)

/-- Reads the arguments of the directive with this name, which is written at `span`. -/
def readDirective (line : TokenLine) (name : String) (span : Span) (rest : Rest) :
    Except LineError (Directive × Rest) :=
  match name with
  | "text" => do
    let (address, rest) ← line.readAddress rest
    .ok (.text address, rest)
  | "data" => do
    let (address, rest) ← line.readAddress rest
    .ok (.data address, rest)
  | "ktext" => do
    let (address, rest) ← line.readAddress rest
    .ok (.ktext address, rest)
  | "kdata" => do
    let (address, rest) ← line.readAddress rest
    .ok (.kdata address, rest)
  | "word" => do
    let items ← line.readItems true true rest
    .ok (.word items, [])
  | "half" => do
    let items ← line.readItems false true rest
    .ok (.half items, [])
  | "byte" => do
    let items ← line.readItems false true rest
    .ok (.byte items, [])
  | "ascii" => do
    let (content, rest) ← line.readText rest
    .ok (.ascii content, rest)
  | "asciiz" => do
    let (content, rest) ← line.readText rest
    .ok (.asciiz content, rest)
  | "space" => do
    let (size, rest) ← line.readUnsigned "a non-negative byte count" rest
    .ok (.space size, rest)
  | "align" => do
    let expected := "an alignment between 0 and 3"
    let ((exponent, span), rest) ← line.readInteger expected rest
    if 0 ≤ exponent && exponent ≤ 3 then .ok (.align exponent.toNat, rest)
    else .error ⟨.invalidArgument expected, span⟩
  | "globl" | "global" => do
    let labels ← line.readLabels rest
    .ok (.globl labels, [])
  | "extern" => do
    let expected := "a positive size"
    let (label, rest) ← line.readLabel rest
    let ((size, span), rest) ← line.readInteger expected (afterComma rest)
    if 0 < size && size < 0x100000000 then .ok (.external label size.toNat, rest)
    else .error ⟨.invalidArgument expected, span⟩
  | "set" =>
    match rest with
    | (.identifier option, _) :: _ => .ok (.set option, [])
    | _ => .ok (.set "", [])
  | "float" | "double" | "macro" | "end_macro" | "include" => .error ⟨.unsupportedDirective name, span⟩
  | _ => .error ⟨.unknownDirective name, span⟩

/-- Reads the rest of a definition, which gives a name to the tokens after it. -/
def readDefinition (line : TokenLine) (definitions : Definitions) :
    Rest → Except LineError Definitions
  | (.identifier name, span) :: value =>
    if value.isEmpty then .error ⟨.invalidDefinition, span⟩
    else .ok ((name, value.map Prod.fst) :: definitions)
  | [] => .error ⟨.invalidDefinition, line.here []⟩
  | _ :: rest => .error ⟨.invalidDefinition, line.here rest⟩

end TokenLine

/-- The labels at the head of a line, each followed by a colon, and the tokens after them. -/
def leadingLabels : Rest → List Label × Rest
  | (.identifier name, span) :: (.colon, _) :: rest =>
    let (labels, rest) := leadingLabels rest
    (⟨name, span.start⟩ :: labels, rest)
  | rest => ([], rest)

/-- The tokens that a token stands for; a name that is just being defined stands for itself. -/
def Definitions.expand (definitions : Definitions) (defining : Bool) (token : Token) : List Token :=
  match token with
  | .identifier name => if defining then [token] else (definitions.lookup name).getD [token]
  | _ => [token]

/-- The tokens of a line up to its end or its first error, with comments left out and names replaced. -/
def Definitions.tokens (definitions : Definitions) (defining : Bool) :
    List Token.Item → List PlacedToken × Option LineError
  | [] => ([], none)
  | item :: rest =>
    match item.meaning with
    | .error error => ([], some ⟨.lexical error, item.span⟩)
    | .ok token =>
      if token = .comment || token = .newLine then definitions.tokens defining rest
      else
        let (tokens, failure) := definitions.tokens (token = .directive "eqv") rest
        ((definitions.expand defining token).map (·, item.span) ++ tokens, failure)

/-- The statement that the tokens of a line make, with its labels first, and the definitions after it. -/
def parseTokens (definitions : Definitions) (number : Nat) (line : TokenLine) :
    Except LineError (Option Statement × Definitions) := do
  let (labels, rest) := leadingLabels line.tokens
  let lineEnd : Span := ⟨line.length, line.length⟩
  let spanFrom := fun (first : Span) =>
    (⟨first.start, max ((line.tokens.getLast?.map fun placed => placed.2.stop).getD 0) first.start⟩ : Span)
  match rest with
  | [] =>
    if labels.isEmpty then return (none, definitions)
    return (some ⟨number, labels, none, lineEnd⟩, definitions)
  | (.directive "eqv", span) :: rest =>
    let definitions ← line.readDefinition definitions rest
    if labels.isEmpty then return (none, definitions)
    return (some ⟨number, labels, none, spanFrom span⟩, definitions)
  | (.directive name, span) :: rest =>
    let (directive, rest) ← line.readDirective name span rest
    if !rest.isEmpty then throw (line.unexpected "end of line" rest)
    return (some ⟨number, labels, some (.directive directive), spanFrom span⟩, definitions)
  | (.identifier name, span) :: rest =>
    let mnemonic ← TokenLine.readMnemonic name span
    let operands ← line.readOperands rest
    return (some ⟨number, labels, some (.instruction ⟨mnemonic, operands⟩), spanFrom span⟩, definitions)
  | rest => throw (line.unexpected "instruction, directive, or label" rest)

/--
The statement of a line and the definitions after it. Behind its labels an unknown instruction is reported before a
lexical error further on in the line.
-/
def parseLineWith (definitions : Definitions) (text : String) (number : Nat) :
    Except LineError (Option Statement × Definitions) :=
  let (tokens, failure) := definitions.tokens false (Token.items text)
  match failure with
  | some error => do
    if let (.identifier name, span) :: _ := (leadingLabels tokens).2 then
      let _ ← TokenLine.readMnemonic name span
    throw error
  | none => parseTokens definitions number ⟨tokens, text.utf8ByteSize⟩

/-- An error and the line, counted from 1, that it is in. -/
structure SourceError where
  error : SyntaxError
  line : Nat
  span : Span
  deriving DecidableEq, Repr

/-- The statement of a line by itself, if it says anything. -/
def parseLine (text : String) (number : Nat) : Except SourceError (Option Statement) :=
  match parseLineWith [] text number with
  | .ok (statement, _) => .ok statement
  | .error failure => .error ⟨failure.error, number, failure.span⟩

/-- The statements and the errors of lines that are counted from `number`. -/
def parseLinesFrom (definitions : Definitions) (number : Nat) :
    List String → List Statement × List SourceError
  | [] => ([], [])
  | text :: rest =>
    match parseLineWith definitions text number with
    | .ok (statement, definitions) =>
      let (statements, errors) := parseLinesFrom definitions (number + 1) rest
      (statement.toList ++ statements, errors)
    | .error failure =>
      let (statements, errors) := parseLinesFrom definitions (number + 1) rest
      (statements, ⟨failure.error, number, failure.span⟩ :: errors)

def parseLines (text : String) : List Statement × List SourceError := parseLinesFrom [] 1 (lines text)

/-- The statements of a text, or all of its errors if it has any. -/
def parseSource (text : String) : Except (List SourceError) (List Statement) :=
  match parseLines text with
  | (statements, []) => .ok statements
  | (_, errors) => .error errors

end Mips
