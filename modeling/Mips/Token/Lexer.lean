import Mips.Span
import Mips.Text.DecimalDigit
import Mips.Text.Lowercase
import Mips.Text.WordCharacter
import Mips.Token

/-!
Reading tokens. The head of a text is always a token or an error that takes at least one
character, always as many as it can, and spaces, tabs and carriage returns stand between them. So every
character of a text belongs to exactly one token, error or gap.
-/

namespace Mips.Token

open Text

def unescape? : Char → Option Char
  | 'n' => some '\n'
  | 'r' => some '\r'
  | 't' => some '\t'
  | '0' => some '\x00'
  | '\\' => some '\\'
  | '\'' => some '\''
  | '"' => some '"'
  | _ => none

/--
The number that digits denote after a number with value `before`. The first digit that is wrong or takes
the number past 64 bits decides, and a wrong digit comes before one that is too much.
-/
def magnitude (base : Nat) (invalid : LexError) (before : Nat) : List Char → Except LexError Nat
  | [] => .ok before
  | c :: rest =>
    match digitValue? base c with
    | none => .error invalid
    | some value =>
      let after := base * before + value
      if after < 0x10000000000000000 then magnitude base invalid after rest else .error .outOfRange

/-- The number of one or more digits, without a sign. -/
def unsignedLiteral : List Char → Except LexError Nat
  | '0' :: 'x' :: body | '0' :: 'X' :: body =>
    if body.isEmpty then .error .emptyHex else magnitude 16 .invalidHex 0 body
  | '0' :: 'b' :: body | '0' :: 'B' :: body =>
    if body.isEmpty then .error .emptyBinary else magnitude 2 .invalidBinary 0 body
  | body => if body.isEmpty then .error .invalidDecimal else magnitude 10 .invalidDecimal 0 body

/-- The number of an integer token; it has to fit a word, as a signed or an unsigned number. -/
def integerLiteral : List Char → Except LexError Int
  | '-' :: body => do
    let value ← unsignedLiteral body
    if value ≤ 0x80000000 then .ok (-value) else .error .outOfRange
  | body => do
    let value ← unsignedLiteral body
    if value < 0x100000000 then .ok value else .error .outOfRange

/-- The token or error at the head of a text; `more` counts its characters after the first. -/
structure Lexeme where
  more : Nat
  meaning : Except LexError Token

/-- A character literal after its opening quote; a lone quote starts no token. -/
def characterLexeme : List Char → Lexeme
  | '\\' :: c :: '\'' :: _ =>
    if c = '\n' then ⟨0, .error .invalidSymbol⟩
    else ⟨3, match unescape? c with
      | some c => .ok (.integer c.toNat)
      | none => .error .invalidCharacter⟩
  | c :: '\'' :: _ =>
    if c = '\'' || c = '\\' || c = '\n' then ⟨0, .error .invalidSymbol⟩
    else ⟨2, .ok (.integer c.toNat)⟩
  | _ => ⟨0, .error .invalidSymbol⟩

/--
The content of a string literal after its opening quote and how many characters it takes
with the closing quote; there is none if the line ends first. An unknown escape keeps its backslash.
-/
def stringContent? : List Char → Option (List Char × Nat)
  | [] => none
  | '"' :: _ => some ([], 1)
  | '\n' :: _ => none
  | ['\\'] => none
  | '\\' :: c :: rest =>
    if c = '\n' then none
    else (stringContent? rest).map fun (content, count) =>
      (match unescape? c with
        | some c => c :: content
        | none => '\\' :: c :: content, count + 2)
  | c :: rest => (stringContent? rest).map fun (content, count) => (c :: content, count + 1)

/-- A string literal after its opening quote; without a closing one it takes the rest of the line. -/
def stringLexeme (rest : List Char) : Lexeme :=
  match stringContent? rest with
  | some (content, count) => ⟨count, .ok (.text (String.ofList content))⟩
  | none => ⟨(rest.takeWhile (· ≠ '\n')).length, .error .unclosedString⟩

/-- Whether the character may begin an identifier or the name of a directive. -/
def isNameStart (c : Char) : Bool := ('A' ≤ c && c ≤ 'Z') || ('a' ≤ c && c ≤ 'z') || c == '_'

def isNamePart (c : Char) : Bool := isWordCharacter c || c == '.'

/-- The lexeme of the first character and of those after it that satisfy `continues`. -/
def lexemeWhile (continues : Char → Bool) (first rest : List Char)
    (meaning : List Char → Except LexError Token) : Lexeme :=
  let tail := rest.takeWhile continues
  ⟨first.length - 1 + tail.length, meaning (first ++ tail)⟩

def integerMeaning (characters : List Char) : Except LexError Token :=
  (integerLiteral characters).map .integer

/-- The meaning of the characters of a register token, the dollar sign included. -/
def registerMeaning (characters : List Char) : Except LexError Token :=
  match Register.ofName? (String.ofList (characters.drop 1)) with
  | some named => .ok (.register named)
  | none => .error .invalidRegister

/-- The meaning of the characters of a directive token, the dot included. -/
def directiveMeaning (characters : List Char) : Except LexError Token :=
  .ok (.directive (lowercase (String.ofList (characters.drop 1))))

/-- The lexeme at the head of a text that begins with `first`. -/
def lexeme (first : Char) (rest : List Char) : Lexeme :=
  match first with
  | '\n' => ⟨0, .ok .newLine⟩
  | ':' => ⟨0, .ok .colon⟩
  | ',' => ⟨0, .ok .comma⟩
  | '(' => ⟨0, .ok .leftParenthesis⟩
  | ')' => ⟨0, .ok .rightParenthesis⟩
  | '+' => ⟨0, .ok .plus⟩
  | '#' => lexemeWhile (· ≠ '\n') ['#'] rest fun _ => .ok .comment
  | '$' => lexemeWhile isWordCharacter ['$'] rest registerMeaning
  | '\'' => characterLexeme rest
  | '"' => stringLexeme rest
  | '-' =>
    match rest with
    | [] => ⟨0, .ok .minus⟩
    | c :: rest =>
      if isDecimalDigit c then lexemeWhile isWordCharacter ['-', c] rest integerMeaning
      else ⟨0, .ok .minus⟩
  | '.' =>
    match rest with
    | [] => ⟨0, .error .invalidSymbol⟩
    | c :: rest =>
      if isNameStart c then lexemeWhile isWordCharacter ['.', c] rest directiveMeaning
      else ⟨0, .error .invalidSymbol⟩
  | c =>
    if isDecimalDigit c then lexemeWhile isWordCharacter [c] rest integerMeaning
    else if isNameStart c then
      lexemeWhile isNamePart [c] rest fun characters => .ok (.identifier (String.ofList characters))
    else ⟨0, .error .invalidSymbol⟩

def isGap (c : Char) : Bool := c == ' ' || c == '\t' || c == '\r'

/-- A token or error of a text and where it stands. -/
structure Item where
  meaning : Except LexError Token
  span : Span

/-- The tokens and errors of a text that begins at the given byte offset. -/
def itemsFrom (offset : Nat) : List Char → List Item
  | [] => []
  | first :: rest =>
    if isGap first then itemsFrom (offset + first.utf8Size) rest
    else
      let found := lexeme first rest
      let stop := offset + first.utf8Size + byteLength (rest.take found.more)
      ⟨found.meaning, ⟨offset, stop⟩⟩ :: itemsFrom stop (rest.drop found.more)
termination_by text => text.length
decreasing_by all_goals simp only [List.length_cons, List.length_drop]; omega

def items (text : String) : List Item := itemsFrom 0 text.toList

end Mips.Token
