/-!
Characters as bytes. A reader sees at the head of a list of bytes a whole character, the start of
a character that the next byte breaks off, or the start of one that the end of the list breaks off.
-/

namespace Mips.Text.Utf8

def encode (characters : List Char) : List UInt8 := characters.flatMap String.utf8EncodeChar

def ofText (text : String) : List UInt8 := encode text.toList

/-- What stands at the head of a list of bytes; `more` counts the bytes it takes after the first. -/
inductive Head where
  | character (c : Char) (more : Nat)
  | malformed (more : Nat)
  | truncated
  deriving DecidableEq, Repr

/-- Whether the byte lies between the bounds, both included. -/
def within (low high byte : UInt8) : Bool := low ≤ byte && byte ≤ high

def isContinuation (byte : UInt8) : Bool := within 0x80 0xBF byte

def isLeading (byte : UInt8) : Bool := within 0xC2 0xF4 byte

/-- The number made of the low bits of a leading byte and of the continuation bytes after it. -/
def point (lead : Nat) (continuation : List UInt8) : Nat :=
  continuation.foldl (fun value byte => value * 64 + byte.toNat % 64) lead

/-- The bounds of the byte after this leading byte; they exclude overlong forms and surrogates. -/
def secondBounds (first : UInt8) : UInt8 × UInt8 :=
  if first = 0xE0 then (0xA0, 0xBF)
  else if first = 0xED then (0x80, 0x9F)
  else if first = 0xF0 then (0x90, 0xBF)
  else if first = 0xF4 then (0x80, 0x8F)
  else (0x80, 0xBF)

def head (first : UInt8) (rest : List UInt8) : Head :=
  let second := secondBounds first
  if first < 0x80 then .character (Char.ofNat first.toNat) 0
  else if within 0xC2 0xDF first then
    match rest with
    | [] => .truncated
    | b :: _ =>
      if isContinuation b then .character (Char.ofNat (point (first.toNat % 32) [b])) 1
      else .malformed 0
  else if within 0xE0 0xEF first then
    match rest with
    | [] => .truncated
    | b :: rest =>
      if !within second.1 second.2 b then .malformed 0
      else match rest with
        | [] => .truncated
        | c :: _ =>
          if isContinuation c then .character (Char.ofNat (point (first.toNat % 16) [b, c])) 2
          else .malformed 1
  else if within 0xF0 0xF4 first then
    match rest with
    | [] => .truncated
    | b :: rest =>
      if !within second.1 second.2 b then .malformed 0
      else match rest with
        | [] => .truncated
        | c :: rest =>
          if !isContinuation c then .malformed 1
          else match rest with
            | [] => .truncated
            | d :: _ =>
              if isContinuation d then .character (Char.ofNat (point (first.toNat % 8) [b, c, d])) 3
              else .malformed 2
  else .malformed 0

def replacement : Char := '\uFFFD'

/-- The characters of the bytes, with a replacement for each maximal part that is no character. -/
def decodeLossy : List UInt8 → List Char
  | [] => []
  | first :: rest =>
    match head first rest with
    | .character c more => c :: decodeLossy (rest.drop more)
    | .malformed more => replacement :: decodeLossy (rest.drop more)
    | .truncated => [replacement]
termination_by bytes => bytes.length
decreasing_by all_goals simp only [List.length_cons, List.length_drop]; omega

/-- The characters of the bytes, if they are well-formed throughout. -/
def decode? : List UInt8 → Option (List Char)
  | [] => some []
  | first :: rest =>
    match head first rest with
    | .character c more => (decode? (rest.drop more)).map (c :: ·)
    | .malformed _ => none
    | .truncated => none
termination_by bytes => bytes.length
decreasing_by simp only [List.length_cons, List.length_drop]; omega

end Mips.Text.Utf8
