import Mips.Text.Utf8

/-!
The consoles that programs print on and read from: one that is silent, one that holds all of its input, and one
that is supplied with bytes one at a time.
-/

namespace Mips

/-- A state of a console, with what can be done to it. -/
class Console (κ : Type) where
  /-- The console after a text was printed. -/
  print : κ → String → κ
  /-- The next line without its end, if there is more input, and the console after it. -/
  readLine : κ → Option String × κ
  /-- The next character, if there is more input, and the console after it. -/
  readCharacter : κ → Option Char × κ

/-- A console that has no input and drops what is printed. -/
structure SilentConsole where

instance : Console SilentConsole where
  print console _ := console
  readLine console := (none, console)
  readCharacter console := (none, console)

namespace Console

def newline : UInt8 := 10

/-- The byte that may stand before the end of a line and does not belong to it. -/
def carriageReturn : UInt8 := 13

def withoutReturn (bytes : List UInt8) : List UInt8 :=
  if bytes.getLast? = some carriageReturn then bytes.dropLast else bytes

/-- The text of a line that was read as these bytes. -/
def lineText (bytes : List UInt8) : String :=
  String.ofList (Text.Utf8.decodeLossy (withoutReturn bytes))

/-- The first line of the bytes, if there are any, and the bytes after it. -/
def splitLine (bytes : List UInt8) : Option String × List UInt8 :=
  if bytes.isEmpty then (none, [])
  else
    let line := bytes.takeWhile (· ≠ newline)
    (some (lineText line), bytes.drop (line.length + 1))

/--
The first character of the bytes, if there is one, and the bytes after it. A replacement stands for bytes that
begin no character; it takes the byte after them, by which they were broken off.
-/
def splitCharacter : List UInt8 → Option Char × List UInt8
  | [] => (none, [])
  | first :: rest =>
    match Text.Utf8.head first rest with
    | .character c more => (some c, rest.drop more)
    | .malformed more =>
      (some Text.Utf8.replacement, if Text.Utf8.isLeading first then rest.drop (more + 1) else rest)
    | .truncated => (none, [])

/-- The first line out of a supply of bytes, of which those in `held` have been received, the last one first. -/
def receiveLine (held : List UInt8) : List UInt8 → Option String × List UInt8
  | [] => (if held.isEmpty then none else some (lineText held.reverse), [])
  | byte :: supply =>
    if byte = newline then (some (lineText held.reverse), supply)
    else receiveLine (byte :: held) supply

/-- The first character out of a supply of bytes, of which those in `held` have been received. -/
def receiveCharacter (held : List UInt8) : List UInt8 → Option Char × List UInt8
  | [] => (none, [])
  | byte :: supply =>
    let head := match held with
      | [] => Text.Utf8.head byte []
      | first :: rest => Text.Utf8.head first (rest ++ [byte])
    match head with
    | .character c _ => (some c, supply)
    | .malformed _ => (some Text.Utf8.replacement, supply)
    | .truncated => receiveCharacter (held ++ [byte]) supply

end Console

/-- A console that holds the input that is still to be read and all the output. -/
structure BufferedConsole where
  input : List UInt8
  output : String

instance : Console BufferedConsole where
  print console text := { console with output := console.output ++ text }
  readLine console :=
    let (line, input) := Console.splitLine console.input
    (line, { console with input := input })
  readCharacter console :=
    let (character, input) := Console.splitCharacter console.input
    (character, { console with input := input })

/-- A console that receives its input byte by byte and sends its output text by text. -/
structure ChannelConsole where
  /-- The bytes that will be received. -/
  supply : List UInt8
  /-- What has been sent and accepted. -/
  output : String
  /-- How many more texts are accepted before all others are dropped, if there is an end to it. -/
  room : Option Nat

instance : Console ChannelConsole where
  print console text :=
    match console.room with
    | none => { console with output := console.output ++ text }
    | some 0 => console
    | some (room + 1) => { console with output := console.output ++ text, room := some room }
  readLine console :=
    let (line, supply) := Console.receiveLine [] console.supply
    (line, { console with supply := supply })
  readCharacter console :=
    let (character, supply) := Console.receiveCharacter [] console.supply
    (character, { console with supply := supply })

end Mips
