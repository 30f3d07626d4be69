import Mips.Console
import Mips.Fault
import Mips.Text.Blank
import Mips.Text.Quoted

/-!
The services that a program calls. A service is chosen by the number in `$v0`, takes its arguments from `$a0` and
`$a1`, and gives its answer in `$v0` or `$a0`. Whatever a service prints or reads is not undone with it.
-/

namespace Mips

variable [Generator]

/-- What a program can ask for. -/
inductive Service where
  /-- Prints `$a0` as a signed number. -/
  | printInteger
  /-- Prints the bytes from `$a0` on up to a zero byte, one character for each. -/
  | printString
  /-- Reads a line with a number into `$v0`. -/
  | readInteger
  /-- Reads a line into a buffer at `$a0` of `$a1` bytes. -/
  | readString
  /-- Gives out `$a0` bytes of the heap; their address goes into `$v0`. -/
  | allocate
  | exit
  /-- Prints the low byte of `$a0` as a character. -/
  | printCharacter
  /-- Reads a character into `$v0`. -/
  | readCharacter
  /-- Ends the program with the code in `$a0`. -/
  | exitWithCode
  /-- Gives the milliseconds since 1970 in `$a0`, the low half, and `$a1`. -/
  | time
  /-- Waits for `$a0` milliseconds. -/
  | sleep
  /-- Prints `$a0` as eight hexadecimal digits. -/
  | printHexadecimal
  /-- Prints `$a0` as 32 bits. -/
  | printBinary
  /-- Prints `$a0` as an unsigned number. -/
  | printUnsigned
  /-- Begins the random stream with the number `$a0` anew, with the seed `$a1`. -/
  | seedStream
  /-- Draws a word from the random stream `$a0` into `$a0`. -/
  | drawWord
  /-- Draws a number below `$a1` from the random stream `$a0` into `$a0`. -/
  | drawBelow
  deriving DecidableEq, Repr

def Service.ofNumber? (number : Word) : Option Service :=
  match number.toNat with
  | 1 => some .printInteger
  | 4 => some .printString
  | 5 => some .readInteger
  | 8 => some .readString
  | 9 => some .allocate
  | 10 => some .exit
  | 11 => some .printCharacter
  | 12 => some .readCharacter
  | 17 => some .exitWithCode
  | 30 => some .time
  | 32 => some .sleep
  | 34 => some .printHexadecimal
  | 35 => some .printBinary
  | 36 => some .printUnsigned
  | 40 => some .seedStream
  | 41 => some .drawWord
  | 42 => some .drawBelow
  | _ => none

/-- What a service takes from outside the machine and its console. -/
structure Surroundings where
  /-- The milliseconds since the beginning of 1970. -/
  time : UInt64
  /-- How a random stream begins that was never seeded. -/
  freshStream : Word → RandomStream

/-- How a service ends that could do what was asked for. -/
inductive ServiceEnd where
  | resume (assignments : List Assignment)
  | exit (code : Int)

/-- What a service did: the console after it, what it printed, and how it ended. -/
structure ServiceResult (κ : Type) where
  console : κ
  printed : Option String
  ending : Except Interruption ServiceEnd

namespace Service

/-- A sign at the head of the characters is taken off; the flag tells whether it was a minus. -/
def splitSign : List Char → Bool × List Char
  | '-' :: rest => (true, rest)
  | '+' :: rest => (false, rest)
  | characters => (false, characters)

/-- The word that hexadecimal digits denote, which may follow a plus. -/
def hexadecimal? (characters : List Char) : Option Word :=
  let digits := match characters with
    | '+' :: rest => rest
    | characters => characters
  match Text.readNumeral? 16 digits with
  | some number => if number < 0x100000000 then some (UInt32.ofNat number) else none
  | none => none

/-- The signed number below `2^31` in magnitude that decimal digits denote, which may follow a sign. -/
def decimal? (negative : Bool) (characters : List Char) : Option Word :=
  let (inner, digits) := splitSign characters
  match Text.readNumeral? 10 digits with
  | some number =>
    let value : Int := if negative = inner then number else -number
    if -0x80000000 ≤ value ∧ value < 0x80000000 then some (Word.ofInt value) else none
  | none => none

/-- The word that an integer in decimal or hexadecimal denotes; hexadecimal digits are those of the word. -/
def parseInteger? (characters : List Char) : Option Word :=
  let (negative, rest) := splitSign characters
  match rest with
  | '0' :: 'x' :: digits | '0' :: 'X' :: digits =>
    (hexadecimal? digits).map fun word => if negative then -word else word
  | digits => decimal? negative digits

/--
The characters of the bytes from an address on, up to a zero byte. The bytes cannot be more than `limit`, which is
the size of the address space.
-/
def cString (memory : Memory) (address : Address) : (limit : Nat) → Except Fault (List Char)
  | 0 => .ok []
  | limit + 1 =>
    match memory.read .byte address with
    | .error error => .error (.ofMemory .load error)
    | .ok byte =>
      if byte = 0 then .ok []
      else (cString memory (address + 1) limit).map (Char.ofNat byte.toNat :: ·)

def addressSpace : Nat := 0x100000000

/--
What is stored of a line in a buffer of a signed length: as many bytes as leave room for a zero byte, then the
end of the line if there is room for it too, then the zero byte. One is taken from the length first, which overflows
at the least length of all, `-2^31`: what happens then is left out, and here nothing is stored.
-/
def bufferBytes (line : String) (length : Int) : List UInt8 :=
  if length ≤ 0 then []
  else
    let bytes := Text.Utf8.ofText line
    let room := (length - 1).toNat
    bytes.take room ++ (if bytes.length < room then [Console.newline] else []) ++ [0]

/-- Why the first byte that cannot be stored to cannot be, among so many bytes from an address on. -/
def storeError? (memory : Memory) (address : Address) : (count : Nat) → Option MemoryError
  | 0 => none
  | count + 1 =>
    match memory.dataError? .byte address with
    | some error => some error
    | none => storeError? memory (address + 1) count

/-- The assignments that store bytes one after another from an address on; those before a fault stay made. -/
def storeEach (memory : Memory) (address : Address) : List UInt8 → Except Interruption (List Assignment)
  | [] => .ok []
  | byte :: rest =>
    match memory.stored .byte address byte.toUInt32 with
    | .error error => .error (.atOnce (.ofMemory .store error))
    | .ok (aligned, word) =>
      let stored := Assignment.memory aligned (some word)
      match storeEach (memory.assign aligned (some word)) (address + 1) rest with
      | .error interruption => .error ⟨interruption.fault, stored :: interruption.assignments⟩
      | .ok others => .ok (stored :: others)

/-- The assignments that store bytes from an address on, once all of them were found to be storable. -/
def storeBytes (memory : Memory) (address : Address) (bytes : List UInt8) :
    Except Interruption (List Assignment) :=
  match storeError? memory address bytes.length with
  | some error => .error (.atOnce (.ofMemory .store error))
  | none => storeEach memory address bytes

/-- The assignments that give out bytes of the heap, rounded up to whole words. -/
def allocation (machine : Machine) (request : Int) : Except Interruption (List Assignment) :=
  if request < 0 then
    .error (.atOnce (.service
      ("cannot allocate a negative number of bytes (" ++ Text.decimal request ++ ")")))
  else
    let last := machine.heapBreak.toNat + (request.toNat + 3) / 4 * 4
    if machine.memory.layout.stackLimit.toNat < last then
      .error (.atOnce (.service ("heap cannot grow by " ++ Text.decimal request ++ " bytes")))
    else .ok [.heapBreak (UInt32.ofNat last), .register .v0 machine.heapBreak]

def drawn (machine : Machine) (surroundings : Surroundings) (number : Word)
    (draw : RandomStream → Word × RandomStream) : List Assignment :=
  let (word, stream) := draw (machine.streams[number]?.getD (surroundings.freshStream number))
  [.stream number (some stream), .register .a0 word]

variable {κ : Type} [Console κ]

def quiet (console : κ) (ending : Except Interruption (List Assignment)) : ServiceResult κ :=
  ⟨console, none, ending.map .resume⟩

def printing (console : κ) (text : String) : ServiceResult κ :=
  ⟨Console.print console text, some text, .ok (.resume [])⟩

/-- The fault of a service that needs input when there is none. -/
def noInput : Fault := .service "no input available"

/-- The number that a line of input denotes, or the fault if it denotes none. -/
def readInteger? (line : Option String) : Except Fault Word :=
  match line with
  | none => .error noInput
  | some line =>
    let text := Text.trim line.toList
    match parseInteger? text with
    | some word => .ok word
    | none => .error (.service (String.ofList (Text.quoted text) ++ " is not an integer"))

def perform (service : Service) (machine : Machine) (console : κ) (surroundings : Surroundings) :
    ServiceResult κ :=
  let a0 := machine.get .a0
  let a1 := machine.get .a1
  match service with
  | .printInteger => printing console (Text.decimal a0.signed)
  | .printString =>
    match cString machine.memory a0 addressSpace with
    | .error fault => quiet console (.error (.atOnce fault))
    | .ok characters => printing console (String.ofList characters)
  | .readInteger =>
    let (line, console) := Console.readLine console
    quiet console (((readInteger? line).mapError .atOnce).map fun word => [.register .v0 word])
  | .readString =>
    let (line, console) := Console.readLine console
    quiet console (storeBytes machine.memory a0 (bufferBytes (line.getD "") a1.signed))
  | .allocate => quiet console (allocation machine a0.signed)
  | .exit => ⟨console, none, .ok (.exit 0)⟩
  | .printCharacter => printing console (String.singleton (Char.ofNat a0.toUInt8.toNat))
  | .readCharacter =>
    let (character, console) := Console.readCharacter console
    quiet console <|
      match character with
      | none => .error (.atOnce noInput)
      | some c => .ok [.register .v0 c.val]
  | .exitWithCode => ⟨console, none, .ok (.exit a0.signed)⟩
  | .time =>
    quiet console (.ok [.register .a0 (Word.low surroundings.time),
      .register .a1 (Word.high surroundings.time)])
  | .sleep => quiet console (.ok [])
  | .printHexadecimal => printing console (Text.hex a0)
  | .printBinary => printing console (Text.bits a0)
  | .printUnsigned => printing console (Text.natural a0.toNat)
  | .seedStream => quiet console (.ok [.stream a0 (some (.ofSeed a1))])
  | .drawWord => quiet console (.ok (drawn machine surroundings a0 RandomStream.next))
  | .drawBelow =>
    quiet console <|
      if a1.signed ≤ 0 then
        .error (.atOnce (.service ("upper bound of random range must be positive (was " ++
          Text.decimal a1.signed ++ ")")))
      else .ok (drawn machine surroundings a0 (RandomStream.below a1))

/-- What the service does whose number is in `$v0`. -/
def call (machine : Machine) (console : κ) (surroundings : Surroundings) : ServiceResult κ :=
  match ofNumber? (machine.get .v0) with
  | some service => service.perform machine console surroundings
  | none => quiet console (.error (.atOnce (.unknownService (machine.get .v0))))

end Service

end Mips
