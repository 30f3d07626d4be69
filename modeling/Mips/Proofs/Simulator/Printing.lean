import Mips.Proofs.Assembly.Invariant
import Mips.Proofs.Execution.Scanning
import Mips.Proofs.Execution.Serving
import Mips.Proofs.Loading.Stack
import Mips.Proofs.Simulator.Loaded

/-!
Printing strings that a program holds. A string is stored as the bytes of its characters in UTF-8, but it is printed with
one character for each byte, so that only strings of ASCII characters are printed as they are written. Main statement:
`printed_of_asciiz`.
-/

namespace Mips

open Relation (ReflTransGen)

namespace Text.Utf8

/-- The text with one character for each byte. -/
def bytewise (bytes : List UInt8) : String := String.ofList (bytes.map fun byte => Char.ofNat byte.toNat)

/-- No byte of a character is zero, except that of the zero character. -/
theorem eq_of_mem_utf8EncodeChar {c : Char} (member : 0 ∈ String.utf8EncodeChar c) : c = '\x00' := by
  have nonzero {value : Nat} (positive : 0 < value) (small : value < 256) : (0 : UInt8) ≠ UInt8.ofNat value := by
    intro same
    have digits := congrArg UInt8.toNat same
    rw [UInt8.toNat_ofNat', Nat.mod_eq_of_lt small] at digits
    exact absurd digits (Nat.ne_of_lt positive)
  unfold String.utf8EncodeChar at member
  dsimp only at member
  split at member
  next small =>
    have zero : c.val.toNat = 0 := by
      by_contra other
      exact nonzero (Nat.pos_of_ne_zero other) (by omega) (List.mem_singleton.1 member)
    exact Char.ext (UInt32.toNat_inj.1 zero)
  next =>
    split at member
    next =>
      simp only [List.mem_cons, List.not_mem_nil, or_false] at member
      rcases member with same | same <;> exact absurd same (nonzero (by omega) (by omega))
    next =>
      split at member
      next =>
        simp only [List.mem_cons, List.not_mem_nil, or_false] at member
        rcases member with same | same | same <;> exact absurd same (nonzero (by omega) (by omega))
      next =>
        simp only [List.mem_cons, List.not_mem_nil, or_false] at member
        rcases member with same | same | same | same <;> exact absurd same (nonzero (by omega) (by omega))

theorem zero_notMem_ofText {text : String} (whole : '\x00' ∉ text.toList) : 0 ∉ ofText text := by
  intro member
  obtain ⟨c, listed, zero⟩ := List.mem_flatMap.1 member
  exact whole (eq_of_mem_utf8EncodeChar zero ▸ listed)

theorem utf8Size_eq_one_iff {c : Char} : c.utf8Size = 1 ↔ c.toNat < 0x80 := by
  rw [Char.utf8Size_eq_one_iff, UInt32.le_iff_toNat_le, ← Char.toNat_val]
  exact Nat.lt_succ_iff.symm

/-- Characters take as many bytes as they are exactly if they are ASCII. -/
theorem length_encode_eq_iff (characters : List Char) : characters.length ≤ (encode characters).length ∧
    ((encode characters).length = characters.length ↔ ∀ c ∈ characters, c.toNat < 0x80) := by
  rw [length_encode]
  induction characters with
  | nil => simp
  | cons c rest ih =>
    have positive := c.utf8Size_pos
    rw [byteLength_cons, List.length_cons, List.forall_mem_cons, ← utf8Size_eq_one_iff, ← ih.2]
    omega

theorem encode_eq_map {characters : List Char} (ascii : ∀ c ∈ characters, c.toNat < 0x80) :
    encode characters = characters.map fun c => c.val.toUInt8 := by
  induction characters with
  | nil => rfl
  | cons c rest ih =>
    rw [List.forall_mem_cons] at ascii
    rw [encode, List.flatMap_cons, String.utf8EncodeChar_eq_singleton (utf8Size_eq_one_iff.2 ascii.1), List.map_cons,
      ← ih ascii.2]
    rfl

/-- A text is had again from its bytes one by one exactly if it is ASCII. -/
theorem bytewise_ofText_eq_iff (text : String) :
    bytewise (ofText text) = text ↔ ∀ c ∈ text.toList, c.toNat < 0x80 := by
  constructor
  · intro same
    have length := congrArg (fun text => text.toList.length) same
    rw [bytewise, String.toList_ofList, List.length_map] at length
    exact (length_encode_eq_iff text.toList).2.1 length
  · intro ascii
    rw [bytewise, ofText, encode_eq_map ascii, List.map_map]
    have each : ∀ c ∈ text.toList, ((fun byte : UInt8 => Char.ofNat byte.toNat) ∘ fun c : Char => c.val.toUInt8) c = c := by
      intro c member
      have small := ascii c member
      have byte : c.val.toUInt8.toNat = c.toNat := by
        rw [UInt32.toNat_toUInt8, Char.toNat_val]
        omega
      rw [Function.comp_apply, byte, Char.ofNat_toNat]
    rw [List.map_congr_left each, List.map_id', String.ofList_toList]

end Text.Utf8

namespace Memory

variable {memory : Memory} {address : Address}

/-- A byte outside of the segments for instructions may be loaded. -/
theorem dataError?_byte {segment : Segment} (lies : memory.layout.segmentOf address = some segment)
    (other : segment.isText = false) : memory.dataError? .byte address = none := by
  have aligned : address % Width.byte.bytes = 0 := by
    rw [← UInt32.toNat_inj, UInt32.toNat_mod]
    exact Nat.mod_one _
  simp [dataError?, aligned, lies, other]

end Memory

namespace Service

/-- A string is read up to its zero byte. -/
theorem cString_of_bytesFrom {memory : Memory} {bytes : List UInt8} {address : Address} {limit : Nat}
    (room : bytes.length < limit) (nonzero : 0 ∉ bytes)
    (readable : ∀ index ≤ bytes.length, memory.dataError? .byte (address + UInt32.ofNat index) = none)
    (held : memory.bytesFrom address (bytes.length + 1) = bytes ++ [0]) :
    cString memory address limit = .ok (bytes.map fun byte => Char.ofNat byte.toNat) := by
  have length : (bytes ++ [0]).length = bytes.length + 1 := List.length_append
  rw [← length, Memory.bytesFrom_eq_iff] at held
  have ends : memory.byteAt (address + UInt32.ofNat bytes.length) = 0 := held _ 0 (by simp)
  obtain ⟨count, within, outcome, scans⟩ := exists_scans fun _ => ends
  have each (index : Nat) (inside : index < bytes.length) :
      memory.byteAt (address + UInt32.ofNat index) = bytes[index] :=
    held index _ (by rw [List.getElem?_append_left inside, List.getElem?_eq_getElem inside])
  have goesOn (index : Nat) (inside : index < bytes.length) : ¬memory.Stops (address + UInt32.ofNat index) := by
    intro stops
    have zero := stops (Memory.dataError?_eq_none_iff.1 (readable index (Nat.le_of_lt inside)))
    rw [each index inside] at zero
    exact nonzero (zero ▸ List.getElem_mem inside)
  obtain rfl := scans.count_eq bytes.length goesOn fun _ => ends
  have taken : memory.bytesFrom address bytes.length = bytes :=
    (Memory.bytesFrom_eq_iff memory).2 fun index byte found => by
      obtain ⟨inside, rfl⟩ := List.getElem?_eq_some_iff.1 found
      exact each index inside
  obtain ⟨-, -, came⟩ := scans.seen
  rw [cString_of_scans scans room, came, if_pos (Memory.dataError?_eq_none_iff.1 (readable _ within)), taken]

end Service

/-- A call that prints a string which can be read prints it with one character for each byte. -/
theorem Step.prints_of_service [Generator] {κ : Type} [Console κ] {machine : Machine} {delayed : Bool} {console : κ}
    {surroundings : Surroundings} {instruction : Instruction} {characters : List Char}
    (found : machine.instruction? = some instruction) (calls : instruction.operation = .syscall)
    (number : machine.get .v0 = 4)
    (read : Service.cString machine.memory (machine.get .a0) Service.addressSpace = .ok characters) :
    ∃ step, ofMachine machine delayed console surroundings = some step ∧ step.ending = .completed ∧
      step.console = Console.print console (String.ofList characters) := by
  have chosen : Service.ofNumber? (machine.get .v0) = some .printString := by
    rw [number]
    rfl
  have called := Machine.service?_eq_some_iff.2 ⟨instruction, found, calls, chosen⟩
  have performed : Service.printString.perform (ready machine) console surroundings =
      Service.printing console (String.ofList characters) := by
    change Service.cString (ready machine).memory ((ready machine).get .a0) Service.addressSpace = _ at read
    simp only [Service.perform, read]
  obtain ⟨step, given, completed, told, -, -⟩ :=
    resumes_of_service delayed called (congrArg ServiceResult.ending performed)
  exact ⟨step, given, completed, told.trans (congrArg ServiceResult.console performed)⟩

open Assembly

/-- What a placed directive takes fits into the address space. -/
theorem size_le_of_placed {settings : Settings} {sources : List Source} {placed : Placed}
    (member : placed ∈ (Placement.ofFiles settings (statements sources)).placed) {directive : Directive}
    (content : placed.statement.content = some (.directive directive)) : directive.size ≤ 0x100000000 := by
  rw [← List.mem_reverse, ← placed_reservations] at member
  obtain ⟨reservation, reserved, rfl⟩ := List.mem_map.1 member
  have sound := (accounts_statements settings sources).sound reservation reserved
  have takes := sound.takes
  have bounded := sound.bounded
  rw [Statement.Takes, content] at takes
  dsimp only at takes
  omega

namespace Simulator

variable [Generator] {κ : Type}

/-- Outside of the stack a loaded machine holds what the program put there, if no table of arguments reaches below it. -/
theorem byteAt_load {simulator : Simulator κ} {tree : FileTree} (valid : simulator.settings.Valid tree)
    (inside : simulator.settings.programArguments ≠ [] → ¬ simulator.settings.TableUnderruns) (program : Program)
    {address : Address} {segment : Segment} (lies : simulator.settings.layout.segmentOf address = some segment)
    (other : segment ≠ .stack) : (simulator.load program).machine.memory.byteAt address =
      (program.fill (.empty simulator.settings.layout simulator.settings.selfModifyingCode)).byteAt address := by
  by_cases given : simulator.settings.programArguments = []
  · have loaded : (simulator.load program).machine = .load simulator.settings program := machine_setState _ _
    rw [loaded, memory_load given]
  · have same := ((argumentsOnStack_of_load valid given).2 (inside given) program).2.2 address segment lies other
    refine Memory.byteAt_congr ?_
    rw [Memory.wordAt, Memory.wordAt, same]

variable [Console κ]

/--
A label in the sources of an assembled program that heads a string without a zero character is known to its file. From its
address on a loaded machine holds the bytes of the string in UTF-8 and a zero byte, if the arguments lie on the stack. In
any session, as long as these bytes are there, a call of the service that prints a string, with that address, prints one
character for each byte and completes. This is the string exactly if all of its characters are ASCII.
-/
theorem printed_of_asciiz {start : Simulator κ} {tree : FileTree} {sources : List Source} {program : Program}
    (valid : start.settings.Valid tree) (assembled : Mips.assemble start.settings sources = .ok program) {file : Nat}
    {contents : List Statement} {label : Label} {statement : Statement} {text : String}
    (found : (statements sources)[file]? = some contents) (heads : (label, some statement) ∈ headings [] contents)
    (content : statement.content = some (.directive (.asciiz text))) (whole : '\x00' ∉ text.toList) :
    let bytes := Text.Utf8.ofText text
    let printed := Text.Utf8.bytewise bytes
    ∃ symbol, program.symbols.lookup? file label.name = some symbol ∧
      ((start.settings.programArguments ≠ [] → ¬ start.settings.TableUnderruns) →
        (start.load program).machine.memory.bytesFrom symbol.address (bytes.length + 1) = bytes ++ [0]) ∧
      (∀ (simulator : Simulator κ) (past : List Machine) (outside : Outside) (instruction : Instruction),
        ReflTransGen Called (start.load program, []) (simulator, past) →
        simulator.machine.memory.bytesFrom symbol.address (bytes.length + 1) = bytes ++ [0] →
        simulator.machine.instruction? = some instruction → instruction.operation = .syscall →
        simulator.machine.get .v0 = 4 → simulator.machine.get .a0 = symbol.address →
          ∃ after, simulator.advance outside = (none, after) ∧
            after.console = Console.print simulator.console printed) ∧
      (printed = text ↔ ∀ c ∈ text.toList, c.toNat < 0x80) := by
  intro bytes printed
  have layout := Settings.layout_of_valid valid
  have successful := successful_ofFiles assembled
  have named : label.name ∈ definedNames contents := by
    rw [← names_headings]
    exact List.mem_map_of_mem heads
  obtain ⟨symbol, known, marks, -⟩ :=
    Placement.lookup?_of_means successful (.own ⟨contents, found, named⟩)
  have member := marks.lies contents found label statement heads rfl
  obtain ⟨stored, image, held⟩ := data_of_assemble assembled member content rfl
  obtain rfl : bytes ++ [0] = stored := Option.some.inj image
  have room : bytes.length < Service.addressSpace := by
    have size := size_le_of_placed member content
    rw [Directive.size, ← Text.Utf8.length_ofText] at size
    exact size
  have place (index : Nat) (inside : index ≤ bytes.length) :
      start.settings.layout.segmentOf (symbol.address + UInt32.ofNat index) = some .data ∨
        start.settings.layout.segmentOf (symbol.address + UInt32.ofNat index) = some .kernelData := by
    have bound : index < (bytes ++ [0]).length := by
      rw [List.length_append, List.length_singleton]
      omega
    have here := held index _ (List.getElem?_eq_getElem bound)
    exact (invariant_program assembled layout).data _ (Std.ExtTreeMap.mem_iff_isSome_getElem?.2 (by rw [here]; rfl))
  rw [← (program_of_assemble assembled).1] at known
  refine ⟨symbol, known, ?_, ?_, Text.Utf8.bytewise_ofText_eq_iff text⟩
  · intro arguments
    have length : (bytes ++ [0]).length = bytes.length + 1 := List.length_append
    rw [← length, Memory.bytesFrom_eq_iff]
    intro index byte present
    have inside : index ≤ bytes.length := by
      have bound := (List.getElem?_eq_some_iff.1 present).1
      omega
    have filled := Program.byteAt_fill (.empty start.settings.layout start.settings.selfModifyingCode) (held index byte present)
    rcases place index inside with lies | lies
    · rw [byteAt_load valid arguments program lies (by decide), filled]
    · rw [byteAt_load valid arguments program lies (by decide), filled]
  · intro simulator past outside instruction session intact executes calls number address
    have rules := (onTrail_of_session session).trail.rules.1
    have readable (index : Nat) (inside : index ≤ bytes.length) :
        simulator.machine.memory.dataError? .byte (symbol.address + UInt32.ofNat index) = none := by
      rcases place index inside with lies | lies <;> exact Memory.dataError?_byte (rules ▸ lies) rfl
    have read := Service.cString_of_bytesFrom room (Text.Utf8.zero_notMem_ofText whole) readable intact
    rw [← address] at read
    obtain ⟨step, next, ending, console⟩ : ∃ step, simulator.nextStep? outside = some step ∧ step.ending = .completed ∧
        step.console = Console.print simulator.console printed := Step.prints_of_service executes calls number read
    have advanced := advance_of_some next
    rw [ending] at advanced
    exact ⟨_, advanced, console⟩

/-- A simulator without a program, with a console that holds what is printed. -/
def recording : Simulator BufferedConsole :=
  ⟨{}, .blank {}, .empty (undoCapacity {}), ⟨[], ""⟩, .empty, .empty, {}, none, none, .idle, none, 0, 0⟩

end Simulator

end Mips

namespace Mips.Simulator

open Relation (ReflTransGen)
open Assembly

/-- A string of two ASCII characters is printed as it is written. -/
theorem printed_ascii :
    let sources : List Source :=
      [⟨"print.s", ".data\nmsg: .asciiz \"hi\"\n.text\nla $a0, msg\nli $v0, 4\nsyscall"⟩]
    let outside : Outside := ⟨fun _ => ⟨0, RandomStream.ofSeed⟩, fun _ _ => []⟩
    ∃ program after, Mips.assemble {} sources = .ok program ∧
      let simulator := ((((recording.load program).step outside).2.step outside).2.step outside).2
      simulator.advance outside = (none, after) ∧ after.console.output = "hi" := by
  intro sources outside
  have computed : ((Mips.assemble {} sources).toOption.any fun program =>
      let simulator := ((((recording.load program).step outside).2.step outside).2.step outside).2
      program.symbols.address? 0 "msg" = some 0x10010000 &&
        (simulator.machine.instruction?.any (fun instruction => instruction.operation = .syscall) &&
          simulator.machine.get .v0 = 4 && simulator.machine.get .a0 = 0x10010000 &&
          simulator.machine.memory.bytesFrom 0x10010000 3 = [104, 105, 0] && simulator.console.output = "")) = true := by
    decide +kernel
  obtain ⟨program, held, facts⟩ := (Option.any_eq_true _ _).1 computed
  simp only [Bool.and_eq_true, decide_eq_true_eq] at facts
  obtain ⟨known, ⟨⟨⟨executes, number⟩, argument⟩, intact⟩, silent⟩ := facts
  obtain ⟨instruction, executes, calls⟩ := (Option.any_eq_true _ _).1 executes
  have assembled := eq_ok_of_toOption held
  let statement : Statement := ⟨2, [⟨"msg", 0⟩], some (.directive (.asciiz "hi")), ⟨5, 17⟩⟩
  have parsed : (statements sources)[0]?.bind (fun contents => (headings [] contents)[0]?) =
      some (⟨"msg", 0⟩, some statement) := by
    decide +kernel
  obtain ⟨contents, found, heads⟩ := Option.bind_eq_some_iff.1 parsed
  let first := ((recording.load program).step outside).2
  let second := (first.step outside).2
  have session := ((ReflTransGen.single (Called.step (recording.load program) [] outside)).tail
    (.step first _ outside)).tail (.step second _ outside)
  have valid : recording.settings.Valid ⟨[], []⟩ := by
    have default : Settings.Valid {} ⟨[], []⟩ := by decide +kernel
    exact default
  obtain ⟨symbol, sought, -, prints, same⟩ := @printed_of_asciiz _ BufferedConsole _ recording ⟨[], []⟩ sources
    program valid assembled 0 contents ⟨"msg", 0⟩ statement "hi" found (List.mem_of_getElem? heads) rfl (by decide)
  have place : symbol.address = 0x10010000 := by
    rw [SymbolTable.address?, sought] at known
    exact Option.some.inj known
  rw [place] at prints
  obtain ⟨after, advanced, console⟩ := prints _ _ outside instruction session intact executes (of_decide_eq_true calls)
    number argument
  refine ⟨program, after, assembled, advanced, ?_⟩
  have ascii : "hi".toList.all (fun c => c.toNat < 0x80) = true := by decide
  rw [console, same.2 fun c member => of_decide_eq_true (List.all_eq_true.1 ascii c member)]
  change _ ++ "hi" = "hi"
  rw [silent]
  rfl

/-- Of a character that is stored in two bytes each byte is printed as a character. -/
theorem printed_not_ascii :
    let sources : List Source :=
      [⟨"print.s", ".data\nmsg: .asciiz \"é\"\n.text\nla $a0, msg\nli $v0, 4\nsyscall"⟩]
    let outside : Outside := ⟨fun _ => ⟨0, RandomStream.ofSeed⟩, fun _ _ => []⟩
    ∃ program, Mips.assemble {} sources = .ok program ∧
      let simulator := ((((recording.load program).step outside).2.step outside).2.step outside).2
      program.symbols.address? 0 "msg" = some (simulator.machine.get .a0) ∧ simulator.machine.get .v0 = 4 ∧
        simulator.console.output = "" ∧ (simulator.step outside).2.console.output = "Ã©" ∧
        (simulator.step outside).2.console.output ≠ "é" := by
  intro sources outside
  have computed : ((Mips.assemble {} sources).toOption.any fun program =>
      let simulator := ((((recording.load program).step outside).2.step outside).2.step outside).2
      program.symbols.address? 0 "msg" = some (simulator.machine.get .a0) && (simulator.machine.get .v0 = 4 &&
        (simulator.console.output = "" && (simulator.step outside).2.console.output = "Ã©"))) = true := by
    decide +kernel
  obtain ⟨program, held, facts⟩ := (Option.any_eq_true _ _).1 computed
  simp only [Bool.and_eq_true, decide_eq_true_eq] at facts
  obtain ⟨address, number, silent, printed⟩ := facts
  refine ⟨program, eq_ok_of_toOption held, address, number, silent, printed, ?_⟩
  rw [printed]
  decide

end Mips.Simulator
