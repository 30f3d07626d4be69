import Mips.Proofs.Assembly.Completeness
import Mips.Proofs.Assembly.Contents
import Mips.Proofs.Simulator.Session

/-!
What is in memory when a program has been loaded without arguments: the program, down to the values that its data
directives say, and nothing else. Main statement: `image_of_load`.
-/

namespace Mips

open Relation (ReflTransGen)

/-- The words and bytes of the program are in memory, and everything else is absent or zero. -/
structure Memory.Holds (memory : Memory) (program : Program) : Prop where
  present : ∀ address, memory.words[address]?.isSome ↔
    address ∈ program.statements ∨ ∃ byte ∈ program.data, Word.align byte = address
  code : ∀ address statement, program.statementAt? address = some statement →
    memory.word? address = some statement.instruction.word
  data : ∀ address byte, program.data[address]? = some byte → memory.byteAt address = byte
  blank : ∀ address, address ∉ program.data → Word.align address ∉ program.statements → memory.byteAt address = 0

theorem Memory.byteAt_empty (layout : Layout) (selfModifying : Bool) (address : Address) :
    (Memory.empty layout selfModifying).byteAt address = 0 := by
  have absent : (Memory.empty layout selfModifying).wordAt address = 0 := by
    rw [wordAt, word?, empty, Std.ExtTreeMap.getElem?_empty]
    rfl
  rw [byteAt, absent, extract, UInt32.zero_shiftRight, UInt32.zero_and]
  rfl

variable [Generator]

/-- Without arguments nothing but the program is written to memory. -/
theorem memory_load {settings : Settings} (alone : settings.programArguments = []) (program : Program) :
    (Machine.load settings program).memory =
      program.fill (.empty settings.layout settings.selfModifyingCode) := by
  unfold Machine.load
  rw [alone]
  rfl

theorem holds_load {settings : Settings} (valid : settings.layout.Valid) (alone : settings.programArguments = [])
    {program : Program} (located : program.Located settings.layout) :
    (Machine.load settings program).memory.Holds program := by
  have ordered := Layout.ordered_of_valid valid
  let memory := Memory.empty settings.layout settings.selfModifyingCode
  rw [memory_load alone]
  constructor
  case present =>
    intro address
    rw [Program.isSome_words_fill located, Memory.empty, Std.ExtTreeMap.getElem?_empty]
    simp
  case code => exact fun address statement found => Program.word?_fill ordered located memory found
  case data => exact fun address byte found => Program.byteAt_fill memory found
  case blank =>
    intro address data code
    calc
      _ = memory.byteAt address := Program.byteAt_fill_of_not_mem located memory data code
      _ = 0 := Memory.byteAt_empty _ _ address

namespace Simulator

open Assembly

variable {κ : Type} [Console κ]

/--
After a program has been loaded without arguments, memory holds it and nothing else. Every instruction and every data
directive in its sources has been given an address, and from the address of a data directive on memory holds its values,
the least significant byte first and as often as they are repeated, or its text. A reset after any calls leads to the
same machine.
-/
theorem image_of_load {start : Simulator κ} {tree : FileTree} {sources : List Source} {program : Program}
    (valid : start.settings.Valid tree) (alone : start.settings.programArguments = [])
    (assembled : Mips.assemble start.settings sources = .ok program) :
    let machine := (start.load program).machine
    let placed := (Placement.ofFiles start.settings (statements sources)).placed
    machine.memory.Holds program ∧
      (∀ file written, (statements sources)[file]? = some written → ∀ statement ∈ written, statement.IsStored →
        ∃ address, ⟨file, statement, address⟩ ∈ placed) ∧
      (∀ entry ∈ placed, ∀ directive, entry.statement.content = some (.directive directive) →
        directive.isData = true → ∃ bytes, directive.image? (program.symbols.address? entry.file) = some bytes ∧
          machine.memory.bytesFrom entry.address bytes.length = bytes) ∧
      ∀ simulator past, ReflTransGen Called (start.load program, []) (simulator, past) →
        simulator.reset.machine = machine := by
  intro machine placed
  have layout := Settings.layout_of_valid valid
  have loaded : machine = .load start.settings program := machine_setState _ _
  have holds : machine.memory.Holds program := loaded ▸ holds_load layout alone (located_of_assemble assembled layout)
  refine ⟨holds, ?_, ?_, fun simulator past session => reset_of_session session⟩
  · intro file written found statement member stored
    exact placed_of_assemble assembled found member stored
  · intro entry member directive content data
    obtain ⟨bytes, image, held⟩ := data_of_assemble assembled member content data
    refine ⟨bytes, image, (machine.memory.bytesFrom_eq_iff).2 ?_⟩
    exact fun index byte found => holds.data _ byte (held index byte found)

end Simulator

end Mips

namespace Mips.Simulator

open Relation (ReflTransGen)
open Assembly

/-- A word behind two bytes is aligned, and holds the address of an instruction and what is added to that. -/
theorem holds_of_bytes :
    let sources : List Source := [⟨"bytes.s", "nop\nnext: nop\n.data\n.byte 7:2\n.word next+2\n"⟩]
    ∃ program, Mips.assemble {} sources = .ok program ∧
      let machine := ((loaded {} program).load program).machine
      machine.memory.Holds program ∧ machine.memory.bytesFrom 0x10010004 4 = [6, 0, 64, 0] := by
  intro sources
  have computed : ((Mips.assemble {} sources).toOption.any fun program =>
      program.symbols.address? 0 "next" = some 0x00400004) = true := by
    decide +kernel
  obtain ⟨program, held, next⟩ := (Option.any_eq_true _ _).1 computed
  rw [decide_eq_true_eq] at next
  have assembled := eq_ok_of_toOption held
  have last : (Placement.ofFiles {} (statements sources)).placed.head?.map (fun placed =>
      (placed.file, placed.statement.content, placed.address)) =
        some (0, some (.directive (.word [⟨.label ⟨"next", 6⟩ 2, 1⟩])), 0x10010004) := by
    decide +kernel
  obtain ⟨placed, first, same⟩ := Option.map_eq_some_iff.1 last
  obtain ⟨file, content, address⟩ : placed.file = 0 ∧
      placed.statement.content = some (.directive (.word [⟨.label ⟨"next", 6⟩ 2, 1⟩])) ∧
      placed.address = 0x10010004 := by
    simpa using same
  have valid : Settings.Valid {} ⟨[], []⟩ := by decide +kernel
  let start := loaded {} program
  obtain ⟨holds, -, data, -⟩ := @image_of_load _ _ _ start ⟨[], []⟩ _ _ valid rfl assembled
  obtain ⟨bytes, image, read⟩ := data placed (List.mem_of_head? first) _ content rfl
  have known : (Directive.word [⟨.label ⟨"next", 6⟩ 2, 1⟩]).image? (program.symbols.address? 0) =
      some [6, 0, 64, 0] := by
    simp [Directive.image?, DataItem.image?, DataValue.number?, next, littleEndian]
  rw [file, known] at image
  cases image
  rw [address] at read
  exact ⟨program, assembled, holds, read⟩

end Mips.Simulator
