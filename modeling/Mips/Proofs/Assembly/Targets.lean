import Mips.Proofs.Assembly.Completeness
import Mips.Proofs.Assembly.Contents
import Mips.Proofs.Expansion.Aim
import Mips.Proofs.Simulator.Alignment

/-!
Where the branches and jumps of an assembled program go whose targets are written with labels: to the address of the
label and the number that is added to it, or else there is no program. Main statement: `targets_of_assemble`.
-/

namespace Mips

open Std (ExtTreeMap)

namespace Emission

/-- Instructions that are emitted without an error lie behind each other, with the line of their statement. -/
theorem statements_emitInstructions {placed : Placed} {emission : Emission} {start : Nat} {source : Option String}
    {instructions : List Instruction}
    (successful : (emitInstructions placed emission (UInt32.ofNat start) source instructions).Successful)
    {index : Nat} {instruction : Instruction} (found : instructions[index]? = some instruction) :
    ∃ text, (emitInstructions placed emission (UInt32.ofNat start) source instructions).statements[
        UInt32.ofNat (start + 4 * index)]? =
      some ⟨UInt32.ofNat (start + 4 * index), instruction, placed.file, placed.statement.line, text⟩ := by
  induction instructions generalizing emission start source index with
  | nil => cases found
  | cons first rest ih =>
    have next : UInt32.ofNat start + 4 = UInt32.ofNat (start + 4) := (UInt32.ofNat_add _ _).symm
    unfold emitInstructions at successful ⊢
    dsimp only at successful ⊢
    rw [next] at successful ⊢
    split at successful
    next taken =>
      have rejected := successful.of_suffix (findings_emitInstructions ..)
      exact absurd rejected (not_successful_reject rfl)
    next free =>
      rw [if_neg free]
      cases index with
      | zero =>
        -- The instructions behind it are emitted later, but not in its place.
        cases found
        have here : start + 4 * 0 = start := rfl
        have kept := (grows_emitInstructions successful).1.kept (UInt32.ofNat start) ExtTreeMap.mem_insert_self
        rw [here, kept]
        exact ⟨source, ExtTreeMap.getElem?_insert_self⟩
      | succ index =>
        obtain ⟨text, emitted⟩ := ih successful found
        have position : start + 4 + 4 * index = start + 4 * (index + 1) := by omega
        rw [position] at emitted
        exact ⟨text, emitted⟩

variable {settings : Settings} {symbols : SymbolTable} {sources : List (Array String)} {emission : Emission}
  {written : WrittenInstruction}

/-- An instruction is emitted without an error only by emitting what it becomes. -/
theorem expands_of_emit {placed : Placed} (content : placed.statement.content = some (.instruction written))
    (successful : (emit settings symbols sources emission placed).Successful) :
    ∃ instructions source,
      written.expand ⟨placed.address, settings.extendedAssembler, settings.delayedBranching,
        some (resolve symbols placed.file)⟩ = .ok instructions ∧
      emit settings symbols sources emission placed =
        emitInstructions placed emission placed.address source instructions := by
  let context : ExpansionContext := ⟨placed.address, settings.extendedAssembler, settings.delayedBranching,
    some (resolve symbols placed.file)⟩
  have resolves : context.Resolves := by
    rintro _ ⟨⟩ label
    exact severe_resolve symbols placed.file label
  have severe := severe_expand resolves written
  cases expanded : written.expand context with
  | error problem =>
    rw [expanded] at severe
    simp only [emit, content, expanded, context] at successful
    exact absurd successful (not_successful_reject severe)
  | ok instructions =>
    refine ⟨instructions, (sources[placed.file]?.getD #[])[placed.statement.line - 1]?, rfl, ?_⟩
    simp only [emit, content, expanded, context]

/-- What an instruction becomes that is emitted without an error lies from the address on that it was given. -/
theorem statements_emit_instruction {reservation : Reservation} (sound : reservation.Sound settings)
    (content : reservation.placed.statement.content = some (.instruction written))
    (successful : (emit settings symbols sources emission reservation.placed).Successful) :
    let placed := reservation.placed
    ∃ instructions, placed.statement.Takes settings placed.address (4 * instructions.length) ∧
      written.expand ⟨placed.address, settings.extendedAssembler, settings.delayedBranching,
        some (resolve symbols placed.file)⟩ = .ok instructions ∧
      ∀ index instruction, instructions[index]? = some instruction →
        ∃ text, (emit settings symbols sources emission placed).statements[
            placed.address + 4 * UInt32.ofNat index]? =
          some ⟨placed.address + 4 * UInt32.ofNat index, instruction, placed.file, placed.statement.line, text⟩ := by
  intro placed
  obtain ⟨instructions, source, expanded, same⟩ := expands_of_emit content successful
  refine ⟨instructions, ?_, expanded, ?_⟩
  · obtain ⟨plan, planned, length⟩ := foresees_expand written _ instructions expanded
    rw [Statement.Takes, content]
    exact ⟨plan, by rw [length], planned⟩
  · intro index instruction found
    have position : placed.address + 4 * UInt32.ofNat index = UInt32.ofNat (reservation.start + 4 * index) := by
      rw [UInt32.ofNat_add, UInt32.ofNat_mul, sound.address]
      rfl
    rw [same, sound.address] at successful
    rw [position, same, sound.address]
    exact statements_emitInstructions successful found

end Emission

/-- The statement of a program is the one at an index that a placed statement became. -/
structure Placed.Becomes (placed : Placed) (program : Program) (index : Nat) (statement : ProgramStatement) : Prop where
  found : program.statementAt? (placed.address + 4 * UInt32.ofNat index) = some statement
  address : statement.address = placed.address + 4 * UInt32.ofNat index
  file : statement.file = placed.file
  line : statement.line = placed.statement.line

/--
The statement goes to the target. What its fields say leads there, if it is a jump or lies where it can be executed, and
each machine that executes it goes there unless it goes on behind it.
-/
structure ProgramStatement.GoesTo (statement : ProgramStatement) (target : Address) : Prop where
  aims : statement.instruction.operation.aims = true
  goal : statement.instruction.operation.format = .jump ∨ Word.isAligned statement.address = true →
    statement.instruction.goal statement.address = target
  taken : ∀ [Generator] (machine : Machine) (destination : Address), machine.pc = statement.address →
    machine.instruction? = some statement.instruction → machine.destination? = some destination → destination = target

/-- A statement becomes this many instructions and a last one behind them, which is the only one to go anywhere. -/
structure Placed.Leads (placed : Placed) (settings : Settings) (program : Program) (jumps : Bool) (target : Address)
    (count : Nat) (last : ProgramStatement) : Prop where
  takes : placed.statement.Takes settings placed.address (4 * (count + 1))
  becomes : placed.Becomes program count last
  goes : last.GoesTo target
  reach : InReach jumps last.address target
  aligned : settings.layout.Valid → Word.isAligned last.address = true
  computes : ∀ index, index < count →
    ∃ other, placed.Becomes program index other ∧ other.instruction.operation.aims = false

/-- How many bytes a statement takes is determined before any label is known. -/
theorem Statement.Takes.unique {settings : Settings} {statement : Statement} {address : Address} {first second : Nat}
    (takes : statement.Takes settings address first) (again : statement.Takes settings address second) :
    first = second := by
  unfold Takes at takes again
  split at takes
  case h_1 => exact takes.elim
  case h_2 written content =>
    rw [content] at again
    obtain ⟨instructions, size, expanded⟩ := takes
    obtain ⟨others, other, same⟩ := again
    cases expanded.symm.trans same
    omega
  case h_3 directive content =>
    rw [content] at again
    exact takes.trans again.symm

theorem ProgramStatement.goesTo_of_goal {statement : ProgramStatement} {target : Address}
    (aims : statement.instruction.operation.aims = true)
    (goal : statement.instruction.operation.format = .jump ∨ Word.isAligned statement.address = true →
      statement.instruction.goal statement.address = target) : statement.GoesTo target := by
  refine ⟨aims, goal, ?_⟩
  intro _ machine destination arrived executed led
  obtain ⟨present, -⟩ := Machine.instruction?_eq_some_iff.1 executed
  have aligned := arrived ▸ Memory.isAligned_of_fetch present
  rw [Machine.destination?, executed] at led
  have leads := Instruction.goal_of_destination? aims led
  rw [arrived, goal (.inr aligned)] at leads
  exact leads.symm

open Assembly

section Assembled

variable {settings : Settings} {sources : List Source} {program : Program}
  (assembled : assemble settings sources = .ok program) {placed : Placed}
  (member : placed ∈ (Placement.ofFiles settings (statements sources)).placed) {written : WrittenInstruction}
  (content : placed.statement.content = some (.instruction written))

include assembled member content

/-- What a written instruction becomes is found in the program from the address on that it was given. -/
theorem expansion_of_assemble : ∃ instructions,
    placed.statement.Takes settings placed.address (4 * instructions.length) ∧
      written.expand ⟨placed.address, settings.extendedAssembler, settings.delayedBranching,
        some (Emission.resolve program.symbols placed.file)⟩ = .ok instructions ∧
      ∀ index instruction, instructions[index]? = some instruction →
        ∃ statement, placed.Becomes program index statement ∧ statement.instruction = instruction := by
  obtain ⟨reservation, texts, emission, rfl, sound, successful, kept, -⟩ := emitted_of_assemble assembled member
  obtain ⟨instructions, takes, expanded, emitted⟩ := Emission.statements_emit_instruction sound content successful
  refine ⟨instructions, takes, expanded, ?_⟩
  intro index instruction found
  obtain ⟨text, here⟩ := emitted index instruction found
  exact ⟨_, ⟨kept _ _ here, rfl, rfl, rfl⟩, rfl⟩

/-- The last instruction that a branch or jump becomes goes to the address of its label and the number that is added. -/
theorem leads_of_assemble {named : Label} {addend : Int} (aims : written.aim? = some (named, addend)) :
    ∃ symbol count last, program.symbols.lookup? placed.file named.name = some symbol ∧
      placed.Leads settings program written.mnemonic.jumps (symbol.address + Word.ofInt addend) count last := by
  obtain ⟨instructions, takes, expanded, emitted⟩ := expansion_of_assemble assembled member content
  obtain ⟨before, last, same, aimed, computes⟩ := Expansion.aimed_of_expand aims expanded
  obtain ⟨start, known, reach, aiming, goal⟩ := Expansion.goal_of_aims rfl aimed
  obtain ⟨symbol, found, rfl⟩ : ∃ symbol, program.symbols.lookup? placed.file named.name = some symbol ∧
      symbol.address = start := by
    unfold Emission.resolve at known
    split at known
    next symbol found =>
      cases known
      exact ⟨symbol, found, rfl⟩
    next => cases known
  obtain ⟨statement, becomes, rfl⟩ := emitted before.length last (by rw [same]; simp)
  refine ⟨symbol, before.length, statement, found, ?_⟩
  constructor
  case takes => rwa [same, List.length_append] at takes
  case becomes => exact becomes
  case goes =>
    apply ProgramStatement.goesTo_of_goal aiming
    rw [becomes.address]
    exact goal
  case reach =>
    rw [becomes.address]
    exact reach
  case aligned =>
    intro valid
    rw [becomes.address]
    exact (located_of_assemble assembled valid).aligned _
      (ExtTreeMap.mem_iff_isSome_getElem?.2 (Option.isSome_iff_exists.2 ⟨_, becomes.found⟩))
  case computes =>
    intro index inside
    have found : instructions[index]? = some before[index] := by
      rw [same, List.getElem?_append_left inside, List.getElem?_eq_getElem inside]
    obtain ⟨other, lies, computed⟩ := emitted index before[index] found
    exact ⟨other, lies, computed ▸ computes _ (List.getElem_mem inside)⟩

end Assembled

/-- A branch or jump that was placed takes at least one instruction, the last of which is to go to the target. -/
theorem exists_takes {settings : Settings} {sources : List Source} {placed : Placed}
    (member : placed ∈ (Placement.ofFiles settings (statements sources)).placed) {written : WrittenInstruction}
    (content : placed.statement.content = some (.instruction written)) {named : Label} {addend : Int}
    (aims : written.aim? = some (named, addend)) :
    ∃ count, placed.statement.Takes settings placed.address (4 * (count + 1)) := by
  rw [← List.mem_reverse, ← placed_reservations] at member
  obtain ⟨reservation, reserved, rfl⟩ := List.mem_map.1 member
  have takes := ((accounts_statements settings sources).sound reservation reserved).takes
  rw [Statement.Takes, content] at takes
  obtain ⟨planned, -, sized⟩ := takes
  obtain ⟨before, last, rfl, -⟩ := Expansion.aimed_of_expand aims sized
  refine ⟨before.length, ?_⟩
  rw [Statement.Takes, content]
  exact ⟨_, by rw [List.length_append, List.length_singleton], sized⟩

/--
Labels are reached exactly. Wherever a branch or jump of an assembled program was placed whose target is written as a
label and a number, the last instruction that it became goes to the address of the symbol that the label stands for in
its file plus that number, and the instructions before it go nowhere. There is no program if such a target is no
multiple of four, too far away for a branch, or outside of the region of the instruction behind a jump.
-/
theorem targets_of_assemble (settings : Settings) (sources : List Source) :
    let placement := Placement.ofFiles settings (statements sources)
    (∀ (program : Program) (file : Nat) (contents : List Statement) (statement : Statement)
        (written : WrittenInstruction) (named : Label) (addend : Int),
      assemble settings sources = .ok program → (statements sources)[file]? = some contents → statement ∈ contents →
        statement.content = some (.instruction written) → written.aim? = some (named, addend) →
          ∃ symbol, program.symbols.lookup? file named.name = some symbol ∧
            (∃ address, ⟨file, statement, address⟩ ∈ placement.placed) ∧
            ∀ address, ⟨file, statement, address⟩ ∈ placement.placed →
              ∃ count last, Placed.Leads ⟨file, statement, address⟩ settings program written.mnemonic.jumps
                (symbol.address + Word.ofInt addend) count last) ∧
    ∀ (placed : Placed) (written : WrittenInstruction) (named : Label) (addend : Int) (symbol : Symbol),
      placed ∈ placement.placed → placed.statement.content = some (.instruction written) →
        written.aim? = some (named, addend) → placement.symbols.lookup? placed.file named.name = some symbol →
          ∃ count, placed.statement.Takes settings placed.address (4 * (count + 1)) ∧
            (¬ InReach written.mnemonic.jumps (placed.address + 4 * UInt32.ofNat count)
                (symbol.address + Word.ofInt addend) →
              ∃ diagnostics, assemble settings sources = .error diagnostics) := by
  intro placement
  refine ⟨?_, ?_⟩
  · intro program file contents statement written named addend assembled found listed content aims
    have stored : statement.IsStored := by
      rw [Statement.IsStored, content]
      trivial
    obtain ⟨address, member⟩ := placed_of_assemble assembled found listed stored
    obtain ⟨symbol, -, -, known, -⟩ := leads_of_assemble assembled member content aims
    refine ⟨symbol, known, ⟨address, member⟩, ?_⟩
    intro other present
    obtain ⟨same, count, last, again, leads⟩ := leads_of_assemble assembled present content aims
    cases known.symm.trans again
    exact ⟨count, last, leads⟩
  · intro placed written named addend symbol member content aims known
    obtain ⟨count, takes⟩ := exists_takes member content aims
    refine ⟨count, takes, ?_⟩
    intro missed
    cases assembled : assemble settings sources with
    | error diagnostics => exact ⟨diagnostics, rfl⟩
    | ok program =>
      obtain ⟨same, total, last, again, leads⟩ := leads_of_assemble assembled member content aims
      rw [(program_of_assemble assembled).1] at again
      cases known.symm.trans again
      have size := takes.unique leads.takes
      obtain rfl : count = total := by omega
      have reach := leads.reach
      rw [leads.becomes.address] at reach
      exact absurd reach missed

/-- A comparison with a large number branches behind its first instruction, and no jump leads to data. -/
theorem targets_of_comparison :
    let near : List Source := [⟨"near.s", "main: bge $v0, 70000, main+4"⟩]
    let far : List Source := [⟨"far.s", "j x\n.data\nx: .word 0"⟩]
    (∃ program last, assemble {} near = .ok program ∧ program.statementAt? 0x0040000C = some last ∧
      last.GoesTo 0x00400004) ∧
    ∃ diagnostics, assemble {} far = .error diagnostics := by
  intro near far
  refine ⟨?_, ?_⟩
  · have computed : (assemble {} near).toOption.isSome = true := by decide +kernel
    obtain ⟨program, assembled⟩ := Option.isSome_iff_exists.1 computed
    have successful := eq_ok_of_toOption assembled
    let written : WrittenInstruction :=
      ⟨.pseudo .bge, [.register .v0, .immediate 70000, .label ⟨"main", 22⟩ 4]⟩
    let statement : Statement := ⟨1, [⟨"main", 0⟩], some (.instruction written), ⟨6, 28⟩⟩
    have parsed : statements near = [[statement]] := by decide +kernel
    have places : (Placement.ofFiles {} (statements near)).placed.map (fun placed => (placed.file, placed.address)) =
        [(0, 0x00400000)] := by
      decide +kernel
    have address : ((Placement.ofFiles {} (statements near)).symbols.lookup? 0 "main").map Symbol.address =
        some 0x00400000 := by
      decide +kernel
    obtain ⟨symbol, known, ⟨start, member⟩, reaches⟩ := (targets_of_assemble {} near).1 program 0 [statement] statement
      written ⟨"main", 22⟩ 4 successful (by rw [parsed]; rfl) List.mem_cons_self rfl rfl
    obtain ⟨count, last, takes, becomes, goes, -⟩ := reaches start member
    obtain rfl : start = 0x00400000 := by
      have listed := List.mem_map_of_mem (f := fun placed : Placed => (placed.file, placed.address)) member
      rw [places] at listed
      simpa using listed
    have size : statement.Takes {} 0x00400000 (4 * (3 + 1)) := ⟨_, rfl, rfl⟩
    obtain rfl : count = 3 := by
      have same := takes.unique size
      omega
    rw [(program_of_assemble successful).1] at known
    rw [known] at address
    have label : symbol.address = 0x00400000 := Option.some.inj address
    rw [label] at goes
    exact ⟨program, last, successful, becomes.found, goes⟩
  · let written : WrittenInstruction := ⟨.machine .j, [.label ⟨"x", 2⟩ 0]⟩
    let statement : Statement := ⟨1, [], some (.instruction written), ⟨0, 3⟩⟩
    have places : (Placement.ofFiles {} (statements far)).placed.map
        (fun placed => (placed.file, placed.statement, placed.address)) =
        [(0, ⟨3, [⟨"x", 0⟩], some (.directive (.word [⟨.integer 0, 1⟩])), ⟨3, 10⟩⟩, 0x10010000),
          (0, statement, 0x00400000)] := by
      decide +kernel
    have member : ⟨0, statement, 0x00400000⟩ ∈ (Placement.ofFiles {} (statements far)).placed := by
      have listed : (0, statement, (0x00400000 : Address)) ∈ (Placement.ofFiles {} (statements far)).placed.map
          (fun placed => (placed.file, placed.statement, placed.address)) := by
        rw [places]
        simp
      obtain ⟨⟨file, other, place⟩, present, same⟩ := List.mem_map.1 listed
      obtain ⟨rfl, rfl, rfl⟩ : file = 0 ∧ other = statement ∧ place = 0x00400000 := by simpa using same
      exact present
    have address : ((Placement.ofFiles {} (statements far)).symbols.lookup? 0 "x").map Symbol.address =
        some 0x10010000 := by
      decide +kernel
    obtain ⟨symbol, known, label⟩ := Option.map_eq_some_iff.1 address
    obtain ⟨count, takes, fails⟩ := (targets_of_assemble {} far).2 _ written ⟨"x", 2⟩ 0 symbol member rfl rfl known
    apply fails
    intro reach
    have size : statement.Takes {} 0x00400000 (4 * (0 + 1)) := ⟨_, rfl, rfl⟩
    obtain rfl : count = 0 := by
      have same := takes.unique size
      omega
    have region := reach.region rfl
    rw [label] at region
    exact absurd region (by decide)

end Mips
