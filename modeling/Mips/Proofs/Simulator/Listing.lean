import Mips.Proofs.Instruction.Decoding
import Mips.Proofs.Simulator.Loaded

/-!
Without self-modifying code a machine executes the program that was loaded, whatever the program does. Main statement:
`executes_of_session`.
-/

namespace Mips

open Relation (ReflTransGen)

/-- No store changes a word of a text segment if code is not to be modified. -/
theorem Memory.not_storable_of_isText {memory : Memory} (ordered : memory.layout.Ordered)
    (fixed : memory.selfModifying = false) {address : Address} (text : memory.layout.IsText address) :
    ¬memory.Storable address := by
  rintro ⟨width, target, accepted, rfl⟩
  unfold dataError? at accepted
  split at accepted
  · cases accepted
  split at accepted
  next => cases accepted
  next segment mapped =>
    rw [fixed, Bool.not_false, Bool.and_true] at accepted
    cases data : segment.isText with
    | true =>
      rw [data] at accepted
      cases accepted
    | false => exact Layout.not_isText_align ordered mapped data text

/-- If code is not to be modified, then instructions are fetched from text segments only. -/
theorem Memory.fetch_eq {memory : Memory} (fixed : memory.selfModifying = false) (address : Address) :
    memory.fetch address =
      if Word.isAligned address = false then .error (.misaligned address)
      else if memory.layout.IsText address then .ok memory.words[address]?
      else .error (.inaccessible address) := by
  unfold fetch
  rw [fixed, Bool.not_false]
  cases Word.isAligned address with
  | false => rfl
  | true =>
    cases mapped : memory.layout.segmentOf address with
    | none => simp [Layout.IsText, mapped]
    | some segment => cases text : segment.isText <;> simp [Layout.IsText, mapped, text]

/-- The words of text segments are those of the statements. -/
theorem Memory.Holds.words_eq {memory : Memory} {program : Program} (holds : memory.Holds program) {layout : Layout}
    (ordered : layout.Ordered) (located : program.Located layout) {address : Address}
    (aligned : Word.isAligned address = true) (text : layout.IsText address) :
    memory.words[address]? = (program.statementAt? address).map fun statement => statement.instruction.word := by
  cases found : program.statementAt? address with
  | some statement =>
    have held := holds.code address statement found
    rwa [word?, Word.align_of_isAligned aligned] at held
  | none =>
    rw [Option.map_none, ← Option.not_isSome_iff_eq_none, holds.present]
    rintro (code | ⟨byte, data, rfl⟩)
    · rw [Std.ExtTreeMap.mem_iff_isSome_getElem?] at code
      rw [Program.statementAt?] at found
      rw [found] at code
      cases code
    · obtain ⟨segment, mapped, other⟩ := located.data byte data
      exact Layout.not_isText_align ordered mapped other text

namespace Machine.Trail

variable [Generator] {settings : Settings} {program : Program} {machine : Machine} {past : List Machine}
  (trail : Trail settings program machine past) (valid : settings.layout.Valid)
  (fixed : settings.selfModifyingCode = false)

include trail valid fixed

/-- The words of text segments stay as they were loaded. -/
theorem words_eq {address : Address} (text : settings.layout.IsText address) :
    machine.memory.words[address]? = (Machine.load settings program).memory.words[address]? := by
  induction trail with
  | load => rfl
  | @step machine past trail κ _ console surroundings step found ih =>
    obtain ⟨layout, selfModifying⟩ := trail.rules
    have guarded : ¬machine.memory.Storable address := by
      apply Memory.not_storable_of_isText
      · rw [layout]
        exact Layout.ordered_of_valid valid
      · rw [selfModifying, fixed]
      · rw [layout]
        exact text
    rw [Step.word_of_step found guarded, ih]

variable (alone : settings.programArguments = []) (located : program.Located settings.layout)

include alone located

/-- What is fetched in a text segment is a statement of the program. -/
theorem fetch_eq (address : Address) :
    machine.memory.fetch address =
      if Word.isAligned address = false then .error (.misaligned address)
      else if settings.layout.IsText address then
        .ok ((program.statementAt? address).map fun statement => statement.instruction.word)
      else .error (.inaccessible address) := by
  obtain ⟨layout, selfModifying⟩ := trail.rules
  have fetched := Memory.fetch_eq (selfModifying.trans fixed) address
  rw [layout] at fetched
  rw [fetched]
  by_cases misaligned : Word.isAligned address = false
  · rw [if_pos misaligned, if_pos misaligned]
  by_cases text : settings.layout.IsText address
  · have words := (holds_load valid alone located).words_eq (Layout.ordered_of_valid valid) located
      (Bool.of_not_eq_false misaligned) text
    rw [if_neg misaligned, if_neg misaligned, if_pos text, if_pos text, trail.words_eq valid fixed text, words]
  · rw [if_neg misaligned, if_neg misaligned, if_neg text, if_neg text]

theorem fetch_of_statement {address : Address} {statement : ProgramStatement}
    (found : program.statementAt? address = some statement) :
    machine.memory.fetch address = .ok (some statement.instruction.word) := by
  have here : address ∈ program.statements := (Std.ExtTreeMap.getElem?_eq_some_iff.1 found).fst
  rw [trail.fetch_eq valid fixed alone located, located.aligned _ here, if_neg (by decide),
    if_pos (located.code _ here), found]
  rfl

theorem fetch_eq_none_iff {address : Address} :
    machine.memory.fetch address = .ok none ↔
      Word.isAligned address = true ∧ settings.layout.IsText address ∧ program.statementAt? address = none := by
  rw [trail.fetch_eq valid fixed alone located]
  by_cases misaligned : Word.isAligned address = false
  · simp [misaligned]
  by_cases text : settings.layout.IsText address
  · rw [if_neg misaligned, if_pos text]
    simp [misaligned, text]
  · rw [if_neg misaligned, if_neg text]
    simp [text]

/-- Nothing is fetched elsewhere. -/
theorem fetch_of_not {address : Address} (elsewhere : ¬(Word.isAligned address = true ∧ settings.layout.IsText address)) :
    machine.memory.fetch address =
      .error (if Word.isAligned address = true then .inaccessible address else .misaligned address) := by
  rw [trail.fetch_eq valid fixed alone located]
  by_cases misaligned : Word.isAligned address = false
  · rw [if_pos misaligned, misaligned]
    rfl
  · have aligned := Bool.of_not_eq_false misaligned
    rw [if_neg misaligned, if_neg fun text => elsewhere ⟨aligned, text⟩, if_pos aligned]

end Machine.Trail

namespace Simulator

variable [Generator] {κ : Type} [Console κ]

/-- A program drops off the bottom where there is no instruction, and nowhere else. -/
theorem droppedOffBottom_iff (simulator : Simulator κ) (outside : Outside) :
    (simulator.advance outside).1 = some .droppedOffBottom ↔
      simulator.machine.memory.fetch simulator.machine.pc = .ok none := by
  have ended : simulator.nextStep? outside = none ↔
      simulator.machine.memory.fetch simulator.machine.pc = .ok none := by
    unfold nextStep? Step.ofMachine
    split
    next error refused => simp [refused]
    next absent => simp [absent]
    next word present => simp [present]
  rw [← ended]
  constructor
  · intro dropped
    cases found : simulator.nextStep? outside with
    | none => rfl
    | some step =>
      rw [advance_of_some found] at dropped
      split at dropped <;> cases dropped
  · intro absent
    rw [advance_of_none absent]

/--
Without self-modifying code the words of text segments are as they were loaded, after any calls. So the next step is
that of the statement of the program at the program counter, if there is one. If there is none at a multiple of four in a
text segment, the program drops off the bottom; anywhere else the fetch faults, and leaves the machine precisely as a
fault does.
-/
theorem executes_of_session {start simulator : Simulator κ} {tree : FileTree} {sources : List Source}
    {program : Program} {past : List Machine} (valid : start.settings.Valid tree)
    (fixed : start.settings.selfModifyingCode = false) (alone : start.settings.programArguments = [])
    (assembled : Mips.assemble start.settings sources = .ok program)
    (session : ReflTransGen Called (start.load program, []) (simulator, past)) :
    let layout := start.settings.layout
    let machine := simulator.machine
    (∀ address, layout.IsText address →
      machine.memory.words[address]? = (start.load program).machine.memory.words[address]?) ∧
    ∀ outside,
      (∀ statement, program.statementAt? machine.pc = some statement →
        machine.instruction? = some statement.instruction ∧
          simulator.nextStep? outside = some (Step.ofWord machine statement.instruction.word
            start.settings.delayedBranching simulator.console (outside.surroundings simulator.moment))) ∧
      ((simulator.advance outside).1 = some .droppedOffBottom ↔
        Word.isAligned machine.pc = true ∧ layout.IsText machine.pc ∧ program.statementAt? machine.pc = none) ∧
      (¬(Word.isAligned machine.pc = true ∧ layout.IsText machine.pc) →
        let error : MemoryError :=
          if Word.isAligned machine.pc = true then .inaccessible machine.pc else .misaligned machine.pc
        simulator.Raises outside false (.ofMemory .fetch error) ∧
          (simulator.advance outside).1 = (if machine.handlerLoaded then none
            else some (.fault ⟨.ofMemory .fetch error, machine.pc⟩)) ∧
          machine.FaultsPrecisely (simulator.advance outside).2.machine false (.ofMemory .fetch error)) := by
  intro layout machine
  have on := onTrail_of_session session
  have ordered := Settings.layout_of_valid valid
  have located := located_of_assemble assembled ordered
  have loaded : (start.load program).machine = .load start.settings program := machine_setState _ _
  refine ⟨?_, fun outside => ⟨?_, ?_, ?_⟩⟩
  · intro address text
    rw [loaded]
    exact on.trail.words_eq ordered fixed text
  · intro statement found
    have fetched := on.trail.fetch_of_statement ordered fixed alone located found
    have decoded := Instruction.decode?_of_isCanonical (canonical_of_assemble assembled found).2
    refine ⟨Machine.instruction?_eq_some_iff.2 ⟨fetched, decoded⟩, ?_⟩
    rw [nextStep?, Step.ofMachine, fetched, on.chosen]
  · rw [droppedOffBottom_iff]
    exact on.trail.fetch_eq_none_iff ordered fixed alone located
  · intro elsewhere error
    have raised : simulator.Raises outside false (.ofMemory .fetch error) :=
      .fetch (on.trail.fetch_of_not ordered fixed alone located elsewhere)
    exact ⟨raised, advance_of_raises raised⟩

end Simulator

end Mips

namespace Mips.Simulator

open Relation (ReflTransGen)

/-- A store over the first instruction of the program faults, so that this instruction is still there. -/
theorem executes_after_store :
    let sources : List Source := [⟨"store.s", "lui $t0, 0x40\nsw $zero, 0($t0)\n"⟩]
    let outside : Outside := ⟨fun _ => ⟨0, RandomStream.ofSeed⟩, fun _ _ => []⟩
    ∃ program statement, Mips.assemble {} sources = .ok program ∧ program.statementAt? 0x00400004 = some statement ∧
      let simulator := (((loaded {} program).step outside).2.step outside).2
      simulator.machine.memory.words[(0x00400000 : Address)]? =
        (loaded {} program).machine.memory.words[(0x00400000 : Address)]? ∧
      simulator.machine.instruction? = some statement.instruction := by
  intro sources outside
  have computed : ((Mips.assemble {} sources).toOption.any fun program =>
      let simulator := (((loaded {} program).step outside).2.step outside).2
      (program.statementAt? 0x00400004).isSome && simulator.machine.pc = 0x00400004) = true := by
    decide +kernel
  obtain ⟨program, held, facts⟩ := (Option.any_eq_true _ _).1 computed
  simp only [Bool.and_eq_true, decide_eq_true_eq] at facts
  obtain ⟨present, pc⟩ := facts
  obtain ⟨statement, found⟩ := Option.isSome_iff_exists.1 present
  have assembled := eq_ok_of_toOption held
  let start := loaded {} program
  let first := (start.step outside).2
  let second := (first.step outside).2
  have session : ReflTransGen Called (start.load program, []) (second, _) :=
    (ReflTransGen.single (Called.step start [] outside)).tail (.step first _ outside)
  have valid : Settings.Valid {} ⟨[], []⟩ := by decide +kernel
  obtain ⟨kept, next⟩ := @executes_of_session _ _ _ start second ⟨[], []⟩ sources program _ valid rfl rfl assembled session
  have text : Layout.standard.IsText 0x00400000 := by decide
  refine ⟨program, statement, assembled, found, kept 0x00400000 text, ?_⟩
  rw [← pc] at found
  exact ((next outside).1 statement found).1

end Mips.Simulator
