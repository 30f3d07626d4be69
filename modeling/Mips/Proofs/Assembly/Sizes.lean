import Mips.Proofs.Assembly.Ranges

/-!
The size that a statement has while it is placed is the size of what is emitted for it: instructions become as many
machine instructions, directives as many bytes, and the statements of an assembled program fill the ranges that were
reserved for them. Main statement: `sizes_agree`.
-/

namespace Mips

namespace Assembly

/-- The statements of each source. -/
def statements (sources : List Source) : List (List Statement) :=
  sources.map fun source => (parseLines source.text).1

/-- What is emitted for statements in the order in which memory was reserved for them. -/
def emissionOf (settings : Settings) (sources : List Source) (symbols : SymbolTable)
    (reservations : List Reservation) : Emission :=
  (reservations.map Reservation.placed).foldl
    (Emission.emit settings symbols (sources.map fun source => (lines source.text).toArray)) .initial

theorem emissionOf_concat (settings : Settings) (sources : List Source) (symbols : SymbolTable)
    (earlier : List Reservation) (reservation : Reservation) :
    emissionOf settings sources symbols (earlier ++ [reservation]) =
      Emission.emit settings symbols (sources.map fun source => (lines source.text).toArray)
        (emissionOf settings sources symbols earlier) reservation.placed := by
  rw [emissionOf, List.map_append, List.foldl_append]
  rfl

theorem findings_emissionOf (settings : Settings) (sources : List Source) (symbols : SymbolTable)
    (earlier later : List Reservation) :
    (emissionOf settings sources symbols earlier).findings <:+
      (emissionOf settings sources symbols (earlier ++ later)).findings := by
  rw [emissionOf, emissionOf, List.map_append, List.foldl_append]
  exact Emission.findings_foldl_emit ..

/-- The severity of a finding is kept or raised by its diagnostic. -/
theorem exists_error_of_finding (settings : Settings) (sources : List Source) {findings : List Finding}
    {finding : Finding} (member : finding ∈ findings) (severe : finding.problem.severity = .error) :
    ∃ diagnostic ∈ diagnostics settings sources findings, diagnostic.severity = .error := by
  have sorted : diagnostic sources finding ∈
      (findings.map (diagnostic sources)).mergeSort Diagnostic.notAfter :=
    List.mem_mergeSort.2 (List.mem_map_of_mem member)
  unfold diagnostics
  dsimp only
  split
  · exact ⟨_, List.mem_map_of_mem sorted, rfl⟩
  · exact ⟨_, sorted, severe⟩

end Assembly

open Assembly

/-- Assembly that succeeds has found no error, neither in placing statements nor in emitting them. -/
theorem program_of_assemble {settings : Settings} {sources : List Source} {program : Program}
    (assembled : assemble settings sources = .ok program) :
    let placement := Placement.ofFiles settings (statements sources)
    let emission := emission settings sources placement
    program.symbols = placement.symbols ∧ program.statements = emission.statements ∧ program.data = emission.data ∧
      ∀ finding, finding ∈ placement.findings ∨ finding ∈ emission.findings → finding.problem.severity ≠ .error := by
  have files : (sources.map fun source => parseLines source.text).map Prod.fst = statements sources := by
    rw [List.map_map]
    rfl
  unfold assemble at assembled
  dsimp only at assembled
  rw [files] at assembled
  split at assembled
  · cases assembled
  next fine =>
    cases assembled
    refine ⟨rfl, rfl, rfl, ?_⟩
    intro finding member severe
    apply fine
    rw [List.any_eq_true]
    have listed := List.mem_append.2 (member.imp (List.mem_append_right
      (readingFindings 0 ((sources.map fun source => parseLines source.text).map Prod.snd)) ∘ List.mem_reverse.2)
        List.mem_reverse.2)
    obtain ⟨diagnostic, reported, error⟩ := exists_error_of_finding settings sources listed severe
    exact ⟨diagnostic, reported, decide_eq_true error⟩

/-- Assembly that succeeds has emitted what was placed, without an error. -/
theorem emission_of_assemble {settings : Settings} {sources : List Source} {program : Program}
    (assembled : assemble settings sources = .ok program) :
    program.symbols = (Placement.ofFiles settings (statements sources)).symbols ∧
      let emission := emission settings sources (Placement.ofFiles settings (statements sources))
      emission.Successful ∧ emission.statements = program.statements ∧ emission.data = program.data := by
  obtain ⟨symbols, code, data, fine⟩ := program_of_assemble assembled
  exact ⟨symbols, fun finding member => fine finding (.inr member), code.symm, data.symm⟩

theorem accounts_statements (settings : Settings) (sources : List Source) :
    Placement.Accounts settings (.initial settings.layout) (Placement.ofFiles settings (statements sources))
      (Placement.reservations settings (statements sources)) := by
  apply Placement.accounts_reservations
  intro file member
  obtain ⟨source, _, rfl⟩ := List.mem_map.1 member
  exact isReadable_parseLines source.text

theorem placed_reservations (settings : Settings) (sources : List Source) :
    (Placement.reservations settings (statements sources)).map Reservation.placed =
      (Placement.ofFiles settings (statements sources)).placed.reverse := by
  rw [(accounts_statements settings sources).placed]
  rfl

/-- What is emitted in the end is emitted for everything that was reserved. -/
theorem emission_eq {settings : Settings} {sources : List Source} {program : Program}
    (assembled : assemble settings sources = .ok program) :
    emission settings sources (Placement.ofFiles settings (statements sources)) =
      emissionOf settings sources program.symbols (Placement.reservations settings (statements sources)) := by
  obtain ⟨symbols, -⟩ := emission_of_assemble assembled
  rw [emissionOf, placed_reservations, symbols]
  rfl

/-- Findings are never withdrawn, so there was no error at any time. -/
theorem successful_emissionOf {settings : Settings} {sources : List Source} {program : Program}
    (assembled : assemble settings sources = .ok program) {earlier later : List Reservation}
    (reserved : Placement.reservations settings (statements sources) = earlier ++ later) :
    (emissionOf settings sources program.symbols earlier).Successful := by
  obtain ⟨-, successful, -⟩ := emission_of_assemble assembled
  rw [emission_eq assembled, reserved] at successful
  exact successful.of_suffix (findings_emissionOf ..)

/-- What is emitted for a statement of an assembled program is what was reserved for it. -/
theorem emits_of_assemble {settings : Settings} {sources : List Source} {program : Program}
    (assembled : assemble settings sources = .ok program) {earlier later : List Reservation} {reservation : Reservation}
    (reserved : Placement.reservations settings (statements sources) = earlier ++ reservation :: later) :
    reservation.Sound settings ∧
      (reservation.placed.statement.IsSpace →
        emissionOf settings sources program.symbols (earlier ++ [reservation]) =
          emissionOf settings sources program.symbols earlier) ∧
      (¬ reservation.placed.statement.IsSpace →
        (emissionOf settings sources program.symbols earlier).Emits
          (emissionOf settings sources program.symbols (earlier ++ [reservation])) reservation.start
          reservation.stop) := by
  have member : reservation ∈ Placement.reservations settings (statements sources) := by
    rw [reserved]
    exact List.mem_append_right _ List.mem_cons_self
  have sound := (accounts_statements settings sources).sound reservation member
  have all : Placement.reservations settings (statements sources) = (earlier ++ [reservation]) ++ later := by
    rw [reserved, List.append_assoc]
    rfl
  have here := successful_emissionOf assembled all
  rw [emissionOf_concat] at here ⊢
  exact ⟨sound, fun space => Emission.emit_space space, fun filling => Emission.emits_emit sound filling here⟩

/--
Sizes that are computed while statements are placed, before the address of any label is known, agree with what is
emitted. A written instruction becomes as many machine instructions as were foreseen, or none with a problem, which is
certain if it was foreseen. A data directive that is read from a line becomes as many bytes as it takes, unless it only
reserves them. And the statements of an assembled program are emitted one after another in the order in which memory
was reserved for them, each to exactly the range that was reserved.
-/
theorem sizes_agree :
    (∀ (written : WrittenInstruction) (pc : Address) (extended delayed : Bool)
        (resolve : Label → Except Problem Address),
      (∀ planned, written.expand ⟨pc, extended, delayed, none⟩ = .ok planned →
        Yields (fun instructions => instructions.length = planned.length)
          (written.expand ⟨pc, extended, delayed, some resolve⟩)) ∧
      ∀ problem, written.expand ⟨pc, extended, delayed, none⟩ = .error problem →
        ∃ other, written.expand ⟨pc, extended, delayed, some resolve⟩ = .error other) ∧
    (∀ (definitions further : Definitions) (text : String) (number : Nat) (statement : Statement)
        (directive : Directive) (resolve : Label → Except Problem Address),
      parseLineWith definitions text number = .ok (some statement, further) →
      statement.content = some (.directive directive) → (∀ size, directive ≠ .space size) →
        Yields (fun emitted => emitted.1.length = directive.size) (directive.bytes resolve)) ∧
    ∀ (settings : Settings) (sources : List Source) (program : Program), assemble settings sources = .ok program →
      let reservations := Placement.reservations settings (statements sources)
      let emitted := emissionOf settings sources program.symbols
      reservations.map Reservation.placed = (Placement.ofFiles settings (statements sources)).placed.reverse ∧
        (emitted reservations).statements = program.statements ∧ (emitted reservations).data = program.data ∧
        ∀ earlier reservation later, reservations = earlier ++ reservation :: later →
          reservation.placed.address = UInt32.ofNat reservation.start ∧
            reservation.start ≤ reservation.stop ∧ reservation.stop ≤ 0x100000000 ∧
            (reservation.placed.statement.IsSpace → emitted (earlier ++ [reservation]) = emitted earlier) ∧
            (¬ reservation.placed.statement.IsSpace →
              (emitted earlier).Emits (emitted (earlier ++ [reservation])) reservation.start reservation.stop) := by
  refine ⟨?_, ?_, ?_⟩
  · intro written pc extended delayed resolve
    have foreseen := foresees_expand written ⟨pc, extended, delayed, some resolve⟩
    exact ⟨fun planned sized => foreseen.yields sized, fun problem failed => foreseen.exists_error failed⟩
  · intro definitions further text number statement directive resolve read content filling
    have readable := isReadable_parseLineWith definitions text number
    rw [read] at readable
    cases emitted : directive.bytes resolve with
    | error problem => trivial
    | ok result => exact Directive.length_bytes (readable statement rfl directive content) filling emitted
  · intro settings sources program assembled reservations emitted
    obtain ⟨_, _, same⟩ := emission_of_assemble assembled
    have whole : emitted reservations = emission settings sources (Placement.ofFiles settings (statements sources)) :=
      (emission_eq assembled).symm
    rw [whole]
    refine ⟨placed_reservations settings sources, same.1, same.2, ?_⟩
    intro earlier reservation later reserved
    obtain ⟨sound, space, filling⟩ := emits_of_assemble assembled reserved
    exact ⟨sound.address, sound.ordered, sound.bounded, space, filling⟩

/-- A load from a label takes two instructions, and the word that it loads lies past three halves and a gap. -/
theorem sizes_agree_load :
    let sources : List Source := [⟨"load.s", "lw $v0, x\n.data\n.half 7:3\nx: .word 5"⟩]
    (∀ resolve : Label → Except Problem Address, Yields (fun instructions => instructions.length = 2)
      ((⟨.machine .lw, [.register .v0, .label ⟨"x", 8⟩ 0]⟩ : WrittenInstruction).expand
        ⟨0x00400000, true, false, some resolve⟩)) ∧
    (∀ resolve : Label → Except Problem Address, Yields (fun emitted => emitted.1.length = 6)
      ((Directive.half [⟨.integer 7, 3⟩]).bytes resolve)) ∧
    ∃ program earlier reservation later, assemble {} sources = .ok program ∧
      Placement.reservations {} (statements sources) = earlier ++ reservation :: later ∧
      (emissionOf {} sources program.symbols earlier).Emits
        (emissionOf {} sources program.symbols (earlier ++ [reservation])) 0x10010008 0x1001000C := by
  intro sources
  refine ⟨?_, ?_, ?_⟩
  · intro resolve
    have sized : (⟨.machine .lw, [.register .v0, .label ⟨"x", 8⟩ 0]⟩ : WrittenInstruction).expand
        ⟨0x00400000, true, false, none⟩ = .ok
          [Expansion.immediate .lui .zero .scratch 0, Expansion.immediate .lw .scratch .v0 0] := rfl
    exact (sizes_agree.1 _ _ _ _ resolve).1 _ sized
  · intro resolve
    have computed : (parseLineWith [] ".half 7:3" 1).toOption =
        some (some ⟨1, [], some (.directive (.half [⟨.integer 7, 3⟩])), ⟨0, 9⟩⟩, []) := by
      decide +kernel
    exact sizes_agree.2.1 _ _ _ _ _ _ resolve (eq_ok_of_toOption computed) rfl fun size same => nomatch same
  · have computed : (assemble {} sources).toOption.isSome = true := by decide +kernel
    obtain ⟨program, assembled⟩ := Option.isSome_iff_exists.1 computed
    have successful := eq_ok_of_toOption assembled
    have word : (Placement.reservations {} (statements sources))[2]?.map
        (fun reservation => (reservation.start, reservation.stop, reservation.placed.statement.content)) =
        some (0x10010008, 0x1001000C, some (.directive (.word [⟨.integer 5, 1⟩]))) := by
      decide +kernel
    obtain ⟨reservation, found, shape⟩ := Option.map_eq_some_iff.1 word
    obtain ⟨inside, same⟩ := List.getElem?_eq_some_iff.1 found
    obtain ⟨start, stop, content⟩ : reservation.start = 0x10010008 ∧ reservation.stop = 0x1001000C ∧
        reservation.placed.statement.content = some (.directive (.word [⟨.integer 5, 1⟩])) := by
      simpa using shape
    have reserved : Placement.reservations {} (statements sources) =
        (Placement.reservations {} (statements sources)).take 2 ++
          reservation :: (Placement.reservations {} (statements sources)).drop 3 := by
      rw [← same, List.getElem_cons_drop, List.take_append_drop]
    have filling : ¬ reservation.placed.statement.IsSpace := by
      rintro ⟨size, space⟩
      cases content.symm.trans space
    obtain ⟨_, _, _, each⟩ := sizes_agree.2.2 {} sources program successful
    obtain ⟨_, _, _, _, emits⟩ := each _ reservation _ reserved
    have filled := emits filling
    rw [start, stop] at filled
    exact ⟨program, _, reservation, _, successful, reserved, filled⟩

end Mips
