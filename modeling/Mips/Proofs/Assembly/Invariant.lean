import Mips.Proofs.Assembly.Resolution

/-!
What holds of every assembled program. Its statements lie in order, so that they can be found by halving the list of
them, in segments for instructions; its data lie in segments for data; each value lies at a multiple of its width; and
each name that memory was reserved under has a block of its own. Main statement: `invariant_of_assemble`.
-/

namespace Mips

open Std (ExtTreeMap)

section Bisection

/--
The statement at an address, found by halving a list: the half that is kept begins with the statement in the middle
unless that one lies behind the address.
-/
def bisect (address : Address) (statements : List ProgramStatement) : Option ProgramStatement :=
  if short : statements.length ≤ 1 then statements.find? fun statement => statement.address = address
  else
    let half := statements.length / 2
    have inside : half < statements.length := by omega
    if address < statements[half].address then bisect address (statements.take (statements.length - half))
    else bisect address (statements.drop half)
termination_by statements.length
decreasing_by
  · rw [List.length_take]
    omega
  · rw [List.length_drop]
    omega

variable {address : Address} {statements : List ProgramStatement}
  (increasing : statements.Pairwise fun first second => first.address < second.address)

include increasing

theorem address_le_of_le {first second : Nat} (before : first ≤ second) (inside : second < statements.length) :
    statements[first].address ≤ statements[second].address := by
  rcases Nat.lt_or_eq_of_le before with earlier | rfl
  · exact UInt32.le_of_lt (List.pairwise_iff_getElem.1 increasing first second (by omega) inside earlier)
  · exact UInt32.le_refl _

/-- In a list in order, halving finds the statement at an address if there is one. -/
theorem bisect_eq_find? :
    bisect address statements = statements.find? fun statement => statement.address = address := by
  fun_induction bisect address statements with
  | case1 statements short => rfl
  | case2 statements long half inside before ih =>
    -- What is left out lies behind the middle.
    have later : (statements.drop (statements.length - half)).find? (fun statement => statement.address = address) =
        none := by
      rw [List.find?_eq_none]
      intro statement member
      obtain ⟨index, bound, rfl⟩ := List.getElem_of_mem member
      rw [List.length_drop] at bound
      rw [List.getElem_drop, decide_eq_true_eq]
      rintro rfl
      have order := address_le_of_le increasing (show half ≤ statements.length - half + index by omega) (by omega)
      exact absurd before (UInt32.not_lt.2 order)
    have whole := List.take_append_drop (statements.length - half) statements
    rw [ih (increasing.sublist (List.take_sublist _ _))]
    conv_rhs => rw [← whole, List.find?_append, later, Option.or_none]
  | case3 statements long half inside behind ih =>
    -- What is left out lies before the middle.
    have earlier : (statements.take half).find? (fun statement => statement.address = address) = none := by
      rw [List.find?_eq_none]
      intro statement member
      obtain ⟨index, bound, rfl⟩ := List.getElem_of_mem member
      rw [List.length_take] at bound
      rw [List.getElem_take, decide_eq_true_eq]
      rintro rfl
      exact behind (List.pairwise_iff_getElem.1 increasing index half (by omega) inside (by omega))
    have whole := List.take_append_drop half statements
    rw [ih (increasing.sublist (List.drop_sublist _ _))]
    conv_rhs => rw [← whole, List.find?_append, earlier, Option.none_or]

end Bisection

namespace Program

variable {layout : Layout} {program : Program} (located : program.Located layout)

include located

/-- The statements are listed by their addresses. -/
theorem Located.increasing :
    program.statementList.Pairwise fun first second => first.address < second.address := by
  refine List.pairwise_map.2 (program.statements.ordered_keys_toList.imp_of_mem ?_)
  intro first second inFirst inSecond before
  rw [ExtTreeMap.mem_toList_iff_getElem?_eq_some] at inFirst inSecond
  rw [located.own first.1 first.2 inFirst, located.own second.1 second.2 inSecond]
  exact Std.compare_eq_lt.1 before

theorem Located.find?_statementList (address : Address) :
    (program.statementList.find? fun statement => statement.address = address) = program.statementAt? address := by
  cases found : program.statementList.find? fun statement => statement.address = address with
  | some statement =>
    have member := located.mem_statementList.1 (List.mem_of_find?_eq_some found)
    have here : statement.address = address := by simpa using List.find?_some found
    rw [← here, member]
  | none =>
    cases known : program.statementAt? address with
    | none => rfl
    | some statement =>
      have here := located.own address statement known
      have member := located.mem_statementList.2 (here.symm ▸ known)
      simpa [here] using List.find?_eq_none.1 found statement member

end Program

section Numbers

/-- The numbers of an item, if the address of its label is known. -/
def DataItem.numbers? (address? : String → Option Address) (item : DataItem) : Option (List Int) :=
  (item.value.number? address?).map (List.replicate item.count)

/-- The width of each value of a directive, and the values. -/
def Directive.values? : Directive → Option (Nat × List DataItem)
  | .word items => some (4, items)
  | .half items => some (2, items)
  | .byte items => some (1, items)
  | _ => none

variable {address? : String → Option Address}

theorem length_littleEndian (number : Int) (count : Nat) : (littleEndian number count).length = count := by
  induction count generalizing number with
  | zero => rfl
  | succ count ih => rw [littleEndian, List.length_cons, ih]

/-- The bytes of items are those of their numbers. -/
theorem mapM_image? {width : Nat} {items : List DataItem} {bytes : List (List UInt8)}
    (all : items.mapM (DataItem.image? address? width) = some bytes) :
    ∃ numbers, (items.mapM (DataItem.numbers? address?)).map List.flatten = some numbers ∧
      bytes.flatten = numbers.flatMap fun number => littleEndian number width := by
  induction items generalizing bytes with
  | nil =>
    cases all
    exact ⟨[], rfl, rfl⟩
  | cons item rest ih =>
    rw [List.mapM_cons] at all
    obtain ⟨first, image, all⟩ := Option.bind_eq_some_iff.1 all
    obtain ⟨others, later, same⟩ := Option.bind_eq_some_iff.1 all
    cases same
    obtain ⟨number, known, rfl⟩ := Option.map_eq_some_iff.1 image
    obtain ⟨numbers, found, same⟩ := ih later
    obtain ⟨lists, each, rfl⟩ := Option.map_eq_some_iff.1 found
    refine ⟨List.replicate item.count number ++ lists.flatten, ?_, ?_⟩
    · rw [List.mapM_cons, DataItem.numbers?, known, each]
      rfl
    · rw [List.flatten_cons, same, List.flatMap_append, List.flatMap_replicate]

theorem exists_numbers_of_image? {directive : Directive} {width : Nat} {items : List DataItem} {bytes : List UInt8}
    (values : directive.values? = some (width, items)) (image : directive.image? address? = some bytes) :
    ∃ numbers, (items.mapM (DataItem.numbers? address?)).map List.flatten = some numbers ∧
      bytes = numbers.flatMap fun number => littleEndian number width := by
  cases directive with
  | word | half | byte =>
    cases values
    obtain ⟨lists, all, rfl⟩ := Option.map_eq_some_iff.1 image
    exact mapM_image? all
  | _ => cases values

/-- Each number is found behind those before it. -/
theorem getElem?_flatMap_littleEndian {width : Nat} {numbers : List Int} {index offset : Nat} {number : Int}
    (found : numbers[index]? = some number) (inside : offset < width) :
    (numbers.flatMap fun number => littleEndian number width)[width * index + offset]? =
      (littleEndian number width)[offset]? := by
  induction numbers generalizing index with
  | nil => cases found
  | cons first rest ih =>
    rw [List.flatMap_cons]
    cases index with
    | zero =>
      cases found
      rw [Nat.mul_zero, Nat.zero_add, List.getElem?_append_left]
      rwa [length_littleEndian]
    | succ index =>
      have position : width * (index + 1) + offset = width + (width * index + offset) := by
        rw [Nat.mul_succ]
        omega
      rw [position, List.getElem?_append_right (by rw [length_littleEndian]; omega), length_littleEndian,
        Nat.add_sub_cancel_left]
      exact ih found

end Numbers

namespace Placement

/-- What is reserved for a statement begins at a multiple of the alignment of the statement. -/
def Aligned (reservations : List Reservation) : Prop :=
  ∀ reservation ∈ reservations, reservation.placed.statement.alignment ∣ reservation.start

theorem aligned_reserved (before after : Placement) : Aligned (before.reserved after) := by
  intro reservation member
  obtain ⟨placed, -, rfl⟩ := List.mem_map.1 member
  exact dvd_alignUp _ _

theorem aligned_reservationsOf (settings : Settings) (file : Nat) (statements : List Statement) (placement : Placement) :
    Aligned (placement.reservationsOf settings file statements) := by
  induction statements generalizing placement with
  | nil => exact List.forall_mem_nil _
  | cons statement rest ih => exact List.forall_mem_append.2 ⟨aligned_reserved _ _, ih _⟩

theorem aligned_reservationsOfFiles (settings : Settings) (file : Nat) (files : List (List Statement))
    (placement : Placement) : Aligned (placement.reservationsOfFiles settings file files) := by
  induction files generalizing placement file with
  | nil => exact List.forall_mem_nil _
  | cons statements rest ih => exact List.forall_mem_append.2 ⟨aligned_reservationsOf _ _ _ _, ih _ _⟩

end Placement

theorem Statement.alignment_dvd (statement : Statement) : statement.alignment ∣ 0x100000000 := by
  obtain ⟨exponent, small, power⟩ := statement.exists_alignment_eq
  rw [power]
  exact Nat.dvd_trans (Nat.pow_dvd_pow 2 small) (by decide)

theorem dvd_toNat_ofNat {width : Nat} (divides : width ∣ 0x100000000) {position : Nat} (multiple : width ∣ position) :
    width ∣ (UInt32.ofNat position).toNat := by
  rw [UInt32.toNat_ofNat']
  exact (Nat.dvd_mod_iff divides).2 multiple

theorem dvd_toNat_add {width : Nat} (divides : width ∣ 0x100000000) {first second : Address}
    (multiple : width ∣ first.toNat) (again : width ∣ second.toNat) : width ∣ (first + second).toNat := by
  rw [UInt32.toNat_add]
  exact (Nat.dvd_mod_iff divides).2 (Nat.dvd_add multiple again)

open Assembly

/-- A statement is given a multiple of its alignment as its address. -/
theorem dvd_address_of_placed {settings : Settings} {sources : List Source} {placed : Placed}
    (member : placed ∈ (Placement.ofFiles settings (statements sources)).placed) :
    placed.statement.alignment ∣ placed.address.toNat := by
  rw [← List.mem_reverse, ← placed_reservations] at member
  obtain ⟨reservation, reserved, rfl⟩ := List.mem_map.1 member
  have sound := (accounts_statements settings sources).sound reservation reserved
  have aligned := Placement.aligned_reservationsOfFiles settings 0 (statements sources) (.initial settings.layout)
  rw [sound.address]
  exact dvd_toNat_ofNat (Statement.alignment_dvd _) (aligned reservation reserved)

/-- The program holds the number in so many bytes from an address on that is a multiple of the width. -/
structure Program.HoldsNumber (program : Program) (address : Address) (width : Nat) (number : Int) : Prop where
  aligned : width ∣ address.toNat
  bytes : ∀ offset byte, (littleEndian number width)[offset]? = some byte →
    program.data[address + UInt32.ofNat offset]? = some byte

/--
The statements of the program lie in order, at multiples of four in segments for instructions, and can be found by
halving the list of them; its data lie in segments for data.
-/
structure Program.Invariant (layout : Layout) (program : Program) : Prop where
  increasing : program.statementList.Pairwise fun first second => first.address < second.address
  aligned : ∀ statement ∈ program.statementList, statement.address.toNat % 4 = 0
  code : ∀ statement ∈ program.statementList,
    layout.segmentOf statement.address = some .text ∨ layout.segmentOf statement.address = some .kernelText
  found : ∀ address statement, program.statementAt? address = some statement ↔
    statement ∈ program.statementList ∧ statement.address = address
  bisected : ∀ address, bisect address program.statementList = program.statementAt? address
  data : ∀ address ∈ program.data,
    layout.segmentOf address = some .data ∨ layout.segmentOf address = some .kernelData

section Assembled

variable {settings : Settings} {sources : List Source} {program : Program}
  (assembled : assemble settings sources = .ok program)

include assembled

/-- The values of a directive lie behind each other, each at a multiple of their width. -/
theorem holdsNumber_of_assemble {placed : Placed}
    (member : placed ∈ (Placement.ofFiles settings (statements sources)).placed) {directive : Directive} {width : Nat}
    {items : List DataItem} (content : placed.statement.content = some (.directive directive))
    (values : directive.values? = some (width, items)) :
    ∃ numbers,
      (items.mapM (DataItem.numbers? (program.symbols.address? placed.file))).map List.flatten = some numbers ∧
        ∀ index number, numbers[index]? = some number →
          program.HoldsNumber (placed.address + UInt32.ofNat (width * index)) width number := by
  obtain ⟨data, alignment⟩ : directive.isData = true ∧ placed.statement.alignment = width := by
    rw [Statement.alignment, content]
    cases directive with
    | word | half | byte =>
      cases values
      exact ⟨rfl, rfl⟩
    | _ => cases values
  have divides := placed.statement.alignment_dvd
  have start := dvd_address_of_placed member
  rw [alignment] at divides start
  obtain ⟨bytes, image, held⟩ := data_of_assemble assembled member content data
  obtain ⟨numbers, known, rfl⟩ := exists_numbers_of_image? values image
  refine ⟨numbers, known, fun index number found => ⟨?_, ?_⟩⟩
  · exact dvd_toNat_add divides start (dvd_toNat_ofNat divides (Nat.dvd_mul_right width index))
  · intro offset byte digit
    have inside : offset < width := by
      have bound := (List.getElem?_eq_some_iff.1 digit).1
      rwa [length_littleEndian] at bound
    have here := held (width * index + offset) byte
    rw [getElem?_flatMap_littleEndian found inside, UInt32.ofNat_add, ← UInt32.add_assoc] at here
    exact here digit

/-- Bytes are emitted only in the segment of an area. -/
theorem area_of_data (valid : settings.layout.Valid) {earlier later : List Reservation}
    (reserved : Placement.reservations settings (statements sources) = earlier ++ later) :
    ∀ address ∈ (emissionOf settings sources program.symbols earlier).data,
      ∃ area : Area, settings.layout.segmentOf address = some area.segment := by
  have ordered := Layout.ordered_of_valid valid
  have lies := (Placement.stored_reservations (Layout.separated_of_valid valid) (statements sources)).1
  induction earlier using List.reverseRecOn generalizing later with
  | nil => simp [emissionOf, Emission.initial]
  | append_singleton earlier reservation ih =>
    have split : Placement.reservations settings (statements sources) = earlier ++ reservation :: later := by
      rw [reserved, List.append_assoc]
      rfl
    obtain ⟨-, space, fills⟩ := emits_of_assemble assembled split
    intro address here
    by_cases old : address ∈ (emissionOf settings sources program.symbols earlier).data
    · exact ih split address old
    by_cases spaces : reservation.placed.statement.IsSpace
    · rw [space spaces] at here
      exact absurd here old
    obtain ⟨area, lies⟩ := lies reservation (by simp [split])
    have range := ((fills spaces).adds address.toNat).1 (.inr ⟨address, ⟨here, old⟩, Nat.le_refl _, by omega⟩)
    exact ⟨area, Area.segmentOf_of_holds ordered
      ⟨Nat.le_trans lies.inside.1 range.1, Nat.lt_of_lt_of_le range.2 lies.inside.2⟩⟩

theorem invariant_program (valid : settings.layout.Valid) : program.Invariant settings.layout := by
  have located := located_of_assemble assembled valid
  constructor
  case increasing => exact located.increasing
  case aligned =>
    intro statement member
    exact (Word.isAligned_iff _).1 (located.aligned _ (located.mem_of_mem_statementList member))
  case code =>
    intro statement member
    obtain ⟨segment, lies, text⟩ := located.code _ (located.mem_of_mem_statementList member)
    cases segment with
    | text => exact .inl lies
    | kernelText => exact .inr lies
    | data | heap | stack | kernelData => cases text
  case found =>
    intro address statement
    constructor
    · intro known
      have here := located.own address statement known
      exact ⟨located.mem_statementList.2 (here.symm ▸ known), here⟩
    · rintro ⟨member, rfl⟩
      exact located.mem_statementList.1 member
  case bisected =>
    intro address
    rw [bisect_eq_find? located.increasing, located.find?_statementList]
  case data =>
    intro address here
    obtain ⟨segment, lies, other⟩ := located.data address here
    obtain ⟨-, -, -, data⟩ := emission_of_assemble assembled
    rw [← data, emission_eq assembled] at here
    obtain ⟨area, again⟩ := area_of_data assembled valid (List.append_nil _).symm address here
    cases lies.symm.trans again
    cases area with
    | data => exact .inl lies
    | kernelData => exact .inr lies
    | text | kernelText => cases other

/-- Memory that is reserved by name stays reserved when labels are shared. -/
theorem global?_of_reserving? {name : String} {external : External}
    (found : reserving? (externals 0 (statements sources)) name = some external) :
    ∃ symbol, program.symbols.global? name = some symbol ∧
      (Placement.unshared settings (statements sources)).symbols.global? name = some symbol ∧
      symbol.Reserved external ∧
      (symbol.block external.size).Within ⟨settings.layout.externBase.toNat, settings.layout.dataBase.toNat⟩ := by
  have successful := successful_ofFiles assembled
  have reserves := Placement.reserves_unshared (Placement.successful_unshared successful)
  obtain ⟨symbol, known, reserved, inside⟩ := reserves.found name external found
  have some : externals 0 (statements sources) ≠ [] := by
    intro none
    rw [none] at found
    cases found
  refine ⟨symbol, ?_, known, reserved, inside.1, Nat.le_trans inside.2 (reserves.room some)⟩
  rw [(program_of_assemble assembled).1]
  exact (Placement.shares_ofFiles successful).2.reserved name symbol known

end Assembled

/--
What holds of every program that is assembled for a valid layout, apart from what its statements do. The statements lie in
order, so that halving their list finds the one at an address if there is one, at multiples of four in segments for
instructions, and all data lie in segments for data. Each directive with values has been given an address, and from there
on its values lie behind each other at multiples of their width. And each name that memory is reserved under has a block
of the size that its first line asks for, at a multiple of four in front of the data directives and apart from the block
of every other name.
-/
theorem invariant_of_assemble (settings : Settings) (sources : List Source) (program : Program)
    (valid : settings.layout.Valid) (assembled : assemble settings sources = .ok program) :
    let files := statements sources
    let placement := Placement.ofFiles settings files
    program.Invariant settings.layout ∧
    (∀ (file : Nat) (contents : List Statement) (statement : Statement) (directive : Directive) (width : Nat)
        (items : List DataItem),
      files[file]? = some contents → statement ∈ contents → statement.content = some (.directive directive) →
        directive.values? = some (width, items) →
          (∃ address, ⟨file, statement, address⟩ ∈ placement.placed) ∧
          ∀ address, ⟨file, statement, address⟩ ∈ placement.placed → ∃ numbers,
            (items.mapM (DataItem.numbers? (program.symbols.address? file))).map List.flatten = some numbers ∧
              ∀ index number, numbers[index]? = some number →
                program.HoldsNumber (address + UInt32.ofNat (width * index)) width number) ∧
    (∀ name external, reserving? (externals 0 files) name = some external →
      ∃ symbol, program.symbols.global? name = some symbol ∧ symbol.Reserved external ∧
        (symbol.block external.size).Within ⟨settings.layout.externBase.toNat, settings.layout.dataBase.toNat⟩) ∧
    ∀ first second symbol other, reserving? (externals 0 files) first.name = some first →
      reserving? (externals 0 files) second.name = some second → first.name ≠ second.name →
        program.symbols.global? first.name = some symbol → program.symbols.global? second.name = some other →
          (symbol.block first.size).Apart (other.block second.size) := by
  intro files placement
  refine ⟨invariant_program assembled valid, ?_, ?_, ?_⟩
  · intro file contents statement directive width items found listed content values
    have stored : statement.IsStored := by
      rw [Statement.IsStored, content]
      cases directive <;> first | rfl | cases values
    exact ⟨placed_of_assemble assembled found listed stored, fun address member =>
      holdsNumber_of_assemble assembled member content values⟩
  · intro name external found
    obtain ⟨symbol, known, -, reserved, inside⟩ := global?_of_reserving? assembled found
    exact ⟨symbol, known, reserved, inside⟩
  · intro first second symbol other foundFirst foundSecond different knownFirst knownSecond
    obtain ⟨_, again, early, -⟩ := global?_of_reserving? assembled foundFirst
    obtain ⟨_, anew, late, -⟩ := global?_of_reserving? assembled foundSecond
    cases knownFirst.symm.trans again
    cases knownSecond.symm.trans anew
    have successful := Placement.successful_unshared (successful_ofFiles assembled)
    exact (Placement.reserves_unshared successful).apart first second symbol other foundFirst foundSecond different early late

/-- Two words behind a byte lie at multiples of four, and two names have blocks apart. -/
theorem invariant_of_words :
    let sources : List Source := [⟨"main.s", "main: j main\n.data\n.byte 1\n.word 7:2\n.extern first 5\n.extern second 8"⟩]
    let words : Statement := ⟨4, [], some (.directive (.word [⟨.integer 7, 2⟩])), ⟨0, 9⟩⟩
    ∃ program, assemble {} sources = .ok program ∧ Layout.standard.Valid ∧ program.Invariant .standard ∧
      (∃ address, ⟨0, words, address⟩ ∈ (Placement.ofFiles {} (statements sources)).placed ∧
        program.HoldsNumber (address + 4) 4 7) ∧
      ∃ first second, program.symbols.global? "first" = some first ∧ program.symbols.global? "second" = some second ∧
        (first.block 5).Apart (second.block 8) := by
  intro sources words
  have computed : (assemble {} sources).toOption.isSome = true := by decide +kernel
  obtain ⟨program, assembled⟩ := Option.isSome_iff_exists.1 computed
  have successful := eq_ok_of_toOption assembled
  have parsed : (statements sources)[0]?.bind (fun contents => contents[3]?) = some words := by decide +kernel
  obtain ⟨contents, found, listed⟩ := Option.bind_eq_some_iff.1 parsed
  have names : ["first", "second"].map (reserving? (externals 0 (statements sources))) =
      [some ⟨"first", 5, 0⟩, some ⟨"second", 8, 0⟩] := by
    decide +kernel
  obtain ⟨askedFirst, askedSecond⟩ : reserving? (externals 0 (statements sources)) "first" = some ⟨"first", 5, 0⟩ ∧
      reserving? (externals 0 (statements sources)) "second" = some ⟨"second", 8, 0⟩ := by
    simpa using names
  obtain ⟨invariant, values, blocks, apart⟩ :=
    invariant_of_assemble {} sources program Layout.valid_standard successful
  obtain ⟨⟨address, placed⟩, holds⟩ :=
    values 0 contents words _ 4 [⟨.integer 7, 2⟩] found (List.mem_of_getElem? listed) rfl rfl
  obtain ⟨numbers, known, each⟩ := holds address placed
  obtain rfl : [7, 7] = numbers := Option.some.inj known
  obtain ⟨first, foundFirst, -⟩ := blocks "first" _ askedFirst
  obtain ⟨second, foundSecond, -⟩ := blocks "second" _ askedSecond
  have different : "first" ≠ "second" := by decide
  refine ⟨program, successful, Layout.valid_standard, invariant, ⟨address, placed, each 1 7 rfl⟩, first, second, foundFirst,
    foundSecond, ?_⟩
  exact apart ⟨"first", 5, 0⟩ ⟨"second", 8, 0⟩ first second askedFirst askedSecond different foundFirst foundSecond

end Mips
