import Mips.Proofs.Assembly.Cursor
import Mips.Proofs.Assembly.Invariant

/-!
The segments of symbols. The counter of an area stays in it while statements are stored, but it may come to stand at the end of
the area, and an alignment may take it up to four bytes further. A label that is bound there is recorded in the segment of the
area although it lies behind it; every other symbol lies in its segment. Main statements: `finds_placeFiles` and
`segments_of_assemble`.
-/

namespace Mips

/-- An alignment is to eight bytes at most. -/
def Directive.IsModest (directive : Directive) : Prop := ∀ exponent, directive = .align exponent → exponent ≤ 3

/-- Every directive that is read is modest. -/
theorem TokenLine.isModest_readDirective (line : TokenLine) (name : String) (span : Span) (remaining : Rest) :
    Yields (fun read => read.1.IsModest) (line.readDirective name span remaining) := by
  unfold readDirective
  split
  case h_11 =>
    rw [yields_bind]
    apply yields_of_forall
    intro read
    dsimp only
    split
    next small =>
      rintro exponent ⟨⟩
      simp only [Bool.and_eq_true, decide_eq_true_eq] at small
      omega
    next => trivial
  case h_14 =>
    rw [yields_bind]
    apply yields_of_forall
    intro label
    rw [yields_bind]
    apply yields_of_forall
    intro size
    dsimp only
    split
    · rintro exponent ⟨⟩
    · trivial
  case h_15 => split <;> rintro exponent ⟨⟩
  case h_16 | h_17 | h_18 | h_19 | h_20 | h_21 => trivial
  all_goals
    rw [yields_bind]
    apply yields_of_forall
    rintro read exponent ⟨⟩

/-- Aligning an address leads past no multiple of the alignment. -/
theorem alignUp_le {address alignment bound : Nat} (positive : 0 < alignment) (divides : alignment ∣ bound)
    (below : address ≤ bound) : alignUp address alignment ≤ bound := by
  obtain ⟨count, rfl⟩ := divides
  have few : (address + alignment - 1) / alignment < count + 1 := by
    rw [Nat.div_lt_iff_lt_mul positive, Nat.mul_comm, Nat.mul_succ]
    omega
  rw [alignUp, Nat.mul_comm]
  exact Nat.mul_le_mul_left alignment (Nat.le_of_lt_succ few)

namespace Area

/-- As far as alignments take the counter of the area. -/
def limit (layout : Layout) (area : Area) : Nat := alignUp (area.stop layout) 8

variable {layout : Layout}

theorem stop_le_limit (layout : Layout) (area : Area) : area.stop layout ≤ area.limit layout := le_alignUp _ (by decide)

theorem limit_le (layout : Layout) (area : Area) : area.limit layout ≤ 0x100000000 :=
  alignUp_le (by decide) (by decide) (area.stop_le layout)

variable (ordered : layout.Ordered)

include ordered

theorem limit_le_stop (area : Area) : area.limit layout ≤ area.stop layout + 4 := by
  have multiple := ordered.aligned
  simp only [Layout.boundaries, List.forall_mem_cons] at multiple
  obtain ⟨-, reserved, -, -, heap, -, -, -, -, -, kdata, -⟩ := multiple
  unfold limit alignUp
  cases area <;> simp only [stop] <;> omega

/-- The addresses in the segment of an area are those of its region. -/
theorem segmentOf_iff (area : Area) (address : Address) :
    layout.segmentOf address = some area.segment ↔ (area.region layout).Holds address.toNat := by
  refine ⟨fun inside => ⟨low_le_of_segmentOf inside, ?_⟩, segmentOf_of_holds ordered⟩
  have small := address.toNat_lt
  unfold Layout.segmentOf at inside
  simp only [UInt32.lt_iff_toNat_lt, UInt32.le_iff_toNat_le] at inside
  cases area <;> simp only [region, stop] <;> grind [segment]

/-- The end of an area and what alignments add to it lie outside of the segment, also if the counter wraps around. -/
theorem segmentOf_counter {area : Area} {counter : Nat} (low : area.low layout ≤ counter)
    (high : counter ≤ area.limit layout) :
    layout.segmentOf (UInt32.ofNat counter) = some area.segment ↔ counter < area.stop layout := by
  have whole := area.limit_le layout
  have last := area.stop_le layout
  have near := limit_le_stop ordered area
  rw [segmentOf_iff ordered, UInt32.toNat_ofNat']
  by_cases small : counter < 0x100000000
  · rw [Nat.mod_eq_of_lt small]
    exact ⟨fun inside => inside.2, fun below => ⟨low, below⟩⟩
  · -- Only the text segment may begin at zero, and it does not end there.
    obtain rfl : counter = 0x100000000 := by omega
    have kdata := layout.kdataBase.toNat_lt
    obtain ⟨text, room, data, heap, limit, pointer, stack, user, handler, kernel, -⟩ := ordered
    refine ⟨fun inside => ?_, fun below => by omega⟩
    have first : area.low layout = 0 := Nat.le_zero.1 inside.1
    cases area <;> simp only [Area.low, stop] at first near <;> omega

end Area

namespace Cursor

/-- The counter of each area lies in the area, or where alignments may take it from its end. -/
structure Bounded (layout : Layout) (cursor : Cursor) : Prop where
  low : ∀ area, area.low layout ≤ cursor.counters.get area
  high : ∀ area, cursor.counters.get area ≤ area.limit layout

variable {layout : Layout} {cursor : Cursor}

theorem bounded_initial (ordered : layout.Ordered) (separated : layout.Separated) : (initial layout).Bounded layout where
  low := (Placement.regular_initial separated).low
  high := by
    intro area
    have small := layout.kdataBase.toNat_lt
    obtain ⟨text, -, data, -, -, -, -, -, handler, kernel, -⟩ := ordered
    refine Nat.le_trans ?_ (area.stop_le_limit layout)
    cases area <;>
      simp only [initial, Placement.initial, Counters.get, Area.start, Area.segment, Layout.segmentBase, Area.stop] <;> omega

theorem Bounded.goTo (bounded : cursor.Bounded layout) {value : Nat} (low : cursor.area.low layout ≤ value)
    (high : value ≤ cursor.area.limit layout) : (cursor.goTo value).Bounded layout where
  low := by
    intro area
    rw [Cursor.goTo, Counters.get_set]
    split
    next same => exact same ▸ low
    next => exact bounded.low area
  high := by
    intro area
    rw [Cursor.goTo, Counters.get_set]
    split
    next same => exact same ▸ high
    next => exact bounded.high area

/-- An alignment to at most eight bytes stays below the limit of the area. -/
theorem Bounded.align (bounded : cursor.Bounded layout) {exponent : Nat} (small : exponent ≤ 3) :
    (cursor.goTo (alignUp cursor.counter (Nat.pow 2 exponent))).Bounded layout := by
  have positive : 0 < Nat.pow 2 exponent := Nat.pow_pos (by decide)
  have divides : Nat.pow 2 exponent ∣ cursor.area.limit layout := Nat.dvd_trans (Nat.pow_dvd_pow 2 small) (dvd_alignUp _ 8)
  exact bounded.goTo (Nat.le_trans (bounded.low _) (le_alignUp _ positive)) (alignUp_le positive divides (bounded.high _))

theorem Bounded.aligned (bounded : cursor.Bounded layout) (statement : Statement) :
    (cursor.aligned statement).Bounded layout := by
  obtain ⟨exponent, small, power⟩ := statement.exists_alignment_eq
  rw [Cursor.aligned, power]
  exact bounded.align (Nat.le_succ_of_le small)

/-- The cursor is in its segment exactly in front of the end of its area. -/
theorem Bounded.segmentOf_iff (bounded : cursor.Bounded layout) (ordered : layout.Ordered) :
    layout.segmentOf (UInt32.ofNat cursor.counter) = some cursor.area.segment ↔ cursor.counter < cursor.area.stop layout :=
  Area.segmentOf_counter ordered (bounded.low _) (bounded.high _)

/--
At the cursor there is room for the next of the statements that is stored, if there is one, and the counters are within their
bounds.
-/
structure Finds (settings : Settings) (cursor : Cursor) (statements : List Statement) : Prop where
  bounded : cursor.Bounded settings.layout
  room : ∀ target, statements.find? (fun statement => statement.IsStored) = some target →
    cursor.counter + cursor.size settings target ≤ cursor.area.stop settings.layout

/-- The cursor is in its segment, or at the end of its area or close to it, where the next statement can take no bytes. -/
theorem Finds.lies_or_ends {settings : Settings} {statements : List Statement} (finds : cursor.Finds settings statements)
    (ordered : settings.layout.Ordered) :
    settings.layout.segmentOf (UInt32.ofNat cursor.counter) = some cursor.area.segment ∨
      settings.layout.segmentOf (UInt32.ofNat cursor.counter) ≠ some cursor.area.segment ∧
        cursor.area.stop settings.layout ≤ cursor.counter ∧ cursor.counter ≤ cursor.area.stop settings.layout + 4 ∧
        ∀ target, statements.find? (fun statement => statement.IsStored) = some target → cursor.size settings target = 0 := by
  have near := Nat.le_trans (finds.bounded.high cursor.area) (cursor.area.limit_le_stop ordered)
  rw [ne_eq, finds.bounded.segmentOf_iff ordered]
  by_cases inside : cursor.counter < cursor.area.stop settings.layout
  · exact .inl inside
  · refine .inr ⟨inside, Nat.not_lt.1 inside, near, fun target next => ?_⟩
    have room := finds.room target next
    omega

end Cursor

namespace Placement

section Place

variable {settings : Settings} {file : Nat} {statement : Statement} {placement : Placement}

theorem bounded_switch {area : Area} {address : Option Address} (ordered : settings.layout.Ordered)
    (bounded : placement.cursor.Bounded settings.layout)
    (successful : (placement.switch settings.layout file statement area address).Successful) :
    (placement.switch settings.layout file statement area address).cursor.Bounded settings.layout := by
  have entered : (Cursor.mk area placement.counters).Bounded settings.layout := ⟨bounded.low, bounded.high⟩
  cases address with
  | none => exact entered
  | some address =>
    unfold switch at successful ⊢
    dsimp only at successful ⊢
    split at successful
    next inside =>
      rw [if_pos inside]
      simp only [Bool.and_eq_true, decide_eq_true_eq] at inside
      obtain ⟨low, high⟩ := (Area.segmentOf_iff ordered area address).1 inside.1
      exact entered.goTo low (Nat.le_trans (Nat.le_of_lt high) (area.stop_le_limit _))
    next => exact absurd successful (not_successful_report rfl)

/-- What is stored ends in its area. -/
theorem fits_place (successful : (place settings file placement statement).Successful) (stored : statement.IsStored) :
    (placement.cursor.aligned statement).counter + (placement.cursor.aligned statement).size settings statement ≤
      placement.area.stop settings.layout := by
  have moved := cursor_place successful
  rw [Cursor.after_of_stored stored] at moved
  have grown : (place settings file placement statement).placed ≠ placement.placed := by
    cases labels_place placement successful with
    | waits other => exact absurd stored other
    | binds _ _ _ _ placed =>
      rw [placed]
      exact List.cons_ne_self _ _
  cases moves_place settings file placement statement with
  | stays _ _ same | jumps _ _ _ _ _ same | aligns _ _ _ same | names _ _ _ _ _ _ _ _ _ _ same => exact absurd same grown
  | places _ _ size bounded _ _ area counters =>
    have counter : (place settings file placement statement).cursor.counter =
        alignUp placement.counter statement.alignment + size := by
      simp [Cursor.counter, Placement.cursor, area, counters]
    rw [moved, Cursor.counter_goTo] at counter
    rwa [counter]

/-- A statement leaves the counters within their bounds, or there is an error. -/
theorem bounded_place (ordered : settings.layout.Ordered) (modest : statement.Directs Directive.IsModest)
    (bounded : placement.cursor.Bounded settings.layout)
    (successful : (place settings file placement statement).Successful) :
    (place settings file placement statement).cursor.Bounded settings.layout := by
  by_cases stored : statement.IsStored
  · have fits := fits_place successful stored
    have aligned := bounded.aligned statement
    rw [cursor_place successful, Cursor.after_of_stored stored]
    exact aligned.goTo (Nat.le_trans (aligned.low _) (Nat.le_add_right _ _)) (Nat.le_trans fits (Area.stop_le_limit _ _))
  have same : (placement.labelled statement).cursor.Bounded settings.layout := bounded
  rw [place_eq] at successful ⊢
  split at successful
  next => exact bounded
  next written content => exact absurd (by simp [Statement.IsStored, content]) stored
  next directive content =>
    unfold placeDirective at successful ⊢
    dsimp only at successful ⊢
    split at successful
    case h_1 | h_2 | h_3 | h_4 => exact bounded_switch ordered same successful
    case h_5 exponent => exact same.align (modest _ content exponent rfl)
    case h_6 | h_8 => exact bounded
    case h_7 =>
      rw [cursor_reserve]
      exact bounded
    case h_9 =>
      refine absurd ?_ stored
      rw [Statement.IsStored, content]
      cases directive <;> first | rfl | simp_all

end Place

section Statements

variable {settings : Settings} (ordered : settings.layout.Ordered)

include ordered

theorem bounded_statements {file : Nat} {placement : Placement} (statements : List Statement)
    (modest : ∀ statement ∈ statements, statement.Directs Directive.IsModest)
    (bounded : placement.cursor.Bounded settings.layout)
    (successful : (statements.foldl (place settings file) placement).Successful) :
    (statements.foldl (place settings file) placement).cursor.Bounded settings.layout := by
  induction statements generalizing placement with
  | nil => exact bounded
  | cons statement rest ih =>
    rw [List.forall_mem_cons] at modest
    have first := successful.of_continues (continues_statements _ settings file rest)
    exact ih modest.2 (bounded_place ordered modest.1 bounded first) successful

/-- Where the next of the statements that is stored is sought, the counters are within their bounds, and it fits there. -/
theorem finds_seek {file : Nat} {placement : Placement} (statements : List Statement)
    (modest : ∀ statement ∈ statements, statement.Directs Directive.IsModest)
    (bounded : placement.cursor.Bounded settings.layout)
    (successful : (statements.foldl (place settings file) placement).Successful) :
    (placement.cursor.seek settings statements).Finds settings statements := by
  induction statements generalizing placement with
  | nil => exact ⟨bounded, by simp⟩
  | cons statement rest ih =>
    rw [List.forall_mem_cons] at modest
    have first := successful.of_continues (continues_statements _ settings file rest)
    rw [Cursor.seek]
    by_cases stored : statement.IsStored
    · rw [if_pos stored]
      refine ⟨bounded.aligned statement, fun target found => ?_⟩
      rw [List.find?_cons, decide_eq_true stored] at found
      cases found
      exact fits_place first stored
    · obtain ⟨bounds, room⟩ := ih modest.2 (bounded_place ordered modest.1 bounded first) successful
      rw [if_neg stored, ← cursor_place first]
      refine ⟨bounds, fun target found => room target ?_⟩
      rwa [List.find?_cons, decide_eq_false stored] at found

/-- So it is in front of every line of every file. -/
theorem finds_placeFiles (first : Nat) (files : List (List Statement)) {placement : Placement}
    (modest : ∀ statements ∈ files, ∀ statement ∈ statements, statement.Directs Directive.IsModest)
    (bounded : placement.cursor.Bounded settings.layout)
    (successful : (placement.placeFiles settings first files).Successful) {index : Nat} {earlier later : List Statement}
    (found : files[index]? = some (earlier ++ later)) :
    (((placement.cursor.atFile settings files index).behind settings earlier).seek settings later).Finds settings later := by
  induction files generalizing placement first index with
  | nil => cases found
  | cons statements rest ih =>
    rw [List.forall_mem_cons] at modest
    have ended := successful.of_continues (continues_placeFiles _ settings (first + 1) rest)
    have placed := ended.of_continues (continues_bind _ first)
    let begun : Placement := { placement with area := .text, pending := [] }
    have start : begun.cursor.Bounded settings.layout := ⟨bounded.low, bounded.high⟩
    cases index with
    | zero =>
      cases found
      rw [List.foldl_append] at placed
      have before := placed.of_continues (continues_statements _ settings first later)
      rw [List.forall_mem_append] at modest
      have here := finds_seek ordered later modest.1.2 (bounded_statements ordered earlier modest.1.1 start before) placed
      rw [cursor_statements earlier before] at here
      exact here
    | succ index =>
      have same := samePlaces_bind (statements.foldl (place settings first) begun) first
      have moved : (placement.placeFile settings first statements).cursor =
          placement.cursor.begun.behind settings statements :=
        same.cursor.trans (cursor_statements statements placed)
      have bounds : (placement.placeFile settings first statements).cursor.Bounded settings.layout :=
        same.cursor ▸ bounded_statements ordered statements modest.1 start placed
      have later := ih (first + 1) modest.2 bounds successful found
      rw [moved] at later
      exact later

end Statements

end Placement

/-- A name that a file defines is that of a label of one of its lines. -/
theorem exists_label_of_defines {files : List (List Statement)} {file : Nat} {name : String}
    (defines : Defines files file name) :
    ∃ earlier statement later, files[file]? = some (earlier ++ statement :: later) ∧
      ∃ label ∈ statement.labels, label.name = name := by
  obtain ⟨contents, found, named⟩ := defines
  obtain ⟨label, among, same⟩ := List.mem_map.1 named
  obtain ⟨statement, listed, member⟩ := List.mem_flatMap.1 among
  obtain ⟨earlier, later, rfl⟩ := List.append_of_mem listed
  exact ⟨earlier, statement, later, found, label, member, same⟩

/-- The symbols of a table are those that it has for the names of a file and for the names of all. -/
theorem SymbolTable.mem_toList {table : SymbolTable} {symbol : Symbol} :
    symbol ∈ table.toList ↔
      (∃ name, table.global? name = some symbol) ∨ ∃ file name, table.local? file name = some symbol := by
  have own (file : Nat) (name : String) : table.local? file name = some symbol ↔
      ∃ symbols, table.locals[file]? = some symbols ∧ symbols[name]? = some symbol := by
    rw [local?, ofFile]
    cases table.locals[file]? <;> simp
  simp only [toList, List.mem_append, List.mem_map, List.mem_flatMap, Prod.exists, exists_eq_right,
    Std.ExtTreeMap.mem_toList_iff_getElem?_eq_some, own, global?]
  refine or_congr Iff.rfl ⟨?_, ?_⟩
  · rintro ⟨file, symbols, found, name, known⟩
    exact ⟨file, name, symbols, found, known⟩
  · rintro ⟨file, name, symbols, found, known⟩
    exact ⟨file, symbols, found, name, known⟩

namespace Placement

variable {settings : Settings} {files : List (List Statement)}

/-- Every symbol is that of a label, which lies where the cursor comes to from its line on, or of memory reserved by name. -/
theorem label_or_reserved_of_mem_toList (successful : (ofFiles settings files).Successful) {symbol : Symbol}
    (member : symbol ∈ (ofFiles settings files).symbols.toList) :
    (∃ earlier statement later, files[symbol.file]? = some (earlier ++ statement :: later) ∧
      ∃ label ∈ statement.labels,
        symbol = ((((Cursor.initial settings.layout).atFile settings files symbol.file).behind settings earlier).seek
          settings (statement :: later)).symbol symbol.file label.name symbol.isGlobal) ∨
      ∃ name external, (ofFiles settings files).symbols.global? name = some symbol ∧
        reserving? (externals 0 files) name = some external ∧ symbol.Reserved external := by
  have lies {file : Nat} {name : String} (defines : Defines files file name) :
      ∃ earlier statement later, files[file]? = some (earlier ++ statement :: later) ∧
        ∃ label ∈ statement.labels, label.name = name ∧
          (ofFiles settings files).symbols.Holds files file name
            ((((Cursor.initial settings.layout).atFile settings files file).behind settings earlier).seek
              settings (statement :: later)) := by
    obtain ⟨earlier, statement, later, found, label, labelled, rfl⟩ := exists_label_of_defines defines
    have puts := puts_placeFiles 0 files (successful_unshared successful) found labelled
    rw [Nat.zero_add] at puts
    exact ⟨earlier, statement, later, found, label, labelled, rfl, holds_ofFiles successful puts⟩
  rcases SymbolTable.mem_toList.1 member with ⟨name, known⟩ | ⟨file, name, known⟩
  · rcases exports_or_reserved_of_global? successful known with ⟨exported, defines⟩ | ⟨external, asked, reserved⟩
    · obtain ⟨earlier, statement, later, found, label, labelled, rfl, holds⟩ := lies defines
      refine .inl ⟨earlier, statement, later, found, label, labelled, ?_⟩
      cases holds with
      | own hidden => exact absurd exported hidden
      | shared _ _ again =>
        have same := Option.some.inj (known.symm.trans again)
        have isGlobal : symbol.isGlobal = true := congrArg Symbol.isGlobal same
        rw [isGlobal]
        exact same
    · exact .inr ⟨name, external, known, asked, reserved⟩
  · obtain ⟨defines, hidden⟩ := defines_of_local? successful known
    obtain ⟨earlier, statement, later, found, label, labelled, rfl, holds⟩ := lies defines
    cases holds with
    | own _ again =>
      cases known.symm.trans again
      exact .inl ⟨earlier, statement, later, found, label, labelled, rfl⟩
    | shared exported => exact absurd exported hidden

end Placement

/-- A label that a program is found to have is among its symbols. -/
theorem exists_mem_toList {settings : Settings} {sources : List Source} {file : Nat} {name : String} {symbol : Symbol}
    (found : ((assemble settings sources).toOption.bind fun program => program.symbols.local? file name) = some symbol) :
    ∃ program, assemble settings sources = .ok program ∧ symbol ∈ program.symbols.toList := by
  obtain ⟨program, assembled, known⟩ := Option.bind_eq_some_iff.1 found
  exact ⟨program, eq_ok_of_toOption assembled, SymbolTable.mem_toList.2 (.inr ⟨file, name, known⟩)⟩

open Assembly

theorem modest_statements (sources : List Source) :
    ∀ contents ∈ statements sources, ∀ statement ∈ contents, statement.Directs Directive.IsModest := by
  intro contents among
  obtain ⟨source, -, rfl⟩ := List.mem_map.1 among
  exact directs_parseLines TokenLine.isModest_readDirective source.text

/-- Memory that is reserved by name lies in the data segment. -/
theorem segmentOf_of_reserved {settings : Settings} {sources : List Source} {program : Program}
    (ordered : settings.layout.Ordered) (assembled : assemble settings sources = .ok program) {name : String}
    {external : External} {symbol : Symbol} (known : program.symbols.global? name = some symbol)
    (asked : reserving? (externals 0 (statements sources)) name = some external) :
    settings.layout.segmentOf symbol.address = some symbol.segment := by
  obtain ⟨_, again, -, reserved, inside⟩ := global?_of_reserving? assembled asked
  cases known.symm.trans again
  have below : symbol.address.toNat < settings.layout.heapBase.toNat :=
    Nat.lt_of_le_of_lt (Nat.le_trans (Nat.le_add_right _ _) inside.2) ordered.data
  rw [reserved.segment]
  exact (Area.segmentOf_iff ordered .data symbol.address).2 ⟨inside.1, below⟩

/--
In every program that is assembled for a valid layout, each symbol lies in its segment, but for labels with nothing behind them
in an area that is full: the cursor stands at the end of the area, or up to four bytes further, where such a label comes to lie,
and from its line on the next statement that is stored, if the file has one, takes no bytes. Every such label lies outside of
its segment.
-/
theorem segments_of_assemble {settings : Settings} {sources : List Source} {program : Program}
    (valid : settings.layout.Valid) (assembled : assemble settings sources = .ok program) :
    let layout := settings.layout
    let files := statements sources
    ∀ symbol ∈ program.symbols.toList,
      layout.segmentOf symbol.address = some symbol.segment ∨
        layout.segmentOf symbol.address ≠ some symbol.segment ∧
          ∃ earlier statement later, files[symbol.file]? = some (earlier ++ statement :: later) ∧
            ∃ label ∈ statement.labels,
              let spot := (((Cursor.initial layout).atFile settings files symbol.file).behind settings earlier).seek settings
                (statement :: later)
              symbol = spot.symbol symbol.file label.name symbol.isGlobal ∧
                spot.area.stop layout ≤ spot.counter ∧ spot.counter ≤ spot.area.stop layout + 4 ∧
                ∀ target, (statement :: later).find? (fun statement => statement.IsStored) = some target →
                  spot.size settings target = 0 := by
  intro layout files symbol member
  have ordered := Layout.ordered_of_valid valid
  have successful := successful_ofFiles assembled
  have known := member
  rw [(program_of_assemble assembled).1] at known
  rcases Placement.label_or_reserved_of_mem_toList successful known with
    ⟨earlier, statement, later, found, label, labelled, same⟩ | ⟨name, external, known, asked, -⟩
  · let spot := (((Cursor.initial layout).atFile settings files symbol.file).behind settings earlier).seek settings
      (statement :: later)
    have start : (Placement.initial layout).cursor.Bounded layout :=
      Cursor.bounded_initial ordered (Layout.separated_of_valid valid)
    have finds : spot.Finds settings (statement :: later) :=
      Placement.finds_placeFiles ordered 0 files (modest_statements sources) start
        (Placement.successful_unshared successful) found
    have place : layout.segmentOf symbol.address = layout.segmentOf (UInt32.ofNat spot.counter) ∧
        symbol.segment = spot.area.segment := by
      rw [same]
      exact ⟨rfl, rfl⟩
    rw [place.1, place.2]
    exact (finds.lies_or_ends ordered).imp_right fun ⟨outside, ends⟩ =>
      ⟨outside, earlier, statement, later, found, label, labelled, same, ends⟩
  · rw [← (program_of_assemble assembled).1] at known
    exact .inl (segmentOf_of_reserved ordered assembled known asked)

/-- A label at the end of a file that has filled the data segment is bound to the end of that segment. -/
theorem segments_of_full :
    let sources : List Source := [⟨"full.s", ".data 0x1003fffc\n.word 5\nend:"⟩]
    Layout.standard.Valid ∧ ∃ program, assemble {} sources = .ok program ∧
      ∃ symbol ∈ program.symbols.toList, symbol.name = "end" ∧
        ∃ spot : Cursor, symbol = spot.symbol 0 "end" false ∧ spot.area.stop .standard ≤ spot.counter ∧
          spot.counter ≤ spot.area.stop .standard + 4 := by
  intro sources
  have known : ((assemble {} sources).toOption.bind fun program => program.symbols.local? 0 "end") =
      some ⟨"end", 0x10040000, .data, false, 0⟩ := by
    decide +kernel
  obtain ⟨program, assembled, member⟩ := exists_mem_toList known
  refine ⟨Layout.valid_standard, program, assembled, _, member, rfl, ?_⟩
  rcases segments_of_assemble Layout.valid_standard assembled _ member with
    lies | ⟨_, _, _, _, _, label, _, same, behind, near, _⟩
  · exact absurd lies (by decide)
  · have named : "end" = label.name := congrArg Symbol.name same
    rw [← named] at same
    exact ⟨_, same, behind, near⟩

/--
A label behind a full data segment is recorded in that segment, but lies in the heap. The counter of a full kernel data segment
wraps around, so that a label in front of nothing lies at zero.
-/
theorem symbols_outside_segment :
    let full : List Source := [⟨"full.s", ".data 0x1003fffc\n.word 5\nend:"⟩]
    let wrapped : List Source := [⟨"wrapped.s", ".kdata 0xfffffffc\n.word 1\nend: .space 0"⟩]
    Layout.standard.Valid ∧
      (∃ program, assemble {} full = .ok program ∧ ∃ symbol ∈ program.symbols.toList,
        symbol = ⟨"end", 0x10040000, .data, false, 0⟩ ∧ Layout.standard.segmentOf symbol.address = some .heap) ∧
      ∃ program, assemble {} wrapped = .ok program ∧ ∃ symbol ∈ program.symbols.toList,
        symbol = ⟨"end", 0, .kernelData, false, 0⟩ ∧ Layout.standard.segmentOf symbol.address = none := by
  intro full wrapped
  have heap : ((assemble {} full).toOption.bind fun program => program.symbols.local? 0 "end") =
      some ⟨"end", 0x10040000, .data, false, 0⟩ := by
    decide +kernel
  have zero : ((assemble {} wrapped).toOption.bind fun program => program.symbols.local? 0 "end") =
      some ⟨"end", 0, .kernelData, false, 0⟩ := by
    decide +kernel
  obtain ⟨first, assembled, member⟩ := exists_mem_toList heap
  obtain ⟨second, again, among⟩ := exists_mem_toList zero
  exact ⟨Layout.valid_standard, ⟨first, assembled, _, member, rfl, by decide⟩, second, again, _, among, rfl, by decide⟩

end Mips
