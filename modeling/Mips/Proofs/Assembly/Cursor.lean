import Mips.Proofs.Assembly.Resolution

/-!
Where labels come to lie. A cursor goes through the lines of a file and tells where the next statement would be placed,
without a look at any label; a label lies where the cursor comes to the next statement that is stored, or where it is at
the end of the file. Main statement: `labels_of_assemble`.
-/

namespace Mips

/-- The area that a file is in, and where the next statement of each area is placed. -/
structure Cursor where
  area : Area
  counters : Counters
  deriving DecidableEq, Repr

namespace Cursor

def initial (layout : Layout) : Cursor := ⟨.text, (Placement.initial layout).counters⟩

def counter (cursor : Cursor) : Nat := cursor.counters.get cursor.area

/-- The cursor at this number of its area. -/
def goTo (cursor : Cursor) (value : Nat) : Cursor :=
  { cursor with counters := cursor.counters.set cursor.area value }

/-- The cursor in another area, perhaps at an address of it. -/
def switch (cursor : Cursor) (area : Area) : Option Address → Cursor
  | none => { cursor with area := area }
  | some address => goTo { cursor with area := area } address.toNat

/-- The cursor at the next number that the statement may be placed at. -/
def aligned (cursor : Cursor) (statement : Statement) : Cursor :=
  cursor.goTo (alignUp cursor.counter statement.alignment)

/-- How many bytes the statement takes that is placed at the cursor. -/
def size (settings : Settings) (cursor : Cursor) (statement : Statement) : Nat :=
  match statement.content with
  | none => 0
  | some (.instruction written) =>
    match written.expand
        ⟨UInt32.ofNat cursor.counter, settings.extendedAssembler, settings.delayedBranching, none⟩ with
    | .ok instructions => 4 * instructions.length
    | .error _ => 0
  | some (.directive directive) => directive.size

/-- The cursor behind a statement: only what is stored, a switch and an alignment move it. -/
def after (settings : Settings) (cursor : Cursor) (statement : Statement) : Cursor :=
  if statement.IsStored then
    let start := cursor.aligned statement
    start.goTo (start.counter + start.size settings statement)
  else
    match statement.content with
    | some (.directive (.text address)) => cursor.switch .text address
    | some (.directive (.data address)) => cursor.switch .data address
    | some (.directive (.ktext address)) => cursor.switch .kernelText address
    | some (.directive (.kdata address)) => cursor.switch .kernelData address
    | some (.directive (.align exponent)) => cursor.goTo (alignUp cursor.counter (Nat.pow 2 exponent))
    | _ => cursor

theorem after_of_stored {settings : Settings} {cursor : Cursor} {statement : Statement} (stored : statement.IsStored) :
    cursor.after settings statement = (cursor.aligned statement).goTo
      ((cursor.aligned statement).counter + (cursor.aligned statement).size settings statement) :=
  if_pos stored

/-- The cursor behind statements. -/
def behind (settings : Settings) (cursor : Cursor) (statements : List Statement) : Cursor :=
  statements.foldl (after settings) cursor

/-- Every file begins in the text segment. -/
def begun (cursor : Cursor) : Cursor := { cursor with area := .text }

/-- The cursor where the file of this number begins, if it is in front of the first file. -/
def atFile (settings : Settings) (cursor : Cursor) (files : List (List Statement)) (file : Nat) : Cursor :=
  ((files.take file).foldl (fun cursor statements => cursor.begun.behind settings statements) cursor).begun

/-- The cursor at the next of the statements that is stored, or behind all of them. -/
def seek (settings : Settings) (cursor : Cursor) : List Statement → Cursor
  | [] => cursor
  | statement :: rest =>
    if statement.IsStored then cursor.aligned statement else (cursor.after settings statement).seek settings rest

/-- The symbol of a label that lies at the cursor. -/
def symbol (cursor : Cursor) (file : Nat) (name : String) (isGlobal : Bool) : Symbol :=
  ⟨name, UInt32.ofNat cursor.counter, cursor.area.segment, isGlobal, file⟩

/-- Behind the last statement that is stored, the next one is sought in vain. -/
theorem seek_of_find? (settings : Settings) (cursor : Cursor) {statements : List Statement}
    (none : statements.find? (fun statement => statement.IsStored) = none) :
    cursor.seek settings statements = cursor.behind settings statements := by
  induction statements generalizing cursor with
  | nil => rfl
  | cons statement rest ih =>
    rw [List.find?_eq_none] at none
    have other : ¬ statement.IsStored := by simpa using none statement List.mem_cons_self
    rw [seek, if_neg other]
    exact ih _ (List.find?_eq_none.2 fun later member => none later (List.mem_cons_of_mem _ member))

@[simp] theorem counter_goTo (cursor : Cursor) (value : Nat) : (cursor.goTo value).counter = value := by
  simp [counter, goTo]

end Cursor

namespace Placement

/-- Where the next statement is placed, without what is known about labels. -/
def cursor (placement : Placement) : Cursor := ⟨placement.area, placement.counters⟩

theorem SamePlaces.cursor {before after : Placement} (same : SamePlaces before after) :
    after.cursor = before.cursor := by
  rw [Placement.cursor, Placement.cursor, same.area, same.counters]

section Place

variable {settings : Settings} {file : Nat} {statement : Statement} {placement : Placement}

theorem cursor_allocate {layout : Layout} {size : Nat}
    (successful : (placement.allocate layout file statement size).Successful) :
    (placement.allocate layout file statement size).cursor = placement.cursor.goTo (placement.counter + size) := by
  have same := samePlaces_bind placement file
  unfold allocate at successful ⊢
  dsimp only at successful ⊢
  split at successful
  next => exact absurd successful (not_successful_report rfl)
  next fits =>
    rw [if_neg fits, same.counter]
    simp only [cursor, withCounter, Cursor.goTo, same.area, same.counters]

theorem cursor_switch {layout : Layout} {area : Area} {address : Option Address}
    (successful : (placement.switch layout file statement area address).Successful) :
    (placement.switch layout file statement area address).cursor = placement.cursor.switch area address := by
  unfold switch at successful ⊢
  cases address with
  | none => rfl
  | some address =>
    dsimp only at successful ⊢
    split at successful
    next fits =>
      rw [if_pos fits]
      rfl
    next => exact absurd successful (not_successful_report rfl)

theorem cursor_reserve (placement : Placement) (layout : Layout) (file : Nat) (statement : Statement) (label : Label)
    (size : Nat) : (placement.reserve layout file statement label size).cursor = placement.cursor := by
  unfold reserve
  split
  · rfl
  · dsimp only
    split <;> rfl

theorem cursor_placeInstruction {written : WrittenInstruction}
    (content : statement.content = some (.instruction written))
    (successful : (placement.placeInstruction settings file statement written).Successful) :
    (placement.placeInstruction settings file statement written).cursor = placement.cursor.after settings statement := by
  have stored : statement.IsStored := by simp [Statement.IsStored, content]
  have start : placement.cursor.aligned statement = placement.cursor := by
    rw [Cursor.aligned, Statement.alignment, content, alignUp_one]
    exact congrArg (Cursor.mk placement.area) (Counters.set_get _ _)
  obtain ⟨instructions, -, expanded, same⟩ := expands_of_placeInstruction successful
  rw [same] at successful ⊢
  have size : placement.cursor.size settings statement = 4 * instructions.length := by
    have sized : written.expand ⟨UInt32.ofNat placement.cursor.counter, settings.extendedAssembler,
        settings.delayedBranching, none⟩ = .ok instructions := expanded
    simp only [Cursor.size, content, sized]
  rw [cursor_allocate successful, Cursor.after_of_stored stored, start, size]
  rfl

theorem cursor_placeDirective {directive : Directive} (content : statement.content = some (.directive directive))
    (successful : (placement.placeDirective settings file statement directive).Successful) :
    (placement.placeDirective settings file statement directive).cursor = placement.cursor.after settings statement := by
  have kind : statement.IsStored ↔ directive.isData = true := by simp [Statement.IsStored, content]
  unfold placeDirective at successful ⊢
  dsimp only at successful ⊢
  split at successful
  case h_1 | h_2 | h_3 | h_4 =>
    rw [cursor_switch successful, Cursor.after, if_neg (by simp [kind, Directive.isData]), content]
  case h_5 | h_6 | h_8 =>
    rw [Cursor.after, if_neg (by simp [kind, Directive.isData]), content]
    rfl
  case h_7 =>
    rw [cursor_reserve, Cursor.after, if_neg (by simp [kind, Directive.isData]), content]
  case h_9 =>
    split at successful
    next => exact absurd successful (not_successful_report rfl)
    next text =>
      have data : directive.isData = true := by
        cases directive <;> first | rfl | simp_all
      have start : (placement.withCounter (alignUp placement.counter directive.alignment)).cursor =
          placement.cursor.aligned statement := by
        rw [Cursor.aligned, Statement.alignment, content]
        rfl
      have size : (placement.cursor.aligned statement).size settings statement = directive.size := by
        rw [Cursor.size, content]
      rw [if_neg text, cursor_allocate successful, Cursor.after_of_stored (kind.2 data), size, ← start]
      rfl

/-- Placing a statement moves as the cursor does, or there is an error. -/
theorem cursor_place (successful : (place settings file placement statement).Successful) :
    (place settings file placement statement).cursor = placement.cursor.after settings statement := by
  have same : (placement.labelled statement).cursor = placement.cursor := rfl
  rw [place_eq] at successful ⊢
  split at successful
  next content => simp [Cursor.after, content, Statement.IsStored, same]
  next written content => exact (cursor_placeInstruction content successful).trans (by rw [same])
  next directive content => exact (cursor_placeDirective content successful).trans (by rw [same])

end Place

/-- The label of a file is bound to where the cursor is, and the statement that it is meant for has been placed there. -/
structure Puts (placement : Placement) (file : Nat) (name : String) (cursor : Cursor) (target : Option Statement) :
    Prop where
  known : placement.symbols.local? file name = some (cursor.symbol file name false)
  placed : ∀ statement, target = some statement → ⟨file, statement, UInt32.ofNat cursor.counter⟩ ∈ placement.placed

theorem Puts.of_kept {before after : Placement} {file : Nat} {name : String} {cursor : Cursor} {target : Option Statement}
    (puts : before.Puts file name cursor target) (placed : before.placed <:+ after.placed)
    (kept : after.symbols.local? file name = before.symbols.local? file name) : after.Puts file name cursor target :=
  ⟨kept.trans puts.known, fun statement meant => placed.subset (puts.placed statement meant)⟩

section Statements

variable {settings : Settings} {file : Nat} {placement : Placement} {label : Label}

/-- A statement that is stored is placed at the next number that it may be placed at, and so are its labels. -/
theorem puts_place {statement : Statement} (successful : (place settings file placement statement).Successful)
    (stored : statement.IsStored) (member : label ∈ placement.waiting ++ statement.labels) :
    (place settings file placement statement).Puts file label.name (placement.cursor.aligned statement)
      (some statement) := by
  cases labels_place placement successful with
  | waits other => exact absurd stored other
  | binds _ address bound waiting placed =>
    have counter : (placement.cursor.aligned statement).counter = alignUp placement.counter statement.alignment :=
      Cursor.counter_goTo _ _
    have start : address = UInt32.ofNat (placement.cursor.aligned statement).counter := by
      cases step_place settings file placement statement with
      | passed same => exact absurd (placed.symm.trans same) (List.cons_ne_self _ _)
      | placed start size aligned takes bounded moved here =>
        have same := here.symm.trans placed
        rw [counter, ← aligned]
        injection same with first
        injection first with _ _ address
        exact address.symm
    rw [start] at bound placed
    refine ⟨bound.bound label member, ?_⟩
    rintro _ ⟨rfl⟩
    rw [placed]
    exact List.mem_cons_self

/-- What is bound in a file stays bound until its end. -/
theorem Puts.of_bind {name : String} {cursor : Cursor} {target : Option Statement}
    (puts : placement.Puts file name cursor target) (statements : List Statement)
    (successful : ((statements.foldl (place settings file) placement).bind file).Successful) :
    ((statements.foldl (place settings file) placement).bind file).Puts file name cursor target := by
  have binding := binding_file settings file statements successful
  have continues := (continues_statements placement settings file statements).trans (continues_bind _ file)
  refine puts.of_kept continues.placed (binding.kept file name fun _ again => ?_)
  obtain ⟨entry, member, rfl⟩ := List.mem_map.1 again
  exact absurd (puts.known.symm.trans (binding.fresh entry member)) (by simp)

/-- The labels of a statement lie with those that wait for the first statement of the rest that is stored. -/
theorem puts_cons {statement : Statement} {rest : List Statement}
    (successful : (((statement :: rest).foldl (place settings file) placement).bind file).Successful)
    (member : label ∈ placement.waiting ++ statement.labels)
    (later : label ∈ (place settings file placement statement).waiting →
      ((rest.foldl (place settings file) (place settings file placement statement)).bind file).Puts file label.name
        ((place settings file placement statement).cursor.seek settings rest)
        (rest.find? fun statement => statement.IsStored)) :
    (((statement :: rest).foldl (place settings file) placement).bind file).Puts file label.name
      (placement.cursor.seek settings (statement :: rest))
      ((statement :: rest).find? fun statement => statement.IsStored) := by
  have ended := successful.of_continues (continues_bind _ file)
  have first := ended.of_continues (continues_statements _ settings file rest)
  rw [Cursor.seek, List.find?_cons]
  by_cases stored : statement.IsStored
  · rw [if_pos stored, decide_eq_true stored]
    exact (puts_place first stored member).of_bind rest successful
  · rw [if_neg stored, decide_eq_false stored, ← cursor_place first]
    refine later ?_
    cases labels_place placement first with
    | waits other waiting => rwa [waiting]
    | binds again => exact absurd again stored

/-- A label that waits lies where the next statement that is stored does, or at the end of the file. -/
theorem puts_of_waiting (statements : List Statement)
    (successful : ((statements.foldl (place settings file) placement).bind file).Successful)
    (member : label ∈ placement.waiting) :
    ((statements.foldl (place settings file) placement).bind file).Puts file label.name
      (placement.cursor.seek settings statements) (statements.find? fun statement => statement.IsStored) := by
  induction statements generalizing placement with
  | nil => exact ⟨(binds_bind placement successful).bound label member, by simp⟩
  | cons statement rest ih => exact puts_cons successful (List.mem_append_left _ member) (ih successful)

theorem cursor_statements (statements : List Statement)
    (successful : (statements.foldl (place settings file) placement).Successful) :
    (statements.foldl (place settings file) placement).cursor = placement.cursor.behind settings statements := by
  induction statements generalizing placement with
  | nil => rfl
  | cons statement rest ih =>
    have first := successful.of_continues (continues_statements _ settings file rest)
    rw [Cursor.behind, List.foldl_cons, List.foldl_cons, ← cursor_place first]
    exact ih successful

/-- Each label of a file lies where the next statement from its own line on does that is stored. -/
theorem puts_statements {earlier later : List Statement} {statement : Statement} (member : label ∈ statement.labels)
    (successful :
      (((earlier ++ statement :: later).foldl (place settings file) placement).bind file).Successful) :
    (((earlier ++ statement :: later).foldl (place settings file) placement).bind file).Puts file label.name
      ((placement.cursor.behind settings earlier).seek settings (statement :: later))
      ((statement :: later).find? fun statement => statement.IsStored) := by
  rw [List.foldl_append] at successful ⊢
  have ended := successful.of_continues (continues_bind _ file)
  rw [← cursor_statements earlier (ended.of_continues (continues_statements _ settings file (statement :: later)))]
  exact puts_cons successful (List.mem_append_right _ member) (puts_of_waiting later successful)

end Statements

/-- Each label of each of the files lies where the next statement of its file does that is stored. -/
theorem puts_placeFiles {settings : Settings} (first : Nat) (files : List (List Statement)) {placement : Placement}
    (successful : (placement.placeFiles settings first files).Successful) {index : Nat} {earlier later : List Statement}
    {statement : Statement} {label : Label} (found : files[index]? = some (earlier ++ statement :: later))
    (member : label ∈ statement.labels) :
    (placement.placeFiles settings first files).Puts (first + index) label.name
      (((placement.cursor.atFile settings files index).behind settings earlier).seek settings (statement :: later))
      ((statement :: later).find? fun statement => statement.IsStored) := by
  induction files generalizing placement first index with
  | nil => cases found
  | cons statements rest ih =>
    have ended := successful.of_continues (continues_placeFiles _ settings (first + 1) rest)
    let begun : Placement := { placement with area := .text, pending := [] }
    cases index with
    | zero =>
      cases found
      have here : Puts (placement.placeFile settings first (earlier ++ statement :: later)) first label.name
          ((begun.cursor.behind settings earlier).seek settings (statement :: later)) _ := puts_statements member ended
      refine here.of_kept (continues_placeFiles _ settings (first + 1) rest).placed ?_
      refine (bound_placeFiles settings (first + 1) rest successful).2 first label.name ?_
      exact fun index _ _ same => absurd same (by omega)
    | succ index =>
      have same := samePlaces_bind (statements.foldl (place settings first) begun) first
      have moved : (placement.placeFile settings first statements).cursor =
          placement.cursor.begun.behind settings statements :=
        same.cursor.trans (cursor_statements statements (ended.of_continues (continues_bind _ first)))
      have later := ih (first + 1) successful found
      rw [Nat.add_right_comm, moved] at later
      exact later

section Shared

variable {settings : Settings} {files : List (List Statement)} (successful : (ofFiles settings files).Successful)

include successful

/-- A global symbol is a label that its file shares, or memory that is reserved by name. -/
theorem exports_or_reserved_of_global? {name : String} {symbol : Symbol}
    (found : (ofFiles settings files).symbols.global? name = some symbol) :
    (Exports files symbol.file name ∧ Defines files symbol.file name) ∨
      ∃ external, reserving? (externals 0 files) name = some external ∧ symbol.Reserved external := by
  obtain ⟨may, shares⟩ := shares_ofFiles successful
  cases asked : reserving? (externals 0 files) name with
  | some external =>
    obtain ⟨other, known, -, reserved⟩ := stands_of_reserved successful asked
    cases found.symm.trans known
    exact .inr ⟨external, rfl, reserved⟩
  | none =>
    have fresh := (global?_eq_none_iff (successful_unshared successful)).2 asked
    by_cases exported : ∃ owner, Exports files owner name
    · obtain ⟨owner, exported⟩ := exported
      rcases (may owner name exported).owned with ⟨defined, -⟩ | ⟨-, external, again, -⟩
      · obtain ⟨-, other, known, marks, -⟩ := stands_of_shared successful exported defined
        cases found.symm.trans known
        rw [marks.owned]
        exact .inl ⟨exported, defined⟩
      · cases asked.symm.trans again
    · have none := shares.absent name fresh fun one member same => exported ⟨one.file, one, member, rfl, same⟩
      cases found.symm.trans none

/-- A symbol of one file only is a label that the file defines and does not share. -/
theorem defines_of_local? {file : Nat} {name : String} {symbol : Symbol}
    (found : (ofFiles settings files).symbols.local? file name = some symbol) :
    Defines files file name ∧ ¬ Exports files file name := by
  constructor
  · by_cases defined : Defines files file name
    · exact defined
    · cases found.symm.trans (local?_of_undefined successful defined)
  · rintro ⟨one, member, rfl, rfl⟩
    cases found.symm.trans ((shares_ofFiles successful).2.gone one member)

end Shared

end Placement

/-- The one symbol of a label lies at the cursor, among those of its file or, if it is shared, among the global ones. -/
inductive SymbolTable.Holds (table : SymbolTable) (files : List (List Statement)) (file : Nat) (name : String)
    (cursor : Cursor) : Prop where
  | own (hidden : ¬ Exports files file name) (known : table.local? file name = some (cursor.symbol file name false))
  | shared (exported : Exports files file name) (gone : table.local? file name = none)
      (known : table.global? name = some (cursor.symbol file name true))

/-- Sharing a label changes who knows it, but not where it lies. -/
theorem Placement.holds_ofFiles {settings : Settings} {files : List (List Statement)}
    (successful : (ofFiles settings files).Successful) {file : Nat} {name : String} {cursor : Cursor}
    {target : Option Statement} (puts : (unshared settings files).Puts file name cursor target) :
    (ofFiles settings files).symbols.Holds files file name cursor := by
  have shares := (shares_ofFiles successful).2
  by_cases exported : Exports files file name
  · have sharing := exported
    obtain ⟨one, member, rfl, rfl⟩ := exported
    exact .shared sharing (shares.gone one member) (shares.moved one member _ puts.known)
  · refine .own exported ((shares.kept file name fun one member owner same => ?_).trans puts.known)
    exact exported ⟨one, member, owner, same⟩

open Assembly

/--
In every program that is assembled from sources, each label of each line lies where the cursor comes to the first
statement from that line on that is stored, and that statement has been placed there; if there is none in the file, the
label lies where the cursor is at the end of the file. The table has one symbol for the label, which is global exactly if
the file shares it; no file has two labels of one name, and there are no other symbols but those of memory that is reserved
by name.
-/
theorem labels_of_assemble {settings : Settings} {sources : List Source} {program : Program}
    (assembled : assemble settings sources = .ok program) :
    let files := statements sources
    let placed := (Placement.ofFiles settings files).placed
    let start := Cursor.initial settings.layout
    (∀ (file : Nat) (earlier : List Statement) (statement : Statement) (later : List Statement),
      files[file]? = some (earlier ++ statement :: later) → ∀ label ∈ statement.labels,
        let spot := ((start.atFile settings files file).behind settings earlier).seek settings (statement :: later)
        program.symbols.Holds files file label.name spot ∧
        (∀ target, (statement :: later).find? (fun statement => statement.IsStored) = some target →
          let there : Placed := ⟨file, target, UInt32.ofNat spot.counter⟩
          there ∈ placed ∧ there.Resolved settings program) ∧
        ((statement :: later).find? (fun statement => statement.IsStored) = none →
          spot = (start.atFile settings files file).behind settings (earlier ++ statement :: later))) ∧
    (∀ (file : Nat) (contents : List Statement), files[file]? = some contents → (definedNames contents).Nodup) ∧
    (∀ file name symbol, program.symbols.local? file name = some symbol →
      Defines files file name ∧ ¬ Exports files file name) ∧
    (∀ name symbol, program.symbols.global? name = some symbol →
      (Exports files symbol.file name ∧ Defines files symbol.file name) ∨
        ∃ external, reserving? (externals 0 files) name = some external ∧ symbol.Reserved external) := by
  intro files placed start
  have successful := successful_ofFiles assembled
  have unshared := Placement.successful_unshared successful
  rw [(program_of_assemble assembled).1]
  refine ⟨?_, ?_, fun file name symbol => Placement.defines_of_local? successful,
    fun name symbol => Placement.exports_or_reserved_of_global? successful⟩
  · intro file earlier statement later found label member spot
    have puts : (Placement.unshared settings files).Puts file label.name spot _ :=
      Nat.zero_add file ▸ Placement.puts_placeFiles 0 files unshared found member
    refine ⟨Placement.holds_ofFiles successful puts, ?_, ?_⟩
    · intro target meant there
      have listed : there ∈ placed := by
        change there ∈ (Placement.ofFiles settings files).placed
        rw [← Placement.shareAll_unshared, Placement.placed_shareAll]
        exact puts.placed target meant
      exact ⟨listed, resolved_of_assemble assembled listed⟩
    · intro none
      rw [Cursor.behind, List.foldl_append]
      exact Cursor.seek_of_find? settings _ none
  · exact fun file contents found => ((Placement.bound_placeFiles settings 0 files unshared).1 file contents found).1

/-- A label passes what stores nothing, through whichever segments that leads. -/
theorem labels_of_segments :
    let text := ".globl main\nearly: .data\n.byte 1\nlate: .align 3\n.extern x 4\n.half 2\nmain: .text\nnop\ntail: .ktext"
    let sources : List Source := [⟨"main.s", text⟩]
    ∃ program, assemble {} sources = .ok program ∧
      program.symbols.local? 0 "early" = some ⟨"early", 0x10010000, .data, false, 0⟩ ∧
      program.symbols.local? 0 "late" = some ⟨"late", 0x10010008, .data, false, 0⟩ ∧
      program.symbols.local? 0 "tail" = some ⟨"tail", 0x80000000, .kernelText, false, 0⟩ ∧
      program.symbols.global? "main" = some ⟨"main", 0x00400000, .text, true, 0⟩ := by
  intro text sources
  have computed : (assemble {} sources).toOption.isSome = true := by decide +kernel
  obtain ⟨program, assembled⟩ := Option.isSome_iff_exists.1 computed
  have successful := eq_ok_of_toOption assembled
  let files := statements sources
  let contents := (parseLines text).1
  let spot (index : Nat) : Cursor :=
    (((Cursor.initial .standard).atFile {} files 0).behind {} (contents.take index)).seek {} (contents.drop index)
  have holds (index : Nat) (name : String) (labelled : ∃ statement ∈ contents[index]?, ∃ label ∈ statement.labels,
      label.name = name) : program.symbols.Holds files 0 name (spot index) := by
    obtain ⟨statement, here, label, member, rfl⟩ := labelled
    obtain ⟨bound, rfl⟩ := List.getElem?_eq_some_iff.1 here
    have rest := List.drop_eq_getElem_cons bound
    have found : files[0]? = some (contents.take index ++ contents[index] :: contents.drop (index + 1)) := by
      rw [← rest, List.take_append_drop]
      rfl
    have lies := ((labels_of_assemble successful).1 0 _ _ _ found label member).1
    rwa [← rest] at lies
  have own (index : Nat) (name : String) (labelled : ∃ statement ∈ contents[index]?, ∃ label ∈ statement.labels,
      label.name = name) (hidden : ¬ Exports files 0 name) :
      program.symbols.local? 0 name = some ((spot index).symbol 0 name false) := by
    cases holds index name labelled with
    | own _ known => exact known
    | shared exported => exact absurd exported hidden
  obtain ⟨early, late, tail, main⟩ :
      (spot 1).symbol 0 "early" false = ⟨"early", 0x10010000, .data, false, 0⟩ ∧
      (spot 3).symbol 0 "late" false = ⟨"late", 0x10010008, .data, false, 0⟩ ∧
      (spot 8).symbol 0 "tail" false = ⟨"tail", 0x80000000, .kernelText, false, 0⟩ ∧
      (spot 6).symbol 0 "main" true = ⟨"main", 0x00400000, .text, true, 0⟩ := by
    decide +kernel
  have labelled : ∀ pair ∈ [(1, "early"), (3, "late"), (8, "tail"), (6, "main")],
      ∃ statement ∈ contents[pair.1]?, ∃ label ∈ statement.labels, label.name = pair.2 := by
    decide +kernel
  obtain ⟨hidden, exported⟩ :
      (∀ name ∈ ["early", "late", "tail"], ¬ Exports files 0 name) ∧ Exports files 0 "main" := by
    decide +kernel
  refine ⟨program, successful, ?_, ?_, ?_, ?_⟩
  · exact early ▸ own 1 "early" (labelled (1, "early") (by simp)) (hidden "early" (by simp))
  · exact late ▸ own 3 "late" (labelled (3, "late") (by simp)) (hidden "late" (by simp))
  · exact tail ▸ own 8 "tail" (labelled (8, "tail") (by simp)) (hidden "tail" (by simp))
  · cases holds 6 "main" (labelled (6, "main") (by simp)) with
    | own hidden => exact absurd exported hidden
    | shared _ _ known => exact main ▸ known

end Mips
