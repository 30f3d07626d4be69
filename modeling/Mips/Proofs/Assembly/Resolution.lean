import Mips.Proofs.Assembly.Sharing
import Mips.Proofs.Assembly.Targets
import Mips.Proofs.Expansion.References

/-!
What names mean. A name that a file defines means the file's own label, and any other name means what is known under it
to all files: a label that some file shares, or memory that is reserved under the name. Main statement:
`names_resolve`.
-/

namespace Mips

section Names

variable (files : List (List Statement))

/-- The file has a label of the name. -/
def Defines (file : Nat) (name : String) : Prop :=
  ∃ contents, files[file]? = some contents ∧ name ∈ definedNames contents

/-- The file shares the name with the other files. -/
def Exports (file : Nat) (name : String) : Prop := ∃ one ∈ exports 0 files, one.file = file ∧ one.name = name

/-- The name is written in an operand or a word of the file. -/
def Uses (file : Nat) (name : String) : Prop :=
  ∃ contents, files[file]? = some contents ∧ ∃ statement ∈ contents, ∃ label ∈ statement.references, label.name = name

instance (file : Nat) (name : String) : Decidable (Defines files file name) :=
  decidable_of_iff (∃ contents ∈ files[file]?, name ∈ definedNames contents) (by simp [Defines])

instance (file : Nat) (name : String) : Decidable (Exports files file name) :=
  inferInstanceAs (Decidable (∃ one ∈ exports 0 files, one.file = file ∧ one.name = name))

/-- What a name may mean. -/
inductive Meaning where
  /-- The label of a file. -/
  | label (owner : Nat)
  /-- The memory that is reserved for a line. -/
  | memory (external : External)

/-- The name means this to all files that do not define it. -/
inductive IsGlobal (name : String) : Meaning → Prop where
  | shared {owner : Nat} (exported : Exports files owner name) (defined : Defines files owner name) :
    IsGlobal name (.label owner)
  | reserved {external : External} (found : reserving? (externals 0 files) name = some external) :
    IsGlobal name (.memory external)

/-- The name means this in the file. -/
inductive Means (file : Nat) (name : String) : Meaning → Prop where
  | own (defined : Defines files file name) : Means file name (.label file)
  | global (undefined : ¬ Defines files file name) {meaning : Meaning} (known : IsGlobal files name meaning) :
    Means file name meaning

/--
The file may share the name: no other file does, and either the file defines it and no memory is reserved under it, or
the file does not but its own line reserves memory under it.
-/
structure MayShare (file : Nat) (name : String) : Prop where
  single : ∀ other, Exports files other name → other = file
  owned : (Defines files file name ∧ reserving? (externals 0 files) name = none) ∨
    (¬ Defines files file name ∧ ∃ external, reserving? (externals 0 files) name = some external ∧ external.file = file)

/-- The symbol is the label of a file, at the address of the statement that the label heads, if there is one. -/
structure Symbol.Marks (placed : List Placed) (owner : Nat) (name : String) (symbol : Symbol) : Prop where
  named : symbol.name = name
  owned : symbol.file = owner
  lies : ∀ contents, files[owner]? = some contents → ∀ label statement, (label, some statement) ∈ headings [] contents →
    label.name = name → ⟨owner, statement, symbol.address⟩ ∈ placed

/-- The symbol is what the name means. -/
def Symbol.Stands (placed : List Placed) (name : String) (symbol : Symbol) : Meaning → Prop
  | .label owner => symbol.Marks files placed owner name ∧ (symbol.isGlobal = true ↔ Exports files owner name)
  | .memory external => symbol.name = name ∧ symbol.Reserved external

end Names

/-- The program holds what a placed statement says if each of its labels means what the table says for its file. -/
structure Placed.Resolved (settings : Settings) (program : Program) (placed : Placed) : Prop where
  code : ∀ written, placed.statement.content = some (.instruction written) → ∃ instructions,
    written.expand ⟨placed.address, settings.extendedAssembler, settings.delayedBranching,
      some (Emission.resolve program.symbols placed.file)⟩ = .ok instructions ∧
    ∀ index instruction, instructions[index]? = some instruction →
      ∃ statement, placed.Becomes program index statement ∧ statement.instruction = instruction
  data : ∀ directive, placed.statement.content = some (.directive directive) → directive.isData = true → ∃ bytes,
    directive.image? (program.symbols.address? placed.file) = some bytes ∧
    ∀ index byte, bytes[index]? = some byte → program.data[placed.address + UInt32.ofNat index]? = some byte

namespace Placement

open SymbolTable

/-- The statements have been placed, and no label has been shared yet. -/
def unshared (settings : Settings) (files : List (List Statement)) : Placement :=
  (initial settings.layout).placeFiles settings 0 files

theorem shareAll_unshared (settings : Settings) (files : List (List Statement)) :
    (unshared settings files).shareAll = ofFiles settings files := rfl

theorem exports_unshared (settings : Settings) (files : List (List Statement)) :
    (unshared settings files).exports.reverse = Mips.exports 0 files :=
  exports_placeFiles (initial settings.layout) settings 0 files

section Unshared

variable {settings : Settings} {files : List (List Statement)} (successful : (unshared settings files).Successful)
  {file : Nat} {name : String}

include successful

theorem exists_local?_of_defines (defined : Defines files file name) :
    ∃ symbol, (unshared settings files).symbols.local? file name = some symbol ∧ symbol.isGlobal = false ∧
      symbol.Marks files (unshared settings files).placed file name := by
  obtain ⟨contents, found, member⟩ := defined
  obtain ⟨-, bound⟩ := (bound_placeFiles settings 0 files successful).1 file contents found
  rw [← names_headings] at member
  obtain ⟨entry, listed, rfl⟩ := List.mem_map.1 member
  rw [Nat.zero_add] at bound
  obtain ⟨symbol, known, name, owner, own, -⟩ := bound entry listed
  refine ⟨symbol, known, own, name, owner, ?_⟩
  intro others again label statement heads same
  cases found.symm.trans again
  obtain ⟨other, marked, -, -, -, lies⟩ := bound (label, some statement) heads
  rw [show (label, some statement).1.name = entry.1.name from same, known] at marked
  cases marked
  exact lies statement rfl

theorem local?_of_not_defines (undefined : ¬ Defines files file name) :
    (unshared settings files).symbols.local? file name = none := by
  have kept := (bound_placeFiles settings 0 files successful).2 file name
  refine (kept fun index contents found same member => ?_).trans ?_
  · rw [Nat.zero_add] at same
    exact undefined ⟨contents, same ▸ found, member⟩
  · simp [initial, local?, ofFile, empty]

theorem defines_iff : Defines files file name ↔ ((unshared settings files).symbols.local? file name).isSome := by
  by_cases defined : Defines files file name
  · obtain ⟨symbol, known, -⟩ := exists_local?_of_defines successful defined
    simp [defined, known]
  · simp [defined, local?_of_not_defines successful defined]

theorem owned_unshared : (unshared settings files).symbols.Owned := by
  intro file name symbol found
  have defined : Defines files file name := (defines_iff successful).2 (by rw [found]; rfl)
  obtain ⟨other, known, -, marks⟩ := exists_local?_of_defines successful defined
  cases found.symm.trans known
  exact ⟨marks.owned, marks.named⟩

theorem reserves_unshared : (unshared settings files).Reserves settings.layout (externals 0 files) :=
  reserves_placeFiles (reserves_initial settings.layout) 0 files successful

theorem global?_eq_none_iff :
    (unshared settings files).symbols.global? name = none ↔ reserving? (externals 0 files) name = none := by
  have reserves := reserves_unshared successful
  cases found : reserving? (externals 0 files) name with
  | none => simp [reserves.fresh name found]
  | some external =>
    obtain ⟨symbol, known, -⟩ := reserves.found name external found
    simp [known]

/-- Whether a name may be shared can be told from the lines alone. -/
theorem sharable_iff (one : Export) : (unshared settings files).symbols.Sharable one ↔
    (Defines files one.file one.name ∧ reserving? (externals 0 files) one.name = none) ∨
      (¬ Defines files one.file one.name ∧
        ∃ external, reserving? (externals 0 files) one.name = some external ∧ external.file = one.file) := by
  have reserves := reserves_unshared successful
  unfold Sharable
  split
  next symbol found =>
    have defined : Defines files one.file one.name := (defines_iff successful).2 (by rw [found]; rfl)
    simp [defined, global?_eq_none_iff successful]
  next found =>
    have undefined : ¬ Defines files one.file one.name := by simp [defines_iff successful, found]
    simp only [undefined, false_and, not_false_eq_true, true_and, false_or]
    constructor
    · rintro ⟨symbol, known, owner⟩
      cases asked : reserving? (externals 0 files) one.name with
      | none => simp [reserves.fresh _ asked] at known
      | some external =>
        obtain ⟨other, again, reserved, -⟩ := reserves.found _ external asked
        cases known.symm.trans again
        exact ⟨external, rfl, reserved.file ▸ owner⟩
    · rintro ⟨external, asked, owner⟩
      obtain ⟨symbol, known, reserved, -⟩ := reserves.found _ external asked
      exact ⟨symbol, known, reserved.file.trans owner⟩

theorem consistent_iff : (unshared settings files).symbols.Consistent (Mips.exports 0 files) ↔
    ∀ file name, Exports files file name → MayShare files file name := by
  constructor
  · rintro ⟨sharable, single⟩ file name ⟨one, member, rfl, rfl⟩
    refine ⟨?_, (sharable_iff successful one).1 (sharable one member)⟩
    rintro other ⟨another, present, rfl, same⟩
    exact single another present one member same
  · intro may
    have each (one : Export) (member : one ∈ Mips.exports 0 files) := may one.file one.name ⟨one, member, rfl, rfl⟩
    refine ⟨fun one member => (sharable_iff successful one).2 (each one member).owned, ?_⟩
    intro one member other present same
    exact (each other present).single one.file ⟨one, member, rfl, same⟩

/-- Sharing labels finds no error exactly if each name that is shared may be, however often that is said and where. -/
theorem findings_ofFiles : (ofFiles settings files).findings = (unshared settings files).findings ↔
    ∀ file name, Exports files file name → MayShare files file name := by
  rw [← consistent_iff successful, ← exports_unshared settings, ← shareAll_unshared]
  exact (shares_shareAll (owned_unshared successful)).1

end Unshared

section Shared

variable {settings : Settings} {files : List (List Statement)} (successful : (ofFiles settings files).Successful)
  {file : Nat} {name : String}

include successful

theorem successful_unshared : (unshared settings files).Successful :=
  successful.of_continues (continues_shareAll (unshared settings files))

theorem shares_ofFiles : (∀ file name, Exports files file name → MayShare files file name) ∧
    Shares (unshared settings files).symbols (ofFiles settings files).symbols (Mips.exports 0 files) := by
  have placed := successful_unshared successful
  obtain ⟨-, shared⟩ := shares_shareAll (owned_unshared placed)
  obtain ⟨consistent, shares⟩ := shared successful
  rw [exports_unshared] at consistent shares
  exact ⟨(consistent_iff placed).1 consistent, shares⟩

/-- A name means at most one thing to all files. -/
theorem isGlobal_unique {first second : Meaning} (known : IsGlobal files name first)
    (again : IsGlobal files name second) : first = second := by
  have may := (shares_ofFiles successful).1
  have unreserved {owner : Nat} {external : External} (exported : Exports files owner name)
      (defined : Defines files owner name) (found : reserving? (externals 0 files) name = some external) : False := by
    rcases (may owner name exported).owned with ⟨-, none⟩ | ⟨undefined, -⟩
    · cases none.symm.trans found
    · exact undefined defined
  cases known with
  | @shared owner exported defined =>
    cases again with
    | shared other => rw [(may _ name other).single owner exported]
    | reserved found => exact (unreserved exported defined found).elim
  | reserved found =>
    cases again with
    | shared exported defined => exact (unreserved exported defined found).elim
    | reserved other => cases found.symm.trans other; rfl

theorem means_unique {first second : Meaning} (means : Means files file name first)
    (again : Means files file name second) : first = second := by
  cases means with
  | own defined =>
    cases again with
    | own => rfl
    | global undefined => exact absurd defined undefined
  | global undefined known =>
    cases again with
    | own defined => exact absurd defined undefined
    | global _ other => exact isGlobal_unique successful known other

/-- A label that is shared is known to all files. -/
theorem stands_of_shared {owner : Nat} (exported : Exports files owner name) (defined : Defines files owner name) :
    (ofFiles settings files).symbols.local? owner name = none ∧
      ∃ symbol, (ofFiles settings files).symbols.global? name = some symbol ∧
        symbol.Stands files (ofFiles settings files).placed name (.label owner) := by
  have shares := (shares_ofFiles successful).2
  obtain ⟨symbol, known, -, marks⟩ := exists_local?_of_defines (successful_unshared successful) defined
  have sharing := exported
  obtain ⟨one, member, rfl, rfl⟩ := exported
  refine ⟨shares.gone one member, _, shares.moved one member symbol known, ⟨marks.named, marks.owned, ?_⟩, ?_⟩
  · rw [← shareAll_unshared, placed_shareAll]
    exact marks.lies
  · exact ⟨fun _ => sharing, fun _ => rfl⟩

theorem stands_of_reserved {external : External} (found : reserving? (externals 0 files) name = some external) :
    ∃ symbol, (ofFiles settings files).symbols.global? name = some symbol ∧
      symbol.Stands files (ofFiles settings files).placed name (.memory external) := by
  obtain ⟨symbol, known, reserved, -⟩ := (reserves_unshared (successful_unshared successful)).found name external found
  refine ⟨symbol, (shares_ofFiles successful).2.reserved name symbol known, ?_, reserved⟩
  exact reserved.name.trans (name_of_reserving? found)

/-- A file has no label of its own under a name that it does not define. -/
theorem local?_of_undefined (undefined : ¬ Defines files file name) :
    (ofFiles settings files).symbols.local? file name = none := by
  have shares := (shares_ofFiles successful).2
  by_cases exported : Exports files file name
  · obtain ⟨one, member, rfl, rfl⟩ := exported
    exact shares.gone one member
  · rw [shares.kept file name fun one member owner same => exported ⟨one, member, owner, same⟩]
    exact local?_of_not_defines (successful_unshared successful) undefined

/-- In the end the table has a symbol for what a name means in a file. -/
theorem lookup?_of_means {meaning : Meaning} (means : Means files file name meaning) :
    ∃ symbol, (ofFiles settings files).symbols.lookup? file name = some symbol ∧
      symbol.Stands files (ofFiles settings files).placed name meaning := by
  have shares := (shares_ofFiles successful).2
  unfold lookup?
  cases means with
  | own defined =>
    by_cases exported : Exports files file name
    · obtain ⟨gone, symbol, known, stands⟩ := stands_of_shared successful exported defined
      exact ⟨symbol, by rw [gone, known]; rfl, stands⟩
    · obtain ⟨symbol, known, own, marks⟩ := exists_local?_of_defines (successful_unshared successful) defined
      have kept := shares.kept file name fun one member owner same => exported ⟨one, member, owner, same⟩
      refine ⟨symbol, by rw [kept, known]; rfl, ⟨marks.named, marks.owned, ?_⟩, ?_⟩
      · rw [← shareAll_unshared, placed_shareAll]
        exact marks.lies
      · simp [own, exported]
  | global undefined known =>
    rw [local?_of_undefined successful undefined, Option.none_or]
    cases known with
    | shared exported defined => exact (stands_of_shared successful exported defined).2
    | reserved found => exact stands_of_reserved successful found

/-- Nothing else is in the table. -/
theorem means_of_lookup? (found : ((ofFiles settings files).symbols.lookup? file name).isSome) :
    ∃ meaning, Means files file name meaning := by
  by_cases defined : Defines files file name
  · exact ⟨_, .own defined⟩
  obtain ⟨may, shares⟩ := shares_ofFiles successful
  by_cases exported : ∃ owner, Exports files owner name
  · obtain ⟨owner, exported⟩ := exported
    rcases (may owner name exported).owned with ⟨own, -⟩ | ⟨-, external, asked, -⟩
    · exact ⟨_, .global defined (.shared exported own)⟩
    · exact ⟨_, .global defined (.reserved asked)⟩
  · have global := shares.global?_eq fun one member same => exported ⟨one.file, one, member, rfl, same⟩
    rw [lookup?, local?_of_undefined successful defined, Option.none_or, global] at found
    cases asked : reserving? (externals 0 files) name with
    | none =>
      rw [(global?_eq_none_iff (successful_unshared successful)).2 asked] at found
      cases found
    | some external => exact ⟨_, .global defined (.reserved asked)⟩

end Shared

end Placement

/-- If all results of a list are known, then so is each. -/
theorem exists_of_mapM_eq_some {α β : Type} {guess : α → Option β} {items : List α} {results : List β}
    (all : items.mapM guess = some results) : ∀ item ∈ items, ∃ result, guess item = some result := by
  induction items generalizing results with
  | nil => exact List.forall_mem_nil _
  | cons item rest ih =>
    rw [List.mapM_cons] at all
    obtain ⟨result, first, others⟩ := Option.bind_eq_some_iff.1 all
    obtain ⟨later, found, -⟩ := Option.bind_eq_some_iff.1 others
    exact List.forall_mem_cons.2 ⟨⟨result, first⟩, ih found⟩

open Assembly

section Assembled

variable {settings : Settings} {sources : List Source} {program : Program}
  (assembled : assemble settings sources = .ok program)

include assembled

theorem successful_ofFiles : (Placement.ofFiles settings (statements sources)).Successful := by
  obtain ⟨-, -, -, fine⟩ := program_of_assemble assembled
  exact fun finding member => fine finding (.inl member)

/-- Names are given their meaning before anything is emitted. -/
theorem resolved_of_assemble {placed : Placed} (member : placed ∈ (Placement.ofFiles settings (statements sources)).placed) :
    placed.Resolved settings program where
  code written content := by
    obtain ⟨instructions, -, expanded, emitted⟩ := expansion_of_assemble assembled member content
    exact ⟨instructions, expanded, emitted⟩
  data directive content data := data_of_assemble assembled member content data

/-- A name that is used is in the table. -/
theorem isSome_lookup?_of_uses {file : Nat} {name : String} (uses : Uses (statements sources) file name) :
    (program.symbols.lookup? file name).isSome := by
  obtain ⟨contents, found, statement, listed, label, referenced, rfl⟩ := uses
  have stored : statement.IsStored := by
    unfold Statement.references at referenced
    unfold Statement.IsStored
    split at referenced
    next written content => simp [content]
    next items content => simp [content, Directive.isData]
    next => cases referenced
  obtain ⟨address, member⟩ := placed_of_assemble assembled found listed stored
  obtain ⟨code, data⟩ := resolved_of_assemble assembled member
  unfold Statement.references at referenced
  split at referenced
  next written content =>
    obtain ⟨instructions, expanded, -⟩ := code written content
    obtain ⟨operand, written, names⟩ := List.mem_filterMap.1 referenced
    have reference : operand.reference? = some label := by
      cases operand <;> exact names
    obtain ⟨start, known⟩ := known_of_expand rfl expanded operand written label reference
    unfold Emission.resolve at known
    split at known
    next symbol found => exact Option.isSome_iff_exists.2 ⟨symbol, found⟩
    next => cases known
  next items content =>
    obtain ⟨bytes, image, -⟩ := data _ content rfl
    obtain ⟨words, all, -⟩ := Option.map_eq_some_iff.1 image
    obtain ⟨item, written, names⟩ := List.mem_filterMap.1 referenced
    obtain ⟨word, known⟩ := exists_of_mapM_eq_some all item written
    obtain ⟨value, count⟩ := item
    cases value with
    | integer => cases names
    | label target addend =>
      cases names
      obtain ⟨number, found, -⟩ := Option.map_eq_some_iff.1 known
      obtain ⟨start, found, -⟩ := Option.map_eq_some_iff.1 found
      obtain ⟨symbol, found, -⟩ := Option.map_eq_some_iff.1 found
      exact Option.isSome_iff_exists.2 ⟨symbol, found⟩
  next => cases referenced

end Assembled

/--
In every program that is assembled from sources, a name in a file has at most one meaning: the file's own label if the
file defines the name, whether or not it shares the name, and otherwise what the name means to all files, which is the
label of the one file that shares and defines it or the memory that the first line with the name has reserved. The table
of the program has a symbol for each name with a meaning and for no other name, every name that is used has a meaning,
and what each statement becomes is computed with the symbols of its own file. A name to which a meaning is missing, a name
that a file defines twice, and a name that two files share are errors. Where labels are shared, and how often a file says
so, does not matter: sharing is an error exactly if some file shares a name that it may not share.
-/
theorem names_resolve (settings : Settings) (sources : List Source) :
    let files := statements sources
    let placement := Placement.ofFiles settings files
    (∀ program, assemble settings sources = .ok program →
      (∀ file name meaning, Means files file name meaning →
        (∀ other, Means files file name other → other = meaning) ∧
          ∃ symbol, program.symbols.lookup? file name = some symbol ∧
            symbol.Stands files placement.placed name meaning) ∧
      (∀ name first second, IsGlobal files name first → IsGlobal files name second → first = second) ∧
      (∀ file name, (program.symbols.lookup? file name).isSome → ∃ meaning, Means files file name meaning) ∧
      (∀ file name, Uses files file name → ∃ meaning, Means files file name meaning) ∧
      ∀ placed ∈ placement.placed, placed.Resolved settings program) ∧
    ((∃ file name, (Uses files file name ∨ Exports files file name) ∧ ∀ meaning, ¬ Means files file name meaning) ∨
        (∃ (file : Nat) (contents : List Statement), files[file]? = some contents ∧ ¬ (definedNames contents).Nodup) ∨
        (∃ file other name, Exports files file name ∧ Exports files other name ∧ file ≠ other) →
      ∃ diagnostics, assemble settings sources = .error diagnostics) ∧
    ((Placement.unshared settings files).Successful →
      (placement.findings = (Placement.unshared settings files).findings ↔
        ∀ file name, Exports files file name → MayShare files file name)) := by
  intro files placement
  refine ⟨?_, ?_, Placement.findings_ofFiles⟩
  · intro program assembled
    have successful := successful_ofFiles assembled
    have symbols := (program_of_assemble assembled).1
    refine ⟨?_, ?_, ?_, ?_, fun placed => resolved_of_assemble assembled⟩
    · intro file name meaning means
      refine ⟨fun other again => Placement.means_unique successful again means, ?_⟩
      rw [symbols]
      exact Placement.lookup?_of_means successful means
    · exact fun name first second => Placement.isGlobal_unique successful
    · intro file name found
      exact Placement.means_of_lookup? successful (symbols ▸ found)
    · intro file name uses
      exact Placement.means_of_lookup? successful (symbols ▸ isSome_lookup?_of_uses assembled uses)
  · intro broken
    cases assembled : assemble settings sources with
    | error diagnostics => exact ⟨diagnostics, rfl⟩
    | ok program =>
      have successful := successful_ofFiles assembled
      have symbols := (program_of_assemble assembled).1
      obtain ⟨may, -⟩ := Placement.shares_ofFiles successful
      rcases broken with ⟨file, name, needed, missing⟩ | ⟨file, contents, found, twice⟩ |
        ⟨file, other, name, first, second, different⟩
      · have known : ∃ meaning, Means files file name meaning := by
          rcases needed with uses | exported
          · exact Placement.means_of_lookup? successful (symbols ▸ isSome_lookup?_of_uses assembled uses)
          · rcases (may file name exported).owned with ⟨defined, -⟩ | ⟨undefined, external, asked, -⟩
            · exact ⟨_, .own defined⟩
            · exact ⟨_, .global undefined (.reserved asked)⟩
        obtain ⟨meaning, means⟩ := known
        exact absurd means (missing meaning)
      · have placed := Placement.successful_unshared successful
        exact absurd ((Placement.bound_placeFiles settings 0 files placed).1 file contents found).1 twice
      · exact absurd ((may other name second).single file first) different

/-- A file's own label comes before the one of the same name in another file, which shares a label twice. -/
theorem names_resolve_own :
    let sources : List Source := [⟨"main.s", "main: jal shared\nj own\nown: nop"⟩,
      ⟨"library.s", ".globl shared\nown: nop\nshared: la $t0, buffer\n.globl shared\n.extern buffer 8"⟩]
    let twice : List Source := [⟨"first.s", ".globl x\nx: nop"⟩, ⟨"second.s", "x: nop\n.globl x"⟩]
    (∃ program own shared buffer, assemble {} sources = .ok program ∧
      (program.symbols.lookup? 0 "own" = some own ∧ own.file = 0 ∧ own.isGlobal = false) ∧
      (program.symbols.lookup? 0 "shared" = some shared ∧ shared.file = 1 ∧ shared.isGlobal = true) ∧
      program.symbols.lookup? 1 "buffer" = some buffer ∧ buffer.address.toNat % 4 = 0) ∧
    MayShare (statements sources) 1 "shared" ∧ ∃ diagnostics, assemble {} twice = .error diagnostics := by
  intro sources twice
  refine ⟨?_, ?_, ?_⟩
  · have computed : (assemble {} sources).toOption.isSome = true := by decide +kernel
    obtain ⟨program, assembled⟩ := Option.isSome_iff_exists.1 computed
    have successful := eq_ok_of_toOption assembled
    have meanings := ((names_resolve {} sources).1 program successful).1
    obtain ⟨⟨here, there, other, undefined⟩, exported, hidden, asked⟩ :
        (Defines (statements sources) 0 "own" ∧ Defines (statements sources) 1 "shared" ∧
          ¬ Defines (statements sources) 0 "shared" ∧ ¬ Defines (statements sources) 1 "buffer") ∧
        Exports (statements sources) 1 "shared" ∧ ¬ Exports (statements sources) 0 "own" ∧
        reserving? (externals 0 (statements sources)) "buffer" = some ⟨"buffer", 8, 1⟩ := by
      decide +kernel
    obtain ⟨-, own, foundOwn, marksOwn, isOwn⟩ := meanings 0 "own" _ (.own here)
    obtain ⟨-, shared, foundShared, marksShared, isShared⟩ := meanings 0 "shared" _ (.global other (.shared exported there))
    obtain ⟨-, buffer, foundBuffer, -, reserved⟩ := meanings 1 "buffer" _ (.global undefined (.reserved asked))
    refine ⟨program, own, shared, buffer, successful, ⟨foundOwn, marksOwn.owned, ?_⟩,
      ⟨foundShared, marksShared.owned, isShared.2 exported⟩, foundBuffer, reserved.aligned⟩
    rw [← Bool.not_eq_true]
    exact fun shares => hidden (isOwn.1 shares)
  · obtain ⟨before, after, exported⟩ :
        (Placement.unshared {} (statements sources)).findings.isEmpty = true ∧
          (Placement.ofFiles {} (statements sources)).findings.isEmpty = true ∧
          Exports (statements sources) 1 "shared" := by
      decide +kernel
    rw [List.isEmpty_iff] at before after
    have successful : (Placement.unshared {} (statements sources)).Successful := by
      intro finding member
      rw [before] at member
      cases member
    exact ((names_resolve {} sources).2.2 successful).1 (after.trans before.symm) 1 "shared" exported
  · obtain ⟨first, second⟩ : Exports (statements twice) 0 "x" ∧ Exports (statements twice) 1 "x" := by decide +kernel
    exact (names_resolve {} twice).2.1 (.inr (.inr ⟨0, 1, "x", first, second, Nat.zero_ne_one⟩))

end Mips
