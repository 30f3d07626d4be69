import Mips.Proofs.Assembly.Regions
import Mips.Proofs.Assembly.Sizes

/-!
Where labels lie. Instructions are placed at multiples of four only, so a label in a text segment is bound to such an
address; a label in a data segment may have any. Main statement: `aligned_of_assemble`.
-/

namespace Mips

/-- The symbol lies at a multiple of four if it lies in a text segment. -/
def Symbol.Proper (symbol : Symbol) : Prop := symbol.segment.isText = true → Word.isAligned symbol.address = true

namespace SymbolTable

/-- All symbols that lie in text segments lie at multiples of four. -/
structure Proper (table : SymbolTable) : Prop where
  own : ∀ file name symbol, table.local? file name = some symbol → symbol.Proper
  shared : ∀ name symbol, table.global? name = some symbol → symbol.Proper

variable {table : SymbolTable} {symbol : Symbol}

theorem proper_empty : SymbolTable.empty.Proper where
  own file name symbol found := by simp [local?, ofFile, empty] at found
  shared name symbol found := by simp [global?, empty] at found

theorem local?_insertLocal (table : SymbolTable) (symbol : Symbol) (file : Nat) (name : String) :
    (table.insertLocal symbol).local? file name =
      if symbol.file = file ∧ symbol.name = name then some symbol else table.local? file name := by
  unfold local? ofFile insertLocal
  simp only [Std.ExtTreeMap.getElem?_insert, Std.LawfulEqCmp.compare_eq_iff_eq]
  by_cases same : symbol.file = file
  · subst same
    by_cases named : symbol.name = name
    · simp [named]
    · simp only [if_true, Option.getD_some, Std.ExtTreeMap.getElem?_insert, Std.LawfulEqCmp.compare_eq_iff_eq,
        if_neg named, true_and]
      rfl
  · simp [same]

theorem local?_eraseLocal (table : SymbolTable) (owner file : Nat) (erased name : String) :
    (table.eraseLocal owner erased).local? file name =
      if owner = file ∧ erased = name then none else table.local? file name := by
  unfold local? ofFile eraseLocal
  simp only [Std.ExtTreeMap.getElem?_insert, Std.LawfulEqCmp.compare_eq_iff_eq]
  by_cases same : owner = file
  · subst same
    by_cases named : erased = name
    · simp [named]
    · simp only [if_true, Option.getD_some, Std.ExtTreeMap.getElem?_erase, Std.LawfulEqCmp.compare_eq_iff_eq,
        if_neg named, true_and]
      rfl
  · simp [same]

theorem Proper.insertLocal (proper : table.Proper) (fits : symbol.Proper) : (table.insertLocal symbol).Proper where
  own file name other found := by
    rw [local?_insertLocal] at found
    split at found
    · cases found
      exact fits
    · exact proper.own file name other found
  shared := proper.shared

theorem Proper.eraseLocal (proper : table.Proper) (file : Nat) (name : String) : (table.eraseLocal file name).Proper where
  own other second symbol found := by
    rw [local?_eraseLocal] at found
    split at found
    · cases found
    · exact proper.own other second symbol found
  shared := proper.shared

theorem Proper.insertGlobal (proper : table.Proper) (fits : symbol.Proper) : (table.insertGlobal symbol).Proper where
  own := proper.own
  shared name other found := by
    simp only [global?, SymbolTable.insertGlobal, Std.ExtTreeMap.getElem?_insert,
      Std.LawfulEqCmp.compare_eq_iff_eq] at found
    split at found
    · cases found
      exact fits
    · exact proper.shared name other found

end SymbolTable

namespace Placement

/-- The next statement is placed at a multiple of four if it is an instruction. -/
def Even (placement : Placement) : Prop := placement.area.isText = true → placement.counter % 4 = 0

theorem Regular.even {layout : Layout} {placement : Placement} (regular : placement.Regular layout) : placement.Even :=
  regular.aligned placement.area

theorem Even.of_samePlaces {before after : Placement} (even : before.Even) (same : SamePlaces before after) :
    after.Even := by
  unfold Even
  rw [same.counter, same.area]
  exact even

variable {placement : Placement}

theorem proper_define (proper : placement.symbols.Proper) (even : placement.Even) (file : Nat) (label : Label)
    (line : Nat) : (placement.define file label line).symbols.Proper := by
  unfold define
  split
  · exact proper
  · apply proper.insertLocal
    intro text
    have multiple := even text
    rw [Word.isAligned_iff, UInt32.toNat_ofNat']
    omega

theorem proper_bind (proper : placement.symbols.Proper) (even : placement.Even) (file : Nat) :
    (placement.bind file).symbols.Proper := by
  unfold bind
  generalize placement.pending.reverse = labels
  have started : Even { placement with pending := [] } := even
  have first : SymbolTable.Proper { placement with pending := [] }.symbols := proper
  generalize ({ placement with pending := [] } : Placement) = bound at started first
  induction labels generalizing bound with
  | nil => exact first
  | cons label rest ih =>
    have same := samePlaces_define bound file label.1 label.2
    exact ih _ (started.of_samePlaces same) (proper_define first started file label.1 label.2)

theorem proper_allocate (proper : placement.symbols.Proper) (even : placement.Even) (layout : Layout) (file : Nat)
    (statement : Statement) (size : Nat) : (placement.allocate layout file statement size).symbols.Proper := by
  have bound := proper_bind proper even file
  unfold allocate
  dsimp only
  split <;> exact bound

theorem symbols_switch (placement : Placement) (layout : Layout) (file : Nat) (statement : Statement) (area : Area)
    (address : Option Address) :
    (placement.switch layout file statement area address).symbols = placement.symbols := by
  unfold switch
  dsimp only
  split
  · rfl
  · split <;> rfl

/-- Memory that is reserved by name is data. -/
theorem proper_reserve (proper : placement.symbols.Proper) (layout : Layout) (file : Nat) (statement : Statement)
    (label : Label) (size : Nat) : (placement.reserve layout file statement label size).symbols.Proper := by
  unfold reserve
  split
  · exact proper
  · dsimp only
    split
    · exact proper
    · apply proper.insertGlobal
      intro text
      cases text

theorem proper_placeInstruction (proper : placement.symbols.Proper) (even : placement.Even) (settings : Settings)
    (file : Nat) (statement : Statement) (written : WrittenInstruction) :
    (placement.placeInstruction settings file statement written).symbols.Proper := by
  unfold placeInstruction
  split
  · exact proper
  · split
    · exact proper_allocate proper even settings.layout file statement _
    · exact proper_bind proper even file

theorem proper_placeDirective (proper : placement.symbols.Proper) (settings : Settings) (file : Nat)
    (statement : Statement) (directive : Directive) :
    (placement.placeDirective settings file statement directive).symbols.Proper := by
  unfold placeDirective
  dsimp only
  split
  case h_1 | h_2 | h_3 | h_4 =>
    rw [symbols_switch]
    exact proper
  case h_5 | h_6 | h_8 => exact proper
  case h_7 label size => exact proper_reserve proper settings.layout file statement label size
  case h_9 =>
    split
    · exact proper
    next data =>
      -- Data directives are placed in data segments, where labels may have any address.
      let aligned := placement.withCounter (alignUp placement.counter directive.alignment)
      have even : aligned.Even := fun text => absurd text data
      have kept : aligned.symbols.Proper := proper
      exact proper_allocate kept even settings.layout file statement _

/-- The placement in which the labels of the statement wait too. -/
def labelled (placement : Placement) (statement : Statement) : Placement :=
  { placement with
    pending := (statement.labels.map fun label => (label, statement.line)).reverse ++ placement.pending }

/-- A statement is placed when its labels wait. -/
theorem place_eq (settings : Settings) (file : Nat) (placement : Placement) (statement : Statement) :
    place settings file placement statement =
      match statement.content with
      | none => placement.labelled statement
      | some (.instruction written) => (placement.labelled statement).placeInstruction settings file statement written
      | some (.directive directive) => (placement.labelled statement).placeDirective settings file statement directive :=
  rfl

theorem proper_place (settings : Settings) (file : Nat) (proper : placement.symbols.Proper) (even : placement.Even)
    (statement : Statement) : (place settings file placement statement).symbols.Proper := by
  have kept : (placement.labelled statement).symbols.Proper := proper
  have same : (placement.labelled statement).Even := even
  rw [place_eq]
  split
  · exact kept
  next written _ => exact proper_placeInstruction kept same settings file statement written
  next directive _ => exact proper_placeDirective kept settings file statement directive

theorem proper_statements (settings : Settings) (file : Nat) (statements : List Statement)
    (regular : placement.Regular settings.layout) (proper : placement.symbols.Proper) :
    (statements.foldl (place settings file) placement).symbols.Proper := by
  induction statements generalizing placement with
  | nil => exact proper
  | cons statement rest ih =>
    have moved := stored_of_moves regular (moves_place settings file placement statement)
    exact ih moved.regular (proper_place settings file proper regular.even statement)

theorem proper_placeFiles (settings : Settings) (file : Nat) (files : List (List Statement))
    (regular : placement.Regular settings.layout) (proper : placement.symbols.Proper) :
    (placement.placeFiles settings file files).symbols.Proper := by
  induction files generalizing placement file with
  | nil => exact proper
  | cons statements rest ih =>
    have begun : Regular settings.layout { placement with area := .text, pending := [] } :=
      ⟨regular.low, regular.aligned, regular.room⟩
    have placed := proper_statements settings file statements begun proper
    have last := (stored_statements settings file statements begun).regular
    exact ih (file + 1) (last.bind file) (proper_bind placed last.even file)

theorem proper_share (proper : placement.symbols.Proper) (shared : Export) : (placement.share shared).symbols.Proper := by
  unfold share
  dsimp only
  split
  next symbol found =>
    have erased := proper.eraseLocal shared.file shared.label.name
    split
    · exact erased
    · have fits : Symbol.Proper { symbol with isGlobal := true } := proper.own _ _ symbol found
      exact erased.insertGlobal fits
  next => split <;> exact proper

theorem proper_shareAll (proper : placement.symbols.Proper) : placement.shareAll.symbols.Proper := by
  unfold shareAll
  generalize placement.exports.reverse = exports
  induction exports generalizing placement with
  | nil => exact proper
  | cons shared rest ih => exact ih (proper_share proper shared)

end Placement

/-- Every label of a program that lies in a text segment lies at a multiple of four. -/
theorem aligned_of_assemble {settings : Settings} {sources : List Source} {program : Program}
    (valid : settings.layout.Valid) (assembled : assemble settings sources = .ok program) :
    program.symbols.Proper := by
  obtain ⟨symbols, -⟩ := emission_of_assemble assembled
  rw [symbols]
  apply Placement.proper_shareAll
  exact Placement.proper_placeFiles settings 0 _ (Placement.regular_initial (Layout.separated_of_valid valid))
    SymbolTable.proper_empty

end Mips
