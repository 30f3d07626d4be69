import Mips.Proofs.Assembly.Binding

/-!
Which labels files share. Labels are collected while statements are placed, and made global in the end. Whether that
succeeds, and what comes out of it, depends on which names each file shares, but not on the order in which it says so
nor on how often. Main statement: `shares_shareAll`.
-/

namespace Mips

/-- The labels that a line of a file shares with other files. -/
def Statement.exports (file : Nat) (statement : Statement) : List Export :=
  match statement.content with
  | some (.directive (.globl labels)) => labels.map fun label => ⟨file, statement.line, label⟩
  | _ => []

theorem Statement.exports_eq_nil {statement : Statement} {file : Nat}
    (other : ¬ ∃ labels, statement.content = some (.directive (.globl labels))) : statement.exports file = [] := by
  unfold exports
  split
  next labels content => exact absurd ⟨labels, content⟩ other
  next => rfl

/-- The labels that files share which are counted from `file`. -/
def exports (file : Nat) : List (List Statement) → List Export
  | [] => []
  | statements :: rest => statements.flatMap (Statement.exports file) ++ exports (file + 1) rest

def Export.name (shared : Export) : String := shared.label.name

namespace SymbolTable

/-- Each file's own symbols know their file and name. -/
def Owned (table : SymbolTable) : Prop :=
  ∀ file name symbol, table.local? file name = some symbol → symbol.file = file ∧ symbol.name = name

/--
The file may share the name: either it defines the name and no memory is reserved under it, or it does not but has
reserved memory under it.
-/
def Sharable (table : SymbolTable) (shared : Export) : Prop :=
  match table.local? shared.file shared.name with
  | some _ => table.global? shared.name = none
  | none => ∃ symbol, table.global? shared.name = some symbol ∧ symbol.file = shared.file

/-- All of this may be shared, and no name by two files. -/
structure Consistent (table : SymbolTable) (shared : List Export) : Prop where
  sharable : ∀ one ∈ shared, table.Sharable one
  single : ∀ one ∈ shared, ∀ other ∈ shared, one.name = other.name → one.file = other.file

/-- What has become of the symbols since these labels were shared. -/
structure Shares (before after : SymbolTable) (shared : List Export) : Prop where
  gone : ∀ one ∈ shared, after.local? one.file one.name = none
  kept : ∀ file name, (∀ one ∈ shared, one.file = file → one.name ≠ name) →
    after.local? file name = before.local? file name
  reserved : ∀ name symbol, before.global? name = some symbol → after.global? name = some symbol
  moved : ∀ one ∈ shared, ∀ symbol, before.local? one.file one.name = some symbol →
    after.global? one.name = some { symbol with isGlobal := true }
  absent : ∀ name, before.global? name = none → (∀ one ∈ shared, one.name ≠ name) → after.global? name = none

variable {before after : SymbolTable} {shared : List Export}

theorem shares_nil (table : SymbolTable) : Shares table table [] where
  gone := by simp
  kept file name _ := rfl
  reserved name symbol found := found
  moved := by simp
  absent name none _ := none

/-- A name that is not shared yet has the global meaning that it had before. -/
theorem Shares.global?_eq (shares : Shares before after shared) {name : String}
    (unshared : ∀ one ∈ shared, one.name ≠ name) : after.global? name = before.global? name := by
  cases found : before.global? name with
  | none => exact shares.absent name found unshared
  | some symbol => exact shares.reserved name symbol found

/-- A name that is shared is global. -/
theorem Shares.global?_isSome (shares : Shares before after shared) {one : Export} (member : one ∈ shared)
    (sharable : before.Sharable one) : (after.global? one.name).isSome := by
  unfold Sharable at sharable
  split at sharable
  next symbol found => rw [shares.moved one member symbol found, Option.isSome_some]
  next =>
    obtain ⟨symbol, found, -⟩ := sharable
    rw [shares.reserved _ symbol found, Option.isSome_some]

/-- A global symbol is that of the file which shares it. -/
theorem Shares.file_eq (shares : Shares before after shared) (owned : before.Owned) {one : Export}
    (member : one ∈ shared) (sharable : before.Sharable one) {symbol : Symbol}
    (found : after.global? one.name = some symbol) : symbol.file = one.file := by
  unfold Sharable at sharable
  split at sharable
  next own defined =>
    cases found.symm.trans (shares.moved one member own defined)
    exact (owned _ _ own defined).1
  next =>
    obtain ⟨other, reserved, owner⟩ := sharable
    cases found.symm.trans (shares.reserved _ other reserved)
    exact owner

/-- Sharing a name again changes nothing. -/
theorem Shares.again (shares : Shares before after shared) {one early : Export} (member : early ∈ shared)
    (file : early.file = one.file) (name : early.name = one.name) : Shares before after (shared ++ [one]) where
  gone := by
    refine List.forall_mem_append.2 ⟨shares.gone, List.forall_mem_singleton.2 ?_⟩
    rw [← file, ← name]
    exact shares.gone early member
  kept other second unlike := shares.kept other second fun one member => unlike one (List.mem_append_left _ member)
  reserved := shares.reserved
  moved := by
    refine List.forall_mem_append.2 ⟨shares.moved, List.forall_mem_singleton.2 ?_⟩
    rw [← file, ← name]
    exact shares.moved early member
  absent other none unlike := shares.absent other none fun one member => unlike one (List.mem_append_left _ member)

/-- A name under which memory was reserved stays as it is. -/
theorem Shares.reserving (shares : Shares before after shared) {one : Export}
    (undefined : before.local? one.file one.name = none) (gone : after.local? one.file one.name = none) :
    Shares before after (shared ++ [one]) where
  gone := List.forall_mem_append.2 ⟨shares.gone, List.forall_mem_singleton.2 gone⟩
  kept other second unlike := shares.kept other second fun one member => unlike one (List.mem_append_left _ member)
  reserved := shares.reserved
  moved := by
    refine List.forall_mem_append.2 ⟨shares.moved, List.forall_mem_singleton.2 fun symbol found => ?_⟩
    rw [undefined] at found
    cases found
  absent other none unlike := shares.absent other none fun one member => unlike one (List.mem_append_left _ member)

/-- A label that is shared for the first time moves to the global names. -/
theorem Shares.moving (shares : Shares before after shared) {one : Export} {symbol : Symbol}
    (unshared : ∀ early ∈ shared, early.name ≠ one.name) (defined : before.local? one.file one.name = some symbol)
    (named : symbol.name = one.name) (fresh : before.global? one.name = none) :
    Shares before ((after.eraseLocal one.file one.name).insertGlobal { symbol with isGlobal := true })
      (shared ++ [one]) := by
  have own (file : Nat) (name : String) :
      ((after.eraseLocal one.file one.name).insertGlobal { symbol with isGlobal := true }).local? file name =
        if one.file = file ∧ one.name = name then none else after.local? file name :=
    local?_eraseLocal after one.file file one.name name
  have global (name : String) :
      ((after.eraseLocal one.file one.name).insertGlobal { symbol with isGlobal := true }).global? name =
        if one.name = name then some { symbol with isGlobal := true } else after.global? name := by
    rw [global?_insertGlobal, named]
    rfl
  constructor
  case gone =>
    refine List.forall_mem_append.2 ⟨?_, List.forall_mem_singleton.2 ?_⟩
    · intro early member
      rw [own, shares.gone early member]
      exact ite_self none
    · rw [own, if_pos ⟨rfl, rfl⟩]
  case kept =>
    intro file name unlike
    rw [List.forall_mem_append, List.forall_mem_singleton] at unlike
    rw [own, if_neg fun same => unlike.2 same.1 same.2]
    exact shares.kept file name unlike.1
  case reserved =>
    intro name other found
    rw [global, if_neg]
    · exact shares.reserved name other found
    · rintro rfl
      rw [fresh] at found
      cases found
  case moved =>
    refine List.forall_mem_append.2 ⟨?_, List.forall_mem_singleton.2 ?_⟩
    · intro early member other found
      rw [global, if_neg (unshared early member).symm]
      exact shares.moved early member other found
    · intro other found
      cases defined.symm.trans found
      rw [global, if_pos rfl]
  case absent =>
    intro name none unlike
    rw [List.forall_mem_append, List.forall_mem_singleton] at unlike
    rw [global, if_neg unlike.2]
    exact shares.absent name none unlike.1

theorem Consistent.of_append {earlier later : List Export} (consistent : before.Consistent (earlier ++ later)) :
    before.Consistent earlier where
  sharable one member := consistent.sharable one (List.mem_append_left _ member)
  single one member other present :=
    consistent.single one (List.mem_append_left _ member) other (List.mem_append_left _ present)

theorem consistent_concat {earlier : List Export} {one : Export} : before.Consistent (earlier ++ [one]) ↔
    before.Consistent earlier ∧ before.Sharable one ∧ ∀ early ∈ earlier, early.name = one.name → early.file = one.file := by
  constructor
  · intro consistent
    exact ⟨consistent.of_append, consistent.sharable one (by simp), fun early member =>
      consistent.single early (List.mem_append_left _ member) one (by simp)⟩
  · rintro ⟨consistent, sharable, single⟩
    refine ⟨List.forall_mem_append.2 ⟨consistent.sharable, List.forall_mem_singleton.2 sharable⟩, ?_⟩
    intro first member second present same
    rcases List.mem_append.1 member with early | last <;> rcases List.mem_append.1 present with late | other
    · exact consistent.single first early second late same
    · cases List.mem_singleton.1 other
      exact single first early same
    · cases List.mem_singleton.1 last
      exact (single second late same.symm).symm
    · rw [List.mem_singleton.1 last, List.mem_singleton.1 other]

end SymbolTable

namespace Placement

open SymbolTable

section Share

variable {placement : Placement} {one : Export} {symbol : Symbol}

theorem share_of_own (own : placement.symbols.local? one.file one.name = some symbol)
    (global : placement.symbols.global? one.name = none) :
    placement.share one =
      { placement with
        symbols := (placement.symbols.eraseLocal one.file one.name).insertGlobal { symbol with isGlobal := true } } := by
  rw [Export.name] at own global
  simp only [share, own, global]
  rfl

theorem share_of_duplicate (own : placement.symbols.local? one.file one.name = some symbol) {other : Symbol}
    (global : placement.symbols.global? one.name = some other) :
    (placement.share one).findings =
      ⟨one.file, one.line, one.label.span, .duplicateLabel one.name⟩ :: placement.findings := by
  rw [Export.name] at own global
  simp only [share, own, global]
  rfl

theorem share_of_owner (own : placement.symbols.local? one.file one.name = none)
    (global : placement.symbols.global? one.name = some symbol) (owner : symbol.file = one.file) :
    placement.share one = placement := by
  rw [Export.name] at own global
  simp only [share, own, global, Option.any_some, owner, decide_true, if_true]

theorem share_of_undefined (own : placement.symbols.local? one.file one.name = none)
    (unowned : ∀ symbol, placement.symbols.global? one.name = some symbol → symbol.file ≠ one.file) :
    (placement.share one).findings =
      ⟨one.file, one.line, one.label.span, .undefinedLabel one.name⟩ :: placement.findings := by
  rw [Export.name] at own unowned
  have none : (placement.symbols.global? one.label.name).any (fun symbol => symbol.file = one.file) = false := by
    cases global : placement.symbols.global? one.label.name with
    | none => rfl
    | some symbol => exact decide_eq_false (unowned symbol global)
  simp only [share, own, none]
  rfl

end Share

variable {before : SymbolTable} {placement : Placement} {done : List Export} {one : Export}

/-- What may be shared is, without a complaint. -/
theorem shares_share (owned : before.Owned) (shares : Shares before placement.symbols done)
    (consistent : before.Consistent (done ++ [one])) :
    (placement.share one).findings = placement.findings ∧
      Shares before (placement.share one).symbols (done ++ [one]) := by
  have sharable := consistent.sharable one (by simp)
  by_cases repeated : ∃ early ∈ done, early.name = one.name
  · obtain ⟨early, member, name⟩ := repeated
    have file := consistent.single early (List.mem_append_left _ member) one (by simp) name
    have gone := shares.gone early member
    have global := shares.global?_isSome member (consistent.of_append.sharable early member)
    rw [name, Option.isSome_iff_exists] at global
    obtain ⟨symbol, found⟩ := global
    have owner := shares.file_eq owned member (consistent.of_append.sharable early member) (name ▸ found)
    rw [name, file] at gone
    rw [share_of_owner gone found (owner.trans file)]
    exact ⟨rfl, shares.again member file name⟩
  · have unshared : ∀ early ∈ done, early.name ≠ one.name := fun early member same => repeated ⟨early, member, same⟩
    have own := shares.kept one.file one.name fun early member _ => unshared early member
    have global := shares.global?_eq unshared
    unfold Sharable at sharable
    split at sharable
    next symbol defined =>
      rw [defined] at own
      rw [sharable] at global
      rw [share_of_own own global]
      exact ⟨rfl, shares.moving unshared defined (owned _ _ symbol defined).2 sharable⟩
    next undefined =>
      obtain ⟨symbol, found, owner⟩ := sharable
      rw [undefined] at own
      rw [found] at global
      rw [share_of_owner own global owner]
      exact ⟨rfl, shares.reserving undefined own⟩

/-- There is an error more than before. -/
def Complains (before after : Placement) : Prop :=
  ∃ finding, finding.problem.severity = .error ∧ finding :: before.findings <:+ after.findings

theorem Complains.not_successful {before after : Placement} (complains : Complains before after) :
    ¬ after.Successful := by
  obtain ⟨finding, severe, kept⟩ := complains
  exact fun successful => successful finding (kept.subset List.mem_cons_self) severe

theorem Complains.findings_ne {before after : Placement} (complains : Complains before after) :
    after.findings ≠ before.findings := by
  obtain ⟨finding, -, kept⟩ := complains
  intro same
  have length := kept.length_le
  rw [same, List.length_cons] at length
  omega

/-- What may not be shared, though all before it may, is complained about. -/
theorem complains_share (owned : before.Owned) (shares : Shares before placement.symbols done)
    (consistent : before.Consistent done) (inconsistent : ¬ before.Consistent (done ++ [one])) :
    Complains placement (placement.share one) := by
  rw [consistent_concat] at inconsistent
  -- If the file has shared the name before, then it may again.
  have other : ∀ early ∈ done, early.name = one.name → early.file ≠ one.file := by
    intro early member name file
    have sharable := consistent.sharable early member
    rw [Sharable, name, file] at sharable
    refine inconsistent ⟨consistent, sharable, fun another present same => ?_⟩
    exact (consistent.single another present early member (same.trans name.symm)).trans file
  have own := shares.kept one.file one.name fun early member file name => other early member name file
  have refused (unshared : ¬ ∃ early ∈ done, early.name = one.name) : ¬ before.Sharable one := by
    intro sharable
    exact inconsistent ⟨consistent, sharable, fun early member same => absurd ⟨early, member, same⟩ unshared⟩
  have global (unshared : ¬ ∃ early ∈ done, early.name = one.name) :=
    shares.global?_eq fun early member same => unshared ⟨early, member, same⟩
  cases defined : before.local? one.file one.name with
  | some symbol =>
    have taken : (placement.symbols.global? one.name).isSome := by
      by_cases shared : ∃ early ∈ done, early.name = one.name
      · obtain ⟨early, member, name⟩ := shared
        exact name ▸ shares.global?_isSome member (consistent.sharable early member)
      · rw [global shared, Option.isSome_iff_ne_none]
        intro none
        exact refused shared (by rwa [Sharable, defined])
    obtain ⟨taker, found⟩ := Option.isSome_iff_exists.1 taken
    refine ⟨⟨one.file, one.line, one.label.span, .duplicateLabel one.name⟩, rfl, ?_⟩
    have reported := share_of_duplicate (own.trans defined) found
    exact reported ▸ List.suffix_refl _
  | none =>
    have unowned : ∀ symbol, placement.symbols.global? one.name = some symbol → symbol.file ≠ one.file := by
      intro symbol found
      by_cases shared : ∃ early ∈ done, early.name = one.name
      · obtain ⟨early, member, name⟩ := shared
        rw [shares.file_eq owned member (consistent.sharable early member) (name ▸ found)]
        exact other early member name
      · intro owner
        rw [global shared] at found
        refine refused shared ?_
        rw [Sharable, defined]
        exact ⟨symbol, found, owner⟩
    refine ⟨⟨one.file, one.line, one.label.span, .undefinedLabel one.name⟩, rfl, ?_⟩
    have reported := share_of_undefined (own.trans defined) unowned
    exact reported ▸ List.suffix_refl _

/-- Sharing labels one after another complains about nothing exactly if all of them may be shared together. -/
theorem shares_foldl (owned : before.Owned) (shares : Shares before placement.symbols done)
    (consistent : before.Consistent done) (rest : List Export) :
    (before.Consistent (done ++ rest) →
      (rest.foldl share placement).findings = placement.findings ∧
        Shares before (rest.foldl share placement).symbols (done ++ rest)) ∧
    (¬ before.Consistent (done ++ rest) → Complains placement (rest.foldl share placement)) := by
  induction rest generalizing placement done with
  | nil =>
    rw [List.append_nil]
    exact ⟨fun _ => ⟨rfl, shares⟩, fun inconsistent => absurd consistent inconsistent⟩
  | cons one rest ih =>
    have split : done ++ one :: rest = (done ++ [one]) ++ rest := by simp
    rw [split, List.foldl_cons]
    by_cases fits : before.Consistent (done ++ [one])
    · obtain ⟨same, shared⟩ := shares_share owned shares fits
      obtain ⟨succeeds, fails⟩ := ih shared fits
      refine ⟨fun all => ⟨(succeeds all).1.trans same, (succeeds all).2⟩, fun inconsistent => ?_⟩
      obtain ⟨finding, severe, kept⟩ := fails inconsistent
      exact ⟨finding, severe, same ▸ kept⟩
    · refine ⟨fun all => absurd all.of_append fits, fun _ => ?_⟩
      obtain ⟨finding, severe, kept⟩ := complains_share owned shares consistent fits
      have later : ∀ (labels : List Export) (placement : Placement),
          placement.findings <:+ (labels.foldl share placement).findings := by
        intro labels
        induction labels with
        | nil => exact fun _ => List.suffix_refl _
        | cons label rest ih => exact fun placement => (continues_share placement label).findings.trans (ih _)
      exact ⟨finding, severe, kept.trans (later rest _)⟩

/--
Sharing all labels complains about nothing exactly if they may be shared together, and only then it is successful and
the names come to mean what they should.
-/
theorem shares_shareAll (owned : placement.symbols.Owned) :
    (placement.shareAll.findings = placement.findings ↔ placement.symbols.Consistent placement.exports.reverse) ∧
      (placement.shareAll.Successful → placement.symbols.Consistent placement.exports.reverse ∧
        Shares placement.symbols placement.shareAll.symbols placement.exports.reverse) := by
  have none : placement.symbols.Consistent [] := ⟨by simp, by simp⟩
  obtain ⟨succeeds, fails⟩ := shares_foldl owned (shares_nil placement.symbols) none placement.exports.reverse
  rw [List.nil_append] at succeeds fails
  refine ⟨⟨fun same => ?_, fun consistent => (succeeds consistent).1⟩, fun successful => ?_⟩
  · exact Classical.byContradiction fun inconsistent => (fails inconsistent).findings_ne same
  · have consistent : placement.symbols.Consistent placement.exports.reverse :=
      Classical.byContradiction fun inconsistent => (fails inconsistent).not_successful successful
    exact ⟨consistent, (succeeds consistent).2⟩

section Exports

variable (placement : Placement) (settings : Settings) (file : Nat)

theorem exports_allocate (layout : Layout) (statement : Statement) (size : Nat) :
    (placement.allocate layout file statement size).exports = placement.exports := by
  unfold allocate
  dsimp only
  split <;> exact (placement.bind_keeps file).2

/-- A line adds the labels that it says are shared, and no other ones. -/
theorem exports_place (statement : Statement) :
    (place settings file placement statement).exports = (statement.exports file).reverse ++ placement.exports := by
  by_cases shares : ∃ labels, statement.content = some (.directive (.globl labels))
  · obtain ⟨labels, content⟩ := shares
    simp only [place, content, placeDirective, Statement.exports]
  rw [Statement.exports_eq_nil shares, List.reverse_nil, List.nil_append]
  unfold place
  dsimp only
  split
  next => rfl
  next =>
    unfold placeInstruction
    split
    · rfl
    · split
      · exact exports_allocate ..
      · exact (bind_keeps _ file).2
  next directive content =>
    unfold placeDirective
    dsimp only
    split
    case h_1 | h_2 | h_3 | h_4 => exact (switch_keeps ..).2
    case h_5 | h_8 => rfl
    case h_6 labels => exact absurd ⟨labels, content⟩ shares
    case h_7 => exact (reserve_keeps ..).2.2
    case h_9 =>
      split
      · rfl
      · exact exports_allocate ..

theorem exports_statements (statements : List Statement) :
    (statements.foldl (place settings file) placement).exports =
      (statements.flatMap (Statement.exports file)).reverse ++ placement.exports := by
  induction statements generalizing placement with
  | nil => rfl
  | cons statement rest ih =>
    rw [List.foldl_cons, ih, exports_place, List.flatMap_cons, List.reverse_append, List.append_assoc]

/-- The labels that are known to be shared in the end are those that files say, in the order of their lines. -/
theorem exports_placeFiles (files : List (List Statement)) :
    (placement.placeFiles settings file files).exports.reverse =
      placement.exports.reverse ++ Mips.exports file files := by
  induction files generalizing placement file with
  | nil =>
    rw [Mips.exports, List.append_nil]
    rfl
  | cons statements rest ih =>
    have here : (placement.placeFile settings file statements).exports =
        (statements.flatMap (Statement.exports file)).reverse ++ placement.exports := by
      rw [placeFile, (bind_keeps _ file).2, exports_statements]
    rw [placeFiles, ih, here, Mips.exports, List.reverse_append, List.reverse_reverse, List.append_assoc]

end Exports

end Placement

end Mips
