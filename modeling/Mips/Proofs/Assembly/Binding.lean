import Mips.Proofs.Assembly.Externals

/-!
What labels are bound to. A label waits for the next statement of its file that is stored and is given its address; if
there is none, it is bound at the end of the file. Main statement: `bound_placeFiles`.
-/

namespace Mips

instance (statement : Statement) : Decidable statement.IsStored :=
  match content : statement.content with
  | none => isFalse (by simp [Statement.IsStored, content])
  | some (.instruction _) => isTrue (by simp [Statement.IsStored, content])
  | some (.directive directive) => decidable_of_iff (directive.isData = true) (by simp [Statement.IsStored, content])

/--
The labels that wait and those of the statements, each with the next statement that is stored, or with nothing if
there is none.
-/
def headings (waiting : List Label) : List Statement → List (Label × Option Statement)
  | [] => waiting.map fun label => (label, none)
  | statement :: rest =>
    if statement.IsStored then
      (waiting ++ statement.labels).map (fun label => (label, some statement)) ++ headings [] rest
    else headings (waiting ++ statement.labels) rest

/-- No label is left out, and none is added. -/
theorem labels_headings (waiting : List Label) (statements : List Statement) :
    (headings waiting statements).map Prod.fst = waiting ++ statements.flatMap Statement.labels := by
  induction statements generalizing waiting with
  | nil => simp [headings, Function.comp_def]
  | cons statement rest ih =>
    unfold headings
    split <;> simp [ih, Function.comp_def]

/-- The names that a file defines, as often as it does. -/
def definedNames (statements : List Statement) : List String :=
  (statements.flatMap Statement.labels).map Label.name

theorem names_headings (statements : List Statement) :
    (headings [] statements).map (fun entry => entry.1.name) = definedNames statements := by
  have labels := labels_headings [] statements
  rw [List.nil_append] at labels
  rw [definedNames, ← labels, List.map_map]
  rfl

namespace SymbolTable

/-- The labels are new in their file, and all of them are bound to the address. -/
structure Binds (before after : SymbolTable) (file : Nat) (labels : List Label) (address : Address)
    (segment : Segment) : Prop where
  fresh : ∀ label ∈ labels, before.local? file label.name = none
  distinct : (labels.map Label.name).Nodup
  bound : ∀ label ∈ labels, after.local? file label.name = some ⟨label.name, address, segment, false, file⟩
  kept : ∀ other name, (other = file → name ∉ labels.map Label.name) →
    after.local? other name = before.local? other name

theorem binds_nil {before after : SymbolTable} (same : after.locals = before.locals) (file : Nat) (address : Address)
    (segment : Segment) : Binds before after file [] address segment where
  fresh := by simp
  distinct := .nil
  bound := by simp
  kept other name _ := by rw [local?, local?, ofFile, ofFile, same]

theorem Binds.cons {before after : SymbolTable} {file : Nat} {label : Label} {labels : List Label} {address : Address}
    {segment : Segment} (fresh : before.local? file label.name = none)
    (later : Binds (before.insertLocal ⟨label.name, address, segment, false, file⟩) after file labels address segment) :
    Binds before after file (label :: labels) address segment := by
  have different : ∀ other ∈ labels, label.name ≠ other.name ∧ before.local? file other.name = none := by
    intro other member
    have absent := later.fresh other member
    rw [local?_insertLocal] at absent
    split at absent
    next => cases absent
    next unlike => exact ⟨fun same => unlike ⟨rfl, same⟩, absent⟩
  constructor
  case fresh => exact List.forall_mem_cons.2 ⟨fresh, fun other member => (different other member).2⟩
  case distinct =>
    refine List.nodup_cons.2 ⟨?_, later.distinct⟩
    intro again
    obtain ⟨other, member, same⟩ := List.mem_map.1 again
    exact (different other member).1 same.symm
  case bound =>
    refine List.forall_mem_cons.2 ⟨?_, later.bound⟩
    rw [later.kept file label.name, local?_insertLocal, if_pos ⟨rfl, rfl⟩]
    intro _ again
    obtain ⟨other, member, same⟩ := List.mem_map.1 again
    exact (different other member).1 same.symm
  case kept =>
    intro other name unlike
    simp only [List.map_cons, List.mem_cons, not_or] at unlike
    rw [later.kept other name fun same => (unlike same).2, local?_insertLocal, if_neg]
    rintro ⟨same, named⟩
    exact (unlike same.symm).1 named.symm

end SymbolTable

namespace Placement

/-- The labels that wait for an address, in the order in which they are written. -/
def waiting (placement : Placement) : List Label := placement.pending.reverse.map Prod.fst

theorem define_keeps (placement : Placement) (file : Nat) (label : Label) (line : Nat) :
    (placement.define file label line).pending = placement.pending ∧
      (placement.define file label line).exports = placement.exports := by
  unfold define
  split <;> exact ⟨rfl, rfl⟩

theorem switch_keeps (placement : Placement) (layout : Layout) (file : Nat) (statement : Statement) (area : Area)
    (address : Option Address) :
    (placement.switch layout file statement area address).pending = placement.pending ∧
      (placement.switch layout file statement area address).exports = placement.exports := by
  unfold switch
  dsimp only
  split
  · exact ⟨rfl, rfl⟩
  · split <;> exact ⟨rfl, rfl⟩

theorem reserve_keeps (placement : Placement) (layout : Layout) (file : Nat) (statement : Statement) (label : Label)
    (size : Nat) :
    (placement.reserve layout file statement label size).symbols.locals = placement.symbols.locals ∧
      (placement.reserve layout file statement label size).pending = placement.pending ∧
      (placement.reserve layout file statement label size).exports = placement.exports := by
  unfold reserve
  split
  · exact ⟨rfl, rfl, rfl⟩
  · dsimp only
    split <;> exact ⟨rfl, rfl, rfl⟩

/-- Binding leaves no label waiting, and shares none. -/
theorem bind_keeps (placement : Placement) (file : Nat) :
    (placement.bind file).pending = [] ∧ (placement.bind file).exports = placement.exports := by
  unfold bind
  generalize placement.pending.reverse = labels
  have folded : ∀ bound : Placement, bound.pending = [] ∧ bound.exports = placement.exports →
      (labels.foldl (fun placement pending => placement.define file pending.1 pending.2) bound).pending = [] ∧
        (labels.foldl (fun placement pending => placement.define file pending.1 pending.2) bound).exports =
          placement.exports := by
    induction labels with
    | nil => exact fun _ kept => kept
    | cons label rest ih =>
      intro bound kept
      obtain ⟨pending, exports⟩ := bound.define_keeps file label.1 label.2
      exact ih _ ⟨pending.trans kept.1, exports.trans kept.2⟩
  exact folded _ ⟨rfl, rfl⟩

/-- Labels are bound to the counter one after another, or there is an error. -/
theorem binds_defines (file : Nat) (labels : List (Label × Nat)) {placement : Placement}
    (successful : (labels.foldl (fun placement pending => placement.define file pending.1 pending.2) placement).Successful) :
    placement.symbols.Binds
      (labels.foldl (fun placement pending => placement.define file pending.1 pending.2) placement).symbols file
      (labels.map Prod.fst) (UInt32.ofNat placement.counter) placement.area.segment := by
  induction labels generalizing placement with
  | nil => exact SymbolTable.binds_nil rfl _ _ _
  | cons pending rest ih =>
    have same := samePlaces_define placement file pending.1 pending.2
    have first := successful.of_continues (continues_defines (placement.define file pending.1 pending.2) file rest)
    have later := ih successful
    rw [same.counter, same.area] at later
    cases taken : placement.symbols.local? file pending.1.name with
    | some symbol =>
      simp only [define, taken] at first
      exact absurd first (not_successful_report rfl)
    | none =>
      refine .cons taken ?_
      rw [List.foldl_cons]
      simpa only [define, taken] using later

/-- The waiting labels of a file are bound to the counter. -/
theorem binds_bind (placement : Placement) {file : Nat} (successful : (placement.bind file).Successful) :
    placement.symbols.Binds (placement.bind file).symbols file placement.waiting (UInt32.ofNat placement.counter)
      placement.area.segment :=
  @binds_defines file placement.pending.reverse { placement with pending := [] } successful

/--
What a step of placing does to labels if there is no error: a statement that is stored takes the labels that wait, and
any other one lets them wait.
-/
inductive Labels (file : Nat) (statement : Statement) (before after : Placement) : Prop where
  | waits (other : ¬ statement.IsStored) (waiting : after.waiting = before.waiting ++ statement.labels)
      (locals : after.symbols.locals = before.symbols.locals) (placed : after.placed = before.placed)
  | binds (stored : statement.IsStored) (address : Address)
      (bound : before.symbols.Binds after.symbols file (before.waiting ++ statement.labels) address before.area.segment)
      (waiting : after.waiting = [])
      (placed : after.placed = ⟨file, statement, address⟩ :: before.placed)

section Place

variable {settings : Settings} {file : Nat} {statement : Statement}

theorem waiting_labelled (placement : Placement) (statement : Statement) :
    (placement.labelled statement).waiting = placement.waiting ++ statement.labels := by
  simp [waiting, labelled, Function.comp_def]

theorem labels_allocate (placement : Placement) {aligned : Placement} {layout : Layout} {size : Nat}
    (successful : (aligned.allocate layout file statement size).Successful) (stored : statement.IsStored)
    (same : aligned.symbols = placement.symbols) (area : aligned.area = placement.area)
    (pending : aligned.pending = (placement.labelled statement).pending) (placed : aligned.placed = placement.placed) :
    Labels file statement placement (aligned.allocate layout file statement size) := by
  unfold allocate at successful ⊢
  dsimp only at successful ⊢
  split at successful
  next => exact absurd successful (not_successful_report rfl)
  next fits =>
    have bound := binds_bind aligned successful
    have none := (aligned.bind_keeps file).1
    have waits : aligned.waiting = placement.waiting ++ statement.labels := by
      rw [← waiting_labelled, waiting, waiting, pending]
    rw [same, area, waits] at bound
    rw [if_neg fits, (samePlaces_bind aligned file).counter, (samePlaces_bind aligned file).placed, placed]
    exact .binds stored (UInt32.ofNat aligned.counter) bound (by simp [waiting, withCounter, none]) rfl

/-- A statement that leaves labels and what is placed alone lets the labels wait. -/
theorem labels_of_eq {placement after : Placement} (other : ¬ statement.IsStored)
    (pending : after.pending = (placement.labelled statement).pending)
    (locals : after.symbols.locals = placement.symbols.locals) (placed : after.placed = placement.placed) :
    Labels file statement placement after := by
  refine .waits other ?_ locals placed
  rw [← waiting_labelled, waiting, waiting, pending]

/-- An instruction is placed without an error only in a segment for instructions, and by giving it the size of what it becomes. -/
theorem expands_of_placeInstruction {placement : Placement} {written : WrittenInstruction}
    (successful : (placement.placeInstruction settings file statement written).Successful) :
    ∃ instructions, placement.area.isText = true ∧
      written.expand (placement.sizingContext settings) = .ok instructions ∧
      placement.placeInstruction settings file statement written =
        placement.allocate settings.layout file statement (4 * instructions.length) := by
  unfold placeInstruction at successful ⊢
  split at successful
  next => exact absurd successful (not_successful_report rfl)
  next text =>
    rw [if_neg text]
    split at successful
    next instructions expanded => exact ⟨instructions, by simpa using text, expanded, rfl⟩
    next problem failed =>
      -- No label is known yet, so none can be at fault.
      have resolves : (placement.sizingContext settings).Resolves := by
        rintro _ ⟨⟩
      have severe := severe_expand resolves written
      rw [failed] at severe
      exact absurd successful (not_successful_report severe)

theorem labels_place (placement : Placement) (successful : (place settings file placement statement).Successful) :
    Labels file statement placement (place settings file placement statement) := by
  rw [place_eq] at successful ⊢
  split at successful
  next content =>
    exact labels_of_eq (by simp [Statement.IsStored, content]) rfl rfl rfl
  next written content =>
    have stored : statement.IsStored := by simp [Statement.IsStored, content]
    obtain ⟨instructions, -, -, same⟩ := expands_of_placeInstruction successful
    rw [same] at successful ⊢
    exact labels_allocate placement successful stored rfl rfl rfl rfl
  next directive content =>
    have kept {after : Placement} (data : directive.isData = false)
        (pending : after.pending = (placement.labelled statement).pending)
        (locals : after.symbols.locals = placement.symbols.locals) (placed : after.placed = placement.placed) :
        Labels file statement placement after :=
      labels_of_eq (by simp [Statement.IsStored, content, data]) pending locals placed
    unfold placeDirective at successful ⊢
    dsimp only at successful ⊢
    split at successful
    case h_1 | h_2 | h_3 | h_4 =>
      refine kept rfl (switch_keeps ..).1 ?_ (placed_switch ..)
      rw [symbols_switch]
      rfl
    case h_5 | h_6 | h_8 => exact kept rfl rfl rfl rfl
    case h_7 => exact kept rfl (reserve_keeps ..).2.1 (reserve_keeps ..).1 (placed_reserve ..)
    case h_9 =>
      split at successful
      next => exact absurd successful (not_successful_report rfl)
      next text =>
        rw [if_neg text]
        refine labels_allocate placement successful ?_ rfl rfl rfl rfl
        rw [Statement.IsStored, content]
        cases directive <;> first | rfl | simp_all

end Place

/-- The symbol stands for the label of a file, at the address of the statement that the label heads. -/
def Bound (placement : Placement) (file : Nat) (entry : Label × Option Statement) : Prop :=
  ∃ symbol, placement.symbols.local? file entry.1.name = some symbol ∧ symbol.name = entry.1.name ∧
    symbol.file = file ∧ symbol.isGlobal = false ∧
      ∀ statement, entry.2 = some statement → ⟨file, statement, symbol.address⟩ ∈ placement.placed

/-- The labels were new in their file and are bound now; nothing else has become of labels. -/
structure Binding (file : Nat) (before after : Placement) (entries : List (Label × Option Statement)) : Prop where
  fresh : ∀ entry ∈ entries, before.symbols.local? file entry.1.name = none
  distinct : (entries.map fun entry => entry.1.name).Nodup
  bound : ∀ entry ∈ entries, after.Bound file entry
  kept : ∀ other name, (other = file → name ∉ entries.map fun entry => entry.1.name) →
    after.symbols.local? other name = before.symbols.local? other name

theorem Bound.of_kept {before after : Placement} {file : Nat} {entry : Label × Option Statement}
    (bound : before.Bound file entry) (placed : before.placed <:+ after.placed)
    (kept : after.symbols.local? file entry.1.name = before.symbols.local? file entry.1.name) :
    after.Bound file entry := by
  obtain ⟨symbol, found, name, owner, own, lies⟩ := bound
  exact ⟨symbol, kept.trans found, name, owner, own, fun statement heads => placed.subset (lies statement heads)⟩

/-- Labels that are bound together, and whether a statement was placed where they lie. -/
theorem binding_of_binds {before after : Placement} {file : Nat} {labels : List Label} {address : Address}
    {segment : Segment} {owner : Option Statement}
    (binds : before.symbols.Binds after.symbols file labels address segment)
    (placed : ∀ statement, owner = some statement → ⟨file, statement, address⟩ ∈ after.placed) :
    Binding file before after (labels.map fun label => (label, owner)) := by
  have names : ((labels.map fun label => (label, owner)).map fun entry => entry.1.name) = labels.map Label.name := by
    rw [List.map_map]
    rfl
  constructor
  case fresh => exact List.forall_mem_map.2 binds.fresh
  case distinct =>
    rw [names]
    exact binds.distinct
  case bound =>
    refine List.forall_mem_map.2 fun label member => ?_
    exact ⟨_, binds.bound label member, rfl, rfl, rfl, placed⟩
  case kept =>
    rw [names]
    exact binds.kept

theorem Binding.append {file : Nat} {first second third : Placement} {earlier later : List (Label × Option Statement)}
    (before : Binding file first second earlier) (after : Binding file second third later)
    (placed : second.placed <:+ third.placed) : Binding file first third (earlier ++ later) := by
  -- Labels that are bound later are not bound yet, so they are others.
  have apart : ∀ early ∈ earlier, early.1.name ∉ later.map fun entry => entry.1.name := by
    intro early member again
    obtain ⟨late, present, same⟩ := List.mem_map.1 again
    obtain ⟨symbol, found, -⟩ := before.bound early member
    rw [← same, after.fresh late present] at found
    cases found
  constructor
  case fresh =>
    intro entry member
    rcases List.mem_append.1 member with early | late
    · exact before.fresh entry early
    · by_cases again : entry.1.name ∈ earlier.map fun entry => entry.1.name
      · obtain ⟨early, present, same⟩ := List.mem_map.1 again
        exact absurd (same ▸ List.mem_map_of_mem late) (apart early present)
      · rw [← before.kept file entry.1.name fun _ => again]
        exact after.fresh entry late
  case distinct =>
    rw [List.map_append, List.nodup_append]
    refine ⟨before.distinct, after.distinct, ?_⟩
    rintro name early other late rfl
    obtain ⟨entry, member, rfl⟩ := List.mem_map.1 early
    exact apart entry member late
  case bound =>
    intro entry member
    rcases List.mem_append.1 member with early | late
    · exact (before.bound entry early).of_kept placed (after.kept _ _ fun _ => apart entry early)
    · exact after.bound entry late
  case kept =>
    intro other name unlike
    simp only [List.map_append, List.mem_append, not_or] at unlike
    rw [after.kept other name fun same => (unlike same).2, before.kept other name fun same => (unlike same).1]

/-- The labels of a file are bound, first those that head its statements and then those that are left over. -/
theorem binding_file (settings : Settings) (file : Nat) (statements : List Statement) {placement : Placement}
    (successful : ((statements.foldl (place settings file) placement).bind file).Successful) :
    Binding file placement ((statements.foldl (place settings file) placement).bind file)
      (headings placement.waiting statements) := by
  induction statements generalizing placement with
  | nil =>
    exact binding_of_binds (binds_bind placement successful) fun statement none => nomatch none
  | cons statement rest ih =>
    have ended := successful.of_continues (continues_bind _ file)
    have first := ended.of_continues (continues_statements _ settings file rest)
    have later := ih successful
    unfold headings
    cases labels_place placement first with
    | waits other waiting locals placed =>
      rw [if_neg other, ← waiting]
      have same : (place settings file placement statement).symbols.local? = placement.symbols.local? := by
        funext other name
        rw [SymbolTable.local?, SymbolTable.local?, SymbolTable.ofFile, SymbolTable.ofFile, locals]
      exact ⟨same ▸ later.fresh, later.distinct, later.bound, same ▸ later.kept⟩
    | binds stored address bound waiting placed =>
      rw [if_pos stored, ← waiting]
      have here : Binding file placement (place settings file placement statement)
          ((placement.waiting ++ statement.labels).map fun label => (label, some statement)) := by
        refine binding_of_binds bound ?_
        rintro _ ⟨rfl⟩
        rw [placed]
        exact List.mem_cons_self
      have kept := (continues_statements (place settings file placement statement) settings file rest).trans
        (continues_bind _ file)
      exact here.append later kept.placed

/-- All labels of the files that are counted from `first` are bound, and those of other files are as before. -/
theorem bound_placeFiles (settings : Settings) (first : Nat) (files : List (List Statement)) {placement : Placement}
    (successful : (placement.placeFiles settings first files).Successful) :
    let after := placement.placeFiles settings first files
    (∀ index statements, files[index]? = some statements →
      (definedNames statements).Nodup ∧ ∀ entry ∈ headings [] statements, after.Bound (first + index) entry) ∧
    (∀ file name, (∀ index statements, files[index]? = some statements → file = first + index →
      name ∉ definedNames statements) → after.symbols.local? file name = placement.symbols.local? file name) := by
  induction files generalizing placement first with
  | nil => exact ⟨by simp, fun _ _ _ => rfl⟩
  | cons statements rest ih =>
    have ended := successful.of_continues (continues_placeFiles _ settings (first + 1) rest)
    let begun : Placement := { placement with area := .text, pending := [] }
    have here : Binding first begun (placement.placeFile settings first statements) (headings [] statements) :=
      binding_file settings first statements ended
    have unchanged (file : Nat) (name : String) (other : file = first → name ∉ definedNames statements) :
        (placement.placeFile settings first statements).symbols.local? file name =
          placement.symbols.local? file name := by
      refine here.kept file name ?_
      rwa [names_headings]
    obtain ⟨bound, kept⟩ := ih (first + 1) successful
    refine ⟨?_, ?_⟩
    · intro index contents found
      cases index with
      | zero =>
        cases found
        refine ⟨names_headings statements ▸ here.distinct, fun entry member => ?_⟩
        have placed :=
          (continues_placeFiles (placement.placeFile settings first statements) settings (first + 1) rest).placed
        exact (here.bound entry member).of_kept placed (kept first _ fun index _ _ same => by omega)
      | succ index =>
        have found := bound index contents found
        rwa [Nat.add_right_comm] at found
    · intro file name other
      refine (kept file name fun index contents found same => ?_).trans (unchanged file name ?_)
      · exact other (index + 1) contents found (by omega)
      · exact other 0 statements rfl

end Placement

end Mips
