import Mips.Proofs.Assembly.Sizes

/-!
Nothing is left out: an instruction or data directive that is not given an address is an error. Main statement:
`placed_of_assemble`.
-/

namespace Mips

/-- The statement has to be given an address. -/
def Statement.IsStored (statement : Statement) : Prop :=
  match statement.content with
  | none => False
  | some (.instruction _) => True
  | some (.directive directive) => directive.isData = true

namespace Placement

/-- What has been found and placed is kept. -/
structure Continues (before after : Placement) : Prop where
  findings : before.findings <:+ after.findings
  placed : before.placed <:+ after.placed

theorem continues_of_eq {before after : Placement} (findings : after.findings = before.findings)
    (placed : after.placed = before.placed) : Continues before after :=
  ⟨findings ▸ List.suffix_refl _, placed ▸ List.suffix_refl _⟩

theorem Continues.trans {first second third : Placement} (before : Continues first second)
    (after : Continues second third) : Continues first third :=
  ⟨before.findings.trans after.findings, before.placed.trans after.placed⟩

/-- It does not matter where the rest of what is known began. -/
theorem Continues.of_eq {before same after : Placement} (continues : Continues same after)
    (findings : same.findings = before.findings) (placed : same.placed = before.placed) : Continues before after :=
  (continues_of_eq findings placed).trans continues

variable (placement : Placement)

theorem continues_report (file line : Nat) (span : Span) (problem : Problem) :
    Continues placement (placement.report file line span problem) :=
  ⟨List.suffix_cons _ _, List.suffix_refl _⟩

theorem continues_define (file : Nat) (label : Label) (line : Nat) :
    Continues placement (placement.define file label line) := by
  unfold define
  split
  · exact continues_report ..
  · exact continues_of_eq rfl rfl

theorem continues_defines (file : Nat) (labels : List (Label × Nat)) : Continues placement
    (labels.foldl (fun placement pending => placement.define file pending.1 pending.2) placement) := by
  induction labels generalizing placement with
  | nil => exact continues_of_eq rfl rfl
  | cons label rest ih => exact (continues_define placement file label.1 label.2).trans (ih _)

theorem continues_bind (file : Nat) : Continues placement (placement.bind file) :=
  (continues_defines { placement with pending := [] } file placement.pending.reverse).of_eq rfl rfl

theorem continues_switch (layout : Layout) (file : Nat) (statement : Statement) (area : Area)
    (address : Option Address) : Continues placement (placement.switch layout file statement area address) := by
  unfold switch
  dsimp only
  split
  · exact continues_of_eq rfl rfl
  · split
    · exact continues_of_eq rfl rfl
    · exact (continues_report { placement with area := area } ..).of_eq rfl rfl

theorem continues_reserve (layout : Layout) (file : Nat) (statement : Statement) (label : Label) (size : Nat) :
    Continues placement (placement.reserve layout file statement label size) := by
  unfold reserve
  split
  · exact continues_of_eq rfl rfl
  · dsimp only
    split
    · exact continues_report ..
    · exact continues_of_eq rfl rfl

theorem continues_allocate (layout : Layout) (file : Nat) (statement : Statement) (size : Nat) :
    Continues placement (placement.allocate layout file statement size) := by
  have bound := placement.continues_bind file
  unfold allocate
  dsimp only
  split
  · exact bound.trans (continues_report ..)
  · exact bound.trans ⟨List.suffix_refl _, List.suffix_cons _ _⟩

theorem continues_placeInstruction (settings : Settings) (file : Nat) (statement : Statement)
    (written : WrittenInstruction) : Continues placement (placement.placeInstruction settings file statement written) := by
  unfold placeInstruction
  split
  · exact continues_report ..
  · split
    · exact continues_allocate ..
    · exact (placement.continues_bind file).trans (continues_report ..)

theorem continues_placeDirective (settings : Settings) (file : Nat) (statement : Statement) (directive : Directive) :
    Continues placement (placement.placeDirective settings file statement directive) := by
  unfold placeDirective
  dsimp only
  split
  case h_1 | h_2 | h_3 | h_4 => exact continues_switch ..
  case h_5 | h_6 => exact continues_of_eq rfl rfl
  case h_7 => exact continues_reserve ..
  case h_8 => exact continues_report ..
  case h_9 =>
    split
    · exact continues_report ..
    · exact (continues_allocate (placement.withCounter _) settings.layout file statement _).of_eq rfl rfl

theorem continues_place (settings : Settings) (file : Nat) (statement : Statement) :
    Continues placement (place settings file placement statement) := by
  unfold place
  dsimp only
  split
  · exact continues_of_eq rfl rfl
  next written _ =>
    exact (continues_placeInstruction { placement with pending := _ } settings file statement written).of_eq rfl rfl
  next directive _ =>
    exact (continues_placeDirective { placement with pending := _ } settings file statement directive).of_eq rfl rfl

theorem continues_statements (settings : Settings) (file : Nat) (statements : List Statement) :
    Continues placement (statements.foldl (place settings file) placement) := by
  induction statements generalizing placement with
  | nil => exact continues_of_eq rfl rfl
  | cons statement rest ih => exact (placement.continues_place settings file statement).trans (ih _)

theorem continues_placeFiles (settings : Settings) (file : Nat) (files : List (List Statement)) :
    Continues placement (placement.placeFiles settings file files) := by
  induction files generalizing placement file with
  | nil => exact continues_of_eq rfl rfl
  | cons statements rest ih =>
    let begun : Placement := { placement with area := .text, pending := [] }
    have placed : Continues placement (statements.foldl (place settings file) begun) :=
      (begun.continues_statements settings file statements).of_eq rfl rfl
    have ended := continues_bind (statements.foldl (place settings file) begun) file
    exact (placed.trans ended).trans (ih _ _)

theorem continues_share (shared : Export) : Continues placement (placement.share shared) := by
  unfold share
  dsimp only
  split
  · split
    · exact (continues_report { placement with symbols := _ } ..).of_eq rfl rfl
    · exact continues_of_eq rfl rfl
  · split
    · exact continues_of_eq rfl rfl
    · exact continues_report ..

theorem continues_shareAll : Continues placement placement.shareAll := by
  unfold shareAll
  generalize placement.exports.reverse = exports
  induction exports generalizing placement with
  | nil => exact continues_of_eq rfl rfl
  | cons shared rest ih => exact (placement.continues_share shared).trans (ih _)

/-- A statement of a file has been given an address, or there is an error. -/
def Accounted (file : Nat) (statement : Statement) (placement : Placement) : Prop :=
  (∃ address, ⟨file, statement, address⟩ ∈ placement.placed) ∨
    ∃ finding ∈ placement.findings, finding.problem.severity = .error

variable {file : Nat} {statement : Statement}

theorem Accounted.continues {before after : Placement} (accounted : Accounted file statement before)
    (continues : Continues before after) : Accounted file statement after := by
  rcases accounted with ⟨address, member⟩ | ⟨finding, member, severe⟩
  · exact .inl ⟨address, continues.placed.subset member⟩
  · exact .inr ⟨finding, continues.findings.subset member, severe⟩

theorem accounted_reject {problem : Problem} (severe : problem.severity = .error) :
    Accounted file statement (placement.reject file statement problem) :=
  .inr ⟨_, List.mem_cons_self, severe⟩

theorem accounted_allocate (layout : Layout) (size : Nat) :
    Accounted file statement (placement.allocate layout file statement size) := by
  unfold allocate
  dsimp only
  split
  · exact accounted_reject _ rfl
  · exact .inl ⟨_, List.mem_cons_self⟩

theorem accounted_placeInstruction (settings : Settings) (written : WrittenInstruction) :
    Accounted file statement (placement.placeInstruction settings file statement written) := by
  unfold placeInstruction
  split
  · exact accounted_reject _ rfl
  · split
    · exact accounted_allocate ..
    next problem failed =>
      -- No label is known yet, so none can be at fault.
      have resolves : (placement.sizingContext settings).Resolves := by
        rintro _ ⟨⟩
      have severe := severe_expand resolves written
      rw [failed] at severe
      exact accounted_reject _ severe

theorem accounted_placeDirective (settings : Settings) {directive : Directive} (data : directive.isData = true) :
    Accounted file statement (placement.placeDirective settings file statement directive) := by
  unfold placeDirective
  dsimp only
  split
  case h_9 =>
    split
    · exact accounted_reject _ rfl
    · exact accounted_allocate ..
  all_goals cases data

theorem accounted_place (settings : Settings) (stored : statement.IsStored) :
    Accounted file statement (place settings file placement statement) := by
  unfold Statement.IsStored at stored
  unfold place
  dsimp only
  split
  next content =>
    rw [content] at stored
    exact stored.elim
  next written _ => exact accounted_placeInstruction _ settings written
  next directive content =>
    rw [content] at stored
    exact accounted_placeDirective _ settings stored

theorem accounted_statements (settings : Settings) (file : Nat) {statements : List Statement} (member : statement ∈ statements)
    (stored : statement.IsStored) : Accounted file statement (statements.foldl (place settings file) placement) := by
  induction statements generalizing placement with
  | nil => cases member
  | cons first rest ih =>
    rcases List.mem_cons.1 member with rfl | later
    · exact (placement.accounted_place settings stored).continues (continues_statements _ settings file rest)
    · exact ih _ later

theorem accounted_placeFiles (settings : Settings) (first : Nat) {index : Nat} {files : List (List Statement)}
    {statements : List Statement} (found : files[index]? = some statements) (member : statement ∈ statements)
    (stored : statement.IsStored) :
    Accounted (first + index) statement (placement.placeFiles settings first files) := by
  induction files generalizing placement first index with
  | nil => cases found
  | cons head rest ih =>
    cases index with
    | zero =>
      cases found
      have placed := accounted_statements { placement with area := .text, pending := [] } settings first member stored
      have ended := placed.continues (continues_bind _ first)
      exact ended.continues (continues_placeFiles _ settings (first + 1) rest)
    | succ index =>
      have later := ih (placement.placeFile settings first head) (first + 1) found
      rwa [Nat.add_right_comm] at later

end Placement

open Assembly

/-- Every instruction and every data directive in the sources of an assembled program has been given an address. -/
theorem placed_of_assemble {settings : Settings} {sources : List Source} {program : Program}
    (assembled : assemble settings sources = .ok program) {file : Nat} {written : List Statement}
    (found : (statements sources)[file]? = some written) {statement : Statement} (member : statement ∈ written)
    (stored : statement.IsStored) :
    ∃ address, ⟨file, statement, address⟩ ∈ (Placement.ofFiles settings (statements sources)).placed := by
  obtain ⟨-, -, -, fine⟩ := program_of_assemble assembled
  have placed := Placement.accounted_placeFiles (.initial settings.layout) settings 0 found member stored
  rw [Nat.zero_add] at placed
  rcases placed.continues (Placement.continues_shareAll _) with given | ⟨finding, reported, severe⟩
  · exact given
  · exact absurd severe (fine finding (.inl reported))

end Mips
