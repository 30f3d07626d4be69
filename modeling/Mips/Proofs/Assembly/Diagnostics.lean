import Mips.Proofs.Assembly.Strictness
import Mips.Proofs.Statement.Lines
import Mips.Proofs.Statement.Spans

/-!
Where diagnostics point. Each one names a file and a line that exist, and concerns a slice of that line, unless it is about
a label that a definition has put in the place of another name: then it starts where that name is written, but has the
length of the label. Main statement: `points_of_assemble`.
-/

namespace Mips

/-- One of the lines has this number, and the property holds of it and of the definitions in force there. -/
def InLines (definitions : Definitions) (number : Nat) (texts : List String) (line : Nat)
    (property : Definitions → String → Prop) : Prop :=
  ∃ index text, texts[index]? = some text ∧ line = number + index ∧
    property (definitions.behind number (texts.take index)) text

section InLines

variable {definitions further : Definitions} {number line : Nat} {text : String} {rest : List String}
  {property : Definitions → String → Prop}

theorem inLines_first (holds : property definitions text) :
    InLines definitions number (text :: rest) number property := ⟨0, text, rfl, rfl, holds⟩

/-- What is found further on is one line further on if there is a line before. -/
theorem InLines.later (inside : InLines further (number + 1) rest line property)
    (read : ∀ later, definitions.behind number (text :: later) = further.behind (number + 1) later) :
    InLines definitions number (text :: rest) line property := by
  obtain ⟨index, other, present, same, holds⟩ := inside
  refine ⟨index + 1, other, present, by omega, ?_⟩
  rwa [List.take_succ_cons, read]

end InLines

/-- The statements of lines stand in them, and so do the errors. -/
theorem inLines_parseLinesFrom (definitions : Definitions) (number : Nat) (texts : List String) :
    (∀ statement ∈ (parseLinesFrom definitions number texts).1,
        InLines definitions number texts statement.line fun inForce text => statement.Stands inForce text.toList) ∧
      ∀ error ∈ (parseLinesFrom definitions number texts).2,
        InLines definitions number texts error.line fun _ text => error.span.Within text.toList := by
  induction texts generalizing definitions number with
  | nil => simp [parseLinesFrom]
  | cons text rest ih =>
    have ends := ends_parseLineWith definitions text number
    unfold parseLinesFrom
    split
    next statement further read =>
      rw [read] at ends
      have behind (later : List String) : definitions.behind number (text :: later) = further.behind (number + 1) later := by
        rw [Definitions.behind, read]
      obtain ⟨statements, errors⟩ := ih further (number + 1)
      refine ⟨List.forall_mem_append.2 ⟨?_, ?_⟩, ?_⟩
      · intro found member
        obtain ⟨line, stands⟩ := ends found (Option.mem_toList.1 member)
        rw [line]
        exact inLines_first stands
      · exact fun found member => (statements found member).later behind
      · exact fun error member => (errors error member).later behind
    next failure read =>
      rw [read] at ends
      have behind (later : List String) :
          definitions.behind number (text :: later) = definitions.behind (number + 1) later := by
        rw [Definitions.behind, read]
      obtain ⟨statements, errors⟩ := ih definitions (number + 1)
      refine ⟨fun found member => (statements found member).later behind, List.forall_mem_cons.2 ⟨?_, ?_⟩⟩
      · exact inLines_first ends
      · exact fun error member => (errors error member).later behind

/-- The text is the line of this number in the file of this number, and the definitions are in force there. -/
def IsLine (sources : List Source) (file number : Nat) (definitions : Definitions) (text : String) : Prop :=
  ∃ source, sources[file]? = some source ∧ 0 < number ∧ (lines source.text)[number - 1]? = some text ∧
    definitions = Definitions.behind [] 1 ((lines source.text).take (number - 1))

/-- The lines of a file are counted from one. -/
theorem InLines.isLine {sources : List Source} {file line : Nat} {source : Source}
    {property : Definitions → String → Prop} (inside : InLines [] 1 (lines source.text) line property)
    (listed : sources[file]? = some source) :
    ∃ definitions text, IsLine sources file line definitions text ∧ property definitions text := by
  obtain ⟨index, text, present, rfl, holds⟩ := inside
  have before : 1 + index - 1 = index := by omega
  refine ⟨_, text, ⟨source, listed, by omega, ?_, rfl⟩, ?_⟩
  · rwa [before]
  · rwa [before]

/-- The statement stands in a line of the file. -/
def Statement.Located (sources : List Source) (file : Nat) (statement : Statement) : Prop :=
  ∃ definitions text, IsLine sources file statement.line definitions text ∧
    statement.Stands definitions text.toList

/-- The label is written in a line of the file. -/
def Label.Located (sources : List Source) (file line : Nat) (label : Label) : Prop :=
  ∃ definitions text, IsLine sources file line definitions text ∧ label.Written definitions text.toList

/-- The problem is that a label of this name is missing or there already. -/
def Problem.Blames (problem : Problem) (name : String) : Prop :=
  problem = .duplicateLabel name ∨ problem = .undefinedLabel name

/--
The span is a slice of the text, or it starts where a definition has put a label in the place of another name and has the
length of that label, which is at fault.
-/
def Span.Points (span : Span) (definitions : Definitions) (text : List Char) (problem : Problem) : Prop :=
  span.Within text ∨
    ∃ label : Label, label.Substituted definitions text ∧ span = label.span ∧ problem.Blames label.name

namespace Finding

/-- The finding points into a line of its file. -/
def Points (sources : List Source) (finding : Finding) : Prop :=
  ∃ definitions text, IsLine sources finding.file finding.line definitions text ∧
    finding.span.Points definitions text.toList finding.problem

variable {sources : List Source} {file : Nat}

theorem points_of_statement {statement : Statement} (located : statement.Located sources file) (problem : Problem) :
    Points sources ⟨file, statement.line, statement.span, problem⟩ := by
  obtain ⟨definitions, text, line, stands⟩ := located
  exact ⟨definitions, text, line, .inl stands.within⟩

theorem points_of_label {line : Nat} {label : Label} (located : label.Located sources file line) {problem : Problem}
    (blames : problem.Blames label.name) : Points sources ⟨file, line, label.span, problem⟩ := by
  obtain ⟨definitions, text, isLine, written⟩ := located
  refine ⟨definitions, text, isLine, ?_⟩
  rcases written with spelled | substituted
  · exact .inl (Label.within_of_spelled spelled)
  · exact .inr ⟨label, substituted, rfl, blames⟩

end Finding

theorem Statement.Located.label {sources : List Source} {file : Nat} {statement : Statement}
    (located : statement.Located sources file) {label : Label} (mentioned : label ∈ statement.mentions) :
    label.Located sources file statement.line := by
  obtain ⟨definitions, text, line, stands⟩ := located
  exact ⟨definitions, text, line, stands.written label mentioned⟩

theorem Statement.mem_mentions {statement : Statement} {label : Label} (referenced : label ∈ statement.references) :
    label ∈ statement.mentions := by
  apply List.mem_append_right
  unfold references at referenced
  split at referenced
  next written content =>
    obtain ⟨operand, member, names⟩ := List.mem_filterMap.1 referenced
    rw [content]
    refine List.mem_filterMap.2 ⟨operand, member, ?_⟩
    cases operand <;> exact names
  next items content =>
    rw [content]
    exact referenced
  next => cases referenced

/-- Every statement of a file stands in one of its lines. -/
theorem located_of_mem_statements {sources : List Source} {file : Nat} {contents : List Statement}
    (found : (Assembly.statements sources)[file]? = some contents) {statement : Statement}
    (member : statement ∈ contents) : statement.Located sources file := by
  rw [Assembly.statements, List.getElem?_map, Option.map_eq_some_iff] at found
  obtain ⟨source, present, rfl⟩ := found
  exact ((inLines_parseLinesFrom [] 1 (lines source.text)).1 statement member).isLine present

namespace Placement

variable {sources : List Source} {file : Nat} {placement : Placement}

/-- All that is known of labels and statements is written in lines, and whatever has been found points into one. -/
structure Points (sources : List Source) (file : Nat) (placement : Placement) : Prop where
  findings : ∀ finding ∈ placement.findings, finding.Points sources
  pending : ∀ waiting ∈ placement.pending, waiting.1.Located sources file waiting.2
  exports : ∀ shared ∈ placement.exports, shared.label.Located sources shared.file shared.line
  placed : ∀ placed ∈ placement.placed, placed.statement.Located sources placed.file

theorem points_initial (layout : Layout) : (initial layout).Points sources file := by
  constructor <;> simp [initial]

theorem Points.report {line : Nat} {span : Span} {problem : Problem} (points : placement.Points sources file)
    {owner : Nat} (found : Finding.Points sources ⟨owner, line, span, problem⟩) :
    (placement.report owner line span problem).Points sources file :=
  ⟨List.forall_mem_cons.2 ⟨found, points.findings⟩, points.pending, points.exports, points.placed⟩

theorem Points.reject {statement : Statement} (points : placement.Points sources file)
    (located : statement.Located sources file) (problem : Problem) :
    (placement.reject file statement problem).Points sources file :=
  points.report (Finding.points_of_statement located problem)

theorem points_define (points : placement.Points sources file) {label : Label} {line : Nat}
    (located : label.Located sources file line) : (placement.define file label line).Points sources file := by
  unfold define
  split
  · exact points.report (Finding.points_of_label located (.inl rfl))
  · exact ⟨points.findings, points.pending, points.exports, points.placed⟩

theorem points_bind (points : placement.Points sources file) : (placement.bind file).Points sources file := by
  have defines (labels : List (Label × Nat)) (located : ∀ waiting ∈ labels, waiting.1.Located sources file waiting.2) :
      ∀ {bound : Placement}, bound.Points sources file →
        (labels.foldl (fun bound waiting => bound.define file waiting.1 waiting.2) bound).Points sources file := by
    induction labels with
    | nil => exact fun points => points
    | cons first rest ih =>
      obtain ⟨here, later⟩ := List.forall_mem_cons.1 located
      exact fun points => ih later (points_define points here)
  refine defines _ (fun waiting member => points.pending waiting (List.mem_reverse.1 member)) ?_
  exact ⟨points.findings, by simp, points.exports, points.placed⟩

section Place

variable {settings : Settings} {statement : Statement} (points : placement.Points sources file)
  (located : statement.Located sources file)

include points located

theorem points_switch (layout : Layout) (area : Area) (address : Option Address) :
    (placement.switch layout file statement area address).Points sources file := by
  have switched : Points sources file { placement with area := area } :=
    ⟨points.findings, points.pending, points.exports, points.placed⟩
  unfold switch
  dsimp only
  split
  · exact switched
  · split
    · exact ⟨points.findings, points.pending, points.exports, points.placed⟩
    · exact switched.reject located _

theorem points_reserve (layout : Layout) (label : Label) (size : Nat) :
    (placement.reserve layout file statement label size).Points sources file := by
  unfold reserve
  split
  · exact points
  · dsimp only
    split
    · exact points.reject located _
    · exact ⟨points.findings, points.pending, points.exports, points.placed⟩

theorem points_allocate (layout : Layout) (size : Nat) :
    (placement.allocate layout file statement size).Points sources file := by
  have bound := points_bind points
  unfold allocate
  dsimp only
  split
  · exact bound.reject located _
  · exact ⟨bound.findings, bound.pending, bound.exports, List.forall_mem_cons.2 ⟨located, bound.placed⟩⟩

theorem points_placeInstruction (written : WrittenInstruction) :
    (placement.placeInstruction settings file statement written).Points sources file := by
  unfold placeInstruction
  split
  · exact points.reject located _
  · split
    · exact points_allocate points located _ _
    · exact (points_bind points).reject located _

theorem points_placeDirective {directive : Directive} (content : statement.content = some (.directive directive)) :
    (placement.placeDirective settings file statement directive).Points sources file := by
  unfold placeDirective
  dsimp only
  split
  case h_1 | h_2 | h_3 | h_4 => exact points_switch points located _ _ _
  case h_5 => exact ⟨points.findings, points.pending, points.exports, points.placed⟩
  case h_6 labels =>
    refine ⟨points.findings, points.pending, List.forall_mem_append.2 ⟨?_, points.exports⟩, points.placed⟩
    intro shared member
    obtain ⟨label, named, rfl⟩ := List.mem_map.1 (List.mem_reverse.1 member)
    apply located.label
    rw [Statement.mentions, content]
    exact List.mem_append_right _ named
  case h_7 => exact points_reserve points located _ _ _
  case h_8 => exact points.reject located _
  case h_9 =>
    split
    · exact points.reject located _
    · have aligned : (placement.withCounter (alignUp placement.counter directive.alignment)).Points sources file :=
        ⟨points.findings, points.pending, points.exports, points.placed⟩
      exact points_allocate aligned located _ _

theorem points_place : (place settings file placement statement).Points sources file := by
  have labelled : (placement.labelled statement).Points sources file := by
    refine ⟨points.findings, List.forall_mem_append.2 ⟨?_, points.pending⟩, points.exports, points.placed⟩
    intro waiting member
    obtain ⟨label, heads, rfl⟩ := List.mem_map.1 (List.mem_reverse.1 member)
    exact located.label (List.mem_append_left _ heads)
  rw [place_eq]
  split
  · exact labelled
  · exact points_placeInstruction labelled located _
  next content => exact points_placeDirective labelled located content

end Place

theorem points_placeFile (settings : Settings) {statements : List Statement} {other : Nat}
    (points : placement.Points sources other)
    (located : ∀ statement ∈ statements, Statement.Located sources file statement) :
    (placement.placeFile settings file statements).Points sources file := by
  have places : ∀ {begun : Placement}, begun.Points sources file →
      (statements.foldl (place settings file) begun).Points sources file := by
    induction statements with
    | nil => exact fun points => points
    | cons statement rest ih =>
      obtain ⟨here, later⟩ := List.forall_mem_cons.1 located
      exact fun points => ih later (points_place points here)
  exact points_bind (places ⟨points.findings, by simp, points.exports, points.placed⟩)

theorem points_placeFiles (settings : Settings) (files : List (List Statement)) (first : Nat) {other : Nat}
    (points : placement.Points sources other)
    (located : ∀ index contents, files[index]? = some contents →
      ∀ statement ∈ contents, Statement.Located sources (first + index) statement) :
    ∃ last, (placement.placeFiles settings first files).Points sources last := by
  induction files generalizing placement first other with
  | nil => exact ⟨other, points⟩
  | cons contents rest ih =>
    have here := points_placeFile settings points (located 0 contents rfl)
    refine ih (first + 1) here fun index later found => ?_
    have further := located (index + 1) later found
    rwa [Nat.add_assoc, Nat.add_comm 1 index]

theorem points_share (points : placement.Points sources file) {shared : Export}
    (located : shared.label.Located sources shared.file shared.line) :
    (placement.share shared).Points sources file := by
  unfold share
  dsimp only
  split
  next =>
    split
    · have erased : Points sources file
          { placement with symbols := placement.symbols.eraseLocal shared.file shared.label.name } :=
        ⟨points.findings, points.pending, points.exports, points.placed⟩
      exact erased.report (Finding.points_of_label located (.inl rfl))
    · exact ⟨points.findings, points.pending, points.exports, points.placed⟩
  next =>
    split
    · exact points
    · exact points.report (Finding.points_of_label located (.inr rfl))

theorem points_shareAll (points : placement.Points sources file) : placement.shareAll.Points sources file := by
  have shares (exports : List Export)
      (located : ∀ shared ∈ exports, shared.label.Located sources shared.file shared.line) :
      ∀ {begun : Placement}, begun.Points sources file → (exports.foldl share begun).Points sources file := by
    induction exports with
    | nil => exact fun points => points
    | cons shared rest ih =>
      obtain ⟨here, later⟩ := List.forall_mem_cons.1 located
      exact fun points => ih later (points_share points here)
  exact shares _ (fun shared member => points.exports shared (List.mem_reverse.1 member)) points

/-- Wherever statements of all files are placed, findings point into lines. -/
theorem points_ofFiles (settings : Settings) (sources : List Source) :
    ∃ last, (ofFiles settings (Assembly.statements sources)).Points sources last := by
  obtain ⟨last, points⟩ := points_placeFiles settings (Assembly.statements sources) 0
    (points_initial settings.layout : Points sources 0 _) fun index contents found statement member => by
      rw [Nat.zero_add]
      exact located_of_mem_statements found member
  exact ⟨last, points_shareAll points⟩

end Placement

namespace Emission

/-- Whatever has been found while statements were emitted points into a line. -/
def Points (sources : List Source) (emission : Emission) : Prop :=
  ∀ finding ∈ emission.findings, finding.Points sources

variable {sources : List Source} {emission : Emission} {placed : Placed}

section Emit

variable (points : emission.Points sources) (located : placed.statement.Located sources placed.file)

include points located

theorem points_reject (problem : Problem) : (emission.reject placed problem).Points sources := by
  refine List.forall_mem_cons.2 ⟨?_, points⟩
  have whole := Finding.points_of_statement located problem
  unfold Statement.problemSpan
  split
  next name =>
    unfold Statement.referenceSpan
    cases found : placed.statement.references.find? (fun label => label.name = name) with
    | none => exact whole
    | some label =>
      have named : label.name = name := by simpa using List.find?_some found
      have mentioned := Statement.mem_mentions (List.mem_of_find?_eq_some found)
      exact Finding.points_of_label (located.label mentioned) (.inr (by rw [named]))
  next => exact whole

theorem points_emitInstructions (address : Address) (source : Option String) (instructions : List Instruction) :
    (emitInstructions placed emission address source instructions).Points sources := by
  induction instructions generalizing emission address source with
  | nil => exact points
  | cons instruction rest ih =>
    unfold emitInstructions
    refine ih ?_ _ _
    split
    · exact points_reject points located _
    · exact points

theorem points_emitBytes (content : List UInt8) : (emission.emitBytes placed content).Points sources := by
  unfold emitBytes
  dsimp only
  split
  · exact points_reject points located _
  · exact points

theorem points_warn (warnings : List Problem) :
    (warnings.foldl (fun emission => emission.reject placed) emission).Points sources := by
  induction warnings generalizing emission with
  | nil => exact points
  | cons warning rest ih => exact ih (points_reject points located warning)

theorem points_emit (settings : Settings) (symbols : SymbolTable) (texts : List (Array String)) :
    (emit settings symbols texts emission placed).Points sources := by
  unfold emit
  dsimp only
  split
  case h_1 => exact points
  case h_2 =>
    split
    · exact points_reject points located _
    · exact points_emitInstructions points located _ _ _
  case h_3 =>
    split
    · exact points_reject points located _
    · exact points_emitBytes (points_warn points located _) located _

end Emit

theorem points_foldl_emit (settings : Settings) (symbols : SymbolTable) (texts : List (Array String))
    (points : emission.Points sources) {all : List Placed}
    (located : ∀ placed ∈ all, placed.statement.Located sources placed.file) :
    (all.foldl (emit settings symbols texts) emission).Points sources := by
  induction all generalizing emission with
  | nil => exact points
  | cons placed rest ih =>
    obtain ⟨here, later⟩ := List.forall_mem_cons.1 located
    exact ih (points_emit points here settings symbols texts) later

end Emission

namespace Assembly

variable {sources : List Source}

/-- What is found by reading files that are counted from `first` is an error of one of them. -/
theorem mem_readingFindings {first : Nat} {errors : List (List SourceError)} {finding : Finding}
    (member : finding ∈ readingFindings first errors) :
    ∃ index found error, errors[index]? = some found ∧ error ∈ found ∧
      finding = ⟨first + index, error.line, error.span, .unreadable error.error⟩ := by
  induction errors generalizing first with
  | nil => cases member
  | cons found rest ih =>
    rcases List.mem_append.1 member with here | later
    · obtain ⟨error, present, rfl⟩ := List.mem_map.1 here
      exact ⟨0, found, error, rfl, present, rfl⟩
    · obtain ⟨index, other, error, known, present, rfl⟩ := ih later
      refine ⟨index + 1, other, error, known, present, ?_⟩
      rw [Nat.add_assoc, Nat.add_comm 1 index]

/-- Everything that is found in sources points into a line of them. -/
theorem points_of_mem_findings {settings : Settings} {finding : Finding}
    (member : finding ∈ findings settings sources) : finding.Points sources := by
  obtain ⟨last, points⟩ := Placement.points_ofFiles settings sources
  rcases List.mem_append.1 member with early | emitted
  · rcases List.mem_append.1 early with read | placed
    · obtain ⟨file, found, error, known, present, rfl⟩ := mem_readingFindings read
      rw [List.getElem?_map, Option.map_eq_some_iff] at known
      obtain ⟨source, listed, rfl⟩ := known
      rw [← Nat.zero_add file] at listed
      have inside := (inLines_parseLinesFrom [] 1 (lines source.text)).2 error present
      obtain ⟨definitions, text, line, within⟩ := inside.isLine listed
      exact ⟨definitions, text, line, .inl within⟩
    · exact points.findings finding (List.mem_reverse.1 placed)
  · have begun : Emission.initial.Points sources := by simp [Emission.Points, Emission.initial]
    refine Emission.points_foldl_emit settings _ _ begun ?_ finding (List.mem_reverse.1 emitted)
    exact fun placed among => points.placed placed (List.mem_reverse.1 among)

/-- What is reported about sources: the errors and warnings if there is an error, and otherwise the warnings. -/
def reports (settings : Settings) (sources : List Source) : List Diagnostic :=
  match assemble settings sources with
  | .error diagnostics => diagnostics
  | .ok program => program.warnings

theorem reports_eq (settings : Settings) (sources : List Source) :
    reports settings sources = diagnostics settings sources (findings settings sources) := by
  unfold reports
  rw [assemble_eq]
  cases (diagnostics settings sources (findings settings sources)).any fun diagnostic => diagnostic.severity = .error <;>
    rfl

/-- What is reported was found, and nothing else. -/
theorem exists_finding_of_mem_reports {settings : Settings} {report : Diagnostic}
    (reported : report ∈ reports settings sources) :
    ∃ finding ∈ findings settings sources, report.file = finding.file ∧
      report.fileName = (sources[finding.file]?.map Source.name).getD "" ∧ report.line = finding.line ∧
        report.span = finding.span ∧ report.problem = finding.problem := by
  rw [reports_eq] at reported
  have sorted {natural : Diagnostic}
      (member : natural ∈ ((findings settings sources).map (diagnostic sources)).mergeSort Diagnostic.notAfter) :
      ∃ finding ∈ findings settings sources, natural = Assembly.diagnostic sources finding := by
    obtain ⟨finding, found, rfl⟩ := List.mem_map.1 (List.mem_mergeSort.1 member)
    exact ⟨finding, found, rfl⟩
  unfold diagnostics at reported
  dsimp only at reported
  split at reported
  · obtain ⟨natural, member, rfl⟩ := List.mem_map.1 reported
    obtain ⟨finding, found, rfl⟩ := sorted member
    exact ⟨finding, found, rfl, rfl, rfl, rfl, rfl⟩
  · obtain ⟨finding, found, rfl⟩ := sorted reported
    exact ⟨finding, found, rfl, rfl, rfl, rfl, rfl⟩

end Assembly

open Assembly

/--
Every diagnostic of every list of sources points into its source: its file exists and has the name that the diagnostic
gives, its line exists, and its span is a slice of the line or, if the diagnostic blames a label that an earlier definition
has put in the place of another name, starts where that name is written in the line and is as long as the label.
-/
theorem points_of_assemble (settings : Settings) (sources : List Source) (diagnostic : Diagnostic)
    (reported : diagnostic ∈ reports settings sources) :
    ∃ source text, sources[diagnostic.file]? = some source ∧ diagnostic.fileName = source.name ∧
      0 < diagnostic.line ∧ (lines source.text)[diagnostic.line - 1]? = some text ∧
        diagnostic.span.start ≤ diagnostic.span.stop ∧
          diagnostic.span.Points (Definitions.behind [] 1 ((lines source.text).take (diagnostic.line - 1))) text.toList
            diagnostic.problem := by
  obtain ⟨finding, found, file, name, line, span, problem⟩ := exists_finding_of_mem_reports reported
  obtain ⟨definitions, text, ⟨source, listed, positive, present, rfl⟩, points⟩ := points_of_mem_findings found
  rw [listed] at name
  rw [file, line, span, problem]
  refine ⟨source, text, listed, name, positive, present, ?_, points⟩
  rcases points with within | ⟨label, -, same, -⟩
  · exact within.start_le
  · rw [same]
    exact Nat.le_add_right _ _

/-- A label without a definition is reported where it is written, behind a character of two bytes. -/
theorem points_of_missing_label :
    let sources : List Source := [⟨"main.s", ".data\n.word 'é', missing"⟩]
    ∃ diagnostic ∈ reports {} sources, diagnostic.problem = .undefinedLabel "missing" ∧ diagnostic.span = ⟨12, 19⟩ ∧
      diagnostic.span.Within ".word 'é', missing".toList := by
  intro sources
  have computed : (reports {} sources).head?.map (fun found => (found.file, found.line, found.span, found.problem)) =
      some (0, 2, ⟨12, 19⟩, .undefinedLabel "missing") := by
    decide +kernel
  obtain ⟨diagnostic, first, same⟩ := Option.map_eq_some_iff.1 computed
  obtain ⟨file, line, span, problem⟩ : diagnostic.file = 0 ∧ diagnostic.line = 2 ∧ diagnostic.span = ⟨12, 19⟩ ∧
      diagnostic.problem = .undefinedLabel "missing" := by
    simpa only [Prod.mk.injEq] using same
  have member := List.mem_of_head? first
  obtain ⟨source, text, listed, -, -, present, -, points⟩ := points_of_assemble {} sources diagnostic member
  rw [file] at listed
  cases listed
  rw [line] at present points
  obtain ⟨second, undefining⟩ : (lines ".data\n.word 'é', missing")[1]? = some ".word 'é', missing" ∧
      Definitions.behind [] 1 ((lines ".data\n.word 'é', missing").take 1) = [] := by
    decide +kernel
  cases second.symm.trans present
  refine ⟨diagnostic, member, problem, span, ?_⟩
  rcases points with within | ⟨label, ⟨name, tokens, -, replaced, -⟩, -⟩
  · exact within
  · change List.lookup name (Definitions.behind [] 1 ((lines ".data\n.word 'é', missing").take 1)) = _ at replaced
    rw [undefining] at replaced
    cases replaced

/-- A definition can make a diagnostic point beyond the end of its line. -/
theorem points_beyond_line :
    let sources : List Source := [⟨"main.s", ".eqv x nowhere\nj x\n"⟩]
    ¬ ∀ diagnostic ∈ reports {} sources, ∃ source text, sources[diagnostic.file]? = some source ∧
      (lines source.text)[diagnostic.line - 1]? = some text ∧ diagnostic.span.stop ≤ text.utf8ByteSize := by
  intro sources inside
  have computed : (reports {} sources).head?.map (fun found => (found.file, found.line, found.span)) =
      some (0, 2, ⟨2, 9⟩) := by
    decide +kernel
  obtain ⟨diagnostic, first, same⟩ := Option.map_eq_some_iff.1 computed
  obtain ⟨file, line, span⟩ : diagnostic.file = 0 ∧ diagnostic.line = 2 ∧ diagnostic.span = ⟨2, 9⟩ := by
    simpa only [Prod.mk.injEq] using same
  obtain ⟨source, text, listed, present, bounded⟩ := inside diagnostic (List.mem_of_head? first)
  rw [file] at listed
  cases listed
  have second : (lines ".eqv x nowhere\nj x\n")[1]? = some "j x" := by decide +kernel
  rw [line] at present
  cases second.symm.trans present
  rw [span] at bounded
  exact absurd bounded (by decide)

end Mips
