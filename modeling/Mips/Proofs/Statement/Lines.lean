import Mips.Statement.Parser

/-!
Lines apart from one another. What is read of a line depends on its text and on what names stand for there, and a line
that cannot be read leaves nothing behind but its error. Main statements: `agrees_parseLineWith`, `parseLinesFrom_eq`,
`parseLinesFrom_of_blanked` and `lines_apart`.
-/

namespace Mips

namespace Definitions

/-- The definitions in force behind lines that are counted from `number`. -/
def behind (definitions : Definitions) (number : Nat) : List String → Definitions
  | [] => definitions
  | text :: rest =>
    match parseLineWith definitions text number with
    | .ok (_, further) => further.behind (number + 1) rest
    | .error _ => definitions.behind (number + 1) rest

/-- The name that the tokens behind the labels of a line define, and the tokens that it stands for from then on. -/
def definedBy : Rest → Option (String × List Token)
  | (.directive "eqv", _) :: (.identifier name, _) :: value =>
    if value.isEmpty then none else some (name, value.map Prod.fst)
  | _ => none

theorem definedBy_eq_none {rest : Rest}
    (other : ∀ span name place value, rest ≠ (.directive "eqv", span) :: (.identifier name, place) :: value) :
    definedBy rest = none := by
  unfold definedBy
  split
  next => exact absurd rfl (other _ _ _ _)
  next => rfl

/-- The definition that a line makes that can be read; its tokens have been replaced before. -/
def definition? (definitions : Definitions) (text : String) : Option (String × List Token) :=
  match definitions.tokens false (Token.items text) with
  | (tokens, none) => definedBy (leadingLabels tokens).2
  | (_, some _) => none

/-- The tokens of a line depend on what the names stand for only. -/
theorem tokens_congr {first second : Definitions} (same : ∀ name, first.lookup name = second.lookup name)
    (defining : Bool) (items : List Token.Item) : first.tokens defining items = second.tokens defining items := by
  have expands (defining : Bool) (token : Token) : first.expand defining token = second.expand defining token := by
    unfold expand
    split
    · rw [same]
    · rfl
  induction items generalizing defining with
  | nil => rfl
  | cons item rest ih => simp only [tokens, ih, expands]

end Definitions

/-- The statement in a line of this number. -/
def Statement.moved (statement : Statement) (number : Nat) : Statement := { statement with line := number }

/--
Both outcomes are the same error, or the same statement but for the number of its line; then the same is added to the
definitions that there were.
-/
inductive Agrees (first second : Definitions) (number : Nat) (defined : Option (String × List Token)) :
    Except LineError (Option Statement × Definitions) → Except LineError (Option Statement × Definitions) → Prop where
  | failed (failure : LineError) (nothing : defined = none) :
    Agrees first second number defined (.error failure) (.error failure)
  | read (statement : Option Statement) :
    Agrees first second number defined (.ok (statement, defined.toList ++ first))
      (.ok (statement.map (·.moved number), defined.toList ++ second))

section Agrees

variable {first second : Definitions} {number : Nat}

/-- A line that makes no definition leaves the definitions as they are. -/
theorem agrees_ok (statement : Option Statement) :
    Agrees first second number none (.ok (statement, first)) (.ok (statement.map (·.moved number), second)) :=
  .read statement

theorem Agrees.bind {α : Type} {outcome : Except LineError α}
    {next later : α → Except LineError (Option Statement × Definitions)}
    (each : ∀ value, Agrees first second number none (next value) (later value)) :
    Agrees first second number none (outcome >>= next) (outcome >>= later) := by
  cases outcome with
  | error failure => exact .failed failure rfl
  | ok value => exact each value

/-- What there is behind a line that can be read, and behind one that cannot. -/
theorem Agrees.cases {defined : Option (String × List Token)}
    {outcome other : Except LineError (Option Statement × Definitions)}
    (agrees : Agrees first second number defined outcome other) :
    (∃ statement, outcome = .ok (statement, defined.toList ++ first)) ∨
      ∃ failure, outcome = .error failure ∧ defined = none := by
  cases agrees with
  | failed failure nothing => exact .inr ⟨failure, rfl, nothing⟩
  | read statement => exact .inl ⟨statement, rfl⟩

end Agrees

/-- What is read of a line depends on its tokens, but on nothing else that was defined, and not on its number. -/
theorem agrees_parseLineWith {first second : Definitions} (text : String) (number other : Nat)
    (same : first.tokens false (Token.items text) = second.tokens false (Token.items text)) :
    Agrees first second other (first.definition? text) (parseLineWith first text number)
      (parseLineWith second text other) := by
  unfold parseLineWith Definitions.definition?
  rw [← same]
  generalize first.tokens false (Token.items text) = found
  obtain ⟨tokens, failure⟩ := found
  cases failure with
  | some error =>
    dsimp only
    split
    · exact .bind fun _ => .failed error rfl
    · exact .failed error rfl
  | none =>
    unfold parseTokens
    dsimp only
    generalize leadingLabels tokens = found
    obtain ⟨labels, rest⟩ := found
    dsimp only
    generalize TokenLine.mk tokens text.utf8ByteSize = line
    split
    next =>
      split
      · exact agrees_ok none
      · exact agrees_ok (some _)
    next span rest =>
      unfold TokenLine.readDefinition
      split
      next name place value =>
        cases empty : value.isEmpty with
        | true =>
          rw [Definitions.definedBy, empty]
          exact .failed _ rfl
        | false =>
          simp only [Definitions.definedBy, empty, Bool.false_eq_true, if_false, bind, Except.bind]
          split
          · exact .read none
          · exact .read (some _)
      next => exact .failed _ rfl
      next placed rest unnamed =>
        refine .failed _ (Definitions.definedBy_eq_none ?_)
        rintro _ _ _ _ ⟨⟩
        exact unnamed _ _ rfl
    next name span rest other =>
      rw [Definitions.definedBy_eq_none (by rintro _ _ _ _ ⟨⟩; exact other rfl)]
      refine .bind fun read => ?_
      split
      · exact .failed _ rfl
      · exact agrees_ok (some _)
    next name span rest =>
      exact .bind fun mnemonic => .bind fun operands => agrees_ok (some _)
    next _ undefining _ _ =>
      refine .failed _ (Definitions.definedBy_eq_none ?_)
      rintro _ _ _ _ rfl
      exact undefining _ _ rfl

/-- What is read of a line where there are these definitions. -/
def readLine (definitions : Definitions) (text : String) (number : Nat) : Except SourceError (Option Statement) :=
  match parseLineWith definitions text number with
  | .ok (statement, _) => .ok statement
  | .error failure => .error ⟨failure.error, number, failure.span⟩

/-- The same of a line with this number. -/
def atLine (number : Nat) : Except SourceError (Option Statement) → Except SourceError (Option Statement)
  | .ok statement => .ok (statement.map (·.moved number))
  | .error failure => .error { failure with line := number }

/-- What is read of a line depends on its text and on what names stand for, and tells the number of the line. -/
theorem readLine_congr {first second : Definitions} (same : ∀ name, first.lookup name = second.lookup name)
    (text : String) (number other : Nat) : readLine second text other = atLine other (readLine first text number) := by
  have agrees := agrees_parseLineWith text number other (Definitions.tokens_congr same false (Token.items text))
  unfold readLine
  generalize parseLineWith first text number = outcome at agrees ⊢
  generalize parseLineWith second text other = later at agrees ⊢
  cases agrees with
  | failed failure nothing => rfl
  | read statement => rfl

section Behind

variable (definitions : Definitions) (number : Nat) (text : String)

/-- A line is read, and its definition is in force from then on, or there is an error, and no definition. -/
theorem parseLineWith_cases :
    (∃ statement, parseLineWith definitions text number =
        .ok (statement, (definitions.definition? text).toList ++ definitions)) ∨
      ∃ failure, parseLineWith definitions text number = .error failure ∧ definitions.definition? text = none :=
  (@agrees_parseLineWith definitions definitions text number number rfl).cases

theorem Definitions.behind_cons (rest : List String) :
    definitions.behind number (text :: rest) =
      behind ((definitions.definition? text).toList ++ definitions) (number + 1) rest := by
  rw [behind]
  rcases parseLineWith_cases definitions number text with ⟨statement, read⟩ | ⟨failure, read, nothing⟩
  · rw [read]
  · rw [read, nothing]
    rfl

theorem Definitions.behind_concat (earlier : List String) :
    definitions.behind number (earlier ++ [text]) =
      ((definitions.behind number earlier).definition? text).toList ++ definitions.behind number earlier := by
  induction earlier generalizing definitions number with
  | nil =>
    rw [List.nil_append, behind_cons]
    rfl
  | cons line rest ih => rw [List.cons_append, behind_cons, ih, behind_cons]

/-- Of a name the latest definition counts. -/
theorem Definitions.lookup_behind_concat (earlier : List String) (name : String) :
    (definitions.behind number (earlier ++ [text])).lookup name =
      match (definitions.behind number earlier).definition? text with
      | some (defined, value) => if name = defined then some value else (definitions.behind number earlier).lookup name
      | none => (definitions.behind number earlier).lookup name := by
  rw [behind_concat]
  cases (definitions.behind number earlier).definition? text with
  | none => rfl
  | some definition =>
    obtain ⟨defined, value⟩ := definition
    simp only [Option.toList_some, List.singleton_append, List.lookup_cons]
    by_cases same : name = defined
    · simp [same]
    · simp [same, beq_eq_false_iff_ne.2 same]

end Behind

/-- The statement that was read, unless there is none or an error. -/
def statement? : Except SourceError (Option Statement) → Option Statement
  | .ok statement => statement
  | .error _ => none

def error? : Except SourceError (Option Statement) → Option SourceError
  | .ok _ => none
  | .error error => some error

/-- What is read of each of the lines, which are counted from `number`. -/
def outcomesFrom (definitions : Definitions) (number : Nat) (texts : List String) :
    List (Except SourceError (Option Statement)) :=
  texts.mapIdx fun index text => readLine (definitions.behind number (texts.take index)) text (number + index)

/-- The lines with an empty one in the place of each that cannot be read. -/
def blankedFrom (definitions : Definitions) (number : Nat) (texts : List String) : List String :=
  texts.mapIdx fun index text =>
    match readLine (definitions.behind number (texts.take index)) text (number + index) with
    | .ok _ => text
    | .error _ => ""

section Outcomes

variable (definitions : Definitions) (number : Nat) (text : String) (rest : List String)

theorem outcomesFrom_cons :
    outcomesFrom definitions number (text :: rest) =
      readLine definitions text number ::
        outcomesFrom ((definitions.definition? text).toList ++ definitions) (number + 1) rest := by
  simp only [outcomesFrom, List.mapIdx_cons, List.take_zero, List.take_succ_cons, Definitions.behind_cons,
    Definitions.behind, Nat.add_zero, Nat.add_assoc, Nat.add_comm 1]

theorem blankedFrom_cons :
    blankedFrom definitions number (text :: rest) =
      (match readLine definitions text number with
        | .ok _ => text
        | .error _ => "") ::
        blankedFrom ((definitions.definition? text).toList ++ definitions) (number + 1) rest := by
  simp only [blankedFrom, List.mapIdx_cons, List.take_zero, List.take_succ_cons, Definitions.behind_cons,
    Definitions.behind, Nat.add_zero, Nat.add_assoc, Nat.add_comm 1]

/-- The statements and the errors of lines are those that are read of each of them. -/
theorem parseLinesFrom_eq (texts : List String) :
    parseLinesFrom definitions number texts =
      ((outcomesFrom definitions number texts).filterMap statement?,
        (outcomesFrom definitions number texts).filterMap error?) := by
  induction texts generalizing definitions number with
  | nil => rfl
  | cons text rest ih =>
    rw [outcomesFrom_cons, parseLinesFrom, readLine]
    rcases parseLineWith_cases definitions number text with ⟨statement, read⟩ | ⟨failure, read, nothing⟩
    · rw [read]
      dsimp only
      rw [ih]
      cases statement <;> rfl
    · rw [read, nothing]
      dsimp only
      rw [ih]
      rfl

/-- An empty line says nothing. -/
theorem parseLineWith_empty : parseLineWith definitions "" number = .ok (none, definitions) := by
  have nothing : Token.items "" = [] := by simp [Token.items, Token.itemsFrom]
  simp [parseLineWith, nothing, Definitions.tokens, parseTokens, leadingLabels, pure, Except.pure]

/-- Empty lines at the end count as little as there being no lines. -/
theorem parseLinesFrom_of_empty {texts : List String} (empty : ∀ text ∈ texts, text = "") :
    parseLinesFrom definitions number texts = ([], []) := by
  induction texts generalizing number with
  | nil => rfl
  | cons text rest ih =>
    obtain ⟨rfl, others⟩ := List.forall_mem_cons.1 empty
    rw [parseLinesFrom, parseLineWith_empty]
    dsimp only
    rw [ih _ others]
    rfl

/-- A missing line counts as little as an empty one. -/
theorem parseLinesFrom_head (texts : List String) :
    parseLinesFrom definitions number (texts.headD "" :: texts.tail) = parseLinesFrom definitions number texts := by
  cases texts with
  | nil => exact parseLinesFrom_of_empty definitions number (by simp)
  | cons text rest => rfl

/-- With empty lines for those that cannot be read there are the same statements, and no errors. -/
theorem parseLinesFrom_of_blanked {texts replaced : List String}
    (same : ∀ index, replaced.getD index "" = (blankedFrom definitions number texts).getD index "") :
    parseLinesFrom definitions number replaced = ((parseLinesFrom definitions number texts).1, []) := by
  induction texts generalizing definitions number replaced with
  | nil =>
    refine parseLinesFrom_of_empty definitions number fun text among => ?_
    obtain ⟨index, inside, rfl⟩ := List.getElem_of_mem among
    have empty := same index
    rwa [List.getD_eq_getElem?_getD, List.getElem?_eq_getElem inside] at empty
  | cons text rest ih =>
    rw [blankedFrom_cons] at same
    have head : replaced.headD "" = match readLine definitions text number with
        | .ok _ => text
        | .error _ => "" := by
      have first := same 0
      cases replaced <;> exact first
    have later : ∀ index, replaced.tail.getD index "" =
        (blankedFrom ((definitions.definition? text).toList ++ definitions) (number + 1) rest).getD index "" := by
      intro index
      have next := same (index + 1)
      cases replaced <;> exact next
    have followed := ih _ _ later
    rcases parseLineWith_cases definitions number text with ⟨statement, read⟩ | ⟨failure, read, nothing⟩
    · have kept : replaced.headD "" = text := by rw [head, readLine, read]
      rw [← parseLinesFrom_head, kept]
      simp only [parseLinesFrom, read, followed]
    · have blank : replaced.headD "" = "" := by rw [head, readLine, read]
      rw [← parseLinesFrom_head, blank]
      rw [nothing, Option.toList_none, List.nil_append] at followed
      simp only [parseLinesFrom, read, parseLineWith_empty, followed]
      rfl

end Outcomes

section Text

theorem notMem_of_mem_linesFrom {reversed characters line : List Char} (clean : '\n' ∉ reversed)
    (member : line ∈ linesFrom reversed characters) : '\n' ∉ line := by
  fun_induction linesFrom reversed characters with
  | case1 reversed empty => cases member
  | case2 reversed filled =>
    rw [List.mem_singleton] at member
    rwa [member, List.mem_reverse]
  | case3 reversed rest ih =>
    rcases List.mem_cons.1 member with rfl | later
    · unfold endedLine
      split
      · rw [List.mem_reverse]
        exact fun among => clean (List.mem_cons_of_mem _ among)
      · rwa [List.mem_reverse]
    · exact ih (by simp) later
  | case4 reversed c rest other ih =>
    exact ih (by simp [clean, Ne.symm other]) member

/-- No line holds a line feed. -/
theorem notMem_of_mem_lines {text line : String} (member : line ∈ lines text) : '\n' ∉ line.toList := by
  obtain ⟨characters, among, rfl⟩ := List.mem_map.1 member
  rw [String.toList_ofList]
  exact notMem_of_mem_linesFrom (by simp) among

theorem linesFrom_ended {characters : List Char} (clean : '\n' ∉ characters) (reversed rest : List Char) :
    linesFrom reversed (characters ++ '\r' :: '\n' :: rest) = (reversed.reverse ++ characters) :: linesFrom [] rest := by
  induction characters generalizing reversed with
  | nil => simp [linesFrom, endedLine]
  | cons c characters ih =>
    obtain ⟨other, later⟩ := not_or.1 fun among => clean (List.mem_cons.2 among)
    rw [List.cons_append, linesFrom, ih later]
    · simp
    · exact fun same => other same.symm

/-- Lines that each end with a carriage return and a line feed are the lines of the text that they make. -/
theorem lines_ended {texts : List String} (clean : ∀ text ∈ texts, '\n' ∉ text.toList) :
    lines (String.ofList (texts.flatMap fun text => text.toList ++ ['\r', '\n'])) = texts := by
  rw [lines, String.toList_ofList]
  induction texts with
  | nil => rfl
  | cons text rest ih =>
    obtain ⟨first, others⟩ := List.forall_mem_cons.1 clean
    have split : (text :: rest).flatMap (fun text => text.toList ++ ['\r', '\n']) =
        text.toList ++ '\r' :: '\n' :: rest.flatMap (fun text => text.toList ++ ['\r', '\n']) := by
      simp
    rw [split, linesFrom_ended first, List.map_cons, ih others]
    simp

end Text

/-- What is read of a line, and which definitions are in force behind it, is decided by those before it and by its text. -/
structure ReadApart (before after : Definitions) (text : String) (number : Nat)
    (outcome : Except SourceError (Option Statement)) : Prop where
  /-- Wherever the names stand for the same, the same is read of the text, with the number of the line there. -/
  same : ∀ (definitions : Definitions) (other : Nat), (∀ name, definitions.lookup name = before.lookup name) →
    readLine definitions text other = atLine other outcome
  /-- An error tells the number of the line, which then defines nothing. -/
  fails : ∀ error, outcome = .error error → error.line = number ∧ before.definition? text = none
  /-- A name that the line defines stands for what the line says, and every other name for what it stood for before. -/
  defines : ∀ name, after.lookup name =
    match before.definition? text with
    | some (defined, value) => if name = defined then some value else before.lookup name
    | none => before.lookup name

theorem readApart_behind (definitions : Definitions) (first number : Nat) (earlier : List String) (text : String) :
    let before := definitions.behind first earlier
    ReadApart before (definitions.behind first (earlier ++ [text])) text number (readLine before text number) := by
  intro before
  constructor
  case same => exact fun other line same => readLine_congr (fun name => (same name).symm) text number line
  case fails =>
    intro error failed
    rcases parseLineWith_cases before number text with ⟨statement, read⟩ | ⟨failure, read, nothing⟩
    · rw [readLine, read] at failed
      cases failed
    · rw [readLine, read] at failed
      cases failed
      exact ⟨rfl, nothing⟩
  case defines => exact Definitions.lookup_behind_concat definitions first text earlier

/--
What is read of a text is what is read of each of its lines where the definitions of the lines before it are in force: the
statements and, for each line that cannot be read, one error with its number. With an empty line in the place of each line
that cannot be read there are the same statements and no errors, and there is a text with these lines.
-/
theorem lines_apart (text : String) :
    let sources := lines text
    let before (index : Nat) := Definitions.behind [] 1 (sources.take index)
    let outcomes := outcomesFrom [] 1 sources
    parseLines text = (outcomes.filterMap statement?, outcomes.filterMap error?) ∧
      before 0 = [] ∧
      (∀ index line, sources[index]? = some line →
        ∃ outcome, outcomes[index]? = some outcome ∧ outcome = readLine (before index) line (index + 1) ∧
          ReadApart (before index) (before (index + 1)) line (index + 1) outcome) ∧
      (∃ replaced, lines replaced = blankedFrom [] 1 sources) ∧
      ∀ replaced, (∀ index, (lines replaced).getD index "" = (blankedFrom [] 1 sources).getD index "") →
        parseLines replaced = ((parseLines text).1, []) := by
  intro sources before outcomes
  refine ⟨parseLinesFrom_eq [] 1 sources, rfl, ?_, ?_, fun replaced same => parseLinesFrom_of_blanked [] 1 same⟩
  · intro index line present
    have grown : sources.take (index + 1) = sources.take index ++ [line] := by
      rw [List.take_add_one, present]
      rfl
    refine ⟨_, ?_, rfl, ?_⟩
    · simp only [outcomes, outcomesFrom, List.getElem?_mapIdx, present, Option.map_some, before, Nat.add_comm 1]
    · simp only [before, grown]
      exact readApart_behind [] 1 (index + 1) (sources.take index) line
  · refine ⟨_, lines_ended ?_⟩
    intro line among
    obtain ⟨index, inside, rfl⟩ := List.mem_mapIdx.1 among
    split
    · exact notMem_of_mem_lines (List.getElem_mem inside)
    · simp

/-- A definition without a value and an unknown instruction leave the definition before them as it was. -/
theorem lines_apart_from_failures :
    let text := ".eqv x 5\n.eqv x\nfoo x\nli $t0, x"
    let replaced := ".eqv x 5\n\n\nli $t0, x"
    parseLines replaced = ((parseLines text).1, []) ∧ (parseLines text).2.map (·.line) = [2, 3] := by
  intro text replaced
  obtain ⟨-, -, -, -, same⟩ := lines_apart text
  have blanked : lines replaced = blankedFrom [] 1 (lines text) := by decide +kernel
  exact ⟨same replaced fun index => by rw [blanked], by decide +kernel⟩

end Mips
