import Mips.Assembly.Emission
import Mips.Proofs.Outcome
import Mips.Proofs.Text.Utf8
import Mips.Statement.Parser

/-!
A data directive takes as many bytes as it emits. That needs a fact about reading: only words are given by labels,
and halves and bytes by numbers. Main statement: `length_bytes`.
-/

namespace Mips

namespace DataItem

/-- The value is written as a number. -/
def IsNumber (item : DataItem) : Prop := ∃ value, item.value = .integer value

theorem length_lowBytes {item : DataItem} {width : Nat} (number : item.IsNumber) (narrow : width ≤ 4) :
    (item.lowBytes width).length = width * item.count := by
  obtain ⟨value, same⟩ := number
  have taken : ((Word.ofInt value).bytes.take width).length = width := by
    rw [List.length_take, Word.length_bytes, Nat.min_eq_left narrow]
  rw [lowBytes, same]
  simp [taken, Nat.mul_comm]

theorem length_flatMap_lowBytes {items : List DataItem} {width : Nat}
    (numbers : ∀ item ∈ items, item.IsNumber) (narrow : width ≤ 4) :
    (items.flatMap (lowBytes width)).length = width * Directive.itemCount items := by
  induction items with
  | nil => rfl
  | cons item rest ih =>
    rw [List.flatMap_cons, List.length_append, length_lowBytes (numbers item List.mem_cons_self) narrow,
      ih fun other member => numbers other (List.mem_cons_of_mem _ member), Directive.itemCount, Nat.mul_add]

end DataItem

namespace Directive

/-- Only the values of words are given by labels. -/
def IsReadable : Directive → Prop
  | .half items | .byte items => ∀ item ∈ items, item.IsNumber
  | _ => True

/-- The words of items, once the labels are known. -/
theorem length_words {resolve : Label → Except Problem Address} {items : List DataItem} {words : List (List UInt8)}
    (known : items.mapM (fun item => do
      let word ← item.value.word resolve
      pure (List.replicate item.count word.bytes).flatten) = .ok words) :
    words.flatten.length = 4 * itemCount items := by
  induction items generalizing words with
  | nil =>
    cases known
    rfl
  | cons item rest ih =>
    rw [List.mapM_cons] at known
    cases value : item.value.word resolve with
    | error problem =>
      rw [value] at known
      cases known
    | ok word =>
      rw [value] at known
      cases others : rest.mapM (fun item => do
          let word ← item.value.word resolve
          pure (List.replicate item.count word.bytes).flatten) with
      | error problem =>
        rw [others] at known
        cases known
      | ok later =>
        rw [others] at known
        cases known
        rw [List.flatten_cons, List.length_append, ih others, itemCount, Nat.mul_add]
        simp [Nat.mul_comm]

/-- A data directive takes as many bytes as it emits, unless it only reserves them. -/
theorem length_bytes {directive : Directive} {resolve : Label → Except Problem Address} {content : List UInt8}
    {warnings : List Problem} (readable : directive.IsReadable) (emitting : ∀ size, directive ≠ .space size)
    (known : directive.bytes resolve = .ok (content, warnings)) : content.length = directive.size := by
  cases directive with
  | word items =>
    simp only [bytes, bind, Except.bind] at known
    split at known
    · cases known
    · next words found =>
      cases known
      exact length_words found
  | half items =>
    cases known
    exact DataItem.length_flatMap_lowBytes readable (by decide)
  | byte items =>
    cases known
    rw [DataItem.length_flatMap_lowBytes readable (by decide), Nat.one_mul]
    rfl
  | ascii text =>
    cases known
    exact Text.Utf8.length_ofText text
  | asciiz text =>
    cases known
    rw [List.length_append, Text.Utf8.length_ofText]
    rfl
  | space size => exact absurd rfl (emitting size)
  | _ =>
    cases known
    rfl

theorem length_bytes_le {directive : Directive} {resolve : Label → Except Problem Address} {content : List UInt8}
    {warnings : List Problem} (readable : directive.IsReadable)
    (known : directive.bytes resolve = .ok (content, warnings)) : content.length ≤ directive.size := by
  by_cases reserving : ∃ size, directive = .space size
  · obtain ⟨size, rfl⟩ := reserving
    cases known
    exact Nat.zero_le _
  · exact Nat.le_of_eq (length_bytes readable (not_exists.1 reserving) known)

end Directive

namespace TokenLine

theorem isNumber_of_readValue {line : TokenLine} {first : Bool} {remaining rest : Rest} {value : DataValue}
    (read : line.readValue false first remaining = .ok (value, rest)) : ∃ number, value = .integer number := by
  unfold readValue at read
  split at read
  · cases read
    exact ⟨_, rfl⟩
  · cases read
  · cases read

theorem isNumber_of_readItems {line : TokenLine} {first : Bool} {remaining : Rest} {items : List DataItem}
    (read : line.readItems false first remaining = .ok items) : ∀ item ∈ items, item.IsNumber := by
  generalize bound : remaining.length = length
  induction length using Nat.strongRecOn generalizing first remaining items with
  | _ length ih =>
    rw [readItems] at read
    split at read
    · cases read
    · next value rest valueRead =>
      obtain ⟨number, same⟩ := isNumber_of_readValue valueRead
      split at read
      · cases read
      · next count rest countRead =>
        split at read
        · cases read
          intro item member
          rw [List.mem_singleton.1 member]
          exact ⟨number, same⟩
        · cases later : line.readItems false false (afterComma rest) with
          | error error =>
            rw [later] at read
            cases read
          | ok others =>
            rw [later] at read
            cases read
            have shorter : (afterComma rest).length < length := by
              have := length_readValue valueRead
              have := length_readCount countRead
              have := length_afterComma rest
              omega
            intro item member
            rcases List.mem_cons.1 member with rfl | other
            · exact ⟨number, same⟩
            · exact ih _ shorter later rfl item other

/-- Every directive that is read is readable. -/
theorem isReadable_readDirective (line : TokenLine) (name : String) (span : Span) (remaining : Rest) :
    Yields (fun read => read.1.IsReadable) (line.readDirective name span remaining) := by
  have numbers : Yields (fun items => ∀ item ∈ items, item.IsNumber) (line.readItems false true remaining) := by
    cases read : line.readItems false true remaining with
    | error error => trivial
    | ok items => exact isNumber_of_readItems read
  unfold readDirective
  split
  case h_6 | h_7 =>
    rw [yields_bind]
    exact numbers.mono fun _ known => known
  case h_11 =>
    rw [yields_bind]
    apply yields_of_forall
    intro read
    dsimp only
    split <;> trivial
  case h_14 =>
    rw [yields_bind]
    apply yields_of_forall
    intro label
    rw [yields_bind]
    apply yields_of_forall
    intro size
    dsimp only
    split <;> trivial
  case h_15 => split <;> trivial
  case h_16 | h_17 | h_18 | h_19 | h_20 | h_21 => trivial
  all_goals
    rw [yields_bind]
    exact yields_of_forall fun _ => trivial

end TokenLine

/-- A directive that the statement holds has the property. -/
def Statement.Directs (property : Directive → Prop) (statement : Statement) : Prop :=
  ∀ directive, statement.content = some (.directive directive) → property directive

/-- A directive that the statement holds is readable. -/
def Statement.IsReadable (statement : Statement) : Prop :=
  ∀ directive, statement.content = some (.directive directive) → directive.IsReadable

section Directives

variable {property : Directive → Prop}
  (reads : ∀ (line : TokenLine) (name : String) (span : Span) (remaining : Rest),
    Yields (fun read => property read.1) (line.readDirective name span remaining))

include reads

theorem directs_parseLineWith (definitions : Definitions) (text : String) (number : Nat) :
    Yields (fun read => ∀ statement, read.1 = some statement → statement.Directs property)
      (parseLineWith definitions text number) := by
  have silent : ∀ (labels : List Label) (span : Span) (statement : Statement),
      some ⟨number, labels, none, span⟩ = some statement → statement.Directs property := by
    rintro labels span _ ⟨⟩ directive content
    cases content
  unfold parseLineWith
  dsimp only
  split
  case h_1 =>
    split
    · rw [yields_bind]
      exact yields_of_forall fun _ => trivial
    · trivial
  case h_2 =>
    unfold parseTokens
    dsimp only
    split
    case h_1 =>
      split
      · rintro _ ⟨⟩
      · exact silent _ _
    case h_2 =>
      rw [yields_bind]
      apply yields_of_forall
      intro further
      split
      · rintro _ ⟨⟩
      · exact silent _ _
    case h_3 name span rest _ _ =>
      rw [yields_bind]
      apply (reads _ name span rest).mono
      intro read holds
      split
      · trivial
      · rintro _ ⟨⟩ directive content
        cases content
        exact holds
    case h_4 =>
      rw [yields_bind]
      apply yields_of_forall
      intro mnemonic
      rw [yields_bind]
      apply yields_of_forall
      rintro operands _ ⟨⟩ directive content
      cases content
    case h_5 => trivial

theorem directs_parseLinesFrom (definitions : Definitions) (number : Nat) (texts : List String) :
    ∀ statement ∈ (parseLinesFrom definitions number texts).1, statement.Directs property := by
  induction texts generalizing definitions number with
  | nil =>
    intro statement member
    cases member
  | cons text rest ih =>
    have holds := directs_parseLineWith reads definitions text number
    unfold parseLinesFrom
    split
    next found further read =>
      rw [read] at holds
      intro statement member
      rcases List.mem_append.1 member with here | later
      · exact holds statement (Option.mem_toList.1 here)
      · exact ih _ _ statement later
    next failure read =>
      intro statement member
      exact ih _ _ statement member

/-- What every directive that is read satisfies holds of every directive in a text. -/
theorem directs_parseLines (text : String) : ∀ statement ∈ (parseLines text).1, statement.Directs property :=
  directs_parseLinesFrom reads [] 1 (lines text)

end Directives

theorem isReadable_parseLineWith (definitions : Definitions) (text : String) (number : Nat) :
    Yields (fun read => ∀ statement, read.1 = some statement → statement.IsReadable)
      (parseLineWith definitions text number) :=
  directs_parseLineWith TokenLine.isReadable_readDirective definitions text number

/-- Every directive in a text is readable. -/
theorem isReadable_parseLines (text : String) : ∀ statement ∈ (parseLines text).1, statement.IsReadable :=
  directs_parseLines TokenLine.isReadable_readDirective text

end Mips
