import Mips.Proofs.Text.Utf8
import Mips.Proofs.Token.Patterns

/-!
Reading covers a text. Each step of reading takes a gap or the lexeme at the head of what is left, whatever stands there, so the
tokens and errors follow one another to the end of the text, with nothing but gaps between them. Main statements:
`mem_gaps_of_uncovered` and `items_cover`.
-/

namespace Mips.Token

/-- The position of a byte is one of the span. -/
def Item.Covers (item : Item) (position : Nat) : Prop := item.span.start ≤ position ∧ position < item.span.stop

/-- The bytes that may stand between tokens: a space, a tab or a carriage return. -/
def gaps : List UInt8 := [0x20, 0x09, 0x0D]

/-- A gap is one byte. -/
theorem encode_gap {first : Char} (gap : isGap first = true) : ∃ byte ∈ gaps, Text.Utf8.encode [first] = [byte] := by
  simp only [isGap, Bool.or_eq_true, beq_iff_eq] at gap
  rcases gap with (rfl | rfl) | rfl
  · exact ⟨0x20, by decide, by decide⟩
  · exact ⟨0x09, by decide, by decide⟩
  · exact ⟨0x0D, by decide, by decide⟩

/-- Every item takes at least one of the characters. -/
theorem length_itemsFrom_le (offset : Nat) (text : List Char) : (itemsFrom offset text).length ≤ text.length := by
  fun_induction itemsFrom offset text with
  | case1 => exact Nat.le_refl _
  | case2 offset first rest gap ih => exact Nat.le_succ_of_le ih
  | case3 offset first rest word found stop ih =>
    rw [List.length_drop] at ih
    simp only [List.length_cons]
    omega

/-- A byte that no item covers is a gap. -/
theorem mem_gaps_of_uncovered (offset : Nat) (text : List Char) :
    ∀ position byte, (Text.Utf8.encode text)[position]? = some byte →
      (∀ item ∈ itemsFrom offset text, ¬item.Covers (offset + position)) → byte ∈ gaps := by
  fun_induction itemsFrom offset text with
  | case1 =>
    intro position byte present
    cases present
  | case2 offset first rest gap ih =>
    intro position byte present uncovered
    obtain ⟨blank, member, single⟩ := encode_gap gap
    have size : first.utf8Size = 1 := by
      have length := Text.Utf8.length_encode [first]
      rw [single] at length
      simpa using length.symm
    rw [← List.singleton_append, Text.Utf8.encode_append, single] at present
    cases position with
    | zero =>
      cases present
      exact member
    | succ position =>
      refine ih position byte present fun item among => ?_
      rw [size, Nat.add_assoc, Nat.add_comm 1]
      exact uncovered item among
  | case3 offset first rest word found stop ih =>
    intro position byte present uncovered
    have whole : first :: rest = (first :: rest.take found.more) ++ rest.drop found.more := by
      rw [List.cons_append, List.take_append_drop]
    have size : stop = offset + byteLength (first :: rest.take found.more) := Nat.add_assoc ..
    have length := Text.Utf8.length_encode (first :: rest.take found.more)
    rw [whole, Text.Utf8.encode_append] at present
    by_cases inside : position < byteLength (first :: rest.take found.more)
    · have before : offset + position < stop := by omega
      exact absurd ⟨Nat.le_add_right _ _, before⟩ (uncovered _ List.mem_cons_self)
    · rw [List.getElem?_append_right (by omega), length] at present
      refine ih _ byte present fun item among => ?_
      rw [size, Nat.add_assoc, Nat.add_sub_cancel' (Nat.not_lt.1 inside)]
      exact uncovered item (List.mem_cons_of_mem _ among)

/--
Reading any text ends after at most as many items as it has characters. The items are slices of the text between its characters,
none of them empty, each the longest match of a pattern, a string literal or one character in error, and they stand one behind
the other; a byte outside all of them is a space, a tab or a carriage return.
-/
theorem items_cover (text : String) :
    (items text).length ≤ text.length ∧
      (∀ item ∈ items text, item.span.start < item.span.stop ∧
        ∃ before inside after, text.toList = before ++ inside ++ after ∧
          item.span = ⟨byteLength before, byteLength (before ++ inside)⟩ ∧ Takes inside after item.meaning) ∧
      ((items text).Pairwise fun first second => first.span.stop ≤ second.span.start) ∧
      ∀ position byte, (Text.Utf8.ofText text)[position]? = some byte →
        (∀ item ∈ items text, ¬item.Covers position) → byte ∈ gaps := by
  refine ⟨?_, fun item member => ⟨(place_of_mem_itemsFrom member).2, ?_⟩, pairwise_itemsFrom 0 text.toList, ?_⟩
  · rw [← String.length_toList]
    exact length_itemsFrom_le 0 text.toList
  · obtain ⟨before, first, rest, visible, whole, means, place⟩ := slice_of_mem_itemsFrom member
    refine ⟨before, first :: rest.take (lexeme first rest).more, rest.drop (lexeme first rest).more, ?_, ?_, ?_⟩
    · rw [whole, List.append_assoc, List.cons_append, List.take_append_drop]
    · rw [place, Nat.zero_add, Nat.zero_add]
    · rw [means]
      exact takes_lexeme visible rest
  · intro position byte present uncovered
    have none : ∀ item ∈ itemsFrom 0 text.toList, ¬item.Covers (0 + position) := by
      rw [Nat.zero_add]
      exact uncovered
    exact mem_gaps_of_uncovered 0 text.toList position byte present none

/-- A string literal that the end of its line cuts off behind an escaped character of two bytes, a gap, and a sign in error. -/
theorem items_cover_unclosed :
    let text := "\"\\é\n\t@"
    (items text).map Item.span = [⟨0, 4⟩, ⟨4, 5⟩, ⟨6, 7⟩] ∧ (Text.Utf8.ofText text)[5]? = some 0x09 ∧
      (∀ item ∈ items text, ¬item.Covers 5) ∧ 0x09 ∈ gaps := by
  intro text
  have spans : (items text).map Item.span = [⟨0, 4⟩, ⟨4, 5⟩, ⟨6, 7⟩] := by decide +kernel
  have tab : (Text.Utf8.ofText text)[5]? = some 0x09 := by decide +kernel
  have uncovered : ∀ item ∈ items text, ¬item.Covers 5 := by
    have outside : ∀ span ∈ (items text).map Item.span, ¬(span.start ≤ 5 ∧ 5 < span.stop) := by
      rw [spans]
      decide
    exact fun item member => outside item.span (List.mem_map_of_mem member)
  exact ⟨spans, tab, uncovered, (items_cover text).2.2.2 5 0x09 tab uncovered⟩

end Mips.Token
