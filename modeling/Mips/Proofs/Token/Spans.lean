import Mips.Proofs.Token.Reading

/-!
Where the tokens of a text stand. Every token and every error of a text is a slice of its characters, and an identifier
is named as its slice is spelled. Main statements: `within_of_boundaries`, `cut_of_mem_itemsFrom`,
`isIdentifier_of_mem_items` and `isItem_of_lexeme`.
-/

namespace Mips

theorem eq_nil_of_byteLength {characters : List Char} (none : byteLength characters = 0) : characters = [] := by
  cases characters with
  | nil => rfl
  | cons first rest =>
    have positive := first.utf8Size_pos
    rw [byteLength_cons] at none
    omega

namespace Span

/-- The offset stands between two characters of the text, or at one of its ends. -/
def Boundary (text : List Char) (offset : Nat) : Prop :=
  ∃ before after, text = before ++ after ∧ offset = byteLength before

/-- The span is a slice of the text: as many bytes stand before it and in it as some of the characters have. -/
def Within (span : Span) (text : List Char) : Prop :=
  ∃ before inside after, text = before ++ inside ++ after ∧ span = ⟨byteLength before, byteLength (before ++ inside)⟩

variable {span : Span} {text : List Char}

theorem boundary_zero (text : List Char) : Boundary text 0 := ⟨[], text, rfl, rfl⟩

theorem boundary_end (text : List Char) : Boundary text (byteLength text) := ⟨text, [], by simp, rfl⟩

theorem Within.boundary_start (within : span.Within text) : Boundary text span.start := by
  obtain ⟨before, inside, after, rfl, rfl⟩ := within
  exact ⟨before, inside ++ after, List.append_assoc .., rfl⟩

theorem Within.boundary_stop (within : span.Within text) : Boundary text span.stop := by
  obtain ⟨before, inside, after, rfl, rfl⟩ := within
  exact ⟨before ++ inside, after, rfl, rfl⟩

theorem Within.start_le (within : span.Within text) : span.start ≤ span.stop := by
  obtain ⟨before, inside, after, rfl, rfl⟩ := within
  rw [byteLength_append]
  exact Nat.le_add_right _ _

/-- Two boundaries in their order are the ends of a slice. -/
theorem within_of_boundaries (first : Boundary text span.start) (last : Boundary text span.stop)
    (ordered : span.start ≤ span.stop) : span.Within text := by
  obtain ⟨start, stop⟩ := span
  replace ordered : start ≤ stop := ordered
  obtain ⟨before, rest, rfl, rfl⟩ := first
  obtain ⟨longer, after, same, rfl⟩ := last
  rcases List.append_eq_append_iff.1 same with ⟨inside, rfl, rfl⟩ | ⟨excess, rfl, rfl⟩
  · exact ⟨before, inside, after, (List.append_assoc ..).symm, rfl⟩
  · have none : excess = [] := by
      apply eq_nil_of_byteLength
      rw [byteLength_append] at ordered
      omega
    subst none
    exact ⟨longer, [], rest, by simp, by simp⟩

/-- An empty span at a boundary is a slice. -/
theorem within_empty {offset : Nat} (boundary : Boundary text offset) : Within ⟨offset, offset⟩ text :=
  within_of_boundaries boundary boundary (Nat.le_refl offset)

end Span

namespace Token

/-- What was found is no identifier. -/
def NoName (meaning : Except LexError Token) : Prop := ∀ name, meaning ≠ .ok (.identifier name)

theorem noName_integerMeaning (characters : List Char) : NoName (integerMeaning characters) := by
  intro name same
  unfold integerMeaning at same
  cases read : integerLiteral characters <;> rw [read] at same <;> cases same

theorem noName_registerMeaning (characters : List Char) : NoName (registerMeaning characters) := by
  intro name same
  unfold registerMeaning at same
  split at same <;> cases same

theorem noName_characterLexeme (rest : List Char) : NoName (characterLexeme rest).meaning := by
  intro name same
  unfold characterLexeme at same
  split at same
  · split at same
    · cases same
    · dsimp only at same
      split at same <;> cases same
  · split at same <;> cases same
  · cases same

theorem noName_stringLexeme (rest : List Char) : NoName (stringLexeme rest).meaning := by
  intro name same
  unfold stringLexeme at same
  split at same <;> cases same

/-- A sign does not begin an identifier. -/
theorem noName_of_sign {first : Char} (sign : first ∈ signs) (visible : isGap first = false) (rest : List Char) :
    NoName (lexeme first rest).meaning := by
  intro name same
  simp only [signs, List.mem_cons, List.not_mem_nil, or_false] at sign
  unfold lexeme at same
  split at same
  case h_8 => exact noName_registerMeaning _ name same
  case h_9 => exact noName_characterLexeme _ name same
  case h_10 => exact noName_stringLexeme _ name same
  case h_11 =>
    split at same
    · cases same
    · split at same
      · exact noName_integerMeaning _ name same
      · cases same
  case h_12 =>
    split at same
    · cases same
    · split at same <;> cases same
  case h_13 => simp_all [isGap]
  all_goals cases same

/-- An identifier begins with a letter, and goes on as long as there are characters that it may have. -/
theorem lexeme_of_identifies {first : Char} {rest : List Char} {name : String} (visible : isGap first = false)
    (identifies : (lexeme first rest).meaning = .ok (.identifier name)) :
    isNameStart first = true ∧ Text.isDecimalDigit first = false ∧ name.toList = first :: rest.takeWhile isNamePart ∧
      (lexeme first rest).more = (rest.takeWhile isNamePart).length := by
  have plain : first ∉ signs := fun sign => noName_of_sign sign visible rest name identifies
  rw [lexeme_of_plain plain] at identifies ⊢
  split at identifies
  next => exact absurd identifies (noName_integerMeaning _ name)
  next other =>
    rw [if_neg other]
    split at identifies
    next starts =>
      rw [if_pos starts]
      cases identifies
      refine ⟨starts, Bool.eq_false_iff.2 other, String.toList_ofList, ?_⟩
      simp only [lexemeWhile, List.length_singleton, Nat.sub_self, Nat.zero_add]
    next => cases identifies

/-- The identifiers among lexemes are spelled as they are named. -/
theorem spelled_of_lexeme {first : Char} {rest : List Char} {name : String} (visible : isGap first = false)
    (identifies : (lexeme first rest).meaning = .ok (.identifier name)) :
    name.toList = first :: rest.take (lexeme first rest).more := by
  obtain ⟨-, -, spelled, more⟩ := lexeme_of_identifies visible identifies
  rw [spelled, more, ← List.prefix_iff_eq_take.1 (List.takeWhile_prefix isNamePart)]

theorem isIdentifier_of_lexeme {first : Char} {rest : List Char} {name : String} (visible : isGap first = false)
    (identifies : (lexeme first rest).meaning = .ok (.identifier name)) : isIdentifier name = true := by
  obtain ⟨starts, letter, spelled, -⟩ := lexeme_of_identifies visible identifies
  simp only [isIdentifier, spelled, starts, letter, List.all_takeWhile]
  rfl

/-- Every item of a text that begins at the given byte offset is the lexeme somewhere in it and takes its characters. -/
theorem slice_of_mem_itemsFrom {offset : Nat} {text : List Char} {item : Item} (member : item ∈ itemsFrom offset text) :
    ∃ before first rest, isGap first = false ∧ text = before ++ first :: rest ∧
      item.meaning = (lexeme first rest).meaning ∧
      item.span = ⟨offset + byteLength before,
        offset + byteLength (before ++ first :: rest.take (lexeme first rest).more)⟩ := by
  fun_induction itemsFrom offset text with
  | case1 => cases member
  | case2 offset first rest gap ih =>
    obtain ⟨before, head, follows, visible, split, means, place⟩ := ih member
    refine ⟨first :: before, head, follows, visible, by rw [split, List.cons_append], means, ?_⟩
    rw [place, List.cons_append, byteLength_cons, byteLength_cons, Nat.add_assoc, Nat.add_assoc]
  | case3 offset first rest word found stop ih =>
    have whole : first :: rest = (first :: rest.take found.more) ++ rest.drop found.more := by
      rw [List.cons_append, List.take_append_drop]
    have size : stop = offset + byteLength (first :: rest.take found.more) := Nat.add_assoc ..
    rcases List.mem_cons.1 member with rfl | later
    · refine ⟨[], first, rest, Bool.eq_false_iff.2 word, rfl, rfl, ?_⟩
      rw [size]
      rfl
    · obtain ⟨before, head, follows, visible, split, means, place⟩ := ih later
      refine ⟨first :: rest.take found.more ++ before, head, follows, visible, ?_, means, ?_⟩
      · rw [List.append_assoc, ← split]
        exact whole
      · rw [place, size, List.append_assoc, byteLength_append _ before, byteLength_append _ (before ++ _)]
        simp only [Nat.add_assoc]

/-- The name of every identifier of a text is one that an identifier may have. -/
theorem isIdentifier_of_mem_items {text : String} {item : Item} {name : String} (member : item ∈ items text)
    (identifies : item.meaning = .ok (.identifier name)) : isIdentifier name = true := by
  obtain ⟨-, first, rest, visible, -, means, -⟩ := slice_of_mem_itemsFrom member
  exact isIdentifier_of_lexeme visible (means.symm.trans identifies)

/--
The item is a slice of the text, which begins at the given byte offset, and if it is an identifier, the slice is spelled
as it is named.
-/
def Item.Cut (item : Item) (offset : Nat) (text : List Char) : Prop :=
  ∃ before inside after, text = before ++ inside ++ after ∧
    item.span = ⟨offset + byteLength before, offset + byteLength (before ++ inside)⟩ ∧
      ∀ name, item.meaning = .ok (.identifier name) → inside = name.toList

theorem cut_of_mem_itemsFrom {offset : Nat} {text : List Char} {item : Item} (member : item ∈ itemsFrom offset text) :
    item.Cut offset text := by
  obtain ⟨before, first, rest, visible, rfl, means, place⟩ := slice_of_mem_itemsFrom member
  refine ⟨before, first :: rest.take (lexeme first rest).more, rest.drop (lexeme first rest).more, ?_, place, ?_⟩
  · rw [List.append_assoc, List.cons_append, List.take_append_drop]
  · exact fun name identifies => (spelled_of_lexeme visible (means.symm.trans identifies)).symm

/-- An item of a text stands behind where the text begins and is not empty. -/
theorem place_of_mem_itemsFrom {offset : Nat} {text : List Char} {item : Item} (member : item ∈ itemsFrom offset text) :
    offset ≤ item.span.start ∧ item.span.start < item.span.stop := by
  fun_induction itemsFrom offset text with
  | case1 => cases member
  | case2 offset first rest gap ih =>
    have placed := ih member
    omega
  | case3 offset first rest word found stop ih =>
    have visible := first.utf8Size_pos
    have behind : offset < stop := by
      dsimp only [stop]
      omega
    rcases List.mem_cons.1 member with rfl | later
    · exact ⟨Nat.le_refl offset, behind⟩
    · have placed := ih later
      omega

/-- The items of a text stand one behind the other. -/
theorem pairwise_itemsFrom (offset : Nat) (text : List Char) :
    (itemsFrom offset text).Pairwise fun first second => first.span.stop ≤ second.span.start := by
  fun_induction itemsFrom offset text with
  | case1 => exact .nil
  | case2 offset first rest gap ih => exact ih
  | case3 offset first rest word found stop ih =>
    exact .cons (fun item later => (place_of_mem_itemsFrom later).1) ih

/-- In front of the rest of a text the characters are one item with this meaning, and the items of the rest follow it. -/
def IsItem (characters : List Char) (meaning : Except LexError Token) (rest : List Char) : Prop :=
  ∀ offset, itemsFrom offset (characters ++ rest) =
    ⟨meaning, ⟨offset, offset + byteLength characters⟩⟩ :: itemsFrom (offset + byteLength characters) rest

theorem isItem_of_lexeme {first : Char} {more rest : List Char} {meaning : Except LexError Token}
    (visible : isGap first = false) (found : lexeme first (more ++ rest) = ⟨more.length, meaning⟩) :
    IsItem (first :: more) meaning rest := by
  intro offset
  have size : offset + first.utf8Size + byteLength more = offset + byteLength (first :: more) := Nat.add_assoc ..
  rw [List.cons_append, itemsFrom, if_neg (by simp [visible]), found]
  simp only [List.take_left, List.drop_left, size]

end Token

end Mips
