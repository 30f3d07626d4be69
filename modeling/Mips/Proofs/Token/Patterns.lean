import Mips.Proofs.Token.Integers

/-!
Tokens as the longest matches of patterns. The head of a text is as long as any text that it begins with and that a pattern
matches, but for a string literal, which goes on behind its quote up to where a cursor over its bytes stops, and it is one
character in error if no pattern matches. Main statements: `byteLength_stringLexeme` and `takes_lexeme`.
-/

namespace Mips.Token

open Text

/-- The texts that the patterns of tokens match. -/
inductive Pattern : List Char → Prop where
  | integer {characters : List Char} (looks : LooksInteger characters) : Pattern characters
  | character {c : Char} (plain : c ≠ '\'' ∧ c ≠ '\\' ∧ c ≠ '\n') : Pattern ['\'', c, '\'']
  | escape {c : Char} (inside : c ≠ '\n') : Pattern ['\'', '\\', c, '\'']
  | register {word : List Char} (parts : ∀ c ∈ word, isWordCharacter c = true) : Pattern ('$' :: word)
  | identifier {first : Char} {rest : List Char} (starts : isNameStart first = true)
      (parts : ∀ c ∈ rest, isNamePart c = true) : Pattern (first :: rest)
  | directive {first : Char} {rest : List Char} (starts : isNameStart first = true)
      (parts : ∀ c ∈ rest, isWordCharacter c = true) : Pattern ('.' :: first :: rest)
  /-- The quote that opens a string literal. -/
  | quote : Pattern ['"']
  | sign {c : Char} (member : c ∈ [':', ',', '(', ')', '+', '-', '\n']) : Pattern [c]
  | comment {rest : List Char} (single : ∀ c ∈ rest, decide (c ≠ '\n') = true) : Pattern ('#' :: rest)

/--
How many bytes a string literal takes behind its opening quote, if a quote closes it: the offset at which that quote stands, and
its one byte. The offset goes on by the size of each character.
-/
def closing? (offset : Nat) : List Char → Option Nat
  | [] => none
  | '"' :: _ => some (offset + 1)
  | '\n' :: _ => none
  | ['\\'] => none
  | '\\' :: c :: rest => if c = '\n' then none else closing? (offset + '\\'.utf8Size + c.utf8Size) rest
  | c :: rest => closing? (offset + c.utf8Size) rest

/-- How many bytes a string literal takes behind its opening quote. -/
def scanned (rest : List Char) : Nat := (closing? 0 rest).getD (byteLength (rest.takeWhile (· ≠ '\n')))

/--
How the characters inside stand in front of those after them: they are the longest text that a pattern matches there, or a
string literal up to where the cursor over its bytes stops, or one character in error where no pattern matches.
-/
inductive Takes (inside after : List Char) (meaning : Except LexError Token) : Prop where
  | matched (pattern : Pattern inside)
      (longest : ∀ more rest, after = more ++ rest → Pattern (inside ++ more) → more = []) : Takes inside after meaning
  | literal {content : List Char} (opens : inside = '"' :: content)
      (cursor : byteLength content = scanned (content ++ after)) : Takes inside after meaning
  | symbol {c : Char} (single : inside = [c]) (unknown : ∀ word, word <+: after → ¬Pattern (c :: word))
      (invalid : meaning = .error .invalidSymbol) : Takes inside after meaning

section Cursor

/-- The cursor over the bytes stops behind as many of them as the characters have that the scan takes. -/
theorem closing?_eq (offset : Nat) (rest : List Char) :
    closing? offset rest = (stringContent? rest).map fun found => offset + byteLength (rest.take found.2) := by
  induction rest using stringContent?.induct generalizing offset with
  | case1 => rfl
  | case2 rest => rfl
  | case3 => rfl
  | case4 => rfl
  | case5 rest => simp [closing?, stringContent?]
  | case6 c rest inside ih =>
    simp only [closing?, stringContent?, if_neg inside, ih, Option.map_map]
    congr 1
    funext found
    simp only [Function.comp_apply, List.take_succ_cons, byteLength_cons]
    omega
  | case7 c rest quote newLine alone escape ih =>
    rw [closing?, stringContent?, ih, Option.map_map]
    · congr 1
      funext found
      simp only [Function.comp_apply, List.take_succ_cons, byteLength_cons]
      omega
    all_goals assumption

theorem byteLength_stringLexeme (rest : List Char) : byteLength (rest.take (stringLexeme rest).more) = scanned rest := by
  rw [scanned, closing?_eq, stringLexeme]
  cases stringContent? rest with
  | none => simp only [Option.map_none, Option.getD_none, ← List.prefix_iff_eq_take.1 (List.takeWhile_prefix _)]
  | some found => simp only [Option.map_some, Option.getD_some, Nat.zero_add]

end Cursor

section Match

variable {first : Char} {word rest : List Char}

section Word

variable {continues : Char → Bool} {meaning : List Char → Except LexError Token} (more : List Char)

/-- A word takes all the characters that go on as it does. -/
theorem length_le_lexemeWhile (begins : word <+: rest) (goesOn : ∀ c ∈ word, continues c = true) :
    (more ++ word).length ≤ (lexemeWhile continues (first :: more) rest meaning).more := by
  obtain ⟨after, rfl⟩ := begins
  simp only [lexemeWhile, List.takeWhile_append_of_pos goesOn, List.length_append, List.length_cons]
  omega

/-- A word takes no characters that do not go on as it does. -/
theorem pattern_lexemeWhile
    (pattern : ∀ word : List Char, (∀ c ∈ word, continues c = true) → Pattern (first :: (more ++ word))) :
    Pattern (first :: (more ++ rest).take (lexemeWhile continues (first :: more) rest meaning).more) := by
  rw [lexemeWhile, List.length_cons, Nat.add_sub_cancel, List.take_length_add_append,
    ← List.prefix_iff_eq_take.1 (List.takeWhile_prefix continues)]
  exact pattern _ (List.all_eq_true.1 List.all_takeWhile)

end Word

/-- What begins a name is no digit of any script. -/
theorem isDecimalDigit_of_isNameStart (starts : isNameStart first = true) : isDecimalDigit first = false := by
  have table : ∀ point < 0x7B, isNameStart (Char.ofNat point) = true → isDecimalDigit (Char.ofNat point) = false := by
    decide +kernel
  have small : first.toNat < 0x7B := by
    simp only [isNameStart, Bool.or_eq_true, Bool.and_eq_true, decide_eq_true_eq, beq_iff_eq, Char.le_def,
      UInt32.le_iff_toNat_le] at starts
    rcases starts with (⟨-, upper⟩ | ⟨-, upper⟩) | rfl
    · exact Nat.lt_of_le_of_lt upper (by decide)
    · exact Nat.lt_of_le_of_lt upper (by decide)
    · decide
  rw [← Char.ofNat_toNat first] at starts ⊢
  exact table _ small starts

/-- No pattern takes more than the head of the text, unless it begins a string literal. -/
theorem length_le_of_pattern (pattern : Pattern (first :: word)) (other : first ≠ '"') (begins : word <+: rest) :
    word.length ≤ (lexeme first rest).more := by
  generalize whole : first :: word = characters at pattern
  cases pattern with
  | integer looks =>
    cases looks with
    | unsigned digital parts =>
      cases whole
      rw [lexeme_of_plain (plain_of_isDecimalDigit digital), if_pos digital]
      exact length_le_lexemeWhile [] begins parts
    | negative digital parts =>
      cases whole
      obtain ⟨after, rfl⟩ := begins
      simp only [List.cons_append, lexeme, if_pos digital]
      exact length_le_lexemeWhile [_] (List.prefix_append _ after) parts
  | character plain =>
    cases whole
    obtain ⟨after, rfl⟩ := begins
    simp [lexeme, characterLexeme, plain]
  | escape inside =>
    cases whole
    obtain ⟨after, rfl⟩ := begins
    simp [lexeme, characterLexeme, inside]
  | register parts =>
    cases whole
    exact length_le_lexemeWhile [] begins parts
  | identifier starts parts =>
    cases whole
    rw [lexeme_of_plain (plain_of_isNameStart starts), isDecimalDigit_of_isNameStart starts, if_neg Bool.false_ne_true,
      if_pos starts]
    exact length_le_lexemeWhile [] begins parts
  | directive starts parts =>
    cases whole
    obtain ⟨after, rfl⟩ := begins
    simp only [List.cons_append, lexeme, if_pos starts]
    exact length_le_lexemeWhile [_] (List.prefix_append _ after) parts
  | quote =>
    cases whole
    exact absurd rfl other
  | sign member =>
    cases whole
    exact Nat.zero_le _
  | comment single =>
    cases whole
    exact length_le_lexemeWhile [] begins single

/-- The head of a text is something that a pattern matches, or one character in error. -/
theorem pattern_of_lexeme (visible : isGap first = false) (other : first ≠ '"') (rest : List Char) :
    Pattern (first :: rest.take (lexeme first rest).more) ∨ lexeme first rest = ⟨0, .error .invalidSymbol⟩ := by
  unfold lexeme
  split
  case h_1 | h_2 | h_3 | h_4 | h_5 | h_6 => exact .inl (.sign (by decide))
  case h_7 => exact .inl (pattern_lexemeWhile [] fun _ single => .comment single)
  case h_8 => exact .inl (pattern_lexemeWhile [] fun _ parts => .register parts)
  case h_9 =>
    unfold characterLexeme
    split
    · split
      · exact .inr rfl
      next inside => exact .inl (.escape inside)
    · split
      · exact .inr rfl
      next plain =>
        simp only [Bool.or_eq_true, decide_eq_true_eq, not_or, and_assoc] at plain
        exact .inl (.character plain)
    · exact .inr rfl
  case h_10 => exact absurd rfl other
  case h_11 =>
    split
    · exact .inl (.sign (by decide))
    next c rest =>
      split
      next digital => exact .inl (pattern_lexemeWhile [c] fun _ parts => .integer (.negative digital parts))
      next => exact .inl (.sign (by decide))
  case h_12 =>
    split
    · exact .inr rfl
    next c rest =>
      split
      next starts => exact .inl (pattern_lexemeWhile [c] fun _ parts => .directive starts parts)
      next => exact .inr rfl
  case h_13 =>
    split
    next digital => exact .inl (pattern_lexemeWhile [] fun _ parts => .integer (.unsigned digital parts))
    next =>
      split
      next starts => exact .inl (pattern_lexemeWhile [] fun _ parts => .identifier starts parts)
      next => exact .inr rfl

/--
What stands at the head of a text is the longest text that a pattern matches, or a string literal up to where the cursor stops,
or one character that begins nothing that a pattern matches.
-/
theorem takes_lexeme (visible : isGap first = false) (rest : List Char) :
    Takes (first :: rest.take (lexeme first rest).more) (rest.drop (lexeme first rest).more) (lexeme first rest).meaning := by
  by_cases quote : first = '"'
  · subst quote
    refine .literal rfl ?_
    rw [List.take_append_drop]
    exact byteLength_stringLexeme rest
  by_cases pattern : Pattern (first :: rest.take (lexeme first rest).more)
  · refine .matched pattern fun more others split longer => ?_
    rw [List.cons_append] at longer
    have begins : rest.take (lexeme first rest).more ++ more <+: rest :=
      ⟨others, by rw [List.append_assoc, ← split, List.take_append_drop]⟩
    have bound := length_le_of_pattern longer quote begins
    have remaining := congrArg List.length split
    simp only [List.length_append, List.length_take, List.length_drop] at bound remaining
    exact List.length_eq_zero_iff.1 (by omega)
  · have found := (pattern_of_lexeme visible quote rest).resolve_left pattern
    refine .symbol (by rw [found]; rfl) (fun word begins longer => pattern ?_) (by rw [found])
    rw [found] at begins
    have bound := length_le_of_pattern longer quote (show word <+: rest from begins)
    rw [found, Nat.le_zero, List.length_eq_zero_iff] at bound
    rw [found]
    rwa [bound] at longer

end Match

end Mips.Token
