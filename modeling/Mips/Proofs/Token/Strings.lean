import Mips.Proofs.Token.Reading
import Mips.Proofs.Token.Spans

/-!
String literals in a text. The scan behind an opening quote takes a character or a backslash with the character after it, so it
stops at the first quote with an even number of backslashes directly before it. Main statements: `stringContent?_of_writes`,
`stringContent?_of_unclosed` and `strings_read`.
-/

namespace Mips.Token

/-- The characters that a string literal writes with a backslash, and what it writes behind the backslash. -/
def escapes : List (Char × Char) :=
  [('\\', '\\'), ('"', '"'), ('\n', 'n'), ('\r', 'r'), ('\t', 't'), ('\x00', '0')]

/-- The characters that may not stand in a string literal as they are. -/
def marks : List Char := ['\\', '"', '\n']

/-- The characters between the quotes of a string literal that has the content. -/
inductive Writes : List Char → List Char → Prop where
  | nil : Writes [] []
  | plain {c : Char} {content written : List Char} (unmarked : c ∉ marks) (more : Writes content written) :
    Writes (c :: content) (c :: written)
  | escaped {c letter : Char} {content written : List Char} (escape : (c, letter) ∈ escapes) (more : Writes content written) :
    Writes (c :: content) ('\\' :: letter :: written)

/-- Every content can be written, since each character that may not stand as it is has an escape. -/
theorem exists_writes (content : List Char) : ∃ written, Writes content written := by
  induction content with
  | nil => exact ⟨[], .nil⟩
  | cons c content ih =>
    obtain ⟨written, more⟩ := ih
    by_cases marked : c ∈ marks
    · have table : (marks.all fun c => escapes.any fun escape => escape.1 == c) = true := by decide
      obtain ⟨⟨_, letter⟩, escape, same⟩ := List.any_eq_true.1 (List.all_eq_true.1 table c marked)
      cases beq_iff_eq.1 same
      exact ⟨_, .escaped escape more⟩
    · exact ⟨_, .plain marked more⟩

theorem unescape?_of_mem_escapes {c letter : Char} (escape : (c, letter) ∈ escapes) :
    unescape? letter = some c ∧ letter ≠ '\n' := by
  have table : (escapes.all fun (c, letter) => unescape? letter == some c && letter != '\n') = true := by decide
  simpa using List.all_eq_true.1 table (c, letter) escape

section Scan

variable {c : Char} (rest : List Char)

theorem stringContent?_plain (unmarked : c ∉ marks) :
    stringContent? (c :: rest) = (stringContent? rest).map fun found => (c :: found.1, found.2 + 1) := by
  simp only [marks, List.mem_cons, List.not_mem_nil, or_false, not_or] at unmarked
  obtain ⟨backslash, quote, newLine⟩ := unmarked
  rw [stringContent?] <;> simp [backslash, quote, newLine]

theorem stringContent?_escape {meant : Char} (means : unescape? c = some meant) (inside : c ≠ '\n') :
    stringContent? ('\\' :: c :: rest) = (stringContent? rest).map fun found => (meant :: found.1, found.2 + 2) := by
  rw [stringContent?, if_neg inside, means]

end Scan

theorem stringContent?_of_writes {content written : List Char} (writes : Writes content written) (rest : List Char) :
    stringContent? (written ++ '"' :: rest) = some (content, written.length + 1) := by
  induction writes with
  | nil => rfl
  | plain unmarked _ ih =>
    rw [List.cons_append, stringContent?_plain _ unmarked, ih]
    rfl
  | escaped escape _ ih =>
    obtain ⟨means, inside⟩ := unescape?_of_mem_escapes escape
    rw [List.cons_append, List.cons_append, stringContent?_escape _ means inside, ih]
    rfl

/-- How many backslashes the characters end with. -/
def trailingBackslashes (characters : List Char) : Nat := (characters.reverse.takeWhile (· == '\\')).length

/-- No quote of the characters would close a string literal: a backslash that is not itself escaped stands before each. -/
def Unclosed (characters : List Char) : Prop :=
  ∀ before after, characters = before ++ '"' :: after → trailingBackslashes before % 2 = 1

/-- A character in front counts only if it is a backslash and so is everything behind it. -/
theorem trailingBackslashes_cons (c : Char) (rest : List Char) :
    trailingBackslashes (c :: rest) =
      trailingBackslashes rest + if c = '\\' ∧ trailingBackslashes rest = rest.length then 1 else 0 := by
  simp only [trailingBackslashes, List.reverse_cons, List.takeWhile_append, List.length_reverse]
  by_cases all : (rest.reverse.takeWhile (· == '\\')).length = rest.length <;> by_cases backslash : c = '\\' <;>
    simp [all, backslash]

theorem trailingBackslashes_le (characters : List Char) : trailingBackslashes characters ≤ characters.length := by
  have bound := (List.takeWhile_prefix (l := characters.reverse) (· == '\\')).length_le
  rwa [List.length_reverse] at bound

section Unclosed

variable {c : Char} {rest : List Char}

theorem Unclosed.tail (unclosed : Unclosed (c :: rest)) (plain : c ≠ '\\') : Unclosed rest := by
  rintro before after rfl
  have odd := unclosed (c :: before) after rfl
  rwa [trailingBackslashes_cons, if_neg (by simp [plain]), Nat.add_zero] at odd

/-- An escape, whatever its character, leaves the parity as it is. -/
theorem Unclosed.behind_escape (unclosed : Unclosed ('\\' :: c :: rest)) : Unclosed rest := by
  rintro before after rfl
  have odd := unclosed ('\\' :: c :: before) after rfl
  have bound := trailingBackslashes_le before
  rw [trailingBackslashes_cons, trailingBackslashes_cons, List.length_cons] at odd
  by_cases all : trailingBackslashes before = before.length
  · by_cases backslash : c = '\\'
    · rw [if_pos ⟨backslash, all⟩, if_pos ⟨rfl, by omega⟩] at odd
      omega
    · rwa [if_neg fun both => backslash both.1, Nat.add_zero, if_neg fun both => by omega, Nat.add_zero] at odd
  · rwa [if_neg fun both => all both.2, Nat.add_zero, if_neg fun both => by omega, Nat.add_zero] at odd

end Unclosed

/-- A line ends a string literal without content, also directly behind a backslash. -/
theorem stringContent?_of_ends {rest : List Char} (ends : ∀ c, rest.head? = some c → c = '\n') :
    stringContent? rest = none ∧ stringContent? ('\\' :: rest) = none := by
  cases rest with
  | nil => exact ⟨rfl, rfl⟩
  | cons c rest =>
    cases ends c rfl
    exact ⟨rfl, rfl⟩

/-- The scan finds no content if no quote closes the literal before the end of the line. -/
theorem stringContent?_of_unclosed {line rest : List Char} (single : '\n' ∉ line) (unclosed : Unclosed line)
    (ends : ∀ c, rest.head? = some c → c = '\n') : stringContent? (line ++ rest) = none := by
  induction line using stringContent?.induct with
  | case1 => exact (stringContent?_of_ends ends).1
  | case2 rest => exact absurd (unclosed [] _ rfl) (by decide)
  | case3 => simp at single
  | case4 => exact (stringContent?_of_ends ends).2
  | case5 rest => simp at single
  | case6 c rest inside ih =>
    simp only [List.mem_cons, not_or] at single
    simp only [List.cons_append, stringContent?, if_neg inside, ih single.2.2 unclosed.behind_escape, Option.map_none]
  | case7 c rest quote newLine alone escape ih =>
    have plain : c ≠ '\\' := by
      rintro rfl
      cases rest with
      | nil => exact alone rfl rfl
      | cons next rest => exact escape next rest rfl rfl
    have unmarked : c ∉ marks := by
      simp only [marks, List.mem_cons, List.not_mem_nil, or_false, not_or]
      exact ⟨plain, quote, newLine⟩
    simp only [List.mem_cons, not_or] at single
    rw [List.cons_append, stringContent?_plain _ unmarked, ih single.2 (unclosed.tail plain), Option.map_none]

/--
Every content can be written between quotes, with an escape for each backslash, quote and new line and with or without one for
the other characters that have one, and each way of writing it is one string with this content in front of any other text. What
begins like a string on a line where no quote closes it is one error up to the end of the line.
-/
theorem strings_read :
    (∀ content, ∃ written, Writes content written) ∧
      (∀ (content : String) (written rest : List Char), Writes content.toList written →
        IsItem ('"' :: (written ++ ['"'])) (.ok (.text content)) rest) ∧
        ∀ line rest : List Char, '\n' ∉ line → Unclosed line → (∀ c, rest.head? = some c → c = '\n') →
          IsItem ('"' :: line) (.error .unclosedString) rest := by
  refine ⟨exists_writes, ?_, ?_⟩
  · intro content written rest writes
    apply isItem_of_lexeme (by decide)
    have read := stringContent?_of_writes writes rest
    simp only [lexeme, stringLexeme, List.append_assoc, List.singleton_append, read, String.ofList_toList,
      List.length_append, List.length_singleton]
  · intro line rest single unclosed ends
    apply isItem_of_lexeme (by decide)
    have scan := stringContent?_of_unclosed single unclosed ends
    have goesOn : ∀ c ∈ line, decide (c ≠ '\n') = true := by
      intro c member
      apply decide_eq_true
      rintro rfl
      exact single member
    have stops : ∀ c, rest.head? = some c → decide (c ≠ '\n') = false := by
      intro c first
      cases ends c first
      rfl
    simp only [lexeme, stringLexeme, scan, takeWhile_append_of_stops goesOn stops]

/-- A string with an escaped backslash at its end and a string that the end of the line cuts off behind an escaped quote. -/
theorem strings_read_backslash :
    Writes "#\\".toList ['#', '\\', '\\'] ∧
      IsItem ['"', '#', '\\', '\\', '"'] (.ok (.text "#\\")) ['"'] ∧
        Unclosed ['#', '\\', '"'] ∧ IsItem ['"', '#', '\\', '"'] (.error .unclosedString) ['\n', '"'] := by
  have writes : Writes "#\\".toList ['#', '\\', '\\'] := .plain (by decide) (.escaped (by decide) .nil)
  have unclosed : Unclosed ['#', '\\', '"'] := by
    intro before after split
    match before with
    | [] | [_] => simp at split
    | [_, _] =>
      cases split
      decide
    | _ :: _ :: _ :: _ => simp at split
  have ends : ∀ c, ['\n', '"'].head? = some c → c = '\n' := by
    rintro _ ⟨⟩
    rfl
  exact ⟨writes, strings_read.2.1 _ _ _ writes, unclosed, strings_read.2.2 _ _ (by decide) unclosed ends⟩

end Mips.Token
