import Mips.Token.Lexer

/-!
How text that is made of words and separators is read. Where a word ends does not depend on what comes before it,
so the tokens of a text are those of its parts, one after the other. Main statements: `meanings_lexeme`,
`Reads.append`.
-/

namespace Mips.Token

open Text

/-- What the tokens and errors of a text mean, wherever the text begins. -/
def meanings (text : List Char) : List (Except LexError Token) := (itemsFrom 0 text).map Item.meaning

theorem map_meaning_itemsFrom (offset : Nat) (text : List Char) :
    (itemsFrom offset text).map Item.meaning = meanings text := by
  have moved : ∀ length, ∀ text : List Char, text.length ≤ length → ∀ first second,
      (itemsFrom first text).map Item.meaning = (itemsFrom second text).map Item.meaning := by
    intro length
    induction length with
    | zero =>
      intro text short first second
      rw [List.length_eq_zero_iff.1 (Nat.le_zero.1 short)]
      simp [itemsFrom]
    | succ length ih =>
      intro text short first second
      cases text with
      | nil => simp [itemsFrom]
      | cons head rest =>
        have remaining : rest.length ≤ length := by simpa using short
        rw [itemsFrom, itemsFrom]
        by_cases gap : isGap head = true
        · rw [if_pos gap, if_pos gap]
          exact ih rest remaining _ _
        · rw [if_neg gap, if_neg gap]
          have dropped : (rest.drop (lexeme head rest).more).length ≤ length := by
            rw [List.length_drop]
            omega
          simp only [List.map_cons]
          rw [ih _ dropped]
  exact moved text.length text (Nat.le_refl _) offset 0

theorem meanings_nil : meanings [] = [] := by simp [meanings, itemsFrom]

theorem meanings_gap {first : Char} {rest : List Char} (gap : isGap first = true) :
    meanings (first :: rest) = meanings rest := by
  rw [meanings, itemsFrom, if_pos gap, map_meaning_itemsFrom]

theorem meanings_lexeme {first : Char} {rest : List Char} (word : isGap first = false) :
    meanings (first :: rest) =
      (lexeme first rest).meaning :: meanings (rest.drop (lexeme first rest).more) := by
  rw [meanings, itemsFrom, if_neg (by simp [word]), List.map_cons, map_meaning_itemsFrom]

/-- What follows ends a word: nothing, or a character that no name or number goes on with. -/
def EndsWord (rest : List Char) : Prop := ∀ c, rest.head? = some c → isNamePart c = false

theorem endsWord_nil : EndsWord [] := by
  intro c found
  cases found

theorem endsWord_cons {c : Char} {rest : List Char} (ends : isNamePart c = false) : EndsWord (c :: rest) := by
  rintro _ ⟨⟩
  exact ends

theorem takeWhile_append_of_stops {continues : Char → Bool} {word rest : List Char}
    (goesOn : ∀ c ∈ word, continues c = true) (stops : ∀ c, rest.head? = some c → continues c = false) :
    (word ++ rest).takeWhile continues = word := by
  rw [List.takeWhile_append_of_pos goesOn]
  cases rest with
  | nil => rw [List.takeWhile_nil, List.append_nil]
  | cons c rest => rw [List.takeWhile_cons_of_neg (by simp [stops c rfl]), List.append_nil]

/-- A word is taken as a whole if its end follows. -/
theorem lexemeWhile_append {continues : Char → Bool} {first word rest : List Char}
    {meaning : List Char → Except LexError Token} (goesOn : ∀ c ∈ word, continues c = true)
    (stops : ∀ c, rest.head? = some c → continues c = false) :
    lexemeWhile continues first (word ++ rest) meaning =
      ⟨first.length - 1 + word.length, meaning (first ++ word)⟩ := by
  simp only [lexemeWhile, takeWhile_append_of_stops goesOn stops]

theorem isWordCharacter_of_endsWord {rest : List Char} (ends : EndsWord rest) :
    ∀ c, rest.head? = some c → isWordCharacter c = false := by
  intro c found
  have stops := ends c found
  rw [isNamePart, Bool.or_eq_false_iff] at stops
  exact stops.1

/-- Wherever the end of a word follows, the characters are read as the tokens. -/
def Reads (characters : List Char) (tokens : List Token) : Prop :=
  ∀ rest, EndsWord rest → meanings (characters ++ rest) = tokens.map .ok ++ meanings rest

theorem reads_nil : Reads [] [] := by
  intro rest _
  rfl

/-- Parts of a text are read one by one if the second part ends the last word of the first one. -/
theorem Reads.append {first second : List Char} {firstTokens secondTokens : List Token}
    (readsFirst : Reads first firstTokens) (readsSecond : Reads second secondTokens)
    (ends : ∀ rest, EndsWord rest → EndsWord (second ++ rest)) :
    Reads (first ++ second) (firstTokens ++ secondTokens) := by
  intro rest follows
  rw [List.append_assoc, readsFirst _ (ends rest follows), readsSecond rest follows, List.map_append,
    List.append_assoc]

theorem meanings_of_reads {characters : List Char} {tokens : List Token} (reads : Reads characters tokens) :
    meanings characters = tokens.map .ok := by
  have alone := reads [] endsWord_nil
  rwa [List.append_nil, meanings_nil, List.append_nil] at alone

/-- A sign is a token by itself, whatever follows. -/
theorem Reads.sign {c : Char} {token : Token} {characters : List Char} {tokens : List Token}
    (sign : ∀ rest, lexeme c rest = ⟨0, .ok token⟩) (visible : isGap c = false) (reads : Reads characters tokens) :
    Reads (c :: characters) (token :: tokens) := by
  intro rest follows
  rw [List.cons_append, meanings_lexeme visible, sign, List.drop_zero, reads rest follows]
  rfl

/-- A gap is no token. -/
theorem Reads.gap {c : Char} {characters : List Char} {tokens : List Token} (gap : isGap c = true)
    (reads : Reads characters tokens) : Reads (c :: characters) tokens := by
  intro rest follows
  rw [List.cons_append, meanings_gap gap, reads rest follows]

/-- A word whose first characters decide how far it goes is one token. -/
theorem reads_word {first : Char} (more : List Char) {word : List Char} {continues : Char → Bool} {token : Token}
    {meaning : List Char → Except LexError Token}
    (begins : ∀ rest, lexeme first (more ++ rest) = lexemeWhile continues (first :: more) rest meaning)
    (visible : isGap first = false) (goesOn : ∀ c ∈ word, continues c = true)
    (stops : ∀ rest, EndsWord rest → ∀ c, rest.head? = some c → continues c = false)
    (means : meaning (first :: more ++ word) = .ok token) :
    Reads (first :: (more ++ word)) [token] := by
  intro rest follows
  have found : lexeme first (more ++ (word ++ rest)) = ⟨more.length + word.length, .ok token⟩ := by
    rw [begins, lexemeWhile_append goesOn (stops rest follows), ← means]
    simp
  have remaining : (more ++ (word ++ rest)).drop (more.length + word.length) = rest := by
    rw [← List.append_assoc, ← List.length_append, List.drop_left]
  rw [List.cons_append, List.append_assoc, meanings_lexeme visible, found, remaining]
  rfl

/-- The characters that separate tokens or begin one that is neither a name nor a number without a sign. -/
def signs : List Char := [' ', '\t', '\r', '\n', ':', ',', '(', ')', '+', '#', '$', '\'', '"', '-', '.']

theorem lexeme_of_plain {first : Char} (plain : first ∉ signs) (rest : List Char) :
    lexeme first rest =
      if isDecimalDigit first then lexemeWhile isWordCharacter [first] rest integerMeaning
      else if isNameStart first then
        lexemeWhile isNamePart [first] rest fun characters => .ok (.identifier (String.ofList characters))
      else ⟨0, .error .invalidSymbol⟩ := by
  simp only [signs, List.mem_cons, List.not_mem_nil, or_false, not_or] at plain
  unfold lexeme
  split <;> simp_all

theorem isGap_of_plain {first : Char} (plain : first ∉ signs) : isGap first = false := by
  simp only [signs, List.mem_cons, List.not_mem_nil, or_false, not_or] at plain
  simp [isGap, plain]

theorem plain_of_isNameStart {first : Char} (starts : isNameStart first = true) : first ∉ signs := by
  have apart : (signs.all fun sign => !isNameStart sign) = true := by decide
  intro member
  have other := List.all_eq_true.1 apart first member
  rw [starts] at other
  cases other

/-- A name is read as an identifier. -/
theorem reads_name {first : Char} {rest : List Char} (starts : isNameStart first = true)
    (letter : isDecimalDigit first = false) (parts : ∀ c ∈ rest, isNamePart c = true) :
    Reads (first :: rest) [.identifier (String.ofList (first :: rest))] := by
  have plain := plain_of_isNameStart starts
  have begins : ∀ follows, lexeme first ([] ++ follows) =
      lexemeWhile isNamePart [first] follows fun characters => .ok (.identifier (String.ofList characters)) := by
    intro follows
    rw [List.nil_append, lexeme_of_plain plain, letter, starts]
    rfl
  exact reads_word [] begins (isGap_of_plain plain) parts (fun _ ends => ends) rfl

/-- Whether the name is one that an identifier may have. -/
def isIdentifier (name : String) : Bool :=
  match name.toList with
  | [] => false
  | first :: rest => isNameStart first && !isDecimalDigit first && rest.all isNamePart

theorem reads_of_isIdentifier {name : String} (valid : isIdentifier name = true) :
    Reads name.toList [.identifier name] := by
  unfold isIdentifier at valid
  split at valid
  next => cases valid
  next first rest shape =>
    simp only [Bool.and_eq_true, Bool.not_eq_true', List.all_eq_true] at valid
    obtain ⟨⟨starts, letter⟩, parts⟩ := valid
    have reads := reads_name starts letter parts
    rwa [← shape, String.ofList_toList] at reads

section Signs

variable {characters : List Char} {tokens : List Token} (reads : Reads characters tokens)

include reads

theorem Reads.comma : Reads (',' :: characters) (.comma :: tokens) := reads.sign (fun _ => rfl) (by decide)

theorem Reads.plus : Reads ('+' :: characters) (.plus :: tokens) := reads.sign (fun _ => rfl) (by decide)

theorem Reads.leftParenthesis : Reads ('(' :: characters) (.leftParenthesis :: tokens) :=
  reads.sign (fun _ => rfl) (by decide)

theorem Reads.rightParenthesis : Reads (')' :: characters) (.rightParenthesis :: tokens) :=
  reads.sign (fun _ => rfl) (by decide)

end Signs

/-- A dollar sign and the name of a register are read as the register. -/
theorem reads_dollar {name : String} {register : Register} (known : Register.ofName? name = some register)
    (parts : ∀ c ∈ name.toList, isWordCharacter c = true) : Reads ('$' :: name.toList) [.register register] := by
  have means : registerMeaning ('$' :: name.toList) = .ok (.register register) := by
    have same : String.ofList (('$' :: name.toList).drop 1) = name := String.ofList_toList
    rw [registerMeaning, same, known]
  exact reads_word [] (fun _ => rfl) (by decide) parts (fun _ => isWordCharacter_of_endsWord) means

theorem reads_register (register : Register) : Reads register.text.toList [.register register] := by
  have table : ∀ register ∈ Register.all, register.name.toList.all isWordCharacter = true := by
    decide +kernel
  have known : register ∈ Register.all := by
    simp [Register.all]
  rw [Register.text, String.toList_append]
  exact reads_dollar (Register.ofName?_name register known) (List.all_eq_true.1 (table register known))

/-- A register may be written by its number. -/
theorem reads_number (register : Register) :
    Reads ("$" ++ natural register.number).toList [.register register] := by
  have table : ∀ number : Fin 32, Register.ofName? (natural number) = some ⟨number⟩ ∧
      (natural number).toList.all isWordCharacter = true := by
    decide +kernel
  obtain ⟨named, parts⟩ := table register.number
  rw [String.toList_append]
  exact reads_dollar named (List.all_eq_true.1 parts)

end Mips.Token
