import Mips.Proofs.Console.Interchange

/-!
Reading characters until there are none. The input falls into characters, bytes that begin no character, and starts of
characters that are broken off, each of which is read at once. The byte that breaks off a start is read along with it, so
that a character directly behind it is lost; all others are read. Main statement: `characters_of_parts`.
-/

namespace Mips.Console

open Text.Utf8

/-- What is read character by character, until there is none. -/
inductive Drains {κ : Type} [Console κ] : κ → List Char → Prop where
  | none {console : κ} (exhausted : (readCharacter console).1 = none) : Drains console []
  | some {console : κ} {c : Char} {characters : List Char} (read : (readCharacter console).1 = some c)
      (rest : Drains (readCharacter console).2 characters) : Drains console (c :: characters)

/-- The bytes begin a character, which is not complete with them. -/
structure IsStart (bytes : List UInt8) : Prop where
  begun : bytes ≠ []
  incomplete : ∃ c more, more ≠ [] ∧ String.utf8EncodeChar c = bytes ++ more

/-- A part of the input that is read at once. -/
inductive Piece where
  | character (c : Char)
  /-- A byte with which no character begins. -/
  | stray (byte : UInt8)
  /-- The start of a character, and the byte behind it that does not continue it. -/
  | broken (start : List UInt8) (byte : UInt8)
  /-- The start of a character at the end of the input. -/
  | unfinished (start : List UInt8)

namespace Piece

def bytes : Piece → List UInt8
  | .character c => String.utf8EncodeChar c
  | .stray byte => [byte]
  | .broken start byte => start ++ [byte]
  | .unfinished start => start

/-- The character that is read for the part. -/
def shown : Piece → Option Char
  | .character c => some c
  | .stray _ | .broken _ _ => some replacement
  | .unfinished _ => none

end Piece

def bytesOf (pieces : List Piece) : List UInt8 := pieces.flatMap Piece.bytes

theorem bytesOf_cons (piece : Piece) (pieces : List Piece) : bytesOf (piece :: pieces) = piece.bytes ++ bytesOf pieces :=
  List.flatMap_cons

/-- The parts are those into which the input falls. -/
inductive Divided : List Piece → Prop where
  | nil : Divided []
  | character (c : Char) {pieces : List Piece} (rest : Divided pieces) : Divided (.character c :: pieces)
  | stray {byte : UInt8} (alien : ∀ c more, String.utf8EncodeChar c ≠ byte :: more) {pieces : List Piece}
      (rest : Divided pieces) : Divided (.stray byte :: pieces)
  | broken {start : List UInt8} {byte : UInt8} (begins : IsStart start) (stops : ¬IsStart (start ++ [byte]))
      (other : ∀ c, String.utf8EncodeChar c ≠ start ++ [byte]) {pieces : List Piece} (rest : Divided pieces) :
      Divided (.broken start byte :: pieces)
  | unfinished {start : List UInt8} (begins : IsStart start) : Divided [.unfinished start]

section Heads

variable {first byte : UInt8} {rest : List UInt8} {c : Char}

theorem isStart_iff : IsStart (first :: rest) ↔ head first rest = .truncated := by
  rw [head_eq_truncated_iff]
  exact ⟨fun start => start.incomplete, fun found => ⟨List.cons_ne_nil _ _, found⟩⟩

theorem head_eq_character_length_iff :
    head first rest = .character c rest.length ↔ String.utf8EncodeChar c = first :: rest := by
  rw [head_eq_character_iff, List.take_length]
  exact and_iff_right (Nat.le_refl _)

theorem head_of_character (encoded : String.utf8EncodeChar c = first :: rest) (after : List UInt8) :
    head first (rest ++ after) = .character c rest.length :=
  head_append (head_eq_character_length_iff.2 encoded) Head.noConfusion after

theorem not_isFirst_of_alien (alien : ∀ c more, String.utf8EncodeChar c ≠ byte :: more) : ¬IsFirst byte := fun begins =>
  let ⟨c, more, encoded⟩ := isFirst_iff_exists.1 begins
  alien c more encoded

/-- The start of a character that is broken off is all that was received of it. -/
theorem head_of_broken (begins : IsStart (first :: rest)) (stops : ¬IsStart (first :: rest ++ [byte]))
    (other : ∀ c, String.utf8EncodeChar c ≠ first :: rest ++ [byte]) (after : List UInt8) :
    head first (rest ++ [byte] ++ after) = .malformed rest.length := by
  have cut := isStart_iff.1 begins
  have found : head first (rest ++ [byte]) = .malformed rest.length := by
    cases found : head first (rest ++ [byte]) with
    | truncated => exact absurd (isStart_iff.2 found) stops
    | character c count =>
      have length : count = (rest ++ [byte]).length := by
        rw [head_concat_character cut found, List.length_append, List.length_singleton]
      exact absurd (head_eq_character_length_iff.1 (length ▸ found)) (other c)
    | malformed count => rw [head_concat_malformed cut found]
  exact head_append found Head.noConfusion after

end Heads

/-- Each part is read at once. -/
theorem splitCharacter_character (c : Char) (after : List UInt8) :
    splitCharacter (String.utf8EncodeChar c ++ after) = (some c, after) := by
  obtain ⟨first, rest, encoded⟩ := List.exists_cons_of_ne_nil (String.utf8EncodeChar_ne_nil (c := c))
  rw [encoded, List.cons_append, splitCharacter, head_of_character encoded]
  dsimp only
  rw [List.drop_left]

theorem splitCharacter_stray {byte : UInt8} (alien : ∀ c more, String.utf8EncodeChar c ≠ byte :: more)
    (after : List UInt8) : splitCharacter (byte :: after) = (some replacement, after) := by
  have stray := not_isFirst_of_alien alien
  rw [splitCharacter, head_of_not_isFirst stray]
  dsimp only
  rw [if_neg fun leading => stray (.inr leading)]

theorem splitCharacter_broken {start : List UInt8} {byte : UInt8} (begins : IsStart start)
    (stops : ¬IsStart (start ++ [byte])) (other : ∀ c, String.utf8EncodeChar c ≠ start ++ [byte]) (after : List UInt8) :
    splitCharacter (start ++ [byte] ++ after) = (some replacement, after) := by
  obtain ⟨first, rest, rfl⟩ := List.exists_cons_of_ne_nil begins.begun
  rw [List.cons_append, List.cons_append, splitCharacter, head_of_broken begins stops other]
  dsimp only
  rw [if_pos (isLeading_of_truncated (isStart_iff.1 begins)), ← List.append_cons, List.drop_length_add_append,
    List.drop_succ_cons, List.drop_zero]

theorem splitCharacter_unfinished {start : List UInt8} (begins : IsStart start) : splitCharacter start = (none, []) := by
  obtain ⟨first, rest, rfl⟩ := List.exists_cons_of_ne_nil begins.begun
  rw [splitCharacter, isStart_iff.1 begins]

section Drains

variable {bytes after : List UInt8} {output : String} {c : Char} {characters : List Char}

theorem drains_of_split (read : splitCharacter bytes = (some c, after))
    (rest : Drains (BufferedConsole.mk after output) characters) :
    Drains (BufferedConsole.mk bytes output) (c :: characters) := by
  have next : (readCharacter (BufferedConsole.mk bytes output)).2 = BufferedConsole.mk after output :=
    congrArg (fun split => BufferedConsole.mk split.2 output) read
  exact .some (congrArg Prod.fst read) (next ▸ rest)

/-- The parts are read one after the other, up to the start of a character at the end. -/
theorem drains_of_divided {pieces : List Piece} (divided : Divided pieces) (output : String) :
    Drains (BufferedConsole.mk (bytesOf pieces) output) (pieces.filterMap Piece.shown) := by
  induction divided with
  | nil => exact .none rfl
  | @character c pieces rest ih => exact drains_of_split (splitCharacter_character c (bytesOf pieces)) ih
  | @stray byte alien pieces rest ih => exact drains_of_split (splitCharacter_stray alien (bytesOf pieces)) ih
  | @broken start byte begins stops other pieces rest ih =>
    exact drains_of_split (splitCharacter_broken begins stops other (bytesOf pieces)) ih
  | @unfinished start begins =>
    have only : bytesOf [.unfinished start] = start := List.append_nil start
    have read := splitCharacter_unfinished begins
    rw [only]
    exact .none (congrArg Prod.fst read)

/-- What is drained from the one console is drained from the other one. -/
theorem Drains.channel {buffered : BufferedConsole} (drains : Drains buffered characters) {channel : ChannelConsole}
    (alike : ReadAlike buffered channel) : Drains channel characters := by
  induction drains generalizing channel with
  | none exhausted => exact .none ((readCharacter_readAlike alike).1.trans exhausted)
  | some read rest ih =>
    obtain ⟨same, next⟩ := readCharacter_readAlike alike
    exact .some (same.trans read) (ih next)

theorem Drains.unique {κ : Type} [Console κ] {console : κ} {characters others : List Char}
    (drains : Drains console characters) (again : Drains console others) : characters = others := by
  induction drains generalizing others with
  | none exhausted =>
    cases again with
    | none => rfl
    | some read => exact absurd (exhausted.symm.trans read) (by simp)
  | some read rest ih =>
    cases again with
    | none exhausted => exact absurd (exhausted.symm.trans read) (by simp)
    | some other later =>
      cases read.symm.trans other
      rw [ih later]

end Drains

/-- Every input falls into such parts. -/
theorem exists_divided (bytes : List UInt8) : ∃ pieces, Divided pieces ∧ bytesOf pieces = bytes := by
  induction length : bytes.length using Nat.strongRecOn generalizing bytes with
  | ind size ih =>
    subst length
    cases bytes with
    | nil => exact ⟨[], .nil, rfl⟩
    | cons first rest =>
      have shorter (count : Nat) : (rest.drop count).length < (first :: rest).length := by
        rw [List.length_drop, List.length_cons]
        omega
      cases found : head first rest with
      | character c count =>
        obtain ⟨short, encoded⟩ := head_eq_character_iff.1 found
        obtain ⟨pieces, divided, same⟩ := ih (rest.drop count).length (shorter count) _ rfl
        refine ⟨.character c :: pieces, .character c divided, ?_⟩
        rw [bytesOf, List.flatMap_cons, Piece.bytes, encoded, ← bytesOf, same, List.cons_append, List.take_append_drop]
      | truncated =>
        exact ⟨[.unfinished (first :: rest)], .unfinished (isStart_iff.2 found), List.append_nil _⟩
      | malformed count =>
        by_cases begins : IsFirst first
        · obtain ⟨inside, cut, broken⟩ := broken_of_head begins found
          have split : rest.take (count + 1) = rest.take count ++ [rest[count]] := by
            rw [List.take_append_getElem inside]
          obtain ⟨pieces, divided, same⟩ := ih (rest.drop (count + 1)).length (shorter (count + 1)) _ rfl
          have stops : ¬IsStart (first :: rest.take count ++ [rest[count]]) := by
            rw [List.cons_append, ← split, isStart_iff, broken]
            exact Head.noConfusion
          have other : ∀ c, String.utf8EncodeChar c ≠ first :: rest.take count ++ [rest[count]] := by
            intro c encoded
            rw [List.cons_append, ← split, ← head_eq_character_length_iff, broken] at encoded
            cases encoded
          refine ⟨.broken (first :: rest.take count) rest[count] :: pieces,
            .broken (isStart_iff.2 cut) stops other divided, ?_⟩
          rw [bytesOf, List.flatMap_cons, Piece.bytes, ← bytesOf, same, List.cons_append, ← split, List.cons_append,
            List.take_append_drop]
        · obtain ⟨pieces, divided, same⟩ := ih rest.length (Nat.lt_succ_self _) _ rfl
          have alien : ∀ c more, String.utf8EncodeChar c ≠ first :: more := fun c more encoded =>
            begins (isFirst_iff_exists.2 ⟨c, more, encoded⟩)
          exact ⟨.stray first :: pieces, .stray alien divided, congrArg (first :: ·) same⟩

/-- What a reader sees at the head of the bytes, as a part of them. -/
def firstPiece (first : UInt8) (rest : List UInt8) : Piece :=
  match head first rest with
  | .character c _ => .character c
  | .malformed count =>
    if IsFirst first then .broken (first :: rest.take count) (rest.getD count 0) else .stray first
  | .truncated => .unfinished (first :: rest)

theorem exists_firstPiece {piece : Piece} {pieces : List Piece} (divided : Divided (piece :: pieces)) :
    ∃ first rest, bytesOf (piece :: pieces) = first :: rest ∧ firstPiece first rest = piece := by
  cases divided with
  | character c later =>
    obtain ⟨first, rest, encoded⟩ := List.exists_cons_of_ne_nil (String.utf8EncodeChar_ne_nil (c := c))
    refine ⟨first, rest ++ bytesOf pieces, ?_, ?_⟩
    · rw [bytesOf_cons, Piece.bytes, encoded, List.cons_append]
    · rw [firstPiece, head_of_character encoded]
  | @stray byte alien _ later =>
    have stray := not_isFirst_of_alien alien
    refine ⟨byte, bytesOf pieces, rfl, ?_⟩
    rw [firstPiece, head_of_not_isFirst stray]
    dsimp only
    rw [if_neg stray]
  | @broken start byte begins stops other _ later =>
    obtain ⟨first, rest, rfl⟩ := List.exists_cons_of_ne_nil begins.begun
    have leading := isLeading_of_truncated (isStart_iff.1 begins)
    refine ⟨first, rest ++ [byte] ++ bytesOf pieces, ?_, ?_⟩
    · rw [bytesOf_cons, Piece.bytes, List.cons_append, List.cons_append]
    · rw [firstPiece, head_of_broken begins stops other]
      dsimp only
      rw [if_pos (.inr leading), List.append_assoc, List.take_left]
      simp
  | @unfinished start begins =>
    obtain ⟨first, rest, rfl⟩ := List.exists_cons_of_ne_nil begins.begun
    refine ⟨first, rest, List.append_nil _, ?_⟩
    rw [firstPiece, isStart_iff.1 begins]

theorem Divided.tail {piece : Piece} {pieces : List Piece} (divided : Divided (piece :: pieces)) : Divided pieces := by
  cases divided with
  | character _ later | stray _ later | broken _ _ _ later => exact later
  | unfinished => exact .nil

/-- There is only one way in which an input falls into parts. -/
theorem Divided.unique {pieces others : List Piece} (divided : Divided pieces) (again : Divided others)
    (same : bytesOf pieces = bytesOf others) : pieces = others := by
  induction pieces generalizing others with
  | nil =>
    cases others with
    | nil => rfl
    | cons other others =>
      obtain ⟨first, rest, bytes, -⟩ := exists_firstPiece again
      exact absurd (same.trans bytes) (by simp [bytesOf])
  | cons piece pieces ih =>
    obtain ⟨first, rest, bytes, seen⟩ := exists_firstPiece divided
    cases others with
    | nil => exact absurd (same.symm.trans bytes) (by simp [bytesOf])
    | cons other others =>
      obtain ⟨first', rest', bytes', seen'⟩ := exists_firstPiece again
      cases bytes.symm.trans (same.trans bytes')
      cases seen.symm.trans seen'
      rw [bytesOf_cons, bytesOf_cons] at same
      rw [ih divided.tail again.tail (List.append_cancel_left same)]

section Part

variable {before after : List UInt8} {c : Char} {others : List Char} {pieces : List Piece}

/-- All characters between the bytes are read. -/
def ReadWhole (before : List UInt8) (part : List Char) (after : List UInt8) (pieces : List Piece) : Prop :=
  ∃ front back, pieces = front ++ part.map .character ++ back ∧ bytesOf front = before ∧ bytesOf back = after

/--
The bytes before the part end with the start of a character. It is the first byte of the part that breaks it off, and what
is left of the first character begins no character; all others are read.
-/
def FirstLost (before : List UInt8) (c : Char) (others : List Char) (after : List UInt8) (pieces : List Piece) : Prop :=
  ∃ front start byte more back, IsStart start ∧ String.utf8EncodeChar c = byte :: more ∧
    pieces = front ++ .broken start byte :: (more.map .stray ++ others.map .character ++ back) ∧
    bytesOf front ++ start = before ∧ bytesOf back = after

theorem ReadWhole.cons {part : List Char} (whole : ReadWhole before part after pieces) (piece : Piece) :
    ReadWhole (piece.bytes ++ before) part after (piece :: pieces) := by
  obtain ⟨front, back, rfl, rfl, rfl⟩ := whole
  exact ⟨piece :: front, back, rfl, bytesOf_cons piece front, rfl⟩

theorem FirstLost.cons (lost : FirstLost before c others after pieces) (piece : Piece) :
    FirstLost (piece.bytes ++ before) c others after (piece :: pieces) := by
  obtain ⟨front, start, byte, more, back, begins, encoded, rfl, rfl, rfl⟩ := lost
  refine ⟨piece :: front, start, byte, more, back, begins, encoded, rfl, ?_, rfl⟩
  rw [bytesOf_cons, List.append_assoc]

theorem Divided.characters (part : List Char) (divided : Divided pieces) : Divided (part.map .character ++ pieces) := by
  induction part with
  | nil => exact divided
  | cons c part ih => exact .character c ih

theorem Divided.strays {bytes : List UInt8} (aliens : ∀ byte ∈ bytes, ¬IsFirst byte) (divided : Divided pieces) :
    Divided (bytes.map .stray ++ pieces) := by
  induction bytes with
  | nil => exact divided
  | cons byte bytes ih =>
    rw [List.forall_mem_cons] at aliens
    exact .stray (fun c more encoded => aliens.1 (isFirst_iff_exists.2 ⟨c, more, encoded⟩)) (ih aliens.2)

/-- The first byte of a character breaks off what was begun before it. -/
theorem breaks_of_isFirst {start : List UInt8} {byte : UInt8} (begins : IsStart start) (first : IsFirst byte) :
    ¬IsStart (start ++ [byte]) ∧ ∀ c, String.utf8EncodeChar c ≠ start ++ [byte] := by
  obtain ⟨head, rest, rfl⟩ := List.exists_cons_of_ne_nil begins.begun
  have inside (c : Char) (more : List UInt8) : String.utf8EncodeChar c ≠ head :: (rest ++ [byte]) ++ more := fun encoded =>
    not_isFirst_of_mem encoded (by simp) first
  constructor
  · intro longer
    obtain ⟨c, more, -, encoded⟩ := longer.incomplete
    exact inside c more encoded
  · intro c encoded
    exact inside c [] (by rw [List.append_nil]; exact encoded)

theorem bytesOf_append (pieces others : List Piece) : bytesOf (pieces ++ others) = bytesOf pieces ++ bytesOf others :=
  List.flatMap_append

theorem bytesOf_characters (part : List Char) : bytesOf (part.map .character) = encode part :=
  List.flatMap_map Piece.character Piece.bytes part

theorem bytesOf_strays (bytes : List UInt8) : bytesOf (bytes.map .stray) = bytes := by
  rw [bytesOf, List.flatMap_map]
  exact List.flatMap_singleton' bytes

theorem ReadWhole.bytesOf_eq {part : List Char} (whole : ReadWhole before part after pieces) :
    bytesOf pieces = before ++ encode part ++ after := by
  obtain ⟨front, back, rfl, rfl, rfl⟩ := whole
  rw [bytesOf_append, bytesOf_append, bytesOf_characters]

theorem FirstLost.bytesOf_eq (lost : FirstLost before c others after pieces) :
    bytesOf pieces = before ++ encode (c :: others) ++ after := by
  obtain ⟨front, start, byte, more, back, -, encoded, rfl, rfl, rfl⟩ := lost
  have part : encode (c :: others) = byte :: more ++ encode others := by
    rw [encode, List.flatMap_cons, encoded, encode]
  rw [bytesOf_append, bytesOf_cons, bytesOf_append, bytesOf_append, bytesOf_strays, bytesOf_characters, Piece.bytes, part]
  simp only [List.append_assoc, List.cons_append, List.nil_append]

theorem FirstLost.start_suffix (lost : FirstLost before c others after pieces) :
    ∃ start, IsStart start ∧ start <:+ before := by
  obtain ⟨front, start, byte, more, back, begins, -, -, ends, -⟩ := lost
  exact ⟨start, begins, _, ends⟩

theorem exists_part {front back : List Piece} (divided : Divided front) (later : Divided back) (c : Char)
    (others : List Char) : ∃ pieces, Divided pieces ∧
      (ReadWhole (bytesOf front) (c :: others) (bytesOf back) pieces ∨
        FirstLost (bytesOf front) c others (bytesOf back) pieces) := by
  have step {pieces front : List Piece} (piece : Piece)
      (found : ReadWhole (bytesOf front) (c :: others) (bytesOf back) pieces ∨
        FirstLost (bytesOf front) c others (bytesOf back) pieces) :
      ReadWhole (bytesOf (piece :: front)) (c :: others) (bytesOf back) (piece :: pieces) ∨
        FirstLost (bytesOf (piece :: front)) c others (bytesOf back) (piece :: pieces) := by
    rw [bytesOf_cons]
    exact found.imp (·.cons piece) (·.cons piece)
  induction divided with
  | nil => exact ⟨_, later.characters (c :: others), .inl ⟨[], back, rfl, rfl, rfl⟩⟩
  | character d rest ih =>
    obtain ⟨pieces, divided, found⟩ := ih
    exact ⟨_, .character d divided, step _ found⟩
  | stray alien rest ih =>
    obtain ⟨pieces, divided, found⟩ := ih
    exact ⟨_, .stray alien divided, step _ found⟩
  | broken begins stops other rest ih =>
    obtain ⟨pieces, divided, found⟩ := ih
    exact ⟨_, .broken begins stops other divided, step _ found⟩
  | @unfinished start begins =>
    obtain ⟨byte, more, encoded⟩ := List.exists_cons_of_ne_nil (String.utf8EncodeChar_ne_nil (c := c))
    obtain ⟨stops, other⟩ := breaks_of_isFirst begins (isFirst_iff_exists.2 ⟨c, more, encoded⟩)
    have strays := (later.characters others).strays fun byte member => not_isFirst_of_mem encoded member
    refine ⟨_, .broken begins stops other strays, .inr ⟨[], start, byte, more, back, begins, encoded, ?_, ?_, rfl⟩⟩
    · rw [List.nil_append, List.append_assoc]
    · exact (List.append_nil start).symm

end Part

/--
Every input falls into parts in one way, and reading character by character gives, on either console, what is shown for
the parts. Wherever in the input there are characters, all of them are read, unless the bytes before them end with the
start of a character that the first of them breaks off: then that one is lost, byte by byte, and no other. So all of them
are read wherever no start of a character stands before them.
-/
theorem characters_of_parts (bytes : List UInt8) : ∃ pieces, Divided pieces ∧ bytesOf pieces = bytes ∧
    (∀ output, Drains (BufferedConsole.mk bytes output) (pieces.filterMap Piece.shown)) ∧
    (∀ output room, Drains (ChannelConsole.mk bytes output room) (pieces.filterMap Piece.shown)) ∧
    ∀ before c others after, before ++ encode (c :: others) ++ after = bytes →
      (ReadWhole before (c :: others) after pieces ∨ FirstLost before c others after pieces) ∧
        ((∀ start, start <:+ before → ¬IsStart start) → ReadWhole before (c :: others) after pieces) := by
  obtain ⟨pieces, divided, rfl⟩ := exists_divided bytes
  refine ⟨pieces, divided, rfl, drains_of_divided divided, fun output room => ?_, ?_⟩
  · exact (drains_of_divided divided output).channel rfl
  · intro before c others after within
    obtain ⟨front, divided_front, rfl⟩ := exists_divided before
    obtain ⟨back, divided_back, rfl⟩ := exists_divided after
    obtain ⟨whole, divided_whole, found⟩ := exists_part divided_front divided_back c others
    have same : bytesOf whole = bytesOf pieces := (found.elim (·.bytesOf_eq) (·.bytesOf_eq)).trans within
    cases divided_whole.unique divided same
    refine ⟨found, fun free => found.resolve_right fun lost => ?_⟩
    obtain ⟨start, begins, ends⟩ := lost.start_suffix
    exact free start ends begins

/-- The end of a line that stands directly behind the start of a character is not read. -/
theorem newline_lost_behind_start : encode ['\n'] = [0x0A] ∧
    (∀ characters, Drains (BufferedConsole.mk ([0xC3] ++ encode ['\n']) "") characters → '\n' ∉ characters) ∧
    ∀ characters, Drains (ChannelConsole.mk ([0xC3] ++ encode ['\n']) "" none) characters → '\n' ∉ characters := by
  have buffered : Drains (BufferedConsole.mk ([0xC3] ++ encode ['\n']) "") [replacement] := .some rfl (.none rfl)
  have channel : Drains (ChannelConsole.mk ([0xC3] ++ encode ['\n']) "" none) [replacement] := .some rfl (.none rfl)
  refine ⟨rfl, fun characters drains => ?_, fun characters drains => ?_⟩
  · rw [drains.unique buffered]
    decide
  · rw [drains.unique channel]
    decide

end Mips.Console
