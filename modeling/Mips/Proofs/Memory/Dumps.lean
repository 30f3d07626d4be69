import Mips.Dump
import Mips.Proofs.Memory.Access
import Mips.Proofs.Text.Numeral
import Mips.Source

/-!
What dumps show. A dump takes in whole words, from the one that holds the first byte of its range to the one that holds the last,
so that it ends at the end of the address space at the latest; as bytes they are those of memory, and as text each word has a line
of its own. Main statements: `flatMap_wordRange`, `lists_words` and `dumps_agree`.
-/

namespace Mips

open Text

theorem Word.bytes_eq_littleEndian (word : Word) : word.bytes = littleEndian word.toNat 4 := by
  rw [← bytes_ofInt, ofInt_toNat]

/-- A line is ended by a line feed. -/
theorem linesFrom_lineFeed {line : List Char} (single : '\n' ∉ line) (reversed rest : List Char) :
    linesFrom reversed (line ++ '\n' :: rest) = endedLine (line.reverse ++ reversed) :: linesFrom [] rest := by
  induction line generalizing reversed with
  | nil => rfl
  | cons c line ih =>
    rw [List.mem_cons, not_or] at single
    have other : ∀ remaining, linesFrom reversed (c :: remaining) = linesFrom (c :: reversed) remaining := by
      intro remaining
      rw [linesFrom]
      exact fun feed => single.1 feed.symm
    rw [List.cons_append, other, ih single.2, List.reverse_cons, List.append_assoc, List.singleton_append]

theorem endedLine_of_notMem {line : List Char} (plain : '\r' ∉ line) : endedLine line.reverse = line := by
  unfold endedLine
  split
  next reversed shape =>
    have member : '\r' ∈ line.reverse := shape ▸ List.mem_cons_self
    exact absurd (List.mem_reverse.1 member) plain
  next => exact List.reverse_reverse line

/--
Each line of the text is ended by a line feed and shows one of the words, in their order, by so many digits of the base; what is
read from the lines are the words.
-/
structure Lists (base width : Nat) (text : String) (words : List Word) : Prop where
  ended : text.toList = (lines text).flatMap fun line => line.toList ++ ['\n']
  shown : List.Forall₂ (fun line word => line.toList.length = width ∧ IsNumeral base line.toList word.toNat) (lines text)
    words
  read : (lines text).map (fun line => readNumeral? base line.toList) = words.map fun word => some word.toNat

section Numerals

variable {base : Nat} (positive : 2 ≤ base) (bounded : base ≤ 16)

include positive bounded in
/-- No line ends within the digits of a number. -/
theorem notMem_padLeft (width number : Nat) {c : Char} (ends : c = '\n' ∨ c = '\r') :
    c ∉ padLeft width (digits base number) := by
  intro member
  have table : ∀ value < 16, digit value ≠ '\n' ∧ digit value ≠ '\r' := by decide
  rcases List.mem_append.1 member with zero | later
  · rw [List.eq_of_mem_replicate zero] at ends
    exact absurd ends (by decide)
  · obtain ⟨value, small, rfl⟩ := exists_digit_of_mem positive later
    have other := table value (by omega)
    rcases ends with feed | carriage
    · exact other.1 feed
    · exact other.2 carriage

include positive bounded in
/-- Words that are written with so many digits, each on a line of its own, are listed. -/
theorem lists_words {width : Nat} (room : 0 < width) (wide : 0x100000000 ≤ Nat.pow base width) (words : List Word) :
    Lists base width (String.ofList (words.flatMap fun word => padLeft width (digits base word.toNat) ++ ['\n'])) words := by
  have split : lines (String.ofList (words.flatMap fun word => padLeft width (digits base word.toNat) ++ ['\n'])) =
      words.map fun word => String.ofList (padLeft width (digits base word.toNat)) := by
    rw [lines, String.toList_ofList]
    induction words with
    | nil => rfl
    | cons word rest ih =>
      have single := notMem_padLeft positive bounded width word.toNat (.inl rfl)
      have plain := notMem_padLeft positive bounded width word.toNat (.inr rfl)
      rw [List.flatMap_cons, List.append_assoc, List.singleton_append, linesFrom_lineFeed single, List.append_nil,
        endedLine_of_notMem plain, List.map_cons, ih, List.map_cons]
  constructor
  case ended => simp only [split, String.toList_ofList, List.flatMap_map]
  case shown =>
    rw [split, List.forall₂_map_left_iff, List.forall₂_same]
    intro word _
    have small : word.toNat < Nat.pow base width := Nat.lt_of_lt_of_le word.toNat_lt wide
    rw [String.toList_ofList]
    exact ⟨length_padLeft (length_digits_le positive room small),
      (readNumeral?_eq_some_iff bounded).1 (readNumeral?_padLeft positive bounded width word.toNat)⟩
  case read =>
    rw [split, List.map_map]
    refine List.map_congr_left fun word _ => ?_
    rw [Function.comp_apply, String.toList_ofList, readNumeral?_padLeft positive bounded]

end Numerals

namespace Memory

variable (memory : Memory)

/-- The bytes of a word are those of memory from its address on. -/
theorem bytes_wordAt {address : Address} (aligned : address.toNat % 4 = 0) :
    (memory.wordAt address).bytes = memory.bytesFrom address 4 := by
  suffices each : ∀ index byte, (memory.wordAt address).bytes[index]? = some byte →
      memory.byteAt (address + UInt32.ofNat index) = byte from (memory.bytesFrom_eq_iff.2 each).symm
  intro index byte found
  rw [Word.bytes_eq_littleEndian, getElem?_littleEndian, Option.ite_none_right_eq_some, Option.some.injEq] at found
  obtain ⟨inside, rfl⟩ := found
  obtain ⟨together, place⟩ := @place_of_aligned .word address index aligned inside
  rw [← UInt8.toNat_inj, toNat_byteAt, ← wordAt, memory.wordAt_congr together, place, aligned, Nat.zero_add,
    UInt8.toNat_ofNat', Nat.mod_mod]

theorem bytesFrom_add (address : Address) (first second : Nat) :
    memory.bytesFrom address (first + second) =
      memory.bytesFrom address first ++ memory.bytesFrom (address + UInt32.ofNat first) second := by
  induction first generalizing address with
  | zero => rw [Nat.zero_add, Word.add_ofNat_zero, bytesFrom, List.nil_append]
  | succ first ih =>
    rw [Nat.succ_add, bytesFrom, ih, bytesFrom, List.cons_append, Word.add_ofNat_succ]

/-- The bytes of words that lie one after another. -/
theorem flatMap_bytes {address : Address} (aligned : address.toNat % 4 = 0) (count : Nat) :
    ((List.range count).flatMap fun index => (memory.wordAt (address + UInt32.ofNat (4 * index))).bytes) =
      memory.bytesFrom address (4 * count) := by
  induction count with
  | zero => rfl
  | succ count ih =>
    have next : (address + UInt32.ofNat (4 * count)).toNat % 4 = 0 := by
      rw [UInt32.toNat_add, UInt32.toNat_ofNat']
      omega
    rw [List.range_succ, List.flatMap_append, ih, List.flatMap_singleton, bytes_wordAt memory next, Nat.mul_succ, bytesFrom_add]

/-- The words of a range lie one after another, from the one that holds the first byte on. -/
theorem wordRange_eq (start stop : Address) :
    memory.wordRange start stop = (List.range ((stop.toNat + 3) / 4 - start.toNat / 4)).map fun index =>
      memory.wordAt (Word.align start + UInt32.ofNat (4 * index)) := by
  have first : UInt32.ofNat (4 * (start.toNat / 4)) = Word.align start := by
    have bound := start.toNat_lt
    rw [← UInt32.toNat_inj, Word.toNat_align, UInt32.toNat_ofNat']
    omega
  unfold wordRange
  apply List.map_congr_left
  intro index _
  rw [Nat.mul_add, UInt32.ofNat_add, first]

theorem flatMap_wordRange (start stop : Address) :
    (memory.wordRange start stop).flatMap Word.bytes =
      memory.bytesFrom (Word.align start) (4 * ((stop.toNat + 3) / 4 - start.toNat / 4)) := by
  have aligned : (Word.align start).toNat % 4 = 0 := by
    rw [Word.toNat_align]
    omega
  rw [wordRange_eq, List.flatMap_map, flatMap_bytes memory aligned]

/-- The bytes of an absent word are zero. -/
theorem byteAt_of_absent {address : Address} (absent : memory.word? address = none) : memory.byteAt address = 0 := by
  rw [← UInt8.toNat_inj, toNat_byteAt, absent, Option.getD_none, UInt32.toNat_zero, Nat.zero_div]
  rfl

end Memory

/-- The text dumps list the words. -/
theorem DumpFormat.lists_dump (memory : Memory) (start stop : Address) :
    (∃ text, hexText.dump memory start stop = Utf8.ofText text ∧ Lists 16 8 text (memory.wordRange start stop)) ∧
      ∃ text, binaryText.dump memory start stop = Utf8.ofText text ∧ Lists 2 32 text (memory.wordRange start stop) := by
  have whole (line : Word → String) (words : List Word) :
      (words.flatMap fun word => Utf8.ofText (line word ++ "\n")) =
        Utf8.ofText (String.ofList (words.flatMap fun word => (line word).toList ++ ['\n'])) := by
    simp only [Utf8.ofText, Utf8.encode, String.toList_append, String.toList_ofList, List.flatMap_assoc]
    rfl
  refine ⟨⟨_, whole hexDigits _, ?_⟩, ⟨_, whole bits _, ?_⟩⟩
  · simp only [hexDigits, String.toList_ofList]
    exact lists_words (by decide) (by decide) (by decide) (by decide) _
  · simp only [bits, String.toList_ofList]
    exact lists_words (by decide) (by decide) (by decide) (by decide) _

/--
A dump of a range takes in the bytes of memory from its start, rounded down to a multiple of four, to its end, rounded up to
one, which the end of the address space is as well; absent words are zero. The two text dumps of the range list the same words in
the same order, each with eight hexadecimal digits or 32 binary ones on a line of its own that a line feed ends.
-/
theorem dumps_agree (memory : Memory) (start stop : Address) :
    let words := memory.wordRange start stop
    let first := start.toNat / 4 * 4
    let last := (stop.toNat + 3) / 4 * 4
    (Word.align start).toNat = first ∧ last ≤ 0x100000000 ∧
      DumpFormat.binary.dump memory start stop = memory.bytesFrom (Word.align start) (last - first) ∧
      (∀ address, memory.word? address = none → memory.byteAt address = 0) ∧
      DumpFormat.binary.dump memory start stop = words.flatMap Word.bytes ∧
      (∃ text, DumpFormat.hexText.dump memory start stop = Utf8.ofText text ∧ Lists 16 8 text words) ∧
      ∃ text, DumpFormat.binaryText.dump memory start stop = Utf8.ofText text ∧ Lists 2 32 text words := by
  intro words first last
  have bound := stop.toNat_lt
  have size : 4 * ((stop.toNat + 3) / 4 - start.toNat / 4) = last - first := by omega
  have bytes : words.flatMap Word.bytes = memory.bytesFrom (Word.align start) (last - first) :=
    size ▸ memory.flatMap_wordRange start stop
  obtain ⟨hexadecimal, binary⟩ := DumpFormat.lists_dump memory start stop
  exact ⟨Word.toNat_align start, by omega, bytes, fun _ => memory.byteAt_of_absent, rfl, hexadecimal, binary⟩

/-- The last bytes that there are lie in the last word. -/
example (memory : Memory) : memory.wordRange 0xFFFFFFFD 0xFFFFFFFF = [memory.wordAt 0xFFFFFFFC] := rfl

end Mips
