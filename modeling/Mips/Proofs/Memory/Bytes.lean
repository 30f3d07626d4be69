import Mips.Memory
import Mips.Proofs.Word

/-!
Memory as bytes and words: what is read at an address after something was written at another one. Main statements:
`byteAt_setBytesOf`, `byteAt_setByte`, `byteAt_setBytes` and `wordAt_setWords`.
-/

namespace Mips

open Std (ExtTreeMap)

/-- The bit where the byte at an address begins, in its word. -/
theorem toNat_bitOffset (address : Address) : (bitOffset address).toNat = 8 * (address.toNat % 4) := by
  have small := Nat.mod_lt address.toNat (by decide : 4 > 0)
  have eight : (8 : Word).toNat = 8 := rfl
  rw [bitOffset, UInt32.toNat_mul, Word.toNat_and_three, eight]
  omega

theorem shift_bitOffset (address : Address) :
    ((bitOffset address).toBitVec % 32).toNat = 8 * (address.toNat % 4) := by
  have value := toNat_bitOffset address
  change (bitOffset address).toNat % 32 = _
  omega

theorem getLsbD_mask (width : Width) (position : Nat) :
    width.mask.toBitVec.getLsbD position = decide (position < 8 * width.bytes.toNat) := by
  have ones (bits : Nat) (narrow : bits ≤ 32) :
      (BitVec.ofNat 32 (2 ^ bits - 1)).getLsbD position = decide (position < bits) := by
    rw [BitVec.getLsbD_ofNat, Nat.testBit_two_pow_sub_one]
    by_cases low : position < bits
    · simp only [low, decide_true, Bool.and_true, decide_eq_true_eq]
      omega
    · simp only [low, decide_false, Bool.and_false]
  cases width with
  | byte => exact ones 8 (by decide)
  | half => exact ones 16 (by decide)
  | word => exact ones 32 (by decide)

/-- Replacing bytes of a word replaces just their bits. -/
theorem getLsbD_merge (width : Width) (address : Address) (value word : Word) {position : Nat}
    (inside : position < 32) :
    (merge width address value word).toBitVec.getLsbD position =
      if 8 * (address.toNat % 4) ≤ position ∧ position < 8 * (address.toNat % 4) + 8 * width.bytes.toNat then
        value.toBitVec.getLsbD (position - 8 * (address.toNat % 4))
      else word.toBitVec.getLsbD position := by
  simp only [merge, UInt32.toBitVec_or, UInt32.toBitVec_and, UInt32.toBitVec_not, UInt32.toBitVec_shiftLeft,
    BitVec.shiftLeft_eq', shift_bitOffset, BitVec.getLsbD_or, BitVec.getLsbD_and, BitVec.getLsbD_not,
    BitVec.getLsbD_shiftLeft, getLsbD_mask]
  grind

theorem getLsbD_extract_byte (address : Address) (word : Word) (position : Nat) :
    (extract .byte address word).toBitVec.getLsbD position =
      (decide (position < 8) && word.toBitVec.getLsbD (8 * (address.toNat % 4) + position)) := by
  have low := getLsbD_mask .byte position
  change _ = decide (position < 8) at low
  simp only [extract, UInt32.toBitVec_and, UInt32.toBitVec_shiftRight, BitVec.ushiftRight_eq', shift_bitOffset,
    BitVec.getLsbD_and, BitVec.getLsbD_ushiftRight, low, Bool.and_comm]

/-- Of the four bytes of a word, those that were replaced are the new ones, and the others are as they were. -/
theorem extract_merge (width : Width) (address other : Address) (value word : Word) :
    extract .byte other (merge width address value word) =
      if address.toNat % 4 ≤ other.toNat % 4 ∧ other.toNat % 4 < address.toNat % 4 + width.bytes.toNat then
        extract .byte (other - address) value
      else extract .byte other word := by
  have bounds := And.intro address.toNat_lt other.toNat_lt
  have apart := UInt32.toNat_sub other address
  rw [← UInt32.toBitVec_inj]
  apply BitVec.eq_of_getLsbD_eq
  intro position _
  rw [getLsbD_extract_byte]
  by_cases low : position < 8
  · rw [getLsbD_merge _ _ _ _ (by omega)]
    by_cases within : address.toNat % 4 ≤ other.toNat % 4 ∧ other.toNat % 4 < address.toNat % 4 + width.bytes.toNat
    · have place : 8 * (other.toNat % 4) + position - 8 * (address.toNat % 4) =
          8 * ((other - address).toNat % 4) + position := by omega
      rw [if_pos within, if_pos (by omega), getLsbD_extract_byte, place]
    · rw [if_neg within, if_neg (by omega), getLsbD_extract_byte]
  · split <;> rw [getLsbD_extract_byte] <;> simp [low]

theorem extract_zero (width : Width) (word : Word) : extract width 0 word = word &&& width.mask := by
  have none : bitOffset 0 = 0 := rfl
  rw [extract, none, UInt32.shiftRight_zero]

theorem toUInt32_and_byteMask (byte : UInt8) : byte.toUInt32 &&& Width.byte.mask = byte.toUInt32 := by
  have value := Word.toNat_and_mask byte.toUInt32 8 Width.byte.mask rfl
  rw [← UInt32.toNat_inj, value, UInt8.toNat_toUInt32]
  exact Nat.mod_eq_of_lt byte.toNat_lt

/-- A byte has no bits that would have to be masked when it replaces a byte of a word. -/
theorem merge_byte (address : Address) (byte : UInt8) (word : Word) :
    merge .byte address byte.toUInt32 word =
      (word &&& ~~~(0xFF <<< bitOffset address)) ||| (byte.toUInt32 <<< bitOffset address) := by
  have inside : (byte.toUInt32 <<< bitOffset address) &&& (Width.byte.mask <<< bitOffset address) =
      byte.toUInt32 <<< bitOffset address := by
    rw [← UInt32.shiftLeft_and, toUInt32_and_byteMask]
  rw [merge, inside]
  rfl

namespace Memory

variable (memory : Memory)

theorem word?_setWord (address other : Address) (word : Word) :
    (memory.setWord address word).word? other =
      if Word.align address = Word.align other then some word else memory.word? other := by
  simp only [word?, setWord, assign, ExtTreeMap.getElem?_insert, Std.LawfulEqCmp.compare_eq_iff_eq]

theorem wordAt_setWord (address other : Address) (word : Word) :
    (memory.setWord address word).wordAt other =
      if Word.align address = Word.align other then word else memory.wordAt other := by
  rw [wordAt, word?_setWord]
  split <;> rfl

/-- Addresses in the same word read the same word. -/
theorem wordAt_congr {first second : Address} (same : Word.align first = Word.align second) :
    memory.wordAt first = memory.wordAt second := by
  rw [wordAt, wordAt, word?, word?, same]

theorem byteAt_congr {first second : Memory} {address : Address} (same : first.wordAt address = second.wordAt address) :
    first.byteAt address = second.byteAt address := by
  rw [byteAt, byteAt, same]

/-- A value changes as many bytes as its width has, each to one of its own, if its address is a multiple of the width. -/
theorem byteAt_setBytesOf {width : Width} {address : Address} (other : Address) (value : Word)
    (aligned : address.toNat % width.bytes.toNat = 0) :
    (memory.setBytesOf width address value).byteAt other =
      if (other - address).toNat < width.bytes.toNat then (extract .byte (other - address) value).toUInt8
      else memory.byteAt other := by
  -- The bytes from a multiple of the width on lie in one word.
  have inside : (other - address).toNat < width.bytes.toNat ↔ Word.align address = Word.align other ∧
      address.toNat % 4 ≤ other.toNat % 4 ∧ other.toNat % 4 < address.toNat % 4 + width.bytes.toNat := by
    have bounds := And.intro address.toNat_lt other.toNat_lt
    have apart := UInt32.toNat_sub other address
    rw [Word.align_eq_align_iff]
    cases width <;> simp only [Width.bytes, UInt32.reduceToNat] at aligned ⊢ <;> omega
  rw [byteAt, setBytesOf, wordAt_setWord]
  by_cases together : Word.align address = Word.align other
  · rw [if_pos together, extract_merge, memory.wordAt_congr together, byteAt]
    by_cases place : address.toNat % 4 ≤ other.toNat % 4 ∧ other.toNat % 4 < address.toNat % 4 + width.bytes.toNat
    · rw [if_pos place, if_pos (inside.2 ⟨together, place⟩)]
    · rw [if_neg place, if_neg fun covered => place (inside.1 covered).2]
  · rw [if_neg together, if_neg fun covered => together (inside.1 covered).1, byteAt]

theorem setByte_eq (address : Address) (byte : UInt8) :
    memory.setByte address byte = memory.setBytesOf .byte address byte.toUInt32 := by
  rw [setByte, setBytesOf, merge_byte]

/-- A byte that was written is read again, and all other bytes are as they were. -/
theorem byteAt_setByte (address other : Address) (byte : UInt8) :
    (memory.setByte address byte).byteAt other = if address = other then byte else memory.byteAt other := by
  have one : Width.byte.bytes.toNat = 1 := rfl
  have equal : (other - address).toNat < 1 ↔ address = other := by
    rw [Nat.lt_one_iff, Word.toNat_sub_eq_zero_iff, eq_comm]
  rw [setByte_eq, byteAt_setBytesOf _ _ _ (Nat.mod_one _), one]
  by_cases here : address = other
  · rw [if_pos (equal.2 here), if_pos here, here, UInt32.sub_self, extract_zero, toUInt32_and_byteMask,
      UInt8.toUInt8_toUInt32]
  · rw [if_neg (mt equal.1 here), if_neg here]

/-- Bytes that were written are read again, and all other bytes are as they were. -/
theorem byteAt_setBytes (address other : Address) (bytes : List UInt8) (fits : bytes.length ≤ 0x100000000) :
    (memory.setBytes address bytes).byteAt other =
      (bytes[(other - address).toNat]?).getD (memory.byteAt other) := by
  induction bytes generalizing memory address with
  | nil => rfl
  | cons byte rest ih =>
    rw [List.length_cons] at fits
    rw [setBytes, ih _ _ (by omega), byteAt_setByte]
    by_cases here : address = other
    · -- The rest of the bytes would have to go around the whole address space to come back here.
      subst here
      rw [Word.toNat_sub_add_one, List.getElem?_eq_none (by omega), UInt32.sub_self, if_pos rfl]
      rfl
    · rw [if_neg here, Word.toNat_sub_succ here, List.getElem?_cons_succ]

/-- Bytes that do not reach around the end of the address space change nothing outside of their range. -/
theorem byteAt_setBytes_of_apart {address other : Address} {bytes : List UInt8}
    (fits : address.toNat + bytes.length ≤ 0x100000000)
    (apart : other.toNat < address.toNat ∨ address.toNat + bytes.length ≤ other.toNat) :
    (memory.setBytes address bytes).byteAt other = memory.byteAt other := by
  have gap : bytes.length ≤ (other - address).toNat := by
    have bounds := And.intro other.toNat_lt address.toNat_lt
    rw [UInt32.toNat_sub]
    omega
  rw [byteAt_setBytes _ _ _ _ (by omega), List.getElem?_eq_none gap]
  rfl

/-- Bytes change no word but those that they lie in. -/
theorem word?_setBytes {address other : Address} {bytes : List UInt8}
    (apart : ∀ index < bytes.length, Word.align (address + UInt32.ofNat index) ≠ Word.align other) :
    (memory.setBytes address bytes).word? other = memory.word? other := by
  induction bytes generalizing memory address with
  | nil => rfl
  | cons byte rest ih =>
    rw [List.length_cons] at apart
    have first := apart 0 (Nat.succ_pos _)
    rw [Word.add_ofNat_zero] at first
    have later : ∀ index < rest.length, Word.align (address + 1 + UInt32.ofNat index) ≠ Word.align other := by
      intro index inside
      rw [← Word.add_ofNat_succ]
      exact apart (index + 1) (Nat.succ_lt_succ inside)
    rw [setBytes, ih _ later, setByte, word?_setWord, if_neg first]

theorem word?_setBytes_of_apart {address other : Address} {bytes : List UInt8}
    (fits : address.toNat + bytes.length ≤ 0x100000000)
    (apart : other.toNat / 4 < address.toNat / 4 ∨ address.toNat + bytes.length ≤ other.toNat / 4 * 4) :
    (memory.setBytes address bytes).word? other = memory.word? other := by
  apply word?_setBytes
  intro index inside
  have place : (address + UInt32.ofNat index).toNat = address.toNat + index := by
    rw [UInt32.toNat_add, UInt32.toNat_ofNat']
    omega
  rw [Ne, Word.align_eq_align_iff, place]
  omega

/-- Words that were written are present, and all other words are as they were. -/
theorem word?_setWords {address : Address} (other : Address) (words : List Word) (aligned : address.toNat % 4 = 0)
    (fits : 4 * words.length ≤ 0x100000000) :
    (memory.setWords address words).word? other =
      (words[(other - address).toNat / 4]?).or (memory.word? other) := by
  induction words generalizing memory address with
  | nil => rfl
  | cons word rest ih =>
    rw [List.length_cons] at fits
    have four : (4 : Address).toNat = 4 := rfl
    have bounds := And.intro address.toNat_lt other.toNat_lt
    have forward := UInt32.toNat_add address 4
    have apart := UInt32.toNat_sub other address
    have later := UInt32.toNat_sub other (address + 4)
    have together := Word.align_eq_align_iff address other
    rw [setWords, ih _ (by omega) (by omega), word?_setWord]
    by_cases here : Word.align address = Word.align other
    · have same := together.1 here
      have first : (other - address).toNat / 4 = 0 := by omega
      rw [first, List.getElem?_eq_none (by omega), if_pos here]
      rfl
    · have different := mt together.2 here
      have next : (other - address).toNat / 4 = (other - (address + 4)).toNat / 4 + 1 := by omega
      rw [next, List.getElem?_cons_succ, if_neg here]

/-- Words that were written are read again, and all other words are as they were. -/
theorem wordAt_setWords {address : Address} (other : Address) (words : List Word) (aligned : address.toNat % 4 = 0)
    (fits : 4 * words.length ≤ 0x100000000) :
    (memory.setWords address words).wordAt other =
      (words[(other - address).toNat / 4]?).getD (memory.wordAt other) := by
  rw [wordAt, word?_setWords memory other words aligned fits, wordAt]
  cases words[(other - address).toNat / 4]? <;> rfl

theorem wordAt_setWords_of_getElem? {address : Address} {words : List Word} (aligned : address.toNat % 4 = 0)
    (fits : 4 * words.length ≤ 0x100000000) {index : Nat} {word : Word} (found : words[index]? = some word) :
    (memory.setWords address words).wordAt (address + 4 * UInt32.ofNat index) = word := by
  obtain ⟨inside, -⟩ := List.getElem?_eq_some_iff.1 found
  have four : (4 : Address).toNat = 4 := rfl
  have offset : (address + 4 * UInt32.ofNat index - address).toNat = 4 * index := by
    rw [UInt32.add_comm, UInt32.add_sub_cancel, UInt32.toNat_mul, UInt32.toNat_ofNat', four]
    omega
  rw [wordAt_setWords memory _ _ aligned fits, offset, Nat.mul_div_cancel_left _ (by decide), found]
  rfl

/-- The bytes from an address on, as many as are asked for. -/
def bytesFrom (memory : Memory) (address : Address) : Nat → List UInt8
  | 0 => []
  | count + 1 => memory.byteAt address :: memory.bytesFrom (address + 1) count

@[simp] theorem length_bytesFrom (address : Address) (count : Nat) : (memory.bytesFrom address count).length = count := by
  induction count generalizing address with
  | zero => rfl
  | succ count ih => rw [bytesFrom, List.length_cons, ih]

theorem getElem?_bytesFrom (address : Address) {count index : Nat} (inside : index < count) :
    (memory.bytesFrom address count)[index]? = some (memory.byteAt (address + UInt32.ofNat index)) := by
  induction count generalizing address index with
  | zero => exact absurd inside (Nat.not_lt_zero index)
  | succ count ih =>
    cases index with
    | zero =>
      rw [bytesFrom, List.getElem?_cons_zero, Word.add_ofNat_zero]
    | succ index =>
      rw [bytesFrom, List.getElem?_cons_succ, ih (address + 1) (by omega), Word.add_ofNat_succ]

/-- Memory holds bytes from an address on exactly if each of them is in its place. -/
theorem bytesFrom_eq_iff {address : Address} {bytes : List UInt8} :
    memory.bytesFrom address bytes.length = bytes ↔
      ∀ index byte, bytes[index]? = some byte → memory.byteAt (address + UInt32.ofNat index) = byte := by
  constructor
  · intro same index byte found
    obtain ⟨inside, -⟩ := List.getElem?_eq_some_iff.1 found
    rw [← same, getElem?_bytesFrom memory address inside] at found
    exact Option.some.inj found
  · intro each
    apply List.ext_getElem?
    intro index
    rcases Nat.lt_or_ge index bytes.length with inside | outside
    · rw [getElem?_bytesFrom memory address inside, each index _ (List.getElem?_eq_getElem inside),
        List.getElem?_eq_getElem inside]
    · rw [List.getElem?_eq_none (by simpa using outside), List.getElem?_eq_none outside]

theorem bytesFrom_setBytes (address : Address) (bytes : List UInt8) (fits : bytes.length ≤ 0x100000000) :
    (memory.setBytes address bytes).bytesFrom address bytes.length = bytes := by
  apply (bytesFrom_eq_iff _).2
  intro index byte found
  obtain ⟨inside, -⟩ := List.getElem?_eq_some_iff.1 found
  have position : (address + UInt32.ofNat index - address).toNat = index := by
    rw [UInt32.add_comm, UInt32.add_sub_cancel, UInt32.toNat_ofNat']
    omega
  rw [byteAt_setBytes _ _ _ _ fits, position, found]
  rfl

theorem bytesFrom_congr {first second : Memory} {address : Address} {count : Nat}
    (fits : address.toNat + count ≤ 0x100000000)
    (same : ∀ other : Address, address.toNat ≤ other.toNat → other.toNat < address.toNat + count →
      first.byteAt other = second.byteAt other) :
    first.bytesFrom address count = second.bytesFrom address count := by
  induction count generalizing address with
  | zero => rfl
  | succ count ih =>
    rw [bytesFrom, bytesFrom, same address (Nat.le_refl _) (by omega)]
    cases count with
    | zero => rfl
    | succ count =>
      have one : (1 : Address).toNat = 1 := rfl
      have next : (address + 1).toNat = address.toNat + 1 := by
        rw [UInt32.toNat_add, one]
        omega
      rw [ih (by omega) fun other above below => same other (by omega) (by omega)]

end Memory

end Mips
