import Mips.Execution
import Mips.Proofs.Directive.Image
import Mips.Proofs.Memory.Bytes

/-!
Memory as a map of bytes. Whatever its width, a load gives the number that the bytes at its address are the digits of,
and a store lays the digits of its value there and changes nothing else. Main statements: `byteMap_of_access`, by which
that holds of all ways to access memory, and `byteMap_applyAll`, by which it holds of writes one after another.
-/

namespace Mips

/-- What every byte of memory is, and which words are present. -/
structure ByteMap where
  byte : Address → UInt8
  /-- Whether the word that holds the byte at an address is present. -/
  present : Address → Bool

namespace ByteMap

/-- The number whose digits to the base 256 are the bytes from an address on, the last digit first. -/
def number (map : ByteMap) (address : Address) : Nat → Nat
  | 0 => 0
  | count + 1 =>
    map.number address count + (map.byte (address + UInt32.ofNat count)).toNat * Nat.pow 256 count

/-- The map with bytes laid from an address on, in the word that holds it; that word is then present. -/
def put (map : ByteMap) (address : Address) (bytes : List UInt8) : ByteMap where
  byte other := (bytes[(other - address).toNat]?).getD (map.byte other)
  present other := Word.align other == Word.align address || map.present other

/-- The map with bytes laid at one address after another. -/
def putAll (map : ByteMap) : List (Address × List UInt8) → ByteMap
  | [] => map
  | (address, bytes) :: rest => (map.put address bytes).putAll rest

/-- A byte is what was laid there last. -/
theorem byte_putAll (map : ByteMap) (puts : List (Address × List UInt8)) (other : Address) :
    (map.putAll puts).byte other =
      (puts.reverse.findSome? fun (address, bytes) => bytes[(other - address).toNat]?).getD (map.byte other) := by
  induction puts generalizing map with
  | nil => rfl
  | cons first rest ih =>
    obtain ⟨address, bytes⟩ := first
    rw [putAll, ih, List.reverse_cons, List.findSome?_append]
    cases rest.reverse.findSome? fun (address, bytes) => bytes[(other - address).toNat]? with
    | none =>
      rw [List.findSome?_singleton]
      rfl
    | some byte => rfl

end ByteMap

/-- Bytes that are the digits of a value make up the value, as far as they go. -/
theorem ByteMap.number_of_digits {map : ByteMap} {address : Address} {value : Nat} (count : Nat)
    (digits : ∀ index < count, (map.byte (address + UInt32.ofNat index)).toNat = value / Nat.pow 256 index % 256) :
    map.number address count = value % Nat.pow 256 count := by
  induction count with
  | zero => exact (Nat.mod_one value).symm
  | succ count ih =>
    have earlier := ih fun index before => digits index (Nat.lt_succ_of_lt before)
    rw [number, earlier, digits count (Nat.lt_succ_self count), Nat.mul_comm]
    exact Nat.mod_pow_succ.symm

theorem getElem?_littleEndian (number count index : Nat) :
    (littleEndian number count)[index]? =
      if index < count then some (UInt8.ofNat (number / Nat.pow 256 index % 256)) else none := by
  induction count generalizing number index with
  | zero => rfl
  | succ count ih =>
    cases index with
    | zero =>
      have first : (number % 256 : Int).toNat = number / Nat.pow 256 0 % 256 := by
        change _ = number / 1 % 256
        omega
      rw [littleEndian, List.getElem?_cons_zero, if_pos (Nat.succ_pos count), first]
    | succ index =>
      have rest : (number / 256 : Int) = (number / 256 : Nat) := rfl
      have power : Nat.pow 256 (index + 1) = 256 * Nat.pow 256 index := Nat.mul_comm _ _
      rw [littleEndian, List.getElem?_cons_succ, rest, ih, Nat.div_div_eq_div_mul, power]
      simp only [Nat.succ_lt_succ_iff]

/-- The bytes at an address of a word are digits of its number. -/
theorem toNat_extract (width : Width) (address : Address) (word : Word) :
    (extract width address word).toNat =
      word.toNat / Nat.pow 256 (address.toNat % 4) % Nat.pow 256 width.bytes.toNat := by
  have shifted : (word >>> bitOffset address).toNat = word.toNat / Nat.pow 256 (address.toNat % 4) := by
    have amount := shift_bitOffset address
    have power : Nat.pow 2 (8 * (address.toNat % 4)) = Nat.pow 256 (address.toNat % 4) := Nat.pow_mul 2 8 _
    rw [← UInt32.toNat_toBitVec, UInt32.toBitVec_shiftRight, BitVec.ushiftRight_eq', amount, BitVec.toNat_ushiftRight,
      Nat.shiftRight_eq_div_pow, ← power]
    rfl
  have masked (bits : Nat) (full : width.mask.toNat = Nat.pow 2 bits - 1) :=
    Word.toNat_and_mask (word >>> bitOffset address) bits width.mask full
  rw [extract, ← shifted]
  cases width with
  | byte => exact masked 8 rfl
  | half => exact masked 16 rfl
  | word => exact masked 32 rfl

/-- The bytes of a value at a distance from the first one are digits of its number. -/
theorem toUInt8_extract {address : Address} (value : Word) (near : address.toNat < 4) :
    (extract .byte address value).toUInt8 = UInt8.ofNat (value.toNat / Nat.pow 256 address.toNat % 256) := by
  have digit := toNat_extract .byte address value
  rw [Nat.mod_eq_of_lt near] at digit
  rw [← UInt8.toNat_inj, UInt32.toNat_toUInt8, digit, UInt8.toNat_ofNat']
  rfl

/-- Only the lowest byte of a value is stored as a byte. -/
theorem merge_toUInt8 (address : Address) (value word : Word) :
    merge .byte address value.toUInt8.toUInt32 word = merge .byte address value word := by
  have narrow : value.toUInt8.toUInt32.toBitVec = (value.toBitVec.setWidth 8).setWidth 32 := rfl
  have one : Width.byte.bytes.toNat = 1 := rfl
  rw [← UInt32.toBitVec_inj]
  apply BitVec.eq_of_getLsbD_eq
  intro position inside
  rw [getLsbD_merge _ _ _ _ inside, getLsbD_merge _ _ _ _ inside, narrow, one]
  split
  next covered => simp only [BitVec.getLsbD_setWidth]; grind
  next => rfl

/-- A whole word is replaced by the value. -/
theorem merge_word {address : Address} (value word : Word) (aligned : address.toNat % 4 = 0) :
    merge .word address value word = value := by
  have four : Width.word.bytes.toNat = 4 := rfl
  rw [← UInt32.toBitVec_inj]
  apply BitVec.eq_of_getLsbD_eq
  intro position inside
  rw [getLsbD_merge _ _ _ _ inside, if_pos (by omega), aligned]
  rfl

namespace Memory

/-- Memory as a map of bytes. -/
def byteMap (memory : Memory) : ByteMap where
  byte := memory.byteAt
  present address := (memory.word? address).isSome

/-- Loads and stores of the width may be made at the address. -/
def Allows (memory : Memory) (width : Width) (address : Address) : Prop :=
  address.toNat % width.bytes.toNat = 0 ∧
    ∃ segment, memory.layout.segmentOf address = some segment ∧
      (segment.isText = true → memory.selfModifying = true)

/-- The bytes were laid at the address, and nothing else has changed. -/
structure Laid (before : Memory) (address : Address) (bytes : List UInt8) (after : Memory) : Prop where
  byteMap : after.byteMap = before.byteMap.put address bytes
  words : ∀ other, other ≠ Word.align address → after.words[other]? = before.words[other]?
  layout : after.layout = before.layout
  selfModifying : after.selfModifying = before.selfModifying

variable (memory : Memory)

/-- A byte is the digit of its word that its address tells; an absent word is zero. -/
theorem toNat_byteAt (address : Address) :
    (memory.byteAt address).toNat =
      ((memory.word? address).getD 0).toNat / Nat.pow 256 (address.toNat % 4) % 256 := by
  have digit := toNat_extract .byte address (memory.wordAt address)
  rw [byteAt, UInt32.toNat_toUInt8, digit]
  exact Nat.mod_mod _ _

/-- The bytes from a multiple of the width on lie in one word, one behind the other. -/
theorem place_of_aligned {width : Width} {address : Address} {index : Nat}
    (aligned : address.toNat % width.bytes.toNat = 0) (inside : index < width.bytes.toNat) :
    Word.align (address + UInt32.ofNat index) = Word.align address ∧
      (address + UInt32.ofNat index).toNat % 4 = address.toNat % 4 + index := by
  have bound := address.toNat_lt
  have sum := UInt32.toNat_add address (UInt32.ofNat index)
  rw [UInt32.toNat_ofNat'] at sum
  rw [Word.align_eq_align_iff]
  cases width <;> simp only [Width.bytes, UInt32.reduceToNat] at aligned inside <;> omega

/-- What is extracted from the word at an address is the number of the bytes there. -/
theorem toNat_extract_wordAt {width : Width} {address : Address} (aligned : address.toNat % width.bytes.toNat = 0) :
    (extract width address (memory.wordAt address)).toNat = memory.byteMap.number address width.bytes.toNat := by
  rw [toNat_extract]
  refine (ByteMap.number_of_digits _ fun index inside => ?_).symm
  obtain ⟨together, place⟩ := place_of_aligned aligned inside
  have power : Nat.pow 256 (address.toNat % 4 + index) = Nat.pow 256 (address.toNat % 4) * Nat.pow 256 index :=
    Nat.pow_add 256 _ _
  change (memory.byteAt _).toNat = _
  rw [toNat_byteAt, ← wordAt, memory.wordAt_congr together, place, power, Nat.div_div_eq_div_mul]

theorem laid_setBytesOf {width : Width} {address : Address} (value : Word)
    (aligned : address.toNat % width.bytes.toNat = 0) :
    memory.Laid address (littleEndian value.toNat width.bytes.toNat) (memory.setBytesOf width address value) where
  byteMap := by
    rw [byteMap, ByteMap.put, ByteMap.mk.injEq]
    constructor
    · funext other
      have narrow : width.bytes.toNat ≤ 4 := by cases width <;> decide
      rw [byteAt_setBytesOf _ _ _ aligned, getElem?_littleEndian]
      split
      next covered => rw [toUInt8_extract value (Nat.lt_of_lt_of_le covered narrow)]; rfl
      next => rfl
    · funext other
      rw [setBytesOf, word?_setWord]
      by_cases together : Word.align address = Word.align other
      · rw [if_pos together, together, beq_self_eq_true]
        rfl
      · rw [if_neg together, beq_eq_false_iff_ne.2 (Ne.symm together)]
        rfl
  words other apart := by
    have distinct : compare (Word.align address) other ≠ .eq := by
      rw [Ne, Std.LawfulEqCmp.compare_eq_iff_eq]
      exact Ne.symm apart
    exact (Std.ExtTreeMap.getElem?_insert ..).trans (if_neg distinct)
  layout := rfl
  selfModifying := rfl

/-- Storing a byte stores the lowest byte of a value. -/
theorem setByte_toUInt8 (address : Address) (value : Word) :
    memory.setByte address value.toUInt8 = memory.setBytesOf .byte address value := by
  rw [setByte_eq, setBytesOf, merge_toUInt8]
  rfl

/-- Storing a word stores it at its aligned address. -/
theorem setWord_eq (address : Address) (value : Word) :
    memory.setWord address value = memory.setBytesOf .word (Word.align address) value := by
  have multiple := Word.toNat_align address
  have again : Word.align (Word.align address) = Word.align address := by
    rw [Word.align_eq_align_iff, multiple, Nat.mul_div_cancel _ (by decide)]
  rw [setBytesOf, merge_word _ _ (by omega), setWord, setWord, again]

theorem laid_setByte (address : Address) (value : Word) :
    memory.Laid address (littleEndian value.toNat 1) (memory.setByte address value.toUInt8) := by
  rw [setByte_toUInt8]
  exact @laid_setBytesOf memory .byte address value (Nat.mod_one _)

theorem laid_setWord (address : Address) (value : Word) :
    memory.Laid (Word.align address) (littleEndian value.toNat 4) (memory.setWord address value) := by
  have multiple := Word.toNat_align address
  rw [setWord_eq]
  exact @laid_setBytesOf memory .word (Word.align address) value (by change _ % 4 = 0; omega)

/-- Where text may be changed, a word that is present is fetched, and it is the number of its bytes. -/
theorem fetch_of_word? {address : Address} (changeable : memory.selfModifying = true)
    (mapped : (memory.layout.segmentOf (Word.align address)).isSome = true) {word : Word}
    (present : memory.word? address = some word) :
    memory.fetch (Word.align address) = .ok (some word) ∧
      word.toNat = memory.byteMap.number (Word.align address) 4 := by
  have multiple := Word.toNat_align address
  have aligned : Word.isAligned (Word.align address) = true := (Word.isAligned_iff _).2 (by omega)
  have again : Word.align (Word.align address) = Word.align address := Word.align_of_isAligned aligned
  have held : memory.wordAt (Word.align address) = word := by
    rw [wordAt, word?, again, ← word?, present]
    rfl
  constructor
  · obtain ⟨segment, lies⟩ := Option.isSome_iff_exists.1 mapped
    simp only [fetch, aligned, lies, changeable, Bool.not_true, Bool.and_false, Bool.false_eq_true, if_false]
    exact congrArg Except.ok present
  · have number := @toNat_extract_wordAt memory .word (Word.align address) (by change _ % 4 = 0; omega)
    have whole := toNat_extract .word (Word.align address) word
    have small := word.toNat_lt
    have first : (Word.align address).toNat % 4 = 0 := by omega
    rw [held, whole, first] at number
    change word.toNat / 1 % 4294967296 = _ at number
    rw [Nat.div_one, Nat.mod_eq_of_lt small] at number
    exact number

variable {memory} {width : Width} {address : Address}

theorem multiple_iff : address % width.bytes = 0 ↔ address.toNat % width.bytes.toNat = 0 := by
  rw [← UInt32.toNat_inj, UInt32.toNat_mod]
  rfl

/-- Loads and stores are refused exactly if the address is no multiple of the width or lies where nothing may be. -/
theorem dataError?_eq_none_iff : memory.dataError? width address = none ↔ memory.Allows width address := by
  unfold dataError? Allows
  rw [← multiple_iff]
  by_cases aligned : address % width.bytes = 0
  · rw [if_neg (not_not_intro aligned)]
    cases mapped : memory.layout.segmentOf address with
    | none => simp
    | some segment =>
      cases segment.isText <;> cases memory.selfModifying <;> simp [aligned]
  · simp [aligned]

instance (memory : Memory) (width : Width) (address : Address) : Decidable (memory.Allows width address) :=
  decidable_of_iff _ dataError?_eq_none_iff

/-- A byte that may not be accessed lies where nothing may be, as every address is a multiple of one. -/
theorem dataError?_of_not_allows (forbidden : ¬memory.Allows .byte address) :
    memory.dataError? .byte address = some (.inaccessible address) := by
  have aligned : address % Width.byte.bytes = 0 := multiple_iff.2 (Nat.mod_one _)
  cases refused : memory.dataError? .byte address with
  | none => exact absurd (dataError?_eq_none_iff.1 refused) forbidden
  | some error =>
    unfold dataError? at refused
    rw [if_neg (not_not_intro aligned)] at refused
    split at refused
    · exact refused.symm
    · rw [Option.ite_none_right_eq_some] at refused
      exact refused.2.symm

/-- What a load of a byte gives is the byte. -/
theorem read_byte (memory : Memory) (address : Address) :
    memory.read .byte address =
      if memory.Allows .byte address then .ok (memory.byteAt address).toUInt32 else .error (.inaccessible address) := by
  have small : (extract .byte address (memory.wordAt address)).toNat < 256 := by
    rw [extract, Word.toNat_and_mask _ 8 _ rfl]
    exact Nat.mod_lt _ (by decide)
  have same : (memory.byteAt address).toUInt32 = extract .byte address (memory.wordAt address) := by
    rw [← UInt32.toNat_inj, byteAt, UInt8.toNat_toUInt32, UInt32.toNat_toUInt8]
    exact Nat.mod_eq_of_lt small
  split
  next allowed => rw [read, dataError?_eq_none_iff.2 allowed, same]
  next forbidden => rw [read, dataError?_of_not_allows forbidden]

/-- Nothing is fetched from an address that is no multiple of four. -/
theorem isAligned_of_fetch {content : Option Word} (fetched : memory.fetch address = .ok content) :
    Word.isAligned address = true := by
  unfold fetch at fetched
  split at fetched
  · cases fetched
  next aligned => simpa using aligned

theorem read_of_allows (allowed : memory.Allows width address) :
    ∃ loaded, memory.read width address = .ok loaded ∧
      loaded.toNat = memory.byteMap.number address width.bytes.toNat := by
  refine ⟨_, ?_, memory.toNat_extract_wordAt allowed.1⟩
  rw [read, dataError?_eq_none_iff.2 allowed]

/-- A store that is allowed assigns the word that holds its bytes. -/
theorem store_of_allows [Generator] (value : Word) (allowed : memory.Allows width address) :
    ∃ effect, Effect.store memory width address value = .ok effect ∧
      effect.assignments =
        [.memory (Word.align address) (some (merge width address value (memory.wordAt address)))] := by
  have stored := dataError?_eq_none_iff.2 allowed
  simp only [Effect.store, Memory.stored, stored, Except.ok.injEq, exists_eq_left']

/-- What may not be accessed is neither read nor written. -/
theorem refused_of_not_allows (value : Word) (forbidden : ¬memory.Allows width address) :
    ∃ error, memory.read width address = .error error ∧ memory.stored width address value = .error error := by
  cases refused : memory.dataError? width address with
  | none => exact absurd (dataError?_eq_none_iff.1 refused) forbidden
  | some error =>
    refine ⟨error, ?_, ?_⟩
    · rw [read, refused]
    · rw [stored, refused]

theorem poke_of_aligned (value : Word) (aligned : address.toNat % width.bytes.toNat = 0) :
    memory.poke width address value = .ok (memory.setBytesOf width address value) :=
  if_neg (not_not_intro (multiple_iff.2 aligned))

theorem poke_of_misaligned (value : Word) (misaligned : address.toNat % width.bytes.toNat ≠ 0) :
    memory.poke width address value = .error (.misaligned address) :=
  if_pos (mt multiple_iff.1 misaligned)

end Memory

open Memory in
/--
Memory is a map of bytes. What it allows to load is the number of the bytes there, and what it allows to store becomes
the bytes there; what it does not allow gives and changes nothing. Where nothing is checked the same bytes are changed.
-/
theorem byteMap_of_access [Generator] (machine : Machine) (width : Width) (address : Address) (value : Word) :
    let memory := machine.memory
    let bytes := littleEndian value.toNat width.bytes.toNat
    (∀ other, (memory.byteMap.byte other).toNat =
      ((memory.word? other).getD 0).toNat / Nat.pow 256 (other.toNat % 4) % 256) ∧
    (memory.Allows width address →
      (∃ loaded, memory.read width address = .ok loaded ∧
        loaded.toNat = memory.byteMap.number address width.bytes.toNat) ∧
      ∃ effect after, Effect.store memory width address value = .ok effect ∧
        machine.assignAll effect.assignments = { machine with memory := after } ∧
        machine.restoringAll effect.assignments = [.memory (Word.align address) (memory.word? address)] ∧
        memory.Laid address bytes after ∧
        memory.poke width address value = .ok after ∧
        (width = .byte → memory.setByte address value.toUInt8 = after) ∧
        (width = .word → memory.setWord address value = after) ∧
        (memory.selfModifying = true →
          (width = .word → after.fetch address = .ok (some value)) ∧
          ((memory.layout.segmentOf (Word.align address)).isSome = true →
            ∃ word, after.fetch (Word.align address) = .ok (some word) ∧
              word.toNat = after.byteMap.number (Word.align address) 4))) ∧
    (¬memory.Allows width address → ∃ error, memory.read width address = .error error ∧
      Effect.store memory width address value = .error (.atOnce (.ofMemory .store error))) ∧
    (if address.toNat % width.bytes.toNat = 0 then
      ∃ after, memory.poke width address value = .ok after ∧ memory.Laid address bytes after
    else memory.poke width address value = .error (.misaligned address)) ∧
    memory.Laid address (littleEndian value.toNat 1) (memory.setByte address value.toUInt8) ∧
    memory.Laid (Word.align address) (littleEndian value.toNat 4) (memory.setWord address value) := by
  intro memory bytes
  refine ⟨memory.toNat_byteAt, ?_, ?_, ?_, memory.laid_setByte address value, memory.laid_setWord address value⟩
  · intro allowed
    obtain ⟨effect, stored, assignments⟩ := store_of_allows value allowed
    refine ⟨read_of_allows allowed, effect, memory.setBytesOf width address value, stored, ?_, ?_,
      memory.laid_setBytesOf value allowed.1, poke_of_aligned value allowed.1, ?_, ?_, ?_⟩
    · rw [assignments]
      rfl
    · rw [assignments]
      rfl
    · rintro rfl
      exact memory.setByte_toUInt8 address value
    · rintro rfl
      have multiple : address.toNat % 4 = 0 := allowed.1
      rw [setBytesOf, merge_word _ _ multiple]
    · intro changeable
      have present : (memory.setBytesOf width address value).word? address =
          some (merge width address value (memory.wordAt address)) := by
        rw [setBytesOf, word?_setWord, if_pos rfl]
      constructor
      · rintro rfl
        obtain ⟨multiple, segment, lies, -⟩ := allowed
        have same : Word.align address = address := Word.align_of_isAligned ((Word.isAligned_iff address).2 multiple)
        have mapped : (memory.layout.segmentOf (Word.align address)).isSome = true := by
          rw [same, lies]
          rfl
        have fetched := (fetch_of_word? (memory.setBytesOf .word address value) changeable mapped present).1
        rw [same, merge_word _ _ multiple] at fetched
        exact fetched
      · intro mapped
        exact ⟨_, fetch_of_word? (memory.setBytesOf width address value) changeable mapped present⟩
  · intro forbidden
    obtain ⟨error, unread, unwritten⟩ := refused_of_not_allows value forbidden
    refine ⟨error, unread, ?_⟩
    rw [Effect.store, unwritten]
  · split
    next aligned => exact ⟨_, poke_of_aligned value aligned, memory.laid_setBytesOf value aligned⟩
    next misaligned => exact poke_of_misaligned value misaligned

/-- A way to change memory. -/
inductive Write where
  | checked (width : Width) (address : Address) (value : Word)
  | unchecked (width : Width) (address : Address) (value : Word)
  | byte (address : Address) (value : UInt8)
  | word (address : Address) (value : Word)

namespace Write

/-- Memory after the write; it stays as it is if the write is refused. -/
def apply (memory : Memory) : Write → Memory
  | .checked width address value =>
    match memory.stored width address value with
    | .ok (aligned, content) => memory.assign aligned (some content)
    | .error _ => memory
  | .unchecked width address value =>
    match memory.poke width address value with
    | .ok after => after
    | .error _ => memory
  | .byte address value => memory.setByte address value
  | .word address value => memory.setWord address value

/-- Where the write lays which bytes, unless it is refused. -/
def laid? (memory : Memory) : Write → Option (Address × List UInt8)
  | .checked width address value =>
    if memory.Allows width address then some (address, littleEndian value.toNat width.bytes.toNat) else none
  | .unchecked width address value =>
    if address.toNat % width.bytes.toNat = 0 then some (address, littleEndian value.toNat width.bytes.toNat) else none
  | .byte address value => some (address, [value])
  | .word address value => some (Word.align address, littleEndian value.toNat 4)

/-- A write lays its bytes, or it changes nothing. -/
theorem laid_apply (memory : Memory) (write : Write) :
    (∃ address bytes, write.laid? memory = some (address, bytes) ∧ memory.Laid address bytes (write.apply memory)) ∨
      write.laid? memory = none ∧ write.apply memory = memory := by
  cases write with
  | checked width address value =>
    by_cases allowed : memory.Allows width address
    · left
      have laid := memory.laid_setBytesOf value allowed.1
      refine ⟨_, _, if_pos allowed, ?_⟩
      rw [apply, Memory.stored, Memory.dataError?_eq_none_iff.2 allowed]
      exact laid
    · right
      obtain ⟨error, -, refused⟩ := Memory.refused_of_not_allows value allowed
      refine ⟨if_neg allowed, ?_⟩
      rw [apply, refused]
  | unchecked width address value =>
    by_cases aligned : address.toNat % width.bytes.toNat = 0
    · left
      refine ⟨_, _, if_pos aligned, ?_⟩
      rw [apply, Memory.poke_of_aligned value aligned]
      exact memory.laid_setBytesOf value aligned
    · right
      refine ⟨if_neg aligned, ?_⟩
      rw [apply, Memory.poke_of_misaligned value aligned]
  | byte address value =>
    left
    have same : value.toUInt32.toUInt8 = value := UInt8.toUInt8_toUInt32 value
    have digit : littleEndian value.toUInt32.toNat 1 = [value] := by
      have small := value.toNat_lt
      rw [littleEndian, littleEndian, UInt8.toNat_toUInt32, List.cons.injEq, ← UInt8.toNat_inj, UInt8.toNat_ofNat']
      exact ⟨by omega, rfl⟩
    have laid := memory.laid_setByte address value.toUInt32
    rw [same, digit] at laid
    exact ⟨_, _, rfl, laid⟩
  | word address value => exact .inl ⟨_, _, rfl, memory.laid_setWord address value⟩

/-- What is refused depends on the rules for accessing memory only. -/
theorem laid?_congr {first second : Memory} (layout : second.layout = first.layout)
    (selfModifying : second.selfModifying = first.selfModifying) (write : Write) :
    write.laid? second = write.laid? first := by
  cases write with
  | checked width address value =>
    have same : second.Allows width address ↔ first.Allows width address := by
      rw [Memory.Allows, Memory.Allows, layout, selfModifying]
    rw [laid?, laid?]
    by_cases allowed : first.Allows width address
    · rw [if_pos allowed, if_pos (same.2 allowed)]
    · rw [if_neg allowed, if_neg (mt same.1 allowed)]
  | unchecked | byte | word => rfl

/-- After writes one after another memory is the map of bytes with those that were laid. -/
theorem byteMap_applyAll (memory : Memory) (writes : List Write) :
    (writes.foldl apply memory).byteMap = memory.byteMap.putAll (writes.filterMap (laid? memory)) := by
  induction writes generalizing memory with
  | nil => rfl
  | cons write rest ih =>
    rw [List.foldl_cons, ih]
    rcases laid_apply memory write with ⟨address, bytes, laid, change⟩ | ⟨refused, same⟩
    · rw [List.filterMap_cons_some laid, ByteMap.putAll, ← change.byteMap]
      congr 2
      funext other
      exact laid?_congr change.layout change.selfModifying other
    · rw [List.filterMap_cons_none refused, same]

end Write

end Mips
