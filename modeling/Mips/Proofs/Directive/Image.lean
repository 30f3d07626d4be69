import Mips.Proofs.Directive.Size
import Mips.Proofs.Word

/-!
What a data directive says that memory holds: each of its values as bytes, the least significant one first and as often
as it is repeated, or its text. Main statement: `image?_of_bytes`, by which that is what is emitted.
-/

namespace Mips

/-- The last so many digits of a number to the base 256, the last one first. -/
def littleEndian (number : Int) : (count : Nat) → List UInt8
  | 0 => []
  | count + 1 => UInt8.ofNat (number % 256).toNat :: littleEndian (number / 256) count

/-- The number that a value stands for, if its label is known. -/
def DataValue.number? (address? : String → Option Address) : DataValue → Option Int
  | .integer value => some value
  | .label target addend => (address? target.name).map fun address => address.toNat + addend

/-- The bytes of a value, as often as it is repeated. -/
def DataItem.image? (address? : String → Option Address) (width : Nat) (item : DataItem) : Option (List UInt8) :=
  (item.value.number? address?).map fun number => (List.replicate item.count (littleEndian number width)).flatten

/-- The bytes that memory holds from the address of a data directive on; reserved bytes are not among them. -/
def Directive.image? (address? : String → Option Address) : Directive → Option (List UInt8)
  | .word items => (items.mapM (DataItem.image? address? 4)).map List.flatten
  | .half items => (items.mapM (DataItem.image? address? 2)).map List.flatten
  | .byte items => (items.mapM (DataItem.image? address? 1)).map List.flatten
  | .ascii content => some (Text.Utf8.ofText content)
  | .asciiz content => some (Text.Utf8.ofText content ++ [0])
  | .space _ => some []
  | _ => none

/-- The bytes of a word are the digits of its number. -/
theorem Word.bytes_ofInt (number : Int) : (Word.ofInt number).bytes = littleEndian number 4 := by
  have value := toNat_ofInt number
  have digit (shift : Word) (power : Nat) (same : 2 ^ (shift.toNat % 32) = power) :
      (Word.ofInt number >>> shift).toUInt8.toNat = (Word.ofInt number).toNat / power % 256 := by
    rw [UInt32.toNat_toUInt8, UInt32.toNat_shiftRight, Nat.shiftRight_eq_div_pow, same]
  have first := digit 0 1 rfl
  have second := digit 8 256 rfl
  have third := digit 16 65536 rfl
  have fourth := digit 24 16777216 rfl
  have whole : Word.ofInt number >>> 0 = Word.ofInt number := UInt32.shiftRight_zero
  rw [whole] at first
  unfold bytes
  simp only [littleEndian, List.cons.injEq, and_true, ← UInt8.toNat_inj, first, second, third, fourth,
    UInt8.toNat_ofNat']
  omega

theorem take_littleEndian (number : Int) {width count : Nat} (narrow : width ≤ count) :
    (littleEndian number count).take width = littleEndian number width := by
  induction count generalizing number width with
  | zero =>
    rw [Nat.le_zero.1 narrow]
    rfl
  | succ count ih =>
    cases width with
    | zero => rfl
    | succ width => rw [littleEndian, List.take_succ_cons, ih _ (Nat.le_of_succ_le_succ narrow), littleEndian]

section Results

variable {ε α β : Type} {known : α → Except ε β} {guess : α → Option β}

/-- If a guess is right wherever something is known, then so is the guess for a list. -/
theorem mapM_eq_some {items : List α} {results : List β}
    (right : ∀ item ∈ items, ∀ result, known item = .ok result → guess item = some result)
    (all : items.mapM known = .ok results) : items.mapM guess = some results := by
  induction items generalizing results with
  | nil =>
    cases all
    rfl
  | cons item rest ih =>
    rw [List.mapM_cons] at all ⊢
    rw [List.forall_mem_cons] at right
    cases first : known item with
    | error problem =>
      rw [first] at all
      cases all
    | ok result =>
      cases others : rest.mapM known with
      | error problem =>
        rw [first, others] at all
        cases all
      | ok later =>
        rw [first, others] at all
        cases all
        rw [right.1 result first, ih right.2 others]
        rfl

theorem mapM_eq_some_map {items : List α} {result : α → β} (right : ∀ item ∈ items, guess item = some (result item)) :
    items.mapM guess = some (items.map result) := by
  induction items with
  | nil => rfl
  | cons item rest ih =>
    rw [List.forall_mem_cons] at right
    rw [List.mapM_cons, right.1, ih right.2]
    rfl

end Results

section Resolved

variable {resolve : Label → Except Problem Address} {address? : String → Option Address}
  (resolves : ∀ label address, resolve label = .ok address → address? label.name = some address)

/-- A narrow value is emitted as the last digits of its number. -/
theorem DataItem.image?_of_isNumber {item : DataItem} {width : Nat} (number : item.IsNumber) (narrow : width ≤ 4) :
    item.image? address? width = some (item.lowBytes width) := by
  obtain ⟨value, same⟩ := number
  rw [image?, lowBytes, same]
  dsimp only
  rw [Word.bytes_ofInt, take_littleEndian value narrow]
  rfl

theorem DataItem.image?_of_isNumbers {items : List DataItem} {width : Nat} (numbers : ∀ item ∈ items, item.IsNumber)
    (narrow : width ≤ 4) :
    (items.mapM (image? address? width)).map List.flatten = some (items.flatMap (lowBytes width)) := by
  rw [mapM_eq_some_map fun item member => image?_of_isNumber (numbers item member) narrow]
  rfl

include resolves

/-- A word is emitted as the digits of its number, or of the address of its label and what is added to that. -/
theorem DataItem.image?_of_word {item : DataItem} {word : Word} (known : item.value.word resolve = .ok word) :
    item.image? address? 4 = some (List.replicate item.count word.bytes).flatten := by
  unfold image?
  cases value : item.value with
  | integer number =>
    rw [value] at known
    cases known
    rw [Word.bytes_ofInt]
    rfl
  | label target addend =>
    rw [value] at known
    obtain ⟨address, resolved, rfl⟩ := map_eq_ok_iff.1 known
    have sum : address + Word.ofInt addend = Word.ofInt (address.toNat + addend) := by
      rw [Word.ofInt_add, Word.ofInt_toNat]
    rw [sum, Word.bytes_ofInt, DataValue.number?, resolves target address resolved]
    rfl

/-- What a data directive emits is what it says that memory holds. -/
theorem Directive.image?_of_bytes {directive : Directive} {content : List UInt8} {warnings : List Problem}
    (readable : directive.IsReadable) (data : directive.isData = true)
    (known : directive.bytes resolve = .ok (content, warnings)) : directive.image? address? = some content := by
  cases directive with
  | word items =>
    simp only [bytes, bind, Except.bind] at known
    split at known
    · cases known
    next words found =>
      cases known
      rw [image?, mapM_eq_some _ found]
      · rfl
      · intro item _ result emitted
        cases word : item.value.word resolve with
        | error problem =>
          rw [word] at emitted
          cases emitted
        | ok value =>
          rw [word] at emitted
          cases emitted
          exact DataItem.image?_of_word resolves word
  | half items =>
    cases known
    exact DataItem.image?_of_isNumbers readable (by decide)
  | byte items =>
    cases known
    exact DataItem.image?_of_isNumbers readable (by decide)
  | ascii | asciiz | space =>
    cases known
    rfl
  | _ => cases data

end Resolved

end Mips
