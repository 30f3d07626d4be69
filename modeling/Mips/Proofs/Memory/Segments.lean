import Mips.Proofs.Layout.Order
import Mips.Proofs.Memory.Access

/-!
Which bytes an access touches. The rules look at the segment of the first byte alone. All the others lie in the same
segment, because the segments begin at multiples of four; but the stack need not end with a word, and what is beyond its
end in its last word is not mapped. Main statement: `segmentOf_of_accessible`.
-/

namespace Mips

namespace Layout

/-- The stack ends before the second address, but not before the first one. -/
def StackEndsBetween (layout : Layout) (first second : Address) : Prop :=
  first ≤ layout.userHigh ∧ layout.userHigh < second

instance (layout : Layout) (first second : Address) : Decidable (layout.StackEndsBetween first second) :=
  inferInstanceAs (Decidable (_ ∧ _))

/-- Behind an address in a segment the rest of its word belongs to the segment as well, unless the stack ends in between. -/
theorem segmentOf_later {layout : Layout} (ordered : layout.Ordered) {first second : Address} {segment : Segment}
    (lies : layout.segmentOf first = some segment) (behind : first.toNat ≤ second.toNat)
    (together : first.toNat / 4 = second.toNat / 4) :
    layout.segmentOf second = if layout.StackEndsBetween first second then none else some segment := by
  obtain ⟨_, room, data, heap, limit, pointer, stack, user, _, _, multiple⟩ := ordered
  simp only [boundaries, List.forall_mem_cons] at multiple
  obtain ⟨textStart, dataStart, _, _, heapStart, stackStart, _, _, ktextStart, _, kdataStart, _⟩ := multiple
  -- A boundary that is a multiple of four has both addresses on the same side.
  have boundary {bound : Address} (start : bound.toNat % 4 = 0) :
      second.toNat < bound.toNat ↔ first.toNat < bound.toNat := by omega
  have low : layout.externBase.toNat ≤ layout.heapBase.toNat := by omega
  have high : layout.stackLimit.toNat ≤ layout.userHigh.toNat := by omega
  unfold segmentOf at lies ⊢
  unfold StackEndsBetween
  simp only [UInt32.lt_iff_toNat_lt, UInt32.le_iff_toNat_le, boundary textStart, boundary dataStart,
    boundary heapStart, boundary stackStart, boundary ktextStart, boundary kdataStart] at lies ⊢
  grind only

/-- A stack that ends with a word does not end between two addresses in one word. -/
theorem not_stackEndsBetween {layout : Layout} (whole : layout.userHigh.toNat % 4 = 3) {first second : Address}
    (together : first.toNat / 4 = second.toNat / 4) : ¬layout.StackEndsBetween first second := by
  rintro ⟨below, above⟩
  rw [UInt32.le_iff_toNat_le] at below
  rw [UInt32.lt_iff_toNat_lt] at above
  omega

end Layout

namespace Memory

/-- The rules let as many bytes as the width has be loaded and stored at the address, or be fetched as an instruction. -/
inductive Accessible (memory : Memory) : Width → Address → Prop where
  | data {width : Width} {address : Address} (allowed : memory.dataError? width address = none) :
    Accessible memory width address
  | instruction {address : Address} {content : Option Word} (fetched : memory.fetch address = .ok content) :
    Accessible memory .word address

variable {memory : Memory} {width : Width} {address : Address}

theorem Accessible.aligned (accessible : memory.Accessible width address) :
    address.toNat % width.bytes.toNat = 0 := by
  cases accessible with
  | data allowed => exact (dataError?_eq_none_iff.1 allowed).1
  | instruction fetched => exact (Word.isAligned_iff address).1 (isAligned_of_fetch fetched)

theorem Accessible.mapped (accessible : memory.Accessible width address) :
    ∃ segment, memory.layout.segmentOf address = some segment := by
  cases accessible with
  | data allowed =>
    obtain ⟨-, segment, lies, -⟩ := dataError?_eq_none_iff.1 allowed
    exact ⟨segment, lies⟩
  | instruction fetched =>
    unfold fetch at fetched
    split at fetched
    · cases fetched
    · split at fetched
      · cases fetched
      next segment lies => exact ⟨segment, lies⟩

/-- The bytes of an access lie in one word, and do not reach around the end of the address space. -/
theorem Accessible.place (accessible : memory.Accessible width address) {index : Nat}
    (inside : index < width.bytes.toNat) :
    (address + UInt32.ofNat index).toNat = address.toNat + index ∧
      address.toNat / 4 = (address + UInt32.ofNat index).toNat / 4 := by
  obtain ⟨together, place⟩ := place_of_aligned accessible.aligned inside
  rw [Word.align_eq_align_iff] at together
  omega

/--
In a valid layout the first byte of an access that the rules allow lies in a segment, and each of its bytes lies in the
same one, unless the stack ends before it; then it is not mapped. So no access touches a byte of another segment, and if
the stack ends with a word, then none touches a byte that is not mapped.
-/
theorem segmentOf_of_accessible (valid : memory.layout.Valid) (accessible : memory.Accessible width address) :
    ∃ segment, memory.layout.segmentOf address = some segment ∧
      (∀ index < width.bytes.toNat,
        let place := address + UInt32.ofNat index
        place.toNat = address.toNat + index ∧ memory.layout.segmentOf place =
          if memory.layout.StackEndsBetween address place then none else some segment) ∧
      (memory.layout.userHigh.toNat % 4 = 3 → ∀ index < width.bytes.toNat,
        memory.layout.segmentOf (address + UInt32.ofNat index) = some segment) := by
  obtain ⟨segment, lies⟩ := accessible.mapped
  have later (index : Nat) (inside : index < width.bytes.toNat) :
      memory.layout.segmentOf (address + UInt32.ofNat index) =
        if memory.layout.StackEndsBetween address (address + UInt32.ofNat index) then none else some segment := by
    obtain ⟨sum, together⟩ := accessible.place inside
    exact Layout.segmentOf_later (Layout.ordered_of_valid valid) lies (by omega) together
  refine ⟨segment, lies, ?_, ?_⟩
  · intro index inside
    exact ⟨(accessible.place inside).1, later index inside⟩
  · intro whole index inside
    obtain ⟨-, together⟩ := accessible.place inside
    rw [later index inside, if_neg (Layout.not_stackEndsBetween whole together)]

/-- The last word of the stack is mapped as a whole, since the stack ends with it. -/
theorem segmentOf_last_word :
    let memory := empty .standard false
    memory.layout.Valid ∧ memory.Accessible .word 0x7FFFFFFC ∧
      ∀ index < 4, memory.layout.segmentOf (0x7FFFFFFC + UInt32.ofNat index) = some .stack := by
  intro memory
  have accessible : memory.Accessible .word 0x7FFFFFFC := .data (by decide)
  refine ⟨Layout.valid_standard, accessible, ?_⟩
  obtain ⟨segment, lies, -, whole⟩ := segmentOf_of_accessible Layout.valid_standard accessible
  have stack : memory.layout.segmentOf 0x7FFFFFFC = some .stack := by decide
  cases lies.symm.trans stack
  exact whole (by decide)

/-- A word is loaded and stored of which only the first half is mapped, since the stack ends there. -/
theorem unmapped_of_accessible :
    let memory := empty { Layout.standard with userHigh := 0x7FFFFFFD } false
    memory.layout.Valid ∧ memory.Accessible .word 0x7FFFFFFC ∧
      memory.layout.segmentOf 0x7FFFFFFC = some .stack ∧ memory.layout.segmentOf (0x7FFFFFFC + 2) = none := by
  intro memory
  exact ⟨by decide, .data (by decide), by decide, by decide⟩

end Memory

end Mips
