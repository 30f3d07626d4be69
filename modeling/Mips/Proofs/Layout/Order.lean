import Mips.Layout
import Mips.Proofs.Word

/-!
The order of the addresses in a valid layout, and the segments that they bound. Main statements: `ordered_of_valid` and
`segmentOf_align`.
-/

namespace Mips.Layout

/-- The addresses of a layout lie in order, and all of them but the last one of the stack are multiples of four. -/
structure Ordered (layout : Layout) : Prop where
  text : layout.textBase.toNat < layout.externBase.toNat
  room : layout.externBase.toNat ≤ layout.dataBase.toNat
  data : layout.dataBase.toNat < layout.heapBase.toNat
  heap : layout.heapBase.toNat ≤ layout.stackLimit.toNat
  limit : layout.stackLimit.toNat ≤ layout.stackPointer.toNat
  pointer : layout.stackPointer.toNat ≤ layout.stackBase.toNat
  stack : layout.stackBase.toNat < layout.userHigh.toNat
  user : layout.userHigh.toNat < layout.ktextBase.toNat
  handler : layout.ktextBase.toNat ≤ layout.exceptionHandler.toNat
  kernel : layout.exceptionHandler.toNat < layout.kdataBase.toNat
  aligned : ∀ boundary ∈ layout.boundaries, boundary.2.toNat % 4 = 0

theorem ordered_of_valid {layout : Layout} (valid : layout.Valid) : layout.Ordered := by
  unfold Valid flaw? at valid
  split at valid
  · cases valid
  next aligned =>
    rw [Option.map_eq_none_iff] at valid
    have boundary := List.find?_eq_none.1 aligned
    have ordered := List.find?_eq_none.1 valid
    simp only [precedences, List.forall_mem_cons, Precedence.holds, Bool.not_eq_true', Bool.not_eq_false, if_true,
      Bool.false_eq_true, if_false, decide_eq_true_eq, UInt32.lt_iff_toNat_lt, UInt32.le_iff_toNat_le] at ordered
    obtain ⟨text, room, _, data, heap, limit, pointer, stack, user, handler, kernel, _⟩ := ordered
    refine ⟨text, room, data, heap, limit, pointer, stack, user, handler, kernel, ?_⟩
    intro named member
    have multiple := boundary named member
    rw [Bool.not_eq_true', Bool.not_eq_false] at multiple
    exact (Word.isAligned_iff named.2).1 multiple

/-- The address lies in a segment for instructions. -/
def IsText (layout : Layout) (address : Address) : Prop :=
  ∃ segment, layout.segmentOf address = some segment ∧ segment.isText = true

instance (layout : Layout) (address : Address) : Decidable (layout.IsText address) :=
  decidable_of_iff _ (Option.any_eq_true (fun segment : Segment => segment.isText) (layout.segmentOf address))

/-- The word that holds an address lies in the same segment. -/
theorem segmentOf_align {layout : Layout} (ordered : layout.Ordered) {address : Address} {segment : Segment}
    (mapped : layout.segmentOf address = some segment) : layout.segmentOf (Word.align address) = some segment := by
  have boundary {bound : Address} (multiple : bound.toNat % 4 = 0) :
      address.toNat / 4 * 4 < bound.toNat ↔ address.toNat < bound.toNat := by omega
  have multiple := ordered.aligned
  simp only [boundaries, List.forall_mem_cons] at multiple
  obtain ⟨text, reserved, _, _, heap, limit, _, _, ktext, _, kdata, _⟩ := multiple
  have user := ordered.user
  unfold segmentOf at mapped ⊢
  -- Only the end of the stack need not be a multiple of four; nothing is mapped above it before the kernel text.
  simp only [UInt32.lt_iff_toNat_lt, UInt32.le_iff_toNat_le, Word.toNat_align, boundary text, boundary reserved,
    boundary heap, boundary limit, boundary ktext, boundary kdata] at mapped ⊢
  have last : address.toNat / 4 * 4 ≤ layout.userHigh.toNat → ¬address.toNat ≤ layout.userHigh.toNat →
      address.toNat < layout.ktextBase.toNat := by omega
  grind

theorem not_isText_align {layout : Layout} (ordered : layout.Ordered) {address : Address} {segment : Segment}
    (mapped : layout.segmentOf address = some segment) (data : segment.isText = false) :
    ¬layout.IsText (Word.align address) := by
  rintro ⟨other, inText, text⟩
  rw [segmentOf_align ordered mapped] at inText
  cases inText
  exact absurd (text.symm.trans data) (by decide)

end Mips.Layout
