import Mips.Word

/-!
Words as numbers and as sets of bits. Main statements: `toNat_ofInt`, `signed_ofInt`, `or_field` and `toNat_align`.
-/

namespace Mips.Word

/-- The word for a number is the number modulo `2^32`. -/
theorem toNat_ofInt (n : Int) : ((ofInt n).toNat : Int) = n % 0x100000000 := by
  have nonnegative := Int.emod_nonneg n (by decide : (0x100000000 : Int) ≠ 0)
  have small := Int.emod_lt_of_pos n (by decide : (0 : Int) < 0x100000000)
  change ((UInt32.ofNat (n % 0x100000000).toNat).toNat : Int) = n % 0x100000000
  rw [UInt32.toNat_ofNat']
  omega

theorem ofInt_toNat (word : Word) : ofInt word.toNat = word := by
  have small := word.toNat_lt
  have value := toNat_ofInt word.toNat
  rw [← UInt32.toNat_inj]
  omega

/-- The value of a word with its sign. -/
theorem signed_eq (word : Word) : word.signed = (word.toNat : Int).bmod 0x100000000 := by
  change word.toBitVec.toInt = _
  rw [BitVec.toInt_eq_toNat_bmod]
  rfl

theorem signed_bounds (word : Word) : -0x80000000 ≤ word.signed ∧ word.signed < 0x80000000 := by
  have lower := Int.le_bmod (x := word.toNat) (m := 0x100000000) (by decide)
  have upper := Int.bmod_lt (x := word.toNat) (m := 0x100000000) (by decide)
  rw [signed_eq]
  omega

/-- A number between `-2^31` and `2^31 - 1` is the signed value of its word. -/
theorem signed_ofInt {n : Int} (lower : -0x80000000 ≤ n) (upper : n < 0x80000000) : (ofInt n).signed = n := by
  have same : (n % 0x100000000).bmod 0x100000000 = n.bmod 0x100000000 := Int.emod_bmod n 0x100000000
  rw [signed_eq, toNat_ofInt, same]
  exact Int.bmod_eq_of_le (by omega) (by omega)

theorem ofInt_signed (word : Word) : ofInt word.signed = word := by
  have value := toNat_ofInt word.signed
  have same : word.signed % 0x100000000 = (word.toNat : Int) % 0x100000000 := by
    rw [signed_eq]
    exact Int.bmod_emod
  have small := word.toNat_lt
  rw [← UInt32.toNat_inj]
  omega

theorem ofInt_add (m n : Int) : ofInt (m + n) = ofInt m + ofInt n := UInt32.ofInt_add m n

theorem ofInt_neg (n : Int) : ofInt (-n) = -ofInt n := UInt32.ofInt_neg n

theorem ofInt_sub (m n : Int) : ofInt (m - n) = ofInt m - ofInt n := by
  rw [Int.sub_eq_add_neg, UInt32.sub_eq_add_neg, ofInt_add, ofInt_neg]

/-- The double word for a number is the number modulo `2^64`. -/
theorem toNat_ofInt_double (n : Int) : ((UInt64.ofInt n).toNat : Int) = n % 0x10000000000000000 := by
  have nonnegative := Int.emod_nonneg n (by decide : (0x10000000000000000 : Int) ≠ 0)
  have small := Int.emod_lt_of_pos n (by decide : (0 : Int) < 0x10000000000000000)
  change ((UInt64.ofNat (n % 0x10000000000000000).toNat).toNat : Int) = n % 0x10000000000000000
  rw [UInt64.toNat_ofNat']
  omega

/-- The lower half of a number of 64 bits is the same number of 32 bits. -/
theorem low_ofInt (n : Int) : low (UInt64.ofInt n) = ofInt n := by
  have value := toNat_ofInt n
  have double := toNat_ofInt_double n
  rw [← UInt32.toNat_inj, low, UInt64.toNat_toUInt32]
  omega

/-- The sign of a half is between `-2^15` and `2^15 - 1`. -/
theorem bmod_half_bounds (n : Int) : -0x8000 ≤ n.bmod 0x10000 ∧ n.bmod 0x10000 ≤ 0x7FFF := by
  have lower := Int.le_bmod (x := n) (m := 0x10000) (by decide)
  have upper := Int.bmod_lt (x := n) (m := 0x10000) (by decide)
  omega

/-- The value of the lowest half of a word with its sign. -/
theorem signed_signExtend_half (word : Word) :
    (word.signExtend 16).signed = (word.toNat : Int).bmod 0x10000 := by
  have bounds := bmod_half_bounds word.toNat
  exact signed_ofInt (n := (word.toNat : Int).bmod 0x10000) (by omega) (by omega)

theorem or_and (first second mask : Word) :
    (first ||| second) &&& mask = (first &&& mask) ||| (second &&& mask) := by
  rw [← UInt32.toBitVec_inj]
  simp only [UInt32.toBitVec_and, UInt32.toBitVec_or]
  ext position inside
  simp only [BitVec.getElem_and, BitVec.getElem_or]
  exact Bool.and_or_distrib_right _ _ _

/-- Reading a field of a union reads it from both parts. -/
theorem or_field (first second position mask : Word) :
    ((first ||| second) >>> position) &&& mask =
      ((first >>> position) &&& mask) ||| ((second >>> position) &&& mask) := by
  rw [UInt32.shiftRight_or, or_and]

/-- A mask of the lowest bits takes the remainder. -/
theorem toNat_and_mask (word : Word) (bits : Nat) (mask : Word) (full : mask.toNat = Nat.pow 2 bits - 1) :
    (word &&& mask).toNat = word.toNat % Nat.pow 2 bits := by
  rw [UInt32.toNat_and, full]
  exact Nat.and_two_pow_sub_one_eq_mod word.toNat bits

/-- A number that is no wider than a mask of the lowest bits is left as it is. -/
theorem and_mask_of_lt {word mask : Word} (bits : Nat) (full : mask.toNat = Nat.pow 2 bits - 1)
    (small : word.toNat < Nat.pow 2 bits) : word &&& mask = word := by
  rw [← UInt32.toNat_inj, toNat_and_mask word bits mask full, Nat.mod_eq_of_lt small]

theorem toNat_and_three (word : Word) : (word &&& 3).toNat = word.toNat % 4 := toNat_and_mask word 2 3 rfl

/-- The address of a word is the multiple of four at or below an address in it. -/
theorem toNat_align (address : Address) : (align address).toNat = address.toNat / 4 * 4 := by
  have mask : ∀ position, position < 32 → (0xFFFFFFFC : Address).toBitVec.getLsbD position = decide (2 ≤ position) := by
    decide
  have shifted : (align address).toBitVec = (address.toBitVec >>> 2) <<< 2 := by
    apply BitVec.eq_of_getLsbD_eq
    intro position inside
    simp only [align, UInt32.toBitVec_and, BitVec.getLsbD_and, mask position inside, BitVec.getLsbD_shiftLeft,
      BitVec.getLsbD_ushiftRight]
    grind
  have small := address.toNat_lt
  have value := congrArg BitVec.toNat shifted
  rw [BitVec.toNat_shiftLeft, BitVec.toNat_ushiftRight, Nat.shiftRight_eq_div_pow, Nat.shiftLeft_eq,
    UInt32.toNat_toBitVec, UInt32.toNat_toBitVec] at value
  rw [value]
  omega

theorem isAligned_iff (address : Address) : isAligned address = true ↔ address.toNat % 4 = 0 := by
  have four : (4 : Address).toNat = 4 := rfl
  rw [isAligned, beq_iff_eq, ← UInt32.toNat_inj, UInt32.toNat_mod, four]
  rfl

theorem align_of_isAligned {address : Address} (aligned : isAligned address = true) : align address = address := by
  rw [isAligned_iff] at aligned
  rw [← UInt32.toNat_inj, toNat_align]
  omega

theorem align_eq_align_iff (first second : Address) :
    align first = align second ↔ first.toNat / 4 = second.toNat / 4 := by
  rw [← UInt32.toNat_inj, toNat_align, toNat_align]
  omega

theorem isAligned_add {first second : Address} (alignedFirst : isAligned first = true)
    (alignedSecond : isAligned second = true) : isAligned (first + second) = true := by
  rw [isAligned_iff] at alignedFirst alignedSecond ⊢
  rw [UInt32.toNat_add]
  omega

theorem isAligned_sub {first second : Address} (alignedFirst : isAligned first = true)
    (alignedSecond : isAligned second = true) : isAligned (first - second) = true := by
  have bound := second.toNat_lt
  rw [isAligned_iff] at alignedFirst alignedSecond ⊢
  rw [UInt32.toNat_sub]
  omega

theorem isAligned_mul_four (word : Word) : isAligned (word * 4) = true := by
  have four : (4 : Word).toNat = 4 := rfl
  rw [isAligned_iff, UInt32.toNat_mul, four]
  omega

/-- The last two bits of a union are those of both words. -/
theorem isAligned_or {first second : Address} (alignedFirst : isAligned first = true)
    (alignedSecond : isAligned second = true) : isAligned (first ||| second) = true := by
  have bits (word : Word) : isAligned word = true ↔ word.toNat &&& 3 = 0 := by
    rw [isAligned_iff, ← toNat_and_three, UInt32.toNat_and]
    rfl
  rw [bits] at alignedFirst alignedSecond ⊢
  rw [UInt32.toNat_or, Nat.and_or_distrib_right, alignedFirst, alignedSecond]
  rfl

@[simp] theorem add_ofNat_zero (address : Address) : address + UInt32.ofNat 0 = address := UInt32.add_zero address

theorem add_ofNat_succ (address : Address) (index : Nat) :
    address + UInt32.ofNat (index + 1) = address + 1 + UInt32.ofNat index := by
  rw [UInt32.ofNat_add, UInt32.add_comm (UInt32.ofNat index), ← UInt32.add_assoc]
  rfl

/-- As far behind an address as another one lies there is the other one. -/
theorem add_ofNat_sub (address other : Address) : address + UInt32.ofNat (other - address).toNat = other := by
  rw [UInt32.ofNat_toNat, UInt32.add_comm, UInt32.sub_add_cancel]

/-- How far one address lies above another, around the end of the address space. -/
theorem toNat_sub_succ {address other : Address} (different : address ≠ other) :
    (other - address).toNat = (other - (address + 1)).toNat + 1 := by
  have bounds := And.intro address.toNat_lt other.toNat_lt
  have one : (1 : Address).toNat = 1 := rfl
  have unequal : address.toNat ≠ other.toNat := fun same => different (UInt32.toNat_inj.1 same)
  rw [UInt32.toNat_sub, UInt32.toNat_sub, UInt32.toNat_add, one]
  omega

/-- An address is as far above the next one as there is. -/
theorem toNat_sub_add_one (address : Address) : (address - (address + 1)).toNat = 0xFFFFFFFF := by
  have one : (1 : Address).toNat = 1 := rfl
  have bound := address.toNat_lt
  rw [UInt32.toNat_sub, UInt32.toNat_add, one]
  omega

/-- As many words as there are between the address behind `pc` and another one lead there. -/
theorem add_words {pc address : Address} (aligned : isAligned pc = true) (alignedOther : isAligned address = true) :
    pc + 4 + ofInt (((address.toNat : Int) - pc.toNat - 4) / 4) * 4 = address := by
  rw [isAligned_iff] at aligned alignedOther
  have whole : ((address.toNat : Int) - pc.toNat - 4) / 4 * 4 = (address.toNat : Int) - pc.toNat - 4 := by omega
  calc
    pc + 4 + ofInt (((address.toNat : Int) - pc.toNat - 4) / 4) * 4 =
        ofInt pc.toNat + ofInt 4 + ofInt (((address.toNat : Int) - pc.toNat - 4) / 4 * 4) := by
      rw [ofInt_toNat]
      exact congrArg (pc + 4 + ·) (UInt32.ofInt_mul _ 4).symm
    _ = ofInt address.toNat := by
      rw [whole, ← ofInt_add, ← ofInt_add]
      exact congrArg ofInt (by omega)
    _ = address := ofInt_toNat address

/-- Shifting out to the left what is shifted in from the right rotates a word. -/
theorem shiftLeft_or_shiftRight (word : Word) {left right : Word} (whole : (left.toNat + right.toNat) % 32 = 0) :
    (word <<< left) ||| (word >>> right) = ⟨word.toBitVec.rotateLeft left.toNat⟩ := by
  have leftAmount : (left.toBitVec % 32).toNat = left.toNat % 32 := rfl
  have rightAmount : (right.toBitVec % 32).toNat = right.toNat % 32 := rfl
  rw [← UInt32.toBitVec_inj, UInt32.toBitVec_or, UInt32.toBitVec_shiftLeft, UInt32.toBitVec_shiftRight,
    BitVec.shiftLeft_eq', BitVec.ushiftRight_eq', leftAmount, rightAmount, BitVec.rotateLeft_def]
  by_cases none : left.toNat % 32 = 0
  · have other : right.toNat % 32 = 0 := by omega
    have out : word.toBitVec >>> 32 = 0 := BitVec.ushiftRight_eq_zero (by decide)
    rw [none, other, out]
    simp
  · have other : right.toNat % 32 = 32 - left.toNat % 32 := by omega
    rw [other]

/-- Shifting out to the right what is shifted in from the left rotates a word, too. -/
theorem shiftRight_or_shiftLeft (word : Word) {left right : Word} (whole : (left.toNat + right.toNat) % 32 = 0) :
    (word >>> right) ||| (word <<< left) = ⟨word.toBitVec.rotateRight right.toNat⟩ := by
  have leftAmount : (left.toBitVec % 32).toNat = left.toNat % 32 := rfl
  have rightAmount : (right.toBitVec % 32).toNat = right.toNat % 32 := rfl
  rw [← UInt32.toBitVec_inj, UInt32.toBitVec_or, UInt32.toBitVec_shiftLeft, UInt32.toBitVec_shiftRight,
    BitVec.shiftLeft_eq', BitVec.ushiftRight_eq', leftAmount, rightAmount, BitVec.rotateRight_def]
  by_cases none : right.toNat % 32 = 0
  · have other : left.toNat % 32 = 0 := by omega
    have out : word.toBitVec <<< 32 = 0 := BitVec.shiftLeft_eq_zero (by decide)
    rw [none, other, out]
    simp
  · have other : left.toNat % 32 = 32 - right.toNat % 32 := by omega
    rw [other]

/-- A word is negated by inverting it and adding one, and both are done if it is negative. -/
theorem abs_eq (word : Word) :
    (word.shiftRightSigned 31 ^^^ word) - word.shiftRightSigned 31 = ofInt word.signed.natAbs := by
  have bounds := signed_bounds word
  have sign : word.shiftRightSigned 31 = if word.signed < 0 then -1 else 0 := by
    rw [shiftRightSigned, Int.shiftRight_eq_div_pow]
    split
    next negative =>
      have quotient : word.signed / (2 ^ 31 : Nat) = -1 := by omega
      rw [quotient]
      rfl
    next nonnegative =>
      have quotient : word.signed / (2 ^ 31 : Nat) = 0 := by omega
      rw [quotient]
      rfl
  rw [sign]
  split
  next negative =>
    have size : (word.signed.natAbs : Int) = -word.signed := by omega
    rw [size, ofInt_neg, ofInt_signed, UInt32.neg_one_xor, UInt32.not_eq_neg_sub,
      UInt32.sub_eq_add_neg (-word - 1), UInt32.neg_neg, UInt32.sub_add_cancel]
  next nonnegative =>
    have size : (word.signed.natAbs : Int) = word.signed := by omega
    rw [size, ofInt_signed, UInt32.zero_xor, UInt32.sub_zero]

theorem toNat_sub_eq_zero_iff (first second : Word) : (first - second).toNat = 0 ↔ first = second := by
  have bounds := And.intro first.toNat_lt second.toNat_lt
  rw [UInt32.toNat_sub, ← UInt32.toNat_inj]
  omega

theorem sub_lt_one_iff (first second : Word) : first - second < 1 ↔ first = second := by
  rw [← toNat_sub_eq_zero_iff, UInt32.lt_iff_toNat_lt]
  exact Nat.lt_one_iff

theorem sub_pos_iff (first second : Word) : 0 < first - second ↔ first ≠ second := by
  rw [Ne, ← toNat_sub_eq_zero_iff, UInt32.lt_iff_toNat_lt]
  exact Nat.pos_iff_ne_zero

end Mips.Word
