import Mips.ChaCha
import Mips.Proofs.Word

/-!
What the generator of the command line draws below a bound. Main statement: that the generator is lawful.
-/

namespace Mips

namespace ChaCha

/-- The high half of the product of a word and a bound is below the bound. -/
theorem high_mul_lt (word : Word) {bound : Word} (positive : 0 < bound.toNat) :
    (Word.high (word.toUInt64 * bound.toUInt64)).toNat < bound.toNat := by
  have product : word.toNat * bound.toNat < 0x100000000 * bound.toNat :=
    Nat.mul_lt_mul_of_pos_right word.toNat_lt positive
  have within : word.toNat * bound.toNat / 0x100000000 < bound.toNat := Nat.div_lt_of_lt_mul product
  have whole : (word.toUInt64 * bound.toUInt64).toNat = word.toNat * bound.toNat := by
    have small := bound.toNat_lt
    rw [UInt64.toNat_mul, UInt32.toNat_toUInt64, UInt32.toNat_toUInt64]
    exact Nat.mod_eq_of_lt (by omega)
  have half : (Word.high (word.toUInt64 * bound.toUInt64)).toNat = word.toNat * bound.toNat / 0x100000000 := by
    rw [Word.high, UInt64.toNat_toUInt32, UInt64.toNat_shiftRight, whole, Nat.shiftRight_eq_div_pow]
    exact Nat.mod_eq_of_lt (Nat.lt_trans within bound.toNat_lt)
  rw [half]
  exact within

/-- What is drawn below a bound is below it. -/
theorem below_lt {bound : Word} (positive : 0 < bound.toNat) (tries : Nat) (stream : ChaCha) :
    (below bound tries stream).1.toNat < bound.toNat := by
  induction tries generalizing stream with
  | zero => exact high_mul_lt _ positive
  | succ tries ih =>
    unfold below
    dsimp only
    split
    · exact high_mul_lt _ positive
    · exact ih _

end ChaCha

instance : LawfulGenerator where
  below_lt positive stream := by
    rw [Word.signed_eq, Int.bmod_def] at positive
    exact ChaCha.below_lt (by omega) ChaCha.maximalTries stream

end Mips
