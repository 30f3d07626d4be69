import Mips.Proofs.Expansion.Division

/-!
`HI` and `LO` as one number of 64 bits. A multiplication puts an exact product there, or adds it to what was there or
takes it away; a division puts a quotient and a remainder there that give the dividend again. Main statements:
`exact_value`, `assigns_of_multiplication` and `balanced`.
-/

namespace Mips

namespace Word

theorem toNat_join (high low : Word) : (join high low).toNat = high.toNat * 0x100000000 + low.toNat := by
  have bounds := And.intro high.toNat_lt low.toNat_lt
  have amount : (32 : UInt64).toNat % 64 = 32 := rfl
  have shifted : (high.toUInt64 <<< 32).toNat = high.toNat <<< 32 := by
    rw [UInt64.toNat_shiftLeft, amount, UInt32.toNat_toUInt64, Nat.mod_eq_of_lt]
    rw [Nat.shiftLeft_eq]
    omega
  rw [join, UInt64.toNat_or, shifted, UInt32.toNat_toUInt64, ← Nat.shiftLeft_add_eq_or_of_lt bounds.2,
    Nat.shiftLeft_eq]

theorem join_high_low (pair : UInt64) : join (high pair) (low pair) = pair := by
  have bound := pair.toNat_lt
  have amount : (32 : UInt64).toNat % 64 = 32 := rfl
  have upper : (high pair).toNat = pair.toNat / 0x100000000 := by
    rw [high, UInt64.toNat_toUInt32, UInt64.toNat_shiftRight, amount, Nat.shiftRight_eq_div_pow]
    omega
  have lower : (low pair).toNat = pair.toNat % 0x100000000 := UInt64.toNat_toUInt32 pair
  rw [← UInt64.toNat_inj, toNat_join, upper, lower]
  omega

/-- A number between `-2^63` and `2^63 - 1` is the signed value of its double word. -/
theorem toInt_ofInt_double {n : Int} (lower : -0x8000000000000000 ≤ n) (upper : n < 0x8000000000000000) :
    (UInt64.ofInt n).toBitVec.toInt = n := by
  have value : ((UInt64.ofInt n).toBitVec.toNat : Int) = n % 0x10000000000000000 := toNat_ofInt_double n
  rw [BitVec.toInt_eq_toNat_bmod, value]
  exact (Int.emod_bmod n 0x10000000000000000).trans (Int.bmod_eq_of_le (by omega) (by omega))

end Word

namespace Machine

variable [Generator]

/-- What `HI` and `LO` hold together. -/
def pair (machine : Machine) : UInt64 := Word.join machine.hi machine.lo

/-- The machine with the halves of a number in `HI` and `LO`. -/
def setPair (machine : Machine) (value : UInt64) : Machine :=
  { machine with hi := Word.high value, lo := Word.low value }

@[simp] theorem pair_setPair (machine : Machine) (value : UInt64) : (machine.setPair value).pair = value :=
  Word.join_high_low value

end Machine

/-- What becomes of a product: it replaces what `HI` and `LO` hold, or it is added to that or taken from it. -/
inductive ProductUse where
  | replaces
  | adds
  | subtracts
  deriving DecidableEq

/-- How a product of two words gets into `HI` and `LO`. -/
structure Multiplication where
  signed : Bool
  use : ProductUse

/-- How the operation multiplies into `HI` and `LO`. -/
def Operation.multiplication? : Operation → Option Multiplication
  | .mult | .mul => some ⟨true, .replaces⟩
  | .multu => some ⟨false, .replaces⟩
  | .madd => some ⟨true, .adds⟩
  | .maddu => some ⟨false, .adds⟩
  | .msub => some ⟨true, .subtracts⟩
  | .msubu => some ⟨false, .subtracts⟩
  | _ => none

namespace Multiplication

variable (multiplication : Multiplication) (pair : UInt64) (first second : Word)

/-- The number that a word stands for as a factor. -/
def factor (word : Word) : Int := if multiplication.signed then word.signed else word.toNat

def product : Int := multiplication.factor first * multiplication.factor second

/-- The number that `HI` and `LO` stand for as a product. -/
def whole : Int := if multiplication.signed then pair.toBitVec.toInt else pair.toNat

/-- What the product counts for in a sum. -/
def addend : Int :=
  if multiplication.use = .subtracts then -multiplication.product first second else multiplication.product first second

/-- The number that is put into `HI` and `LO`, modulo `2^64`, if they held `pair`. -/
def total : Int :=
  match multiplication.use with
  | .replaces => multiplication.product first second
  | .adds | .subtracts => pair.toNat + multiplication.addend first second

def value : UInt64 := UInt64.ofInt (multiplication.total pair first second)

/--
The number `after` in `HI` and `LO` is the exact product of the words, or the exact sum of `before` and the product or
its negation, modulo `2^64`.
-/
structure Exact (before after : UInt64) : Prop where
  replaced : multiplication.use = .replaces → multiplication.whole after = multiplication.product first second
  accumulated : multiplication.use ≠ .replaces →
    (after.toNat : Int) = (before.toNat + multiplication.addend first second) % 0x10000000000000000

/-- Every product of two words fits into a double word. -/
theorem whole_product : multiplication.whole (UInt64.ofInt (multiplication.product first second)) =
    multiplication.product first second := by
  obtain ⟨signed, use⟩ := multiplication
  cases signed with
  | true =>
    have bounds := And.intro (Word.signed_bounds first) (Word.signed_bounds second)
    have size : (first.signed * second.signed).natAbs ≤ 0x80000000 * 0x80000000 := by
      rw [Int.natAbs_mul]
      exact Nat.mul_le_mul (by omega) (by omega)
    exact Word.toInt_ofInt_double (n := first.signed * second.signed) (by omega) (by omega)
  | false =>
    have bounds := And.intro first.toNat_lt second.toNat_lt
    have size : first.toNat * second.toNat ≤ 0xFFFFFFFF * 0xFFFFFFFF := Nat.mul_le_mul (by omega) (by omega)
    have product : ((first.toNat : Int) * second.toNat) = (first.toNat * second.toNat : Nat) := (Int.natCast_mul _ _).symm
    change ((UInt64.ofInt ((first.toNat : Int) * second.toNat)).toNat : Int) = (first.toNat : Int) * second.toNat
    rw [Word.toNat_ofInt_double, product]
    omega

theorem exact_value : multiplication.Exact first second pair (multiplication.value pair first second) := by
  constructor
  case replaced =>
    intro replaces
    rw [value, total, replaces]
    exact multiplication.whole_product first second
  case accumulated =>
    intro accumulates
    have total : multiplication.total pair first second = pair.toNat + multiplication.addend first second := by
      unfold total
      split
      next replaces => exact absurd replaces accumulates
      all_goals rfl
    rw [value, Word.toNat_ofInt_double, total]

/-- The product of two words, modulo `2^64`. -/
def double : UInt64 := if multiplication.signed then signedProduct first second else unsignedProduct first second

theorem double_eq : multiplication.double first second = UInt64.ofInt (multiplication.product first second) := by
  obtain ⟨signed, use⟩ := multiplication
  cases signed with
  | true => rfl
  | false =>
    have value := Word.toNat_ofInt_double ((first.toNat : Int) * second.toNat)
    change first.toUInt64 * second.toUInt64 = UInt64.ofInt ((first.toNat : Int) * second.toNat)
    rw [← UInt64.toNat_inj, UInt64.toNat_mul, UInt32.toNat_toUInt64, UInt32.toNat_toUInt64]
    omega

/-- What is put into `HI` and `LO` is computed modulo `2^64`. -/
theorem value_eq :
    multiplication.value pair first second =
      match multiplication.use with
      | .replaces => multiplication.double first second
      | .adds => pair + multiplication.double first second
      | .subtracts => pair - multiplication.double first second := by
  have base : UInt64.ofInt pair.toNat = pair := by
    have value := Word.toNat_ofInt_double pair.toNat
    have bound := pair.toNat_lt
    rw [← UInt64.toNat_inj]
    omega
  rw [double_eq]
  obtain ⟨signed, use⟩ := multiplication
  cases use with
  | replaces => rfl
  | adds => exact (UInt64.ofInt_add _ _).trans (congrArg (· + _) base)
  | subtracts =>
    rw [UInt64.sub_eq_add_neg, ← UInt64.ofInt_neg]
    exact (UInt64.ofInt_add _ _).trans (congrArg (· + _) base)

end Multiplication

namespace Instruction

variable [Generator] {instruction : Instruction}

/-- What an instruction assigns that multiplies. -/
theorem assigns_of_multiplication {multiplication : Multiplication}
    (known : instruction.operation.multiplication? = some multiplication) (machine : Machine) :
    let value := multiplication.value machine.pair (machine.get instruction.rs) (machine.get instruction.rt)
    instruction.Assigns machine ([.hi (Word.high value), .lo (Word.low value)] ++
      if instruction.operation = .mul then [.register instruction.rd (Word.low value)] else []) := by
  intro value pc delayed
  have computed : value = _ := multiplication.value_eq _ _ _
  unfold effect
  cases operation : instruction.operation with
  | mult | multu | mul | madd | maddu | msub | msubu =>
    rw [operation] at known
    cases known
    rw [computed]
    rfl
  | _ =>
    rw [operation] at known
    cases known

end Instruction

/-- How the operation divides into `HI` and `LO`. -/
def Operation.division? : Operation → Option Division
  | .div => some ⟨true, false⟩
  | .divu => some ⟨false, false⟩
  | _ => none

namespace Division

/--
The quotient and the remainder give the dividend again, except that the quotient of `-2^31` and `-1` is `-2^31`; and the
remainder is smaller than the divisor and zero or of the sign of the dividend.
-/
structure Balanced (division : Division) (dividend divisor quotient remainder : Word) : Prop where
  restored : (division.number dividend = -0x80000000 → division.number divisor ≠ -1) →
    division.number dividend = division.number quotient * division.number divisor + division.number remainder
  wrapped : division.number dividend = -0x80000000 → division.number divisor = -1 →
    division.number quotient = -0x80000000 ∧ division.number remainder = 0
  smaller : (division.number remainder).natAbs < (division.number divisor).natAbs
  sign : division.number remainder = 0 ∨ (division.number remainder).sign = (division.number dividend).sign

theorem number_ne_zero (division : Division) {word : Word} (nonzero : word ≠ 0) : division.number word ≠ 0 := by
  unfold number
  split
  · exact signed_ne_zero nonzero
  · exact fun zero => nonzero (UInt32.toNat_inj.1 (Int.natCast_eq_zero.1 zero))

/-- The quotient and the remainder of a division are those that give the dividend again. -/
theorem Exact.balanced {division : Division} {dividend divisor quotient remainder : Word}
    (exact : division.Exact dividend divisor quotient remainder) (nonzero : divisor ≠ 0) :
    division.Balanced dividend divisor quotient remainder where
  restored fits := by rw [exact.truncated fits, exact.rest, Int.tdiv_mul_add_tmod]
  wrapped least negated := by
    refine ⟨exact.wrapped least negated, ?_⟩
    rw [exact.rest, negated, Int.tmod_neg, Int.tmod_one]
  smaller := by
    rw [exact.rest, Int.natAbs_tmod]
    exact Nat.mod_lt _ (Int.natAbs_pos.2 (division.number_ne_zero nonzero))
  sign := by
    have sign := Int.sign_tmod (division.number dividend) (division.number divisor)
    rw [exact.rest]
    split at sign
    · exact .inl (Int.sign_eq_zero_iff_zero.1 sign)
    · exact .inr sign

end Division

namespace Instruction

variable [Generator] {instruction : Instruction}

/-- What an instruction assigns that divides: nothing if the divisor is zero. -/
theorem assigns_of_division {division : Division} (known : instruction.operation.division? = some division)
    (machine : Machine) :
    let dividend := machine.get instruction.rs
    let divisor := machine.get instruction.rt
    instruction.Assigns machine (if divisor = 0 then []
      else [.hi (division.remainder dividend divisor), .lo (division.quotient dividend divisor)]) := by
  intro dividend divisor pc delayed
  unfold effect
  cases operation : instruction.operation with
  | div | divu =>
    rw [operation] at known
    cases known
    dsimp only
    split <;> rfl
  | _ =>
    rw [operation] at known
    cases known

end Instruction

end Mips
