import Mathlib.Data.List.Forall2
import Mathlib.Data.Nat.Digits.Defs
import Mips.Text.Numeral

/-!
What numerals denote. A text is read as a number exactly if it consists of digits, and then as the number that these denote
by their places. The digits that a number is written with do not begin with a zero, and zeros in front of them do not count.
Main statements: `readNumeral?_eq_some_iff` and `readNumeral?_padLeft`.
-/

namespace Mips.Text

/-- The character is the digit of this value in the base; a letter is one in either case. -/
def IsDigit (base : Nat) (c : Char) (value : Nat) : Prop :=
  value < base ∧ (c = digit value ∨ c = (digit value).toUpper)

/-- The characters are digits of the base, at least one, and denote the number by their places. -/
def IsNumeral (base : Nat) (characters : List Char) (number : Nat) : Prop :=
  characters ≠ [] ∧ ∃ values, List.Forall₂ (IsDigit base) characters values ∧ number = Nat.ofDigits base values.reverse

/-- Of the characters only the digits of the base have a value in it. -/
theorem digitValue?_eq_some_iff {base value : Nat} (bounded : base ≤ 16) {c : Char} :
    digitValue? base c = some value ↔ IsDigit base c value := by
  constructor
  · intro read
    simp only [digitValue?, Option.ite_none_right_eq_some, Option.some.injEq, Bool.and_eq_true, decide_eq_true_eq,
      Char.le_def, UInt32.le_iff_toNat_le, Char.toNat_val, Char.reduceToNat] at read
    obtain ⟨small, valued⟩ := read
    rw [valued] at small
    refine ⟨small, ?_⟩
    rw [← Char.ofNat_toNat c]
    split at valued
    next decimal =>
      have place : c.toNat = 48 + value := by omega
      left
      rw [place, digit, if_pos (by omega)]
    next =>
      split at valued
      next lower =>
        have place : c.toNat = 87 + value := by omega
        left
        rw [place, digit, if_neg (by omega)]
      next =>
        split at valued
        next upper =>
          have place : c.toNat = 55 + value := by omega
          have table : ∀ value < 16, 10 ≤ value → Char.ofNat (55 + value) = (digit value).toUpper := by decide
          right
          rw [place]
          exact table value (by omega) (by omega)
        next => omega
  · rintro ⟨small, written⟩
    have table : ∀ base ≤ 16, ∀ value < base, digitValue? base (digit value) = some value ∧
        digitValue? base (digit value).toUpper = some value := by
      decide +kernel
    obtain ⟨lower, upper⟩ := table base bounded value small
    rcases written with rfl | rfl
    · exact lower
    · exact upper

/-- The places of digits in front of which others stand are counted from their own end. -/
theorem ofDigits_reverse_cons (base value before : Nat) (values : List Nat) :
    Nat.ofDigits base (value :: values).reverse + before * base ^ (value :: values).length =
      Nat.ofDigits base values.reverse + (base * before + value) * base ^ values.length := by
  rw [List.reverse_cons, Nat.ofDigits_append, Nat.ofDigits_singleton, List.length_reverse, List.length_cons, pow_succ]
  ring

theorem readDigits?_eq_some_iff {base before number : Nat} (bounded : base ≤ 16) {characters : List Char} :
    readDigits? base before characters = some number ↔
      ∃ values, List.Forall₂ (IsDigit base) characters values ∧
        number = Nat.ofDigits base values.reverse + before * base ^ values.length := by
  induction characters generalizing before with
  | nil =>
    simp only [readDigits?, Option.some.injEq, List.forall₂_nil_left_iff, exists_eq_left, List.reverse_nil,
      Nat.ofDigits_nil, List.length_nil, pow_zero]
    omega
  | cons c rest ih =>
    simp only [readDigits?, bind, Option.bind_eq_some_iff, digitValue?_eq_some_iff bounded, ih]
    constructor
    · rintro ⟨value, digit, values, digits, rfl⟩
      exact ⟨value :: values, .cons digit digits, (ofDigits_reverse_cons base value before values).symm⟩
    · rintro ⟨all, digits, rfl⟩
      cases digits with
      | @cons _ value _ values digit digits =>
        exact ⟨value, digit, values, digits, ofDigits_reverse_cons base value before values⟩

/-- A text is read as a number exactly if it is a numeral for it. -/
theorem readNumeral?_eq_some_iff {base number : Nat} (bounded : base ≤ 16) {characters : List Char} :
    readNumeral? base characters = some number ↔ IsNumeral base characters number := by
  have read := @readDigits?_eq_some_iff base 0 number bounded characters
  simp only [Nat.zero_mul, Nat.add_zero] at read
  rw [IsNumeral, ← read, readNumeral?]
  cases characters with
  | nil => simp
  | cons c rest => simp

theorem exists_digit_of_mem {base number : Nat} (positive : 2 ≤ base) {c : Char} (member : c ∈ digits base number) :
    ∃ value < base, c = digit value := by
  induction number using Nat.strongRecOn with
  | _ number ih =>
    rw [digits] at member
    split at member
    next small =>
      have below : number < base := by omega
      exact ⟨number, below, List.mem_singleton.1 member⟩
    next large =>
      rcases List.mem_append.1 member with earlier | last
      · exact ih _ (Nat.div_lt_self (by omega) (by omega)) earlier
      · exact ⟨number % base, Nat.mod_lt _ (by omega), List.mem_singleton.1 last⟩

theorem readDigits?_zeros (base count : Nat) (positive : 0 < base) (characters : List Char) :
    readDigits? base 0 (List.replicate count '0' ++ characters) = readDigits? base 0 characters := by
  have zero : digitValue? base '0' = some 0 := by
    simp [digitValue?, positive]
  induction count with
  | zero => rfl
  | succ count ih =>
    rw [List.replicate_succ, List.cons_append, readDigits?, zero]
    exact ih

/-- A number below a power of the base has no more digits than the power has factors. -/
theorem length_digits_le {base width number : Nat} (positive : 2 ≤ base) (room : 0 < width)
    (small : number < Nat.pow base width) : (digits base number).length ≤ width := by
  induction width generalizing number with
  | zero => exact absurd room (Nat.lt_irrefl 0)
  | succ width ih =>
    rw [digits]
    split
    next => exact room
    next large =>
      have power : Nat.pow base (width + 1) = Nat.pow base width * base := rfl
      have less : number / base < Nat.pow base width := Nat.div_lt_of_lt_mul (by rwa [Nat.mul_comm, ← power])
      have more : 0 < width := by
        rcases Nat.eq_zero_or_pos width with rfl | more
        · have one : number / base < 1 := less
          have whole := (Nat.div_lt_one_iff (by omega)).1 one
          omega
        · exact more
      rw [List.length_append]
      exact Nat.succ_le_succ (ih more less)

/-- A number but zero has no leading zero. -/
theorem exists_digits_eq_cons {base : Nat} (positive : 2 ≤ base) (bounded : base ≤ 16) (number : Nat) :
    ∃ first rest, digits base number = first :: rest ∧ (first = '0' → number = 0 ∧ rest = []) := by
  induction number using Nat.strongRecOn with
  | _ number ih =>
    rw [digits]
    split
    next small =>
      have below : number < 16 := by omega
      have table : ∀ value < 16, digit value = '0' → value = 0 := by decide
      exact ⟨digit number, [], rfl, fun zero => ⟨table number below zero, rfl⟩⟩
    next large =>
      obtain ⟨first, rest, shape, leading⟩ := ih (number / base) (Nat.div_lt_self (by omega) (by omega))
      refine ⟨first, rest ++ [digit (number % base)], by rw [shape, List.cons_append], fun zero => ?_⟩
      have whole := (Nat.div_eq_zero_iff_lt (by omega)).1 (leading zero).1
      omega

theorem length_padLeft {width : Nat} {characters : List Char} (fits : characters.length ≤ width) :
    (padLeft width characters).length = width := by
  rw [padLeft, List.length_append, List.length_replicate]
  omega

/-- Zeros in front of the digits of a number do not change it. -/
theorem readNumeral?_padLeft {base : Nat} (positive : 2 ≤ base) (bounded : base ≤ 16) (width number : Nat) :
    readNumeral? base (padLeft width (digits base number)) = some number := by
  have present : padLeft width (digits base number) ≠ [] := by simp [padLeft, digits_ne_nil]
  rw [readNumeral?, if_neg (by simpa using present), padLeft, readDigits?_zeros base _ (by omega),
    readDigits?_digits positive bounded]

end Mips.Text
