import Mips.Proofs.Expansion.Decision

/-!
Written divisions with three operands. What they are expanded to divides one word by another that is not zero and moves
the quotient or the remainder; if the divisor is a register, then a guard before it breaks on zero. Main statements:
`Division.exact`, `leads_dividing`, `leads_guarding` and `succeeds_division_iff`.
-/

namespace Mips

/-- How words are divided, and what of the result is wanted. -/
structure Division where
  signed : Bool
  /-- Whether the remainder is wanted, and not the quotient. -/
  remains : Bool

/-- How an instruction of this name divides if it has three operands. -/
def Mnemonic.division? : Mnemonic → Option Division
  | .machine .div => some ⟨true, false⟩
  | .machine .divu => some ⟨false, false⟩
  | .pseudo .rem => some ⟨true, true⟩
  | .pseudo .remu => some ⟨false, true⟩
  | _ => none

/-- How the instruction divides: where the result goes, the dividend and the divisor. -/
def WrittenInstruction.division? (written : WrittenInstruction) : Option (Division × Register × Register × Operand) :=
  match written.mnemonic.division?, written.operands with
  | some division, [.register rd, .register rs, divisor] => some (division, rd, rs, divisor)
  | _, _ => none

theorem WrittenInstruction.of_division? {written : WrittenInstruction} {division : Division} {rd rs : Register}
    {divisor : Operand} (named : written.division? = some (division, rd, rs, divisor)) :
    written.mnemonic.division? = some division ∧ written.operands = [.register rd, .register rs, divisor] := by
  unfold WrittenInstruction.division? at named
  split at named
  next known shape =>
    cases named
    exact ⟨known, shape⟩
  next => cases named

namespace Division

/-- The number that a word stands for in the division. -/
def number (division : Division) (word : Word) : Int := if division.signed then word.signed else word.toNat

/--
The quotient is truncated toward zero, and the remainder has the sign of the dividend. The one quotient that is no word is
that of `-2^31` and `-1`, for which `-2^31` is had.
-/
structure Exact (division : Division) (dividend divisor quotient remainder : Word) : Prop where
  truncated : (division.number dividend = -0x80000000 → division.number divisor ≠ -1) →
    division.number quotient = (division.number dividend).tdiv (division.number divisor)
  wrapped : division.number dividend = -0x80000000 → division.number divisor = -1 →
    division.number quotient = -0x80000000
  rest : division.number remainder = (division.number dividend).tmod (division.number divisor)

/-- The operation that divides. -/
def operation (division : Division) : Operation := if division.signed then .div else .divu

/-- The operation that moves what is wanted. -/
def move (division : Division) : Operation := if division.remains then .mfhi else .mflo

/-- The word that is put into `LO`. -/
def quotient (division : Division) (dividend divisor : Word) : Word :=
  if division.signed then Word.ofInt (dividend.signed.tdiv divisor.signed) else dividend / divisor

/-- The word that is put into `HI`. -/
def remainder (division : Division) (dividend divisor : Word) : Word :=
  if division.signed then Word.ofInt (dividend.signed.tmod divisor.signed) else dividend % divisor

theorem signed_ne_zero {word : Word} (nonzero : word ≠ 0) : word.signed ≠ 0 := by
  intro zero
  have same := Word.ofInt_signed word
  rw [zero] at same
  exact nonzero same.symm

/-- A remainder is smaller than the divisor, so that it fits. -/
theorem signed_remainder (dividend : Word) {divisor : Word} (nonzero : divisor ≠ 0) :
    (Word.ofInt (dividend.signed.tmod divisor.signed)).signed = dividend.signed.tmod divisor.signed := by
  have bounds := Word.signed_bounds divisor
  have size : (dividend.signed.tmod divisor.signed).natAbs < divisor.signed.natAbs := by
    rw [Int.natAbs_tmod]
    exact Nat.mod_lt _ (Int.natAbs_pos.2 (signed_ne_zero nonzero))
  exact Word.signed_ofInt (by omega) (by omega)

/-- A quotient is at most as large as the dividend, and half as large unless the divisor is one or minus one. -/
theorem signed_quotient {dividend divisor : Word} (nonzero : divisor ≠ 0)
    (fits : dividend.signed = -0x80000000 → divisor.signed ≠ -1) :
    (Word.ofInt (dividend.signed.tdiv divisor.signed)).signed = dividend.signed.tdiv divisor.signed := by
  have bounds := Word.signed_bounds dividend
  by_cases negated : divisor.signed = -1
  · have size : dividend.signed.tdiv divisor.signed = -dividend.signed := by
      rw [negated, Int.tdiv_neg, Int.tdiv_one]
    exact Word.signed_ofInt (by omega) (by omega)
  by_cases whole : divisor.signed = 1
  · have size : dividend.signed.tdiv divisor.signed = dividend.signed := by rw [whole, Int.tdiv_one]
    exact Word.signed_ofInt (by omega) (by omega)
  · have large : 2 ≤ divisor.signed.natAbs := by
      have other := signed_ne_zero nonzero
      omega
    have size : (dividend.signed.tdiv divisor.signed).natAbs ≤ dividend.signed.natAbs / 2 := by
      rw [Int.natAbs_tdiv]
      exact Nat.div_le_div_left large (by decide)
    exact Word.signed_ofInt (by omega) (by omega)

/-- The words that a division gives are its quotient and its remainder. -/
theorem exact (division : Division) (dividend : Word) {divisor : Word} (nonzero : divisor ≠ 0) :
    division.Exact dividend divisor (division.quotient dividend divisor) (division.remainder dividend divisor) := by
  obtain ⟨signed, remains⟩ := division
  cases signed with
  | true =>
    refine ⟨signed_quotient nonzero, ?_, signed_remainder dividend nonzero⟩
    intro least negated
    change dividend.signed = _ at least
    change divisor.signed = _ at negated
    change (Word.ofInt (dividend.signed.tdiv divisor.signed)).signed = _
    rw [least, negated]
    rfl
  | false =>
    refine ⟨fun _ => ?_, ?_, ?_⟩
    · change ((dividend / divisor).toNat : Int) = (dividend.toNat : Int).tdiv divisor.toNat
      rw [UInt32.toNat_div]
      exact Int.ofNat_tdiv _ _
    · intro least
      change (dividend.toNat : Int) = _ at least
      omega
    · change ((dividend % divisor).toNat : Int) = (dividend.toNat : Int).tmod divisor.toNat
      rw [UInt32.toNat_mod]
      exact Int.ofNat_tmod _ _

end Division

namespace Expansion

open Instruction

variable {context : ExpansionContext} {rd rs rt : Register}

/-- The instructions that divide one register by another and move what is wanted. -/
def dividing (division : Division) (rd rs rt : Register) : List Instruction :=
  [registers division.operation .zero rs rt, registers division.move rd .zero .zero]

/-- What stands before the break of a guard: a branch around it, and what fills its delay slot. -/
def guarding (delayed : Bool) (rt : Register) : List Instruction :=
  if delayed then [immediate .bne rt .zero 2, .nop] else [immediate .bne rt .zero 1]

theorem divide_register (context : ExpansionContext) (division : Division) (rd rs rt : Register) :
    divide context division.operation division.move rd rs (.register rt) =
      .ok (some ((guarding context.delayed rt ++ [.ofCode .breakpoint 0]) ++ dividing division rd rs rt)) := by
  unfold divide guarding
  cases context.delayed <;> rfl

/-- A written division with three operands is expanded to what divides them. -/
theorem expand_division {mnemonic : Mnemonic} {division : Division} (known : mnemonic.division? = some division)
    (rd rs : Register) (divisor : Operand) :
    WrittenInstruction.expand ⟨mnemonic, [.register rd, .register rs, divisor]⟩ context =
      settle context mnemonic (.ok none) (divide context division.operation division.move rd rs divisor) := by
  cases mnemonic with
  | nop => cases known
  | machine operation =>
    cases operation with
    | div | divu =>
      cases known
      rfl
    | _ => cases known
  | pseudo pseudo =>
    cases pseudo with
    | rem | remu =>
      cases known
      rfl
    | _ => cases known

/-- A number other than zero that is a word stands for one other than zero. -/
theorem ofInt_ne_zero {value : Int} (holds : Word.holds value = true) (nonzero : value ≠ 0) : Word.ofInt value ≠ 0 := by
  have number := Word.toNat_ofInt value
  simp only [Word.holds, Bool.and_eq_true, decide_eq_true_eq] at holds
  intro same
  have none : (Word.ofInt value).toNat = 0 := congrArg UInt32.toNat same
  omega

/-- A division by a register is guarded, and a number is loaded before it. -/
theorem of_divide {division : Division} {divisor : Operand} {instructions : List Instruction}
    (found : divide context division.operation division.move rd rs divisor = .ok (some instructions)) :
    (∃ rt, divisor = .register rt ∧
        instructions = (guarding context.delayed rt ++ [.ofCode .breakpoint 0]) ++ dividing division rd rs rt) ∨
      ∃ value loading, divisor = .immediate value ∧ load .scratch value = .ok loading ∧
        instructions = loading ++ dividing division rd rs .scratch := by
  cases divisor with
  | register rt =>
    rw [divide_register] at found
    cases found
    exact .inl ⟨rt, rfl, rfl⟩
  | immediate value =>
    obtain ⟨loading, loaded, same⟩ := map_eq_ok_iff.1 found
    exact .inr ⟨value, loading, rfl, loaded, (Option.some.inj same).symm⟩
  | label | based => cases found

/-- A written division is expanded only to what divides. -/
theorem divide_of_expand {written : WrittenInstruction} {division : Division} {divisor : Operand}
    {instructions : List Instruction} (named : written.division? = some (division, rd, rs, divisor))
    (expanded : written.expand context = .ok instructions) :
    divide context division.operation division.move rd rs divisor = .ok (some instructions) := by
  obtain ⟨mnemonic, operands⟩ := written
  obtain ⟨known, rfl⟩ := WrittenInstruction.of_division? named
  rcases ok_of_settle ((expand_division known rd rs divisor).symm.trans expanded) with ⟨instruction, direct, -⟩ | found
  · cases direct
  · exact found

variable [Generator] {machine : Machine}

/-- A division by a word other than zero sets `HI` and `LO`. -/
theorem assigns_division (division : Division) (rs : Register) (nonzero : machine.get rt ≠ 0) :
    (registers division.operation .zero rs rt).Assigns machine
      [.hi (division.remainder (machine.get rs) (machine.get rt)),
        .lo (division.quotient (machine.get rs) (machine.get rt))] := by
  intro pc delayed
  have layout : division.operation.format = .twoSources := by
    unfold Division.operation
    split <;> rfl
  have source : (ofRegisters division.operation .zero rs rt 0).rs = rs :=
    rs_ofRegisters (by rw [layout]; decide) (by rw [layout]; decide)
  have value : (ofRegisters division.operation .zero rs rt 0).rt = rt :=
    rt_ofRegisters (by rw [layout]; decide) (by rw [layout]; decide)
  have same : (ofRegisters division.operation .zero rs rt 0).operation = division.operation := rfl
  simp only [registers, effect, same, source, value]
  obtain ⟨signed, remains⟩ := division
  cases signed <;> exact if_neg nonzero

theorem assigns_move (division : Division) (rd : Register) :
    (registers division.move rd .zero .zero).Assigns machine
      [.register rd (if division.remains then machine.hi else machine.lo)] := by
  intro pc delayed
  have same : (ofRegisters division.move rd .zero .zero 0).operation = division.move := rfl
  simp only [registers, effect, same, rd_ofRegisters]
  obtain ⟨signed, remains⟩ := division
  cases remains <;> rfl

/-- The machine after a division: `HI` and `LO` hold its result, and a register what is wanted of it. -/
def divided (division : Division) (rd : Register) (dividend divisor : Word) (machine : Machine) : Machine :=
  Machine.set
    { machine with hi := division.remainder dividend divisor, lo := division.quotient dividend divisor } rd
    (if division.remains then division.remainder dividend divisor else division.quotient dividend divisor)

theorem leads_dividing (division : Division) (rd rs : Register) (nonzero : machine.get rt ≠ 0) :
    Leads (dividing division rd rs rt) machine
      (divided division rd (machine.get rs) (machine.get rt) machine) :=
  .cons (assigns_division division rs nonzero) (by simp [Assignment.isComputed])
    (.single (assigns_move division rd))

/-- The branch of a guard compares the divisor with zero. -/
theorem branches_guard (machine : Machine) (rt : Register) (field : UInt16) :
    (immediate .bne rt .zero field).Branches machine (machine.get rt ≠ 0) false := by
  have known : Operation.relation? .bne = some fun first second => decide (first ≠ second) := rfl
  have branches := branches_ofImmediate machine known rt .zero field
  rwa [machine.get_zero] at branches

theorem assigns_nop (machine : Machine) : nop.Assigns machine [.register .zero (machine.get .zero <<< 0)] :=
  fun _ _ => rfl

/-- If the divisor is zero, then a guard comes to its break, and has changed nothing. -/
theorem leads_guarding (divisor : machine.get rt = 0) (delayed : Bool) :
    Leads (guarding delayed rt) machine machine := by
  have passes (field : UInt16) : (immediate .bne rt .zero field).Assigns machine [] := by
    have branches := branches_guard machine rt field
    rwa [decide_eq_false (not_not_intro divisor)] at branches
  cases delayed with
  | false => exact .cons (passes 1) (by simp) (.nil machine)
  | true => exact .cons (passes 2) (by simp) (.single (assigns_nop machine))

theorem effect_break (machine : Machine) (pc : Address) (delayed : Bool) :
    (ofCode .breakpoint 0).effect machine pc delayed = .error (.atOnce (.breakpoint 0)) := rfl

theorem finds_divide {divisor : Operand} {value : Machine → Word} (read : divisor.value? = some value)
    (division : Division) (rd rs : Register) :
    Finds (divide context division.operation division.move rd rs divisor) := by
  cases divisor with
  | register rt => exact ⟨_, divide_register context division rd rs rt⟩
  | immediate number =>
    rw [Operand.value?] at read
    split at read
    next holds => exact (succeeds_load .scratch holds).finds _
    next => cases read
  | label | based => cases read

/-- A division is expanded exactly if its divisor stands for a word, provided that it may be. -/
theorem succeeds_division_iff {written : WrittenInstruction} {division : Division} {divisor : Operand}
    (named : written.division? = some (division, rd, rs, divisor)) (allowed : context.extended = true) :
    Succeeds (written.expand context) ↔ ∃ value, divisor.value? = some value := by
  constructor
  · rintro ⟨instructions, expanded⟩
    rcases of_divide (divide_of_expand named expanded) with ⟨rt, rfl, -⟩ | ⟨value, loading, rfl, loaded, -⟩
    · exact ⟨_, rfl⟩
    · exact ⟨_, if_pos (holds_of_load loaded)⟩
  · rintro ⟨value, read⟩
    obtain ⟨mnemonic, operands⟩ := written
    obtain ⟨known, rfl⟩ := WrittenInstruction.of_division? named
    rw [expand_division known]
    exact succeeds_settle allowed (.inr (finds_divide read division rd rs))

end Expansion

end Mips
