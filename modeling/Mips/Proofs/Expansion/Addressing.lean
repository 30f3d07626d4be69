import Mips.Proofs.Execution.Transfer
import Mips.Proofs.Expansion.Acceptance

/-!
Which addresses written loads and stores reach. An address that does not fit the offset of an instruction is split into
an upper half and a lower one, which counts with its sign. Main statements: `addresses_expand` and `succeeds_reference`.
-/

namespace Mips

namespace Mnemonic

/-- What a load or store of this name moves. -/
def transfer? : Mnemonic → Option Transfer
  | .machine operation => operation.transfer?
  | .nop | .pseudo _ => none

end Mnemonic

namespace Operand

/-- Whether a load or store can have the operand. A number must be one of 32 bits, as must an offset without a label. -/
def addresses : Operand → Bool
  | .register _ => false
  | .immediate value => Word.holds value
  | .label .. => true
  | .based named offset _ => named.isSome || Word.holds offset

/-- The address that a load or store with the operand reaches, unless its label is unknown. -/
def address? [Generator] (resolve : Label → Except Problem Address) (operand : Operand) : Option (Machine → Address) :=
  if operand.addresses then operand.content? resolve else none

end Operand

/-- A load or store of a register, and the address that it reaches. -/
structure Reference [Generator] where
  transfer : Transfer
  register : Register
  address : Machine → Address

/-- The operands of a load or store whose registers it reads. -/
def Transfer.reads : Transfer → List Operand → List Operand
  | .load .., operands => operands.tail
  | .store _, operands => operands

namespace WrittenInstruction

/-- The register is neither the base of the load or store, nor is it stored. -/
def Unread (written : WrittenInstruction) (transfer : Transfer) (register : Register) : Prop :=
  ∀ operand ∈ transfer.reads written.operands, operand.register? ≠ some register

instance (written : WrittenInstruction) (transfer : Transfer) (register : Register) :
    Decidable (written.Unread transfer register) :=
  inferInstanceAs (Decidable (∀ operand ∈ transfer.reads written.operands, operand.register? ≠ some register))

/-- A base register is read by loads and stores alike. -/
theorem Unread.of_base {mnemonic : Mnemonic} {transfer : Transfer} {unread base named : Register} {label : Option Label}
    {offset : Int}
    (spared : (WrittenInstruction.mk mnemonic [.register named, .based label offset base]).Unread transfer unread) :
    base ≠ unread := by
  have among : Operand.based label offset base ∈ transfer.reads [.register named, .based label offset base] := by
    cases transfer <;> simp [Transfer.reads]
  exact fun same => spared _ among (congrArg some same)

theorem Unread.of_store {mnemonic : Mnemonic} {transfer : Transfer} {unread named : Register} {operand : Operand}
    (spared : (WrittenInstruction.mk mnemonic [.register named, operand]).Unread transfer unread) {width : Width}
    (stores : transfer = .store width) : named ≠ unread := by
  subst stores
  exact fun same => spared (.register named) (by simp [Transfer.reads]) (congrArg some same)

variable [Generator] {written : WrittenInstruction} {resolve : Label → Except Problem Address}

/-- What the instruction loads or stores, and where, if it is a load or store that has the operands for it. -/
def reference? (written : WrittenInstruction) (resolve : Label → Except Problem Address) : Option Reference :=
  match written.mnemonic.transfer?, written.operands with
  | some transfer, [.register register, operand] =>
    (operand.address? resolve).map fun address => ⟨transfer, register, address⟩
  | _, _ => none

theorem reference?_eq_some {mnemonic : Mnemonic} {transfer : Transfer} {register : Register} {operand : Operand}
    {address : Machine → Address} (known : mnemonic.transfer? = some transfer) (fits : operand.addresses = true)
    (read : operand.content? resolve = some address) :
    (WrittenInstruction.mk mnemonic [.register register, operand]).reference? resolve =
      some ⟨transfer, register, address⟩ := by
  simp only [reference?, known, Operand.address?, if_pos fits, read, Option.map_some]

theorem of_reference? {reference : Reference} (named : written.reference? resolve = some reference) :
    ∃ operand, written.mnemonic.transfer? = some reference.transfer ∧
      written.operands = [.register reference.register, operand] ∧ operand.addresses = true ∧
      operand.content? resolve = some reference.address := by
  unfold reference? at named
  split at named
  next transfer register operand known shape =>
    obtain ⟨address, read, rfl⟩ := Option.map_eq_some_iff.1 named
    unfold Operand.address? at read
    split at read
    next fits => exact ⟨operand, known, shape, fits, read⟩
    next => cases read
  next => cases named

end WrittenInstruction

namespace Expansion

open Instruction Calculation

/-- The upper half is adjusted for the sign of the lower half, so that their sum is the address. -/
theorem adjustedUpper_lower (address : Address) :
    ((adjustedUpper address).toUInt32 <<< 16) + Word.signExtend 16 (lower address).toUInt32 = address := by
  have small := address.toNat_lt
  have eight : (0x8000 : Address).toNat = 0x8000 := rfl
  have adjusted : (adjustedUpper address).toNat = (address + 0x8000).toNat / 0x10000 := toNat_upper (address + 0x8000)
  have extended : ((Word.signExtend 16 (lower address).toUInt32).toNat : Int) =
      ((address.toNat % 0x10000 : Nat) : Int).bmod 0x10000 % 0x100000000 := by
    rw [Word.signExtend, toNat_lower]
    exact Word.toNat_ofInt _
  rw [Int.bmod_def] at extended
  rw [← UInt32.toNat_inj, UInt32.toNat_add, toNat_shifted, adjusted, UInt32.toNat_add, eight]
  split at extended <;> omega

variable [Generator] {context : ExpansionContext} {resolve : Label → Except Problem Address} {machine : Machine}
  {operation : Operation} {transfer : Transfer} {base register : Register} {instructions : List Instruction}

/-- Instructions that only compute in `$at`, after which a register and an offset make up the address. -/
def Reaches (before : List Instruction) (base : Register) (field : UInt16) (machine : Machine) (address : Address) :
    Prop :=
  ∃ scratch, Leads before machine (machine.set .scratch scratch) ∧
    (machine.set .scratch scratch).get base + Word.signExtend 16 field.toUInt32 = address

theorem reaches_direct (base : Register) {value : Int} (fits : fitsSigned value = true) :
    Reaches [] base (half value) machine (Word.ofInt value + machine.get base) := by
  refine ⟨machine.get .scratch, ?_⟩
  rw [Machine.set_get, signExtend_half fits, UInt32.add_comm]
  exact ⟨.nil machine, rfl⟩

theorem reaches_upper (address : Address) :
    Reaches [immediate .lui .zero .scratch (adjustedUpper address)] .scratch (lower address) machine address := by
  refine ⟨(adjustedUpper address).toUInt32 <<< 16, .single (assigns_lui .scratch _), ?_⟩
  rw [Machine.get_set_self _ scratch_ne_zero, adjustedUpper_lower]

/-- The base is added between the halves. -/
theorem reaches_based (address : Address) (spared : base ≠ .scratch) :
    Reaches [immediate .lui .zero .scratch (adjustedUpper address), registers .addu .scratch .scratch base] .scratch
      (lower address) machine (address + machine.get base) := by
  have leads : Leads [immediate .lui .zero .scratch (adjustedUpper address), registers .addu .scratch .scratch base]
      machine _ :=
    .set (assigns_lui .scratch _) <| .single (assigns_registers rfl rfl (effect_sum .scratch _ _))
  rw [Machine.set_set, Machine.get_set_self _ scratch_ne_zero, Machine.get_set_ne _ spared.symm] at leads
  refine ⟨_, leads, ?_⟩
  rw [Machine.get_set_self _ scratch_ne_zero, UInt32.add_assoc, UInt32.add_comm (machine.get base), ← UInt32.add_assoc,
    adjustedUpper_lower]

/--
The instructions end with the operation of the load or store, behind those that leave the address in its base register and
its offset.
-/
def Refers (operation : Operation) (register : Register) (instructions : List Instruction) (address : Machine → Address) :
    Prop :=
  ∃ before base field, instructions = before ++ [immediate operation base register field] ∧
    ∀ machine : Machine, Reaches before base field machine (address machine)

/-- The operand is written for the load or store, and the instructions refer to the address that it stands for. -/
def Addresses (operation : Operation) (operands : List Operand) (resolve : Label → Except Problem Address)
    (instructions : List Instruction) : Prop :=
  ∃ register operand address, operands = [.register register, operand] ∧ operand.addresses = true ∧
    operand.content? resolve = some address ∧ Refers operation register instructions address

theorem addresses_encode? {operands : List Operand} {instruction : Instruction}
    (known : operation.transfer? = some transfer)
    (encoded : encode? context operation operands = .ok (some instruction)) :
    Addresses operation operands resolve [instruction] := by
  have layout := Operation.format_of_transfer? known
  unfold encode? at encoded
  split at encoded
  case h_20 register offset base _ =>
    obtain ⟨field, fitting, ⟨⟩⟩ := map_eq_ok_iff.1 encoded
    unfold signedHalf at fitting
    split at fitting
    next fits =>
      cases fitting
      exact ⟨register, _, _, rfl, holds_of_fitsSigned fits, rfl, [], base, _, rfl, fun _ =>
        reaches_direct base fits⟩
    next => cases fitting
  case h_22 => cases encoded
  all_goals
    next other => cases layout.symm.trans other

theorem addresses_extended? {operands : List Operand} (known : operation.transfer? = some transfer)
    (resolved : context.resolve? = some resolve)
    (spares : (WrittenInstruction.mk (.machine operation) operands).Unread transfer .scratch)
    (extended : extended? context operation operands = .ok (some instructions)) :
    Addresses operation operands resolve instructions := by
  have layout := Operation.format_of_transfer? known
  unfold extended? at extended
  split at extended
  case h_1 | h_2 | h_3 | h_4 => cases known
  case h_5 =>
    rw [layout] at extended
    split at extended
    case h_5 register value _ _ _ _ _ =>
      obtain ⟨result, accepted, chosen⟩ := map_eq_ok_iff.1 extended
      obtain ⟨holds, rfl⟩ := word_eq_ok accepted
      refine ⟨register, _, _, rfl, holds, rfl, ?_⟩
      split at chosen
      next fits =>
        cases chosen
        refine ⟨[], .zero, _, rfl, fun machine => ?_⟩
        have reaches := @reaches_direct _ machine .zero value fits
        rwa [Machine.get_zero, UInt32.add_zero] at reaches
      next =>
        cases chosen
        exact ⟨_, _, _, rfl, fun _ => reaches_upper _⟩
    case h_6 register label addend _ _ _ _ _ =>
      obtain ⟨result, found, ⟨⟩⟩ := map_eq_ok_iff.1 extended
      obtain ⟨start, resolves, rfl⟩ := address_of_resolved resolved found
      exact ⟨register, _, _, rfl, rfl, by rw [Operand.content?, resolves]; rfl, _, _, _, rfl, fun _ =>
        reaches_upper _⟩
    case h_7 register label offset base _ _ _ _ _ =>
      have spared : base ≠ .scratch := spares.of_base
      obtain ⟨result, found, ⟨⟩⟩ := map_eq_ok_iff.1 extended
      cases label with
      | none =>
        obtain ⟨holds, rfl⟩ := word_eq_ok found
        exact ⟨register, _, _, rfl, holds, rfl, _, _, _, rfl, fun _ => reaches_based _ spared⟩
      | some label =>
        obtain ⟨start, resolves, rfl⟩ := address_of_resolved resolved found
        exact ⟨register, _, _, rfl, rfl, by rw [Operand.content?, resolves]; rfl, _, _, _, rfl, fun _ =>
          reaches_based _ spared⟩
    case h_8 => cases extended
    all_goals
      next other _ _ _ _ => cases other

omit [Generator] in
/-- No operand of a load or store may be left out. -/
theorem machine?_of_transfer? (known : operation.transfer? = some transfer) (context : ExpansionContext)
    (operands : List Operand) : machine? context operation operands = extended? context operation operands := by
  have layout := Operation.format_of_transfer? known
  exact machine?_eq_extended? (by rw [layout]; decide) (by rw [layout]; decide) (by rw [layout]; decide) context operands

/--
Whatever a load or store is expanded to, its last instruction has the operation and the register that are written, and it
reaches the address that the operand stands for.
-/
theorem addresses_expand {operands : List Operand} (known : operation.transfer? = some transfer)
    (resolved : context.resolve? = some resolve)
    (spares : (WrittenInstruction.mk (.machine operation) operands).Unread transfer .scratch)
    (expanded : (WrittenInstruction.mk (.machine operation) operands).expand context = .ok instructions) :
    Addresses operation operands resolve instructions := by
  rcases ok_of_settle expanded with ⟨instruction, encoded, rfl⟩ | found
  · exact addresses_encode? known encoded
  · rw [machine?_of_transfer? known] at found
    exact addresses_extended? known resolved spares found

theorem finds_extended? {operand : Operand} {address : Machine → Address} (known : operation.transfer? = some transfer)
    (resolved : context.resolve? = some resolve) (fits : operand.addresses = true)
    (read : operand.content? resolve = some address) (register : Register) :
    Finds (extended? context operation [.register register, operand]) := by
  cases operand with
  | register source => cases fits
  | immediate value =>
    have same : extended? context operation [.register register, .immediate value] =
        (word value).map fun address =>
          if fitsSigned value then some [immediate operation .zero register (lower address)]
          else some (extended?.throughUpper operation register address) := by
      cases operation <;> first | rfl | cases known
    obtain ⟨address, accepted⟩ := succeeds_word fits
    rw [same, accepted]
    cases fitsSigned value <;> exact ⟨_, rfl⟩
  | label named addend =>
    obtain ⟨start, resolves, -⟩ := Option.map_eq_some_iff.1 read
    have same : extended? context operation [.register register, .label named addend] =
        (Expansion.address context named addend).map fun address =>
          some (extended?.throughUpper operation register address) := by
      cases operation <;> first | rfl | cases known
    rw [same]
    exact (succeeds_address resolved resolves addend).finds _
  | based label offset base =>
    let instructions (address : Address) : List Instruction :=
      [immediate .lui .zero .scratch (adjustedUpper address), registers .addu .scratch .scratch base,
        immediate operation .scratch register (lower address)]
    cases label with
    | none =>
      have same : extended? context operation [.register register, .based none offset base] =
          (word offset).map fun address => some (instructions address) := by
        cases operation <;> first | rfl | cases known
      rw [same]
      exact (succeeds_word fits).finds instructions
    | some label =>
      obtain ⟨start, resolves, -⟩ := Option.map_eq_some_iff.1 read
      have same : extended? context operation [.register register, .based (some label) offset base] =
          (Expansion.address context label offset).map fun address => some (instructions address) := by
        cases operation <;> first | rfl | cases known
      rw [same]
      exact (succeeds_address resolved resolves offset).finds instructions

/-- If more than machine operations may be written, then a load or store is expanded if it has the operands for it. -/
theorem succeeds_reference {written : WrittenInstruction} {reference : Reference} (allowed : context.extended = true)
    (resolved : context.resolve? = some resolve) (named : written.reference? resolve = some reference) :
    Succeeds (written.expand context) := by
  obtain ⟨mnemonic, operands⟩ := written
  obtain ⟨operand, known, shape, fits, read⟩ := WrittenInstruction.of_reference? named
  cases mnemonic with
  | nop | pseudo => cases known
  | machine operation =>
    cases shape
    have found : Finds (extended? context operation [.register reference.register, operand]) :=
      finds_extended? known resolved fits read reference.register
    rw [← machine?_of_transfer? known] at found
    exact succeeds_settle allowed (.inr found)

end Expansion

end Mips
