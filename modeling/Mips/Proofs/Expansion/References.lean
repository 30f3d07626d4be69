import Mips.Proofs.Expansion.Computation

/-!
The labels that are written in the operands of an instruction. The instruction becomes machine instructions only if all
of them have an address, whether or not the machine instructions need it. Main statement: `known_of_expand`.
-/

namespace Mips

/-- The label that is written in an operand. -/
def Operand.reference? : Operand → Option Label
  | .label target _ => some target
  | .based target _ _ => target
  | _ => none

/-- The label that is written in the operand, if there is one, has an address. -/
def Operand.Known (resolve : Label → Except Problem Address) (operand : Operand) : Prop :=
  ∀ label, operand.reference? = some label → ∃ address, resolve label = .ok address

namespace Expansion

section Known

variable {resolve : Label → Except Problem Address}

@[simp] theorem known_register (register : Register) : (Operand.register register).Known resolve := nofun

@[simp] theorem known_immediate (value : Int) : (Operand.immediate value).Known resolve := nofun

@[simp] theorem known_label (label : Label) (addend : Int) :
    (Operand.label label addend).Known resolve ↔ ∃ address, resolve label = .ok address := by
  simp [Operand.Known, Operand.reference?]

@[simp] theorem known_based_none (offset : Int) (base : Register) :
    (Operand.based none offset base).Known resolve := nofun

@[simp] theorem known_based_some (label : Label) (offset : Int) (base : Register) :
    (Operand.based (some label) offset base).Known resolve ↔ ∃ address, resolve label = .ok address := by
  simp [Operand.Known, Operand.reference?]

theorem known_of_source? {operand : Operand} {loading : List Instruction × Register}
    (found : source? operand = .ok (some loading)) : operand.Known resolve := by
  cases operand with
  | register | immediate => exact nofun
  | label | based => cases found

theorem known_of_divide {context : ExpansionContext} {division move : Operation} {rd rs : Register}
    {operand : Operand} {instructions : List Instruction}
    (found : divide context division move rd rs operand = .ok (some instructions)) : operand.Known resolve := by
  cases operand with
  | register | immediate => exact nofun
  | label | based => cases found

variable {context : ExpansionContext} (resolved : context.resolve? = some resolve)

include resolved

theorem known_of_address? {label : Label} {addend : Int} {found : Option Address}
    (known : address? context label addend = .ok found) : ∃ address, resolve label = .ok address := by
  rw [address?, resolved] at known
  obtain ⟨address, known, -⟩ := map_eq_ok_iff.1 known
  exact ⟨address, known⟩

theorem known_of_address {label : Label} {addend : Int} {found : Address}
    (known : address context label addend = .ok found) : ∃ address, resolve label = .ok address := by
  obtain ⟨address, known, -⟩ := map_eq_ok_iff.1 known
  exact known_of_address? resolved known

theorem known_of_branchOffset {operand : Operand} {target : Target} (aimed : operand.target? = some target)
    {pc : Address} {offset : UInt16} (found : branchOffset context pc target = .ok offset) :
    operand.Known resolve := by
  cases operand with
  | register | immediate | based => simp_all [Operand.target?]
  | label label addend =>
    cases aimed
    obtain ⟨address, known, -⟩ := bind_eq_ok_iff.1 found
    exact (known_label label addend).2 (known_of_address? resolved known)

theorem known_of_jumpIndex {operand : Operand} {target : Target} (aimed : operand.target? = some target)
    {index : Word} (found : jumpIndex context target = .ok index) : operand.Known resolve := by
  cases operand with
  | register | immediate | based => simp_all [Operand.target?]
  | label label addend =>
    cases aimed
    obtain ⟨address, known, -⟩ := bind_eq_ok_iff.1 found
    exact (known_label label addend).2 (known_of_address? resolved known)

theorem known_of_thenBranch {operand : Operand} {target : Target} (aimed : operand.target? = some target)
    {before : List Instruction} {operation : Operation} {rs rt : Register} {instructions : List Instruction}
    (expanded : thenBranch context before operation rs rt target = .ok instructions) : operand.Known resolve := by
  obtain ⟨offset, found, -⟩ := map_eq_ok_iff.1 expanded
  exact known_of_branchOffset resolved aimed found

theorem known_of_encode? {operation : Operation} {operands : List Operand} {instruction : Instruction}
    (encoded : encode? context operation operands = .ok (some instruction)) :
    ∀ operand ∈ operands, operand.Known resolve := by
  unfold encode? at encoded
  dsimp only at encoded
  split at encoded
  case h_17 operand _ | h_18 operand _ =>
    split at encoded
    next target aimed =>
      obtain ⟨offset, found, -⟩ := map_eq_ok_iff.1 encoded
      simpa using known_of_branchOffset resolved aimed found
    next => cases encoded
  case h_19 operand _ =>
    split at encoded
    next target aimed =>
      obtain ⟨index, found, -⟩ := map_eq_ok_iff.1 encoded
      simpa using known_of_jumpIndex resolved aimed found
    next => cases encoded
  case h_22 => cases encoded
  all_goals simp

theorem known_of_pseudo? {pseudo : Pseudo} {operands : List Operand} {instructions : List Instruction}
    (expanded : pseudo? context pseudo operands = .ok (some instructions)) :
    ∀ operand ∈ operands, operand.Known resolve := by
  unfold pseudo? at expanded
  dsimp only at expanded
  split at expanded
  case h_3 rd label addend =>
    obtain ⟨address, known, -⟩ := map_eq_ok_iff.1 expanded
    simpa using known_of_address resolved known
  case h_4 rd label offset base =>
    cases label with
    | none => simp
    | some label =>
      obtain ⟨address, known, -⟩ := map_eq_ok_iff.1 expanded
      simpa using known_of_address resolved known
  case h_10 operand | h_11 operand | h_12 operand | h_13 operand =>
    split at expanded
    next target aimed =>
      obtain ⟨branch, found, -⟩ := map_eq_ok_iff.1 expanded
      simpa using known_of_thenBranch resolved aimed found
    next => cases expanded
  case h_16 divisor | h_17 divisor => simpa using known_of_divide expanded
  case h_22 first second third _ _ _ _ _ _ _ _ =>
    split at expanded
    next comparison operation _ =>
      split at expanded
      next => cases expanded
      next target aimed =>
        obtain ⟨found, loaded, rest⟩ := bind_eq_ok_iff.1 expanded
        cases found with
        | none => cases rest
        | some found =>
          obtain ⟨branch, branched, -⟩ := map_eq_ok_iff.1 rest
          simpa using ⟨known_of_source? loaded, known_of_thenBranch resolved aimed branched⟩
    next =>
      split at expanded
      next rs =>
        split at expanded
        next => cases expanded
        next =>
          obtain ⟨found, loaded, rest⟩ := bind_eq_ok_iff.1 expanded
          cases found with
          | none => cases rest
          | some found => simpa using known_of_source? loaded
      next => cases expanded
  case h_23 => cases expanded
  all_goals simp

theorem known_of_extended? {operation : Operation} {operands : List Operand} {instructions : List Instruction}
    (expanded : extended? context operation operands = .ok (some instructions)) :
    ∀ operand ∈ operands, operand.Known resolve := by
  unfold extended? at expanded
  split at expanded
  case h_1 rs value operand | h_2 rs value operand =>
    unfold extended?.compareWith at expanded
    split at expanded
    next => cases expanded
    next target aimed =>
      obtain ⟨loading, loaded, rest⟩ := bind_eq_ok_iff.1 expanded
      obtain ⟨branch, branched, -⟩ := map_eq_ok_iff.1 rest
      simpa using known_of_thenBranch resolved aimed branched
  case h_3 divisor | h_4 divisor => simpa using known_of_divide expanded
  case h_5 =>
    split at expanded
    case h_6 label addend _ _ _ _ _ =>
      obtain ⟨address, known, -⟩ := map_eq_ok_iff.1 expanded
      simpa using known_of_address resolved known
    case h_7 label offset base _ _ _ _ _ =>
      cases label with
      | none => simp
      | some label =>
        obtain ⟨address, known, -⟩ := map_eq_ok_iff.1 expanded
        simpa using known_of_address resolved known
    case h_8 => cases expanded
    all_goals simp

omit resolved in
/-- Operands of which the first one is left out once refer to no label. -/
theorem known_of_unabbreviated? {operation : Operation} {operands completed : List Operand}
    (abbreviated : unabbreviated? operation operands = some completed) :
    ∀ operand ∈ operands, operand.Known resolve := by
  unfold unabbreviated? at abbreviated
  split at abbreviated
  next => simp
  next => simp
  next => cases abbreviated

end Known

end Expansion

open Expansion in
/-- All labels in the operands of an instruction that can be expanded have an address. -/
theorem known_of_expand {context : ExpansionContext} {resolve : Label → Except Problem Address}
    (resolved : context.resolve? = some resolve) {written : WrittenInstruction} {instructions : List Instruction}
    (expanded : written.expand context = .ok instructions) : ∀ operand ∈ written.operands, operand.Known resolve := by
  obtain ⟨mnemonic, operands⟩ := written
  cases mnemonic with
  | nop =>
    have none : operands = [] := by
      cases operands with
      | nil => rfl
      | cons operand rest => cases expanded
    rw [none]
    exact List.forall_mem_nil _
  | machine operation =>
    rcases ok_of_settle expanded with ⟨instruction, encoded, rfl⟩ | found
    · exact known_of_encode? resolved encoded
    · unfold machine? at found
      split at found
      next completed abbreviated => exact known_of_unabbreviated? abbreviated
      next => exact known_of_extended? resolved found
  | pseudo pseudo =>
    have settled : settle context (.pseudo pseudo) (.ok none) (pseudo? context pseudo operands) = .ok instructions :=
      expanded
    rcases ok_of_settle settled with ⟨_, impossible, -⟩ | found
    · cases impossible
    · exact known_of_pseudo? resolved found

end Mips
