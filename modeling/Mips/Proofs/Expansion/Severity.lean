import Mips.Expansion
import Mips.Proofs.Outcome

/-!
A written instruction that does not become machine instructions is an error, never only a warning. Main statement:
`severe_expand`.
-/

namespace Mips

/-- The problem, if there is one, is an error. -/
def Severe {α : Type} (outcome : Except Problem α) : Prop := Fails (fun problem => problem.severity = .error) outcome

section Severe

variable {α β : Type}

@[simp] theorem severe_ok {value : α} : Severe (.ok value) := trivial

@[simp] theorem severe_error {problem : Problem} :
    Severe (.error problem : Except Problem α) ↔ problem.severity = .error := .rfl

@[simp] theorem severe_map {change : α → β} {outcome : Except Problem α} :
    Severe (outcome.map change) ↔ Severe outcome := fails_map

theorem Severe.bind {next : α → Except Problem β} {outcome : Except Problem α} (first : Severe outcome)
    (second : ∀ value, Severe (next value)) : Severe (outcome >>= next) := Fails.bind first second

end Severe

/-- A label that has no address is an error. -/
def ExpansionContext.Resolves (context : ExpansionContext) : Prop :=
  ∀ resolve, context.resolve? = some resolve → ∀ label, Severe (resolve label)

namespace Expansion

@[simp] theorem severe_signedHalf (value : Int) : Severe (signedHalf value) := by
  unfold signedHalf
  split <;> trivial

@[simp] theorem severe_unsignedHalf (value : Int) : Severe (unsignedHalf value) := by
  unfold unsignedHalf
  split <;> trivial

@[simp] theorem severe_shiftAmount (value : Int) : Severe (shiftAmount value) := by
  unfold shiftAmount
  split <;> trivial

@[simp] theorem severe_word (value : Int) : Severe (word value) := by
  unfold word
  split <;> trivial

@[simp] theorem severe_load (rd : Register) (value : Int) : Severe (load rd value) := by
  unfold load
  split
  · trivial
  · split <;> simp

@[simp] theorem severe_source? (operand : Operand) : Severe (source? operand) := by
  unfold source?
  split <;> simp

@[simp] theorem severe_divide (context : ExpansionContext) (division move : Operation) (rd rs : Register)
    (operand : Operand) : Severe (divide context division move rd rs operand) := by
  unfold divide
  split <;> simp

@[simp] theorem severe_subtract (addition subtraction : Operation) (rt rs : Register) (value : Int) :
    Severe (subtract addition subtraction rt rs value) := by
  unfold subtract
  split <;> simp

@[simp] theorem severe_rotate (first second : Operation) (rd rs : Register) (amount : Int) :
    Severe (rotate first second rd rs amount) := by
  unfold rotate
  simp

@[simp] theorem severe_withNumber (operation : Operation) (rd rs : Register) (value : Int) :
    Severe (withNumber operation rd rs value) := by
  unfold withNumber
  dsimp only
  split
  · split <;> simp
  · split <;> simp
  all_goals simp

section Resolved

variable {context : ExpansionContext}

theorem severe_address? (resolves : context.Resolves) (label : Label) (addend : Int) :
    Severe (address? context label addend) := by
  unfold address?
  split
  case h_1 => trivial
  case h_2 resolve known => simpa using resolves resolve known label

theorem severe_address (resolves : context.Resolves) (label : Label) (addend : Int) :
    Severe (address context label addend) := by
  unfold address
  simpa using severe_address? resolves label addend

theorem severe_branchOffset (resolves : context.Resolves) (pc : Address) (target : Target) :
    Severe (branchOffset context pc target) := by
  have fits : ∀ offset : Int, Severe (if fitsSigned offset then (pure (half offset) : Except Problem UInt16)
      else throw (.branchOutOfRange offset)) := by
    intro offset
    split <;> trivial
  unfold branchOffset
  dsimp only
  cases target with
  | number value => exact fits value
  | label label addend =>
    apply (severe_address? resolves label addend).bind
    intro found
    cases found with
    | none => trivial
    | some address =>
      dsimp only
      split
      · trivial
      · exact fits _

theorem severe_jumpIndex (resolves : context.Resolves) (target : Target) : Severe (jumpIndex context target) := by
  unfold jumpIndex
  dsimp only
  cases target <;> apply Severe.bind
  case number.first => simp
  case label.first => exact severe_address? resolves _ _
  all_goals
    rintro (_ | address)
    · trivial
    · dsimp only
      split
      · trivial
      · split <;> trivial

theorem severe_thenBranch (resolves : context.Resolves) (before : List Instruction) (operation : Operation)
    (rs rt : Register) (target : Target) : Severe (thenBranch context before operation rs rt target) := by
  unfold thenBranch
  simpa using severe_branchOffset resolves _ target

theorem severe_encode? (resolves : context.Resolves) (operation : Operation) (operands : List Operand) :
    Severe (encode? context operation operands) := by
  unfold encode?
  dsimp only
  split
  case h_12 => split <;> trivial
  case h_17 operand _ | h_18 operand _ =>
    cases operand.target? with
    | none => trivial
    | some target => simpa using severe_branchOffset resolves context.pc target
  case h_19 operand _ =>
    cases operand.target? with
    | none => trivial
    | some target => simpa using severe_jumpIndex resolves target
  all_goals simp

theorem severe_pseudo? (resolves : context.Resolves) (pseudo : Pseudo) (operands : List Operand) :
    Severe (pseudo? context pseudo operands) := by
  unfold pseudo?
  dsimp only
  split
  case h_3 label addend => simpa using severe_address resolves label addend
  case h_4 label offset base =>
    split
    · trivial
    · cases label with
      | some label => simpa using severe_address resolves label offset
      | none => simp
  case h_10 operand | h_11 operand | h_12 operand | h_13 operand =>
    cases operand.target? with
    | none => trivial
    | some target => simpa using severe_thenBranch resolves [] _ _ _ target
  case h_22 first second third _ _ _ _ _ _ _ _ =>
    split
    · split
      · trivial
      · apply (severe_source? second).bind
        intro found
        split
        · trivial
        · simpa using severe_thenBranch resolves _ _ _ _ _
    · split
      · split
        · trivial
        · apply (severe_source? third).bind
          intro found
          split <;> trivial
      · trivial
  all_goals simp

theorem severe_extended? (resolves : context.Resolves) (operation : Operation) (operands : List Operand) :
    Severe (extended? context operation operands) := by
  have compares : ∀ (operation : Operation) (rs : Register) (value : Int) (operand : Operand),
      Severe (extended?.compareWith context operation rs value operand) := by
    intro operation rs value operand
    unfold extended?.compareWith
    split
    · trivial
    · apply (severe_load .scratch value).bind
      intro loading
      simpa using severe_thenBranch resolves loading operation rs .scratch _
  have large : ∀ (rt rs : Register) (value : Int), Severe (extended?.largeImmediate operation rt rs value) := by
    intro rt rs value
    unfold extended?.largeImmediate
    split <;> simp
  unfold extended?
  split
  case h_1 rs value operand | h_2 rs value operand => exact compares _ rs value operand
  case h_3 | h_4 => simp
  case h_5 =>
    split
    case h_1 => split <;> simp
    case h_2 | h_3 => exact large _ _ _
    case h_4 =>
      split
      · trivial
      · split <;> simp
    case h_5 => simp
    case h_6 label addend _ _ _ _ _ => simpa using severe_address resolves label addend
    case h_7 label offset base _ _ _ _ _ =>
      cases label with
      | some label => simpa using severe_address resolves label offset
      | none => simp
    case h_8 => trivial

theorem severe_settle (mnemonic : Mnemonic) {direct : Except Problem (Option Instruction)}
    {expanded : Except Problem (Option (List Instruction))} (first : Severe direct) (second : Severe expanded) :
    Severe (settle context mnemonic direct expanded) := by
  unfold settle
  split
  case h_1 => trivial
  case h_2 =>
    split
    · trivial
    · split <;> trivial
    · split
      · exact second
      · rfl
  case h_3 =>
    split
    · exact first
    · split
      · exact first
      · trivial
      · exact second

theorem severe_machine? (resolves : context.Resolves) (operation : Operation) (operands : List Operand) :
    Severe (machine? context operation operands) := by
  unfold machine?
  split
  · simpa using severe_settle _ (severe_encode? resolves _ _) (severe_extended? resolves _ _)
  · exact severe_extended? resolves operation operands

end Resolved

end Expansion

open Expansion in
/-- A written instruction that cannot be expanded is an error. -/
theorem severe_expand {context : ExpansionContext} (resolves : context.Resolves) (written : WrittenInstruction) :
    Severe (written.expand context) := by
  unfold WrittenInstruction.expand
  split
  case h_1 => split <;> trivial
  case h_2 operation _ => exact severe_settle _ (severe_encode? resolves _ _) (severe_machine? resolves _ _)
  case h_3 pseudo _ => exact severe_settle _ severe_ok (severe_pseudo? resolves _ _)

end Mips
