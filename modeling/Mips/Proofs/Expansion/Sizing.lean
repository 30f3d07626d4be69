import Mips.Expansion
import Mips.Proofs.Outcome

/-!
How many machine instructions a written instruction becomes is known before the address of any label is: whatever
becomes of it later, it is foreseen while statements are placed. Main statement: `foresees_expand`.
-/

namespace Mips

/-- The context in which a statement is placed, where no address of a label is known. -/
def ExpansionContext.sizing (context : ExpansionContext) : ExpansionContext := { context with resolve? := none }

namespace Expansion

/-- Nothing of a value is known but that there is one. -/
def presence {α : Type} (_ : α) : Unit := ()

theorem foresees_address (context : ExpansionContext) (label : Label) (addend : Int) :
    Foresees presence (address context.sizing label addend) (address context label addend) := by
  intro result _
  exact ⟨0, rfl, rfl⟩

theorem foresees_branchOffset (context : ExpansionContext) (pc : Address) (target : Target) :
    Foresees presence (branchOffset context.sizing pc target) (branchOffset context pc target) := by
  cases target with
  | number value => exact foresees_refl _
  | label label addend =>
    intro result _
    exact ⟨0, rfl, rfl⟩

theorem foresees_thenBranch (context : ExpansionContext) (before : List Instruction) (operation : Operation)
    (rs rt : Register) (target : Target) :
    Foresees List.length (thenBranch context.sizing before operation rs rt target)
      (thenBranch context before operation rs rt target) := by
  unfold thenBranch
  apply (foresees_branchOffset context (context.pc + 4 * UInt32.ofNat before.length) target).map
  intro plan result _
  rw [List.length_append, List.length_append]
  rfl

/-- How many instructions were found, if any. -/
def foundLength : Option (List Instruction) → Option Nat := Option.map List.length

theorem foresees_some {planned computed : Except Problem (List Instruction)}
    (foresees : Foresees List.length planned computed) :
    Foresees foundLength (planned.map Option.some) (computed.map Option.some) := by
  apply foresees.map
  intro plan result same
  simp [foundLength, same]

theorem foresees_pseudo? (context : ExpansionContext) (pseudo : Pseudo) (operands : List Operand) :
    Foresees foundLength (pseudo? context.sizing pseudo operands) (pseudo? context pseudo operands) := by
  unfold pseudo?
  split
  case h_3 label addend =>
    exact (foresees_address context label addend).map fun _ _ _ => rfl
  case h_4 label offset base =>
    split
    · exact foresees_refl _
    · cases label with
      | some label => exact (foresees_address context label offset).map fun _ _ _ => rfl
      | none => exact foresees_refl _
  case h_10 operand | h_11 operand | h_12 operand | h_13 operand =>
    dsimp only
    cases operand.target? with
    | none => exact foresees_refl _
    | some target => exact foresees_some (foresees_thenBranch context [] _ _ _ target)
  case h_22 first second third _ _ _ _ _ _ _ _ =>
    split
    · split
      · exact foresees_refl _
      · have known : Foresees id (source? second) (source? second) := foresees_refl _
        apply known.bind
        rintro found _ rfl
        split
        · exact foresees_refl _
        · exact foresees_some (foresees_thenBranch context _ _ _ _ _)
    · exact foresees_refl _
  all_goals exact foresees_refl _

theorem foresees_extended? (context : ExpansionContext) (operation : Operation) (operands : List Operand) :
    Foresees foundLength (extended? context.sizing operation operands) (extended? context operation operands) := by
  have compares : ∀ (operation : Operation) (rs : Register) (value : Int) (operand : Operand),
      Foresees foundLength (extended?.compareWith context.sizing operation rs value operand)
        (extended?.compareWith context operation rs value operand) := by
    intro operation rs value operand
    unfold extended?.compareWith
    cases operand.target? with
    | none => exact foresees_refl _
    | some target =>
      have known : Foresees id (load .scratch value) (load .scratch value) := foresees_refl _
      apply known.bind
      rintro loading _ rfl
      exact foresees_some (foresees_thenBranch context _ _ _ _ _)
  unfold extended?
  split
  case h_1 rs value operand | h_2 rs value operand => exact compares _ rs value operand
  case h_3 | h_4 => exact foresees_refl _
  case h_5 =>
    split
    case h_6 label addend _ _ _ _ _ =>
      apply (foresees_address context label addend).map
      intro plan result _
      simp [foundLength, extended?.throughUpper]
    case h_7 label offset base _ _ _ _ _ =>
      cases label with
      | some label =>
        apply (foresees_address context label offset).map
        intro plan result _
        simp [foundLength]
      | none => exact foresees_refl _
    all_goals exact foresees_refl _

theorem foresees_jumpIndex (context : ExpansionContext) (target : Target) :
    Foresees presence (jumpIndex context.sizing target) (jumpIndex context target) := by
  cases target with
  | label label addend =>
    intro result _
    exact ⟨0, rfl, rfl⟩
  | number value =>
    simp only [jumpIndex]
    have known : Foresees id ((word value).map Option.some) ((word value).map Option.some) := foresees_refl _
    apply known.bind
    rintro address _ rfl
    cases address with
    | none => exact foresees_refl _
    | some address =>
      by_cases aligned : Word.isAligned address = true
      · have unresolved : context.sizing.resolve?.isSome = false := rfl
        intro result _
        refine ⟨(address >>> 2) &&& 0x03FFFFFF, ?_, rfl⟩
        simp [aligned, unresolved]
        rfl
      · simp [aligned]
        exact foresees_error

/--
The direct encoding of an operation does not depend on labels, or else there is no other way to expand it and the
direct encoding is foreseen.
-/
theorem encode?_sizing (context : ExpansionContext) (operation : Operation) (operands : List Operand) :
    encode? context.sizing operation operands = encode? context operation operands ∨
      Foresees Option.isSome (encode? context.sizing operation operands) (encode? context operation operands) ∧
        unabbreviated? operation operands = none ∧
        ∀ context, extended? context operation operands = .ok none := by
  unfold encode?
  -- Only branches and jumps ask for labels, and their operands fit no other form.
  split
  case h_17 rs rt operand layout =>
    right
    refine ⟨?_, ?_, ?_⟩
    · cases operand.target? with
      | none => exact foresees_refl _
      | some target => exact (foresees_branchOffset context context.pc target).map fun _ _ _ => rfl
    · rfl
    · intro other
      cases operation <;> first | rfl | cases layout
  case h_18 rs operand layout =>
    right
    refine ⟨?_, ?_, ?_⟩
    · cases operand.target? with
      | none => exact foresees_refl _
      | some target => exact (foresees_branchOffset context context.pc target).map fun _ _ _ => rfl
    · cases operand <;> simp [unabbreviated?, layout]
    · intro other
      cases operation <;> first | rfl | cases layout
  case h_19 operand layout =>
    right
    refine ⟨?_, ?_, ?_⟩
    · cases operand.target? with
      | none => exact foresees_refl _
      | some target => exact (foresees_jumpIndex context target).map fun _ _ _ => rfl
    · cases operand <;> rfl
    · intro other
      cases operation <;> first | rfl | cases layout
  all_goals exact .inl rfl

theorem exists_of_foresees_found {planned : Except Problem (Option (List Instruction))}
    {instructions : List Instruction} (foresees : Foresees foundLength planned (.ok (some instructions))) :
    ∃ plan, planned = .ok (some plan) ∧ plan.length = instructions.length := by
  obtain ⟨plan, known, same⟩ := foresees (some instructions) rfl
  cases plan with
  | none => cases same
  | some plan => exact ⟨plan, known, Option.some.inj same⟩

/-- What a direct encoding and an expansion settle on is foreseen if both are, and only one of them needs labels. -/
theorem foresees_settle (context : ExpansionContext) (mnemonic : Mnemonic)
    {plannedDirect direct : Except Problem (Option Instruction)}
    {plannedExpanded expanded : Except Problem (Option (List Instruction))}
    (foreseen : plannedDirect = direct ∧ Foresees foundLength plannedExpanded expanded ∨
      Foresees Option.isSome plannedDirect direct ∧ plannedExpanded = .ok none ∧ expanded = .ok none) :
    Foresees List.length (settle context.sizing mnemonic plannedDirect plannedExpanded)
      (settle context mnemonic direct expanded) := by
  have allowed : context.sizing.extended = context.extended := rfl
  intro result found
  rcases foreseen with ⟨rfl, foresees⟩ | ⟨foresees, rfl, rfl⟩
  · rcases plannedDirect with reason | (_ | instruction)
    case error =>
      cases extended : context.extended with
      | false =>
        simp only [settle, extended] at found
        cases found
      | true =>
        rcases expanded with problem | (_ | instructions) <;> simp only [settle, extended] at found <;> cases found
        obtain ⟨plan, known, same⟩ := exists_of_foresees_found foresees
        refine ⟨plan, ?_, same⟩
        simp only [settle, known, allowed, extended]
        rfl
    case ok.none =>
      rcases expanded with problem | (_ | instructions)
      · cases found
      · cases found
      · obtain ⟨plan, known, same⟩ := exists_of_foresees_found foresees
        cases extended : context.extended with
        | false =>
          simp only [settle, extended] at found
          cases found
        | true =>
          simp only [settle, extended] at found
          cases found
          refine ⟨plan, ?_, same⟩
          simp only [settle, known, allowed, extended]
          rfl
    case ok.some =>
      cases found
      exact ⟨[instruction], rfl, rfl⟩
  · rcases direct with reason | (_ | instruction)
    case error =>
      cases extended : context.extended <;> simp only [settle, extended] at found <;> cases found
    case ok.none => cases found
    case ok.some =>
      obtain ⟨plan, known, same⟩ := foresees _ rfl
      cases found
      cases plan with
      | none => cases same
      | some plan => exact ⟨[plan], by rw [known]; rfl, rfl⟩

/-- However many instructions a machine operation becomes, as many were foreseen. -/
theorem foresees_machine? (context : ExpansionContext) (operation : Operation) (operands : List Operand) :
    Foresees foundLength (machine? context.sizing operation operands) (machine? context operation operands) := by
  unfold machine?
  cases unabbreviated? operation operands with
  | none => exact foresees_extended? context operation operands
  | some operands =>
    apply foresees_some
    apply foresees_settle
    rcases encode?_sizing context operation operands with same | ⟨foresees, _, unextended⟩
    · exact .inl ⟨same, foresees_extended? context operation operands⟩
    · exact .inr ⟨foresees, unextended _, unextended _⟩

end Expansion

open Expansion in
/-- As many machine instructions as a written instruction becomes were foreseen before any label was known. -/
theorem foresees_expand (written : WrittenInstruction) (context : ExpansionContext) :
    Foresees List.length (written.expand context.sizing) (written.expand context) := by
  unfold WrittenInstruction.expand
  split
  case h_1 => exact foresees_refl _
  case h_2 operation _ =>
    apply foresees_settle
    rcases encode?_sizing context operation written.operands with same | ⟨foresees, unabbreviated, unextended⟩
    · exact .inl ⟨same, foresees_machine? context operation written.operands⟩
    · have only : ∀ context, machine? context operation written.operands = .ok none := by
        intro other
        rw [machine?, unabbreviated]
        exact unextended other
      exact .inr ⟨foresees, only _, only _⟩
  case h_3 pseudo _ =>
    apply foresees_settle
    exact .inl ⟨rfl, foresees_pseudo? context pseudo written.operands⟩

end Mips
