import Mips.Proofs.Expansion.Computation

/-!
Which written instructions that compute are expanded at all: those that have the operands for it. Main statement:
`succeeds_expand`.
-/

namespace Mips

namespace Expansion

variable {context : ExpansionContext} {resolve : Label → Except Problem Address}

/-- There is a result, and not a problem. -/
def Succeeds {α : Type} (outcome : Except Problem α) : Prop := ∃ result, outcome = .ok result

theorem Succeeds.map {α β : Type} {outcome : Except Problem α} (succeeds : Succeeds outcome) (change : α → β) :
    Succeeds (outcome.map change) := by
  obtain ⟨result, found⟩ := succeeds
  exact ⟨change result, by rw [found]; rfl⟩

/-- Something is found, and not a problem. -/
def Finds {α : Type} (outcome : Except Problem (Option α)) : Prop := ∃ result, outcome = .ok (some result)

theorem Succeeds.finds {α β : Type} {outcome : Except Problem α} (succeeds : Succeeds outcome) (change : α → β) :
    Finds (outcome.map fun result => some (change result)) := by
  obtain ⟨result, found⟩ := succeeds
  exact ⟨change result, by rw [found]; rfl⟩

theorem succeeds_word {value : Int} (holds : Word.holds value = true) : Succeeds (word value) :=
  ⟨Word.ofInt value, by rw [word, if_pos holds]⟩

theorem succeeds_load (rd : Register) {value : Int} (holds : Word.holds value = true) : Succeeds (load rd value) := by
  unfold load
  split
  · exact ⟨_, rfl⟩
  split
  · exact ⟨_, rfl⟩
  · exact (succeeds_word holds).map _

theorem succeeds_subtract (addition subtraction : Operation) (rt rs : Register) {value : Int}
    (holds : Word.holds value = true) : Succeeds (subtract addition subtraction rt rs value) := by
  unfold subtract
  split
  · exact ⟨_, rfl⟩
  · exact (succeeds_load .scratch holds).map _

theorem succeeds_withNumber (operation : Operation) (rd rs : Register) {value : Int}
    (holds : Word.holds value = true) : Succeeds (withNumber operation rd rs value) := by
  have scratch := (succeeds_load .scratch holds).map fun loading => loading ++ [registers operation rd rs .scratch]
  unfold withNumber
  split
  case h_1 | h_2 =>
    split
    · exact ⟨_, rfl⟩
    · exact scratch
  case h_3 | h_4 => exact succeeds_subtract _ _ rd rs holds
  case h_5 => exact scratch

theorem succeeds_rotate (first second : Operation) (rd rs : Register) {amount : Int}
    (small : (0 ≤ amount && amount ≤ 31) = true) : Succeeds (rotate first second rd rs amount) := by
  unfold rotate
  rw [shiftAmount, if_pos small]
  exact ⟨_, rfl⟩

theorem succeeds_address (resolved : context.resolve? = some resolve) {label : Label} {known : Address}
    (found : (resolve label).toOption = some known) (addend : Int) : Succeeds (address context label addend) := by
  rw [address, address?, resolved]
  dsimp only
  rw [eq_ok_of_toOption found]
  exact ⟨_, rfl⟩

/-- If more than machine operations may be written, then either way to expand an instruction is enough. -/
theorem succeeds_settle (allowed : context.extended = true) {mnemonic : Mnemonic}
    {direct : Except Problem (Option Instruction)} {expanded : Except Problem (Option (List Instruction))}
    (found : Finds direct ∨ Finds expanded) : Succeeds (settle context mnemonic direct expanded) := by
  rcases found with ⟨instruction, rfl⟩ | ⟨instructions, rfl⟩
  · exact ⟨_, rfl⟩
  · unfold settle
    split
    · exact ⟨_, rfl⟩
    · exact ⟨instructions, by simp only [allowed, if_true]⟩
    · exact ⟨instructions, by simp [allowed]⟩

theorem finds_unary [Generator] {pseudo : Pseudo} (unary : pseudo.isUnary = true) {target : Register} {source : Operand}
    {second : Machine → Word} (resolved : context.resolve? = some resolve)
    (taken : (Mnemonic.pseudo pseudo).takes source = true) (read : source.content? resolve = some second) :
    Finds (pseudo? context pseudo [.register target, source]) := by
  cases pseudo with
  | li =>
    cases source with
    | immediate value => exact (succeeds_load target taken).finds id
    | register | label | based => cases taken
  | la =>
    cases source with
    | register source => cases taken
    | immediate value => exact (succeeds_load target taken).finds id
    | label label addend =>
      obtain ⟨start, resolves, -⟩ := Option.map_eq_some_iff.1 read
      exact (succeeds_address resolved resolves addend).finds _
    | based label offset base =>
      simp only [pseudo?]
      split
      · exact ⟨_, rfl⟩
      cases label with
      | none => exact (succeeds_word taken).finds _
      | some label =>
        obtain ⟨start, resolves, -⟩ := Option.map_eq_some_iff.1 read
        exact (succeeds_address resolved resolves offset).finds _
  | move | not | neg | negu | abs =>
    cases source with
    | register source => exact ⟨_, rfl⟩
    | immediate | label | based => cases taken
  | _ => cases unary

theorem finds_binary {pseudo : Pseudo} {calculation : Calculation} (known : pseudo.calculation? = some calculation)
    (binary : pseudo.isUnary = false) {target first : Register} {last : Operand}
    (taken : (Mnemonic.pseudo pseudo).takes last = true) :
    Finds (pseudo? context pseudo [.register target, .register first, last]) := by
  cases pseudo with
  | subi | subiu =>
    cases last with
    | immediate value => exact (succeeds_subtract _ _ target first taken).finds id
    | register | label | based => cases taken
  | rol | ror =>
    cases last with
    | register amount => exact ⟨_, rfl⟩
    | immediate amount => exact (succeeds_rotate _ _ target first taken).finds id
    | label | based => cases taken
  | seq | sne | sgt | sgtu | sge | sgeu | sle | sleu =>
    cases last with
    | register other => exact ⟨_, rfl⟩
    | immediate value =>
      obtain ⟨loading, loaded⟩ := succeeds_load .scratch taken
      have found : source? (.immediate value) = .ok (some (loading, .scratch)) := by
        rw [source?, loaded]
        rfl
      simp [Finds, pseudo?, branchComparison?, setComparison?, found, bind, Except.bind]
    | label | based => cases taken
  | li | la | move | not | neg | negu | abs => cases binary
  | _ => cases known

theorem finds_largeImmediate {operation form : Operation} (found : registerForm? operation = some form)
    (rt rs : Register) {value : Int} (holds : Word.holds value = true) :
    Finds (extended?.largeImmediate operation rt rs value) := by
  unfold extended?.largeImmediate
  rw [found]
  exact (succeeds_load .scratch holds).finds _

theorem finds_three {operation : Operation} {calculation : Calculation}
    (known : operation.calculation? = some calculation) {target first : Register} {last : Operand}
    (taken : (Mnemonic.machine operation).takes last = true) :
    Finds (encode? context operation [.register target, .register first, last]) ∨
      Finds (extended? context operation [.register target, .register first, last]) := by
  have formats := format_of_calculation? known
  cases last with
  | register last =>
    have layout : operation.format = .threeRegisters := by
      simpa [Mnemonic.takes, Mnemonic.takesRegister] using taken
    exact .inl ⟨.ofRegisters operation target first last 0, by simp only [encode?, layout]⟩
  | immediate value =>
    have holds : Word.holds value = true := taken
    right
    rcases formats with ⟨layout, accepts⟩ | layout | layout
    · have same : extended? context operation [.register target, .register first, .immediate value] =
          (withNumber operation target first value).map some := by
        cases operation <;> first | rfl | cases accepts
      rw [same]
      exact (succeeds_withNumber operation target first holds).finds id
    all_goals
      have same : extended? context operation [.register target, .register first, .immediate value] =
          extended?.largeImmediate operation target first value := by
        cases operation <;> first | rfl | cases layout
      have form : ∃ form, registerForm? operation = some form := by
        cases operation <;> first | exact ⟨_, rfl⟩ | cases layout
      obtain ⟨form, found⟩ := form
      rw [same]
      exact finds_largeImmediate found target first holds
  | label | based => cases taken

theorem unabbreviated?_of_takes {operation : Operation} {calculation : Calculation}
    (known : operation.calculation? = some calculation) (target : Register) {source : Operand}
    (taken : (Mnemonic.machine operation).takes source = true) :
    unabbreviated? operation [.register target, source] = some [.register target, .register target, source] := by
  have formats := format_of_calculation? known
  cases source with
  | register source =>
    have layout : operation.format = .threeRegisters := by
      simpa [Mnemonic.takes, Mnemonic.takesRegister] using taken
    simp_all [unabbreviated?]
  | immediate value =>
    rcases formats with ⟨layout, accepts⟩ | layout | layout
    · simp [unabbreviated?, layout, accepts]
    · simp [unabbreviated?, layout]
    · simp [unabbreviated?, layout]
  | label | based => cases taken

end Expansion

open Expansion in
/-- If more than machine operations may be written, then an instruction is expanded if it has the operands for it. -/
theorem succeeds_expand [Generator] {written : WrittenInstruction} {context : ExpansionContext}
    {resolve : Label → Except Problem Address} {computation : Computation} (allowed : context.extended = true)
    (resolved : context.resolve? = some resolve) (named : written.computation? resolve = some computation) :
    Succeeds (written.expand context) := by
  obtain ⟨mnemonic, operands⟩ := written
  obtain ⟨calculation, target, first, last, second, known, form, taken, read⟩ :=
    WrittenInstruction.of_computation? named
  unfold WrittenInstruction.form? at form
  split at form
  case h_1 operation target source isMachine shape =>
    cases isMachine
    cases shape
    cases form
    refine succeeds_settle allowed (.inr ?_)
    unfold machine?
    rw [unabbreviated?_of_takes known target taken]
    exact (succeeds_settle allowed (finds_three known taken)).finds id
  case h_2 operation target source other isMachine shape =>
    cases isMachine
    cases shape
    cases form
    exact succeeds_settle allowed (finds_three known taken)
  case h_3 pseudo target source isPseudo shape =>
    cases isPseudo
    cases shape
    split at form
    next unary =>
      cases form
      change Succeeds (settle context _ (.ok none) (pseudo? context pseudo _))
      exact succeeds_settle allowed (.inr (finds_unary unary resolved taken read))
    next => cases form
  case h_4 pseudo target source other isPseudo shape =>
    cases isPseudo
    cases shape
    split at form
    next => cases form
    next binary =>
      cases form
      change Succeeds (settle context _ (.ok none) (pseudo? context pseudo _))
      exact succeeds_settle allowed (.inr (finds_binary known (Bool.eq_false_iff.2 binary) taken))
  case h_5 => cases form

end Mips
