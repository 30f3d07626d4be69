import Mips.Proofs.Expansion.Sequences

/-!
What written instructions compute. Those that leave a value in a register are described by the contents of their
operands alone, and whatever they are expanded to computes that. Main statement: `computes_expand`.
-/

namespace Mips

/-- What instructions of this name compute of the contents of their sources. -/
def Mnemonic.calculation? : Mnemonic → Option Calculation
  | .nop => none
  | .machine operation => operation.calculation?
  | .pseudo instruction => instruction.calculation?

/-- Whether the instruction has a single source, which may be anything but the register it sets. -/
def Pseudo.isUnary : Pseudo → Bool
  | .li | .la | .move | .not | .neg | .negu | .abs => true
  | _ => false

namespace Mnemonic

/-- Whether the last source of such an instruction may be a register. -/
def takesRegister : Mnemonic → Bool
  | .machine operation => operation.format = .threeRegisters
  | .pseudo .li | .pseudo .la | .pseudo .subi | .pseudo .subiu => false
  | .pseudo _ => true
  | .nop => false

/-- Whether the last source of such an instruction may be this number. -/
def takesNumber (mnemonic : Mnemonic) (value : Int) : Bool :=
  match mnemonic with
  | .pseudo .move | .pseudo .not | .pseudo .neg | .pseudo .negu | .pseudo .abs => false
  | .pseudo .rol | .pseudo .ror => 0 ≤ value && value ≤ 31
  | _ => Word.holds value

/-- Whether the last source of such an instruction may be this operand. -/
def takes (mnemonic : Mnemonic) : Operand → Bool
  | .register _ => mnemonic.takesRegister
  | .immediate value => mnemonic.takesNumber value
  | .label .. => mnemonic = .pseudo .la
  | .based label offset _ => mnemonic = .pseudo .la && (label.isSome || Word.holds offset)

end Mnemonic

namespace Operand

/-- The word that the operand stands for in a machine, unless its label is unknown. -/
def content? [Generator] (resolve : Label → Except Problem Address) : Operand → Option (Machine → Word)
  | .register source => some fun machine => machine.get source
  | .immediate value => some fun _ => Word.ofInt value
  | .label target addend => (resolve target).toOption.map fun address _ => address + Word.ofInt addend
  | .based none offset base => some fun machine => Word.ofInt offset + machine.get base
  | .based (some target) offset base =>
    (resolve target).toOption.map fun address machine => address + Word.ofInt offset + machine.get base

/-- The register that the operand names, if it names one. -/
def register? : Operand → Option Register
  | .register named | .based _ _ named => some named
  | .immediate _ | .label .. => none

end Operand

/-- A calculation, the sources that it is about, and the register that is to hold its result. -/
structure Computation [Generator] where
  calculation : Calculation
  destination : Register
  first : Register
  second : Machine → Word

def Computation.result [Generator] (computation : Computation) (machine : Machine) : Result :=
  computation.calculation.result computation.destination (machine.get computation.first) (computation.second machine)

namespace WrittenInstruction

/--
The destination of the instruction and its sources. A machine instruction may leave out its first source, which is then
its destination; if there can only be one source, then the first one is of no account.
-/
def form? (written : WrittenInstruction) : Option (Register × Register × Operand) :=
  match written.mnemonic, written.operands with
  | .machine _, [.register target, second] => some (target, target, second)
  | .machine _, [.register target, .register first, second] => some (target, first, second)
  | .pseudo pseudo, [.register target, source] => if pseudo.isUnary then some (target, target, source) else none
  | .pseudo pseudo, [.register target, .register first, second] =>
    if pseudo.isUnary then none else some (target, first, second)
  | _, _ => none

/-- The instruction does not name the register. -/
def Spares (written : WrittenInstruction) (register : Register) : Prop :=
  ∀ operand ∈ written.operands, operand.register? ≠ some register

instance (written : WrittenInstruction) (register : Register) : Decidable (written.Spares register) :=
  inferInstanceAs (Decidable (∀ operand ∈ written.operands, operand.register? ≠ some register))

variable {written : WrittenInstruction}

theorem Spares.of_register {register named : Register} (spares : written.Spares register)
    (among : .register named ∈ written.operands) : named ≠ register :=
  fun same => spares _ among (congrArg some same)

theorem Spares.of_base {register base : Register} {label : Option Label} {offset : Int}
    (spares : written.Spares register) (among : .based label offset base ∈ written.operands) : base ≠ register :=
  fun same => spares _ among (congrArg some same)

variable [Generator] {resolve : Label → Except Problem Address}

/-- What the instruction computes, if it leaves a value in a register and has the operands for it. -/
def computation? (written : WrittenInstruction) (resolve : Label → Except Problem Address) : Option Computation :=
  match written.mnemonic.calculation?, written.form? with
  | some calculation, some (destination, first, last) =>
    if written.mnemonic.takes last then
      (last.content? resolve).map fun second => ⟨calculation, destination, first, second⟩
    else none
  | _, _ => none

theorem computation?_eq_some {calculation : Calculation} {destination first : Register} {last : Operand}
    {second : Machine → Word} (known : written.mnemonic.calculation? = some calculation)
    (form : written.form? = some (destination, first, last)) (taken : written.mnemonic.takes last = true)
    (read : last.content? resolve = some second) :
    written.computation? resolve = some ⟨calculation, destination, first, second⟩ := by
  simp only [computation?, known, form, if_pos taken, read, Option.map_some]

theorem of_computation? {computation : Computation} (named : written.computation? resolve = some computation) :
    ∃ calculation destination first last second, written.mnemonic.calculation? = some calculation ∧
      written.form? = some (destination, first, last) ∧ written.mnemonic.takes last = true ∧
      last.content? resolve = some second := by
  unfold computation? at named
  split at named
  next calculation destination first last known form =>
    split at named
    next taken =>
      obtain ⟨second, read, -⟩ := Option.map_eq_some_iff.1 named
      exact ⟨calculation, destination, first, last, second, known, form, taken, read⟩
    next => cases named
  next => cases named

end WrittenInstruction

namespace Expansion

open Instruction

variable {context : ExpansionContext} {resolve : Label → Except Problem Address} {calculation : Calculation}
  {instructions : List Instruction}

theorem word_eq_ok {value : Int} {result : Word} (accepted : word value = .ok result) :
    Word.holds value = true ∧ result = Word.ofInt value := by
  unfold word at accepted
  split at accepted
  · exact ⟨by assumption, (Except.ok.inj accepted).symm⟩
  · cases accepted

theorem holds_of_fitsSigned {value : Int} (fits : fitsSigned value = true) : Word.holds value = true := by
  simp only [fitsSigned, Word.holds, Bool.and_eq_true, decide_eq_true_eq] at fits ⊢
  omega

theorem holds_of_fitsUnsigned {value : Int} (fits : fitsUnsigned value = true) : Word.holds value = true := by
  simp only [fitsUnsigned, Word.holds, Bool.and_eq_true, decide_eq_true_eq] at fits ⊢
  omega

theorem holds_of_load {rd : Register} {value : Int} (loaded : load rd value = .ok instructions) :
    Word.holds value = true := by
  unfold load at loaded
  simp only [fitsSigned, fitsUnsigned, Word.holds, word, Bool.and_eq_true, decide_eq_true_eq] at loaded ⊢
  split at loaded
  · omega
  split at loaded
  · omega
  split at loaded
  · assumption
  · cases loaded

theorem holds_of_subtract {addition subtraction : Operation} {rt rs : Register} {value : Int}
    (subtracted : subtract addition subtraction rt rs value = .ok instructions) : Word.holds value = true := by
  unfold subtract at subtracted
  split at subtracted
  next fits =>
    simp only [fitsSigned, Word.holds, Bool.and_eq_true, decide_eq_true_eq] at fits ⊢
    omega
  next =>
    obtain ⟨loading, loaded, -⟩ := map_eq_ok_iff.1 subtracted
    exact holds_of_load loaded

theorem holds_of_withNumber {operation : Operation} {rd rs : Register} {value : Int}
    (numbered : withNumber operation rd rs value = .ok instructions) : Word.holds value = true := by
  have scratch (numbered : (load .scratch value).map (fun loading =>
      loading ++ [registers operation rd rs .scratch]) = .ok instructions) : Word.holds value = true := by
    obtain ⟨loading, loaded, -⟩ := map_eq_ok_iff.1 numbered
    exact holds_of_load loaded
  unfold withNumber at numbered
  split at numbered
  case h_1 =>
    split at numbered
    next fits => exact holds_of_fitsSigned fits
    next => exact scratch numbered
  case h_2 =>
    split at numbered
    next fits => exact holds_of_fitsUnsigned fits
    next => exact scratch numbered
  case h_3 | h_4 => exact holds_of_subtract numbered
  case h_5 => exact scratch numbered

theorem small_of_rotate {first second : Operation} {rd rs : Register} {amount : Int}
    (rotated : rotate first second rd rs amount = .ok instructions) : (0 ≤ amount && amount ≤ 31) = true := by
  obtain ⟨word, accepted, -⟩ := map_eq_ok_iff.1 rotated
  unfold shiftAmount at accepted
  split at accepted
  · assumption
  · cases accepted

theorem ok_of_settle {mnemonic : Mnemonic} {direct : Except Problem (Option Instruction)}
    {expanded : Except Problem (Option (List Instruction))}
    (settled : settle context mnemonic direct expanded = .ok instructions) :
    (∃ instruction, direct = .ok (some instruction) ∧ instructions = [instruction]) ∨
      expanded = .ok (some instructions) := by
  unfold settle at settled
  split at settled
  case h_1 instruction =>
    cases settled
    exact .inl ⟨instruction, rfl, rfl⟩
  case h_2 =>
    split at settled
    · cases settled
    · split at settled
      · cases settled
        exact .inr rfl
      · cases settled
    · cases settled
  case h_3 =>
    split at settled
    · cases settled
    · split at settled
      · cases settled
      · cases settled
        exact .inr rfl
      · cases settled

theorem address_of_resolved (resolved : context.resolve? = some resolve) {label : Label} {addend : Int}
    {result : Address} (found : address context label addend = .ok result) :
    ∃ known, (resolve label).toOption = some known ∧ result = known + Word.ofInt addend := by
  simp only [address, address?, resolved] at found
  cases known : resolve label with
  | error problem =>
    rw [known] at found
    cases found
  | ok known' =>
    rw [known] at found
    cases found
    exact ⟨known', rfl, rfl⟩

theorem takes_of_setComparison? {pseudo : Pseudo} {rd rs rt : Register}
    (found : setComparison? pseudo rd rs rt = some instructions) :
    pseudo.isUnary = false ∧ (Mnemonic.pseudo pseudo).takesRegister = true ∧
      ∀ value, (Mnemonic.pseudo pseudo).takesNumber value = Word.holds value := by
  cases pseudo <;> first | exact ⟨rfl, rfl, fun _ => rfl⟩ | cases found

theorem format_of_calculation? {operation : Operation} (known : operation.calculation? = some calculation) :
    operation.format = .threeRegisters ∧ acceptsNumber operation = true ∨ operation.format = .signedImmediate ∨
      operation.format = .unsignedImmediate := by
  cases operation <;> first | exact .inl ⟨rfl, rfl⟩ | exact .inr (.inl rfl) | exact .inr (.inr rfl) | cases known

variable [Generator] {machine : Machine}

/-- The instructions have the result that the written instruction describes. -/
def Computes (written : WrittenInstruction) (resolve : Label → Except Problem Address) (instructions : List Instruction)
    (machine : Machine) : Prop :=
  ∃ computation, written.computation? resolve = some computation ∧
    Delivers instructions machine (computation.result machine)

theorem Computes.intro {written : WrittenInstruction} {destination first : Register} {last : Operand}
    {second : Machine → Word} (known : written.mnemonic.calculation? = some calculation)
    (form : written.form? = some (destination, first, last)) (taken : written.mnemonic.takes last = true)
    (read : last.content? resolve = some second)
    (delivers : Delivers instructions machine
      (calculation.result destination (machine.get first) (second machine))) :
    Computes written resolve instructions machine :=
  ⟨_, WrittenInstruction.computation?_eq_some known form taken read, delivers⟩

/-- A word is negated by subtracting it from zero. -/
theorem performs_negation {operation : Operation} (checked : Bool) (rd rs : Register)
    (known : operation.calculation? = some { Calculation.difference with checked := checked })
    (layout : operation.format = .threeRegisters) :
    (registers operation rd .zero rs).Performs machine ⟨rd, -(machine.get rs).signed, checked, false⟩ := by
  have performs : (registers operation rd .zero rs).Performs machine
      ⟨rd, (machine.get .zero).signed - (machine.get rs).signed, checked, false⟩ :=
    performs_ofRegisters known layout rd .zero rs 0
  have nothing : (0 : Word).signed = 0 := rfl
  rwa [Machine.get_zero, nothing, Int.zero_sub] at performs

/-- The comparison is made with a register that holds the operand, perhaps `$at`. -/
theorem computes_comparison {pseudo : Pseudo} {rd rs rt : Register} {operand : Operand}
    {loading compared : List Instruction} (known : pseudo.calculation? = some calculation)
    (loaded : source? operand = .ok (some (loading, rt))) (found : setComparison? pseudo rd rs rt = some compared)
    (spares : (WrittenInstruction.mk (.pseudo pseudo) [.register rd, .register rs, operand]).Spares .scratch) :
    Computes ⟨.pseudo pseudo, [.register rd, .register rs, operand]⟩ resolve (loading ++ compared) machine := by
  obtain ⟨binary, takesRegister, takesNumber⟩ := takes_of_setComparison? found
  have spared : rd ≠ .scratch := spares.of_register (by simp)
  have sparedSource : rs ≠ .scratch := spares.of_register (by simp)
  have form : (WrittenInstruction.mk (.pseudo pseudo) [.register rd, .register rs, operand]).form? =
      some (rd, rs, operand) := by
    simp [WrittenInstruction.form?, binary]
  cases operand with
  | register register =>
    cases loaded
    exact .intro known form takesRegister rfl (delivers_setComparison? known found spared)
  | immediate value =>
    obtain ⟨loading, loads, ⟨⟩⟩ := map_eq_ok_iff.1 loaded
    have delivers : Delivers compared (machine.set .scratch (Word.ofInt value)) _ :=
      delivers_setComparison? known found spared
    rw [Machine.get_set_ne _ sparedSource.symm, Machine.get_set_self _ scratch_ne_zero] at delivers
    exact .intro known form ((takesNumber value).trans (holds_of_load loads)) rfl
      (delivers.after (leads_load_scratch loads))
  | label | based => cases loaded

/-- The address of an operand with a base register is loaded, and then the base is added. -/
theorem computes_based {rd base : Register} {label : Option Label} {offset : Int}
    (resolved : context.resolve? = some resolve)
    (expanded : pseudo? context .la [.register rd, .based label offset base] = .ok (some instructions))
    (spared : base ≠ .scratch) :
    Computes ⟨.pseudo .la, [.register rd, .based label offset base]⟩ resolve instructions machine := by
  simp only [pseudo?] at expanded
  cases label with
  | none =>
    split at expanded
    next fits =>
      cases expanded
      have added : (immediate .addiu base rd (half offset)).Assigns machine _ :=
        assigns_immediate rfl (.inl rfl) (Calculation.effect_sum rd _ _)
      rw [widen_half_signed rfl fits, UInt32.add_comm] at added
      refine .intro rfl rfl ?_ rfl (.of_leads_set (.single added) fun _ => (Word.ofInt_toNat _).symm)
      simpa [Mnemonic.takes] using holds_of_fitsSigned fits
    next =>
      obtain ⟨result, accepted, ⟨⟩⟩ := map_eq_ok_iff.1 expanded
      obtain ⟨holds, rfl⟩ := word_eq_ok accepted
      exact .intro rfl rfl holds rfl (delivers_based _ spared)
  | some label =>
    obtain ⟨result, found, ⟨⟩⟩ := map_eq_ok_iff.1 expanded
    have found : address context label offset = .ok result := found
    obtain ⟨start, resolves, rfl⟩ := address_of_resolved resolved found
    refine .intro rfl rfl rfl (by rw [Operand.content?, resolves]; rfl) ?_
    exact delivers_based _ spared

theorem computes_pseudo? {pseudo : Pseudo} {operands : List Operand} (known : pseudo.calculation? = some calculation)
    (resolved : context.resolve? = some resolve)
    (expanded : pseudo? context pseudo operands = .ok (some instructions))
    (spares : (WrittenInstruction.mk (.pseudo pseudo) operands).Spares .scratch) :
    Computes ⟨.pseudo pseudo, operands⟩ resolve instructions machine := by
  unfold pseudo? at expanded
  split at expanded
  case h_1 rd value | h_2 rd value =>
    cases known
    obtain ⟨loading, loaded, ⟨⟩⟩ := map_eq_ok_iff.1 expanded
    obtain ⟨scratch, leads⟩ := leads_load loaded
    exact .intro rfl rfl (holds_of_load loaded) rfl (.of_leads scratch leads fun _ => (Word.ofInt_toNat _).symm)
  case h_3 rd label addend =>
    cases known
    obtain ⟨result, found, ⟨⟩⟩ := map_eq_ok_iff.1 expanded
    obtain ⟨start, resolves, rfl⟩ := address_of_resolved resolved found
    obtain ⟨scratch, leads⟩ := leads_halves rd (start + Word.ofInt addend)
    refine .intro rfl rfl rfl (by rw [Operand.content?, resolves]; rfl) ?_
    exact .of_leads scratch leads fun _ => (Word.ofInt_toNat _).symm
  case h_4 rd label offset base =>
    cases known
    exact computes_based resolved expanded (spares.of_base (.tail _ (.head _)))
  case h_5 rd rs =>
    cases known
    cases expanded
    have moved : (registers .addu rd .zero rs).Assigns machine _ :=
      assigns_registers rfl rfl (Calculation.effect_sum rd _ _)
    rw [Machine.get_zero, UInt32.zero_add] at moved
    exact .intro rfl rfl rfl rfl (.of_leads_set (.single moved) fun _ => (Word.ofInt_toNat _).symm)
  case h_6 rd rs =>
    cases known
    cases expanded
    have inverted : (registers .nor rd rs .zero).Assigns machine _ :=
      assigns_registers rfl rfl (Calculation.effect_bits rd _ _ _)
    rw [Machine.get_zero, UInt32.or_zero] at inverted
    exact .intro rfl rfl rfl rfl (.of_leads_set (.single inverted) fun _ => (Word.ofInt_toNat _).symm)
  case h_7 rd rs =>
    cases known
    cases expanded
    exact .intro rfl rfl rfl rfl (.of_performs (performs_negation true rd rs rfl rfl))
  case h_8 rd rs =>
    cases known
    cases expanded
    exact .intro rfl rfl rfl rfl (.of_performs (performs_negation false rd rs rfl rfl))
  case h_9 rd rs =>
    cases known
    cases expanded
    exact .intro rfl rfl rfl rfl (delivers_abs (spares.of_register (by simp)) (spares.of_register (by simp)))
  case h_10 | h_11 | h_12 | h_13 | h_16 | h_17 => cases known
  case h_14 rt rs value =>
    cases known
    obtain ⟨subtracting, subtracted, ⟨⟩⟩ := map_eq_ok_iff.1 expanded
    exact .intro rfl rfl (holds_of_subtract subtracted) rfl
      (delivers_subtract opposite_guarded_difference rfl rfl rfl rfl subtracted (spares.of_register (by simp)))
  case h_15 rt rs value =>
    cases known
    obtain ⟨subtracting, subtracted, ⟨⟩⟩ := map_eq_ok_iff.1 expanded
    exact .intro rfl rfl (holds_of_subtract subtracted) rfl
      (delivers_subtract opposite_difference rfl rfl rfl rfl subtracted (spares.of_register (by simp)))
  case h_18 rd rs rt =>
    cases known
    cases expanded
    exact .intro rfl rfl rfl rfl (delivers_rotateBy rotates_left rfl rfl rfl rfl (spares.of_register (by simp))
      (spares.of_register (by simp)) (spares.of_register (by simp)))
  case h_19 rd rs rt =>
    cases known
    cases expanded
    exact .intro rfl rfl rfl rfl (delivers_rotateBy rotates_right rfl rfl rfl rfl (spares.of_register (by simp))
      (spares.of_register (by simp)) (spares.of_register (by simp)))
  case h_20 rd rs amount =>
    cases known
    obtain ⟨rotating, rotated, ⟨⟩⟩ := map_eq_ok_iff.1 expanded
    exact .intro rfl rfl (small_of_rotate rotated) rfl (delivers_rotate rotates_left rfl rfl rfl rfl rotated
      (spares.of_register (by simp)) (spares.of_register (by simp)))
  case h_21 rd rs amount =>
    cases known
    obtain ⟨rotating, rotated, ⟨⟩⟩ := map_eq_ok_iff.1 expanded
    exact .intro rfl rfl (small_of_rotate rotated) rfl (delivers_rotate rotates_right rfl rfl rfl rfl rotated
      (spares.of_register (by simp)) (spares.of_register (by simp)))
  case h_22 first second third _ _ _ _ _ _ _ _ =>
    split at expanded
    next found => cases pseudo <;> cases found <;> cases known
    next =>
      split at expanded
      next rs =>
        split at expanded
        next => cases expanded
        next =>
          obtain ⟨found, loaded, rest⟩ := bind_eq_ok_iff.1 expanded
          cases found with
          | none => cases rest
          | some found =>
            obtain ⟨compared, set, rfl⟩ := Option.map_eq_some_iff.1 (Except.ok.inj rest)
            exact computes_comparison known loaded set spares
      next => cases expanded
  case h_23 => cases expanded

section Machine

variable {operation : Operation} {operands : List Operand}

theorem computes_encode? {instruction : Instruction} (known : operation.calculation? = some calculation)
    (encoded : encode? context operation operands = .ok (some instruction)) :
    Computes ⟨.machine operation, operands⟩ resolve [instruction] machine := by
  have formats := format_of_calculation? known
  unfold encode? at encoded
  split at encoded
  case h_1 rd rs rt layout =>
    cases encoded
    exact .intro known rfl (by simp [Mnemonic.takes, Mnemonic.takesRegister, layout]) rfl
      (.of_performs (performs_ofRegisters known layout rd rs rt 0))
  case h_13 rt rs value layout =>
    obtain ⟨field, fitting, ⟨⟩⟩ := map_eq_ok_iff.1 encoded
    unfold signedHalf at fitting
    split at fitting
    next fits =>
      cases fitting
      have performs : (immediate operation rs rt (half value)).Performs machine _ :=
        performs_ofImmediate known (.inl layout) rt rs (half value)
      rw [widen_half_signed layout fits] at performs
      exact .intro known rfl (holds_of_fitsSigned fits) rfl (.of_performs performs)
    next => cases fitting
  case h_14 rt rs value layout =>
    obtain ⟨field, fitting, ⟨⟩⟩ := map_eq_ok_iff.1 encoded
    unfold unsignedHalf at fitting
    split at fitting
    next fits =>
      cases fitting
      have performs : (immediate operation rs rt (half value)).Performs machine _ :=
        performs_ofImmediate known (.inr layout) rt rs (half value)
      rw [widen_half_unsigned layout fits] at performs
      exact .intro known rfl (holds_of_fitsUnsigned fits) rfl (.of_performs performs)
    next => cases fitting
  case h_22 => cases encoded
  all_goals
    next layout => simp [layout] at formats

omit [Generator] in
theorem calculation?_registerForm? {form : Operation} (found : registerForm? operation = some form) :
    form.calculation? = operation.calculation? ∧ form.format = .threeRegisters := by
  cases operation <;> cases found <;> exact ⟨rfl, rfl⟩

theorem computes_largeImmediate {rt rs : Register} {value : Int} (known : operation.calculation? = some calculation)
    (extended : extended?.largeImmediate operation rt rs value = .ok (some instructions))
    (spares : (WrittenInstruction.mk (.machine operation) [.register rt, .register rs, .immediate value]).Spares .scratch) :
    Computes ⟨.machine operation, [.register rt, .register rs, .immediate value]⟩ resolve instructions machine := by
  unfold extended?.largeImmediate at extended
  split at extended
  next => cases extended
  next form found =>
    obtain ⟨loading, loaded, ⟨⟩⟩ := map_eq_ok_iff.1 extended
    obtain ⟨same, layout⟩ := calculation?_registerForm? found
    exact .intro known rfl (holds_of_load loaded) rfl
      (delivers_throughScratch (same.trans known) layout loaded rt (spares.of_register (by simp)))

theorem computes_extended? (known : operation.calculation? = some calculation)
    (extended : extended? context operation operands = .ok (some instructions))
    (spares : (WrittenInstruction.mk (.machine operation) operands).Spares .scratch) :
    Computes ⟨.machine operation, operands⟩ resolve instructions machine := by
  have formats := format_of_calculation? known
  unfold extended? at extended
  split at extended
  case h_1 | h_2 | h_3 | h_4 => cases known
  case h_5 =>
    split at extended
    case h_1 rd rs value layout _ _ _ _ =>
      split at extended
      next accepts =>
        obtain ⟨numbered, withNumbered, ⟨⟩⟩ := map_eq_ok_iff.1 extended
        exact .intro known rfl (holds_of_withNumber withNumbered) rfl
          (delivers_withNumber known accepts withNumbered (spares.of_register (by simp)))
      next => cases extended
    case h_2 | h_3 => exact computes_largeImmediate known extended spares
    case h_4 layout _ _ _ _ | h_5 layout _ _ _ _ | h_6 layout _ _ _ _ | h_7 layout _ _ _ _ =>
      simp [layout] at formats
    case h_8 => cases extended

theorem computes_settle (known : operation.calculation? = some calculation)
    (settled : settle context (.machine operation) (encode? context operation operands)
      (extended? context operation operands) = .ok instructions)
    (spares : (WrittenInstruction.mk (.machine operation) operands).Spares .scratch) :
    Computes ⟨.machine operation, operands⟩ resolve instructions machine := by
  rcases ok_of_settle settled with ⟨instruction, encoded, rfl⟩ | extended
  · exact computes_encode? known encoded
  · exact computes_extended? known extended spares

/-- Leaving out the first source changes neither what is computed nor which registers are named. -/
theorem unabbreviated?_eq_some (resolve : Label → Except Problem Address) {full : List Operand}
    (abbreviated : unabbreviated? operation operands = some full) :
    (WrittenInstruction.mk (.machine operation) full).computation? resolve =
        (WrittenInstruction.mk (.machine operation) operands).computation? resolve ∧
      ((WrittenInstruction.mk (.machine operation) operands).Spares .scratch →
        (WrittenInstruction.mk (.machine operation) full).Spares .scratch) := by
  unfold unabbreviated? at abbreviated
  split at abbreviated
  case h_1 | h_2 =>
    split at abbreviated
    next =>
      cases abbreviated
      exact ⟨rfl, fun spares operand among => spares operand (by simpa using among)⟩
    next => cases abbreviated
  case h_3 => cases abbreviated

omit [Generator] in
/-- Operations of other formats need all of their operands. -/
theorem machine?_eq_extended? (three : operation.format ≠ .threeRegisters) (signed : operation.format ≠ .signedImmediate)
    (unsigned : operation.format ≠ .unsignedImmediate) (context : ExpansionContext) (operands : List Operand) :
    machine? context operation operands = extended? context operation operands := by
  have whole : unabbreviated? operation operands = none := by
    unfold unabbreviated?
    split <;> simp [three, signed, unsigned]
  rw [machine?, whole]

theorem computes_machine? (known : operation.calculation? = some calculation)
    (expanded : machine? context operation operands = .ok (some instructions))
    (spares : (WrittenInstruction.mk (.machine operation) operands).Spares .scratch) :
    Computes ⟨.machine operation, operands⟩ resolve instructions machine := by
  unfold machine? at expanded
  split at expanded
  next full abbreviated =>
    obtain ⟨settled, settles, ⟨⟩⟩ := map_eq_ok_iff.1 expanded
    obtain ⟨same, spared⟩ := unabbreviated?_eq_some resolve abbreviated
    have computes : Computes ⟨.machine operation, full⟩ resolve _ machine :=
      computes_settle known settles (spared spares)
    obtain ⟨computation, named, delivers⟩ := computes
    exact ⟨computation, same ▸ named, delivers⟩
  next => exact computes_extended? known expanded spares

end Machine

end Expansion

open Expansion in
/-- Whatever an instruction is expanded to computes what the instruction says. -/
theorem computes_expand [Generator] {written : WrittenInstruction} {context : ExpansionContext}
    {resolve : Label → Except Problem Address} {calculation : Calculation} {instructions : List Instruction}
    {machine : Machine} (known : written.mnemonic.calculation? = some calculation)
    (resolved : context.resolve? = some resolve) (expanded : written.expand context = .ok instructions)
    (spares : written.Spares .scratch) :
    Computes written resolve instructions machine := by
  obtain ⟨mnemonic, operands⟩ := written
  cases mnemonic with
  | nop => cases known
  | machine operation =>
    rcases ok_of_settle expanded with ⟨instruction, encoded, rfl⟩ | found
    · exact computes_encode? known encoded
    · exact computes_machine? known found spares
  | pseudo instruction =>
    have settled : settle context (.pseudo instruction) (.ok none) (pseudo? context instruction operands) =
      .ok instructions := expanded
    rcases ok_of_settle settled with ⟨_, impossible, -⟩ | found
    · cases impossible
    · exact computes_pseudo? known resolved found spares

end Mips
