import Mips.Proofs.Execution.Calculation
import Mips.Proofs.Expansion.Direct
import Mips.Proofs.Outcome

/-!
What the sequences compute that written instructions are expanded to. They are followed instruction by instruction,
and any of their registers but `$at` may be the same. Main statements: `leads_load`, `delivers_withNumber` and
`delivers_setComparison?`.
-/

namespace Mips

open Calculation in
/-- What a pseudo-instruction computes of the contents of its sources, or of its only source, the second word. -/
def Pseudo.calculation? : Pseudo → Option Calculation
  | .li | .la | .move => some (bits fun _ source => source)
  | .not => some (bits fun _ source => ~~~source)
  | .neg => some { compute _ source := -source.signed, checked := true }
  | .negu => some { compute _ source := -source.signed }
  | .abs => some { compute _ source := source.signed.natAbs }
  | .subi => some difference.guarded
  | .subiu => some difference
  | .seq => some (flag fun first second => first = second)
  | .sne => some (flag fun first second => first ≠ second)
  | .sgt => some (flag fun first second => second.signed < first.signed)
  | .sgtu => some (flag fun first second => second < first)
  | .sge => some (flag fun first second => second.signed ≤ first.signed)
  | .sgeu => some (flag fun first second => second ≤ first)
  | .sle => some (flag fun first second => first.signed ≤ second.signed)
  | .sleu => some (flag fun first second => first ≤ second)
  | .rol => some (bits fun word amount => ⟨word.toBitVec.rotateLeft amount.toNat⟩)
  | .ror => some (bits fun word amount => ⟨word.toBitVec.rotateRight amount.toNat⟩)
  | _ => none

/-- How an operation shifts a word. -/
def Operation.shifting? : Operation → Option (Word → Word → Word)
  | .sll | .sllv => some (· <<< ·)
  | .srl | .srlv => some (· >>> ·)
  | .sra => some fun word amount => word.shiftRightSigned amount.toNat
  | _ => none

namespace Expansion

open Instruction Calculation

/-- A half that is shifted to the upper half of a word. -/
theorem toNat_shifted (half : UInt16) : (half.toUInt32 <<< 16).toNat = 0x10000 * half.toNat := by
  have small := half.toNat_lt
  rw [UInt32.toNat_shiftLeft, UInt16.toNat_toUInt32, Nat.shiftLeft_eq]
  simp
  omega

theorem toNat_upper (address : Address) : (upper address).toNat = address.toNat / 0x10000 := by
  have small := address.toNat_lt
  rw [upper, UInt32.toNat_toUInt16, UInt32.toNat_shiftRight, Nat.shiftRight_eq_div_pow]
  simp
  omega

theorem toNat_lower (address : Address) : (lower address).toUInt32.toNat = address.toNat % 0x10000 := by
  rw [lower, UInt16.toNat_toUInt32, UInt32.toNat_toUInt16]

theorem upper_lower (address : Address) :
    ((upper address).toUInt32 <<< 16) ||| (lower address).toUInt32 = address := by
  rw [← UInt32.toNat_inj, UInt32.toNat_or, toNat_shifted, toNat_upper, toNat_lower]
  refine (Nat.two_pow_add_eq_or_of_lt (i := 16) (Nat.mod_lt _ (by decide)) _).symm.trans ?_
  exact Nat.div_add_mod _ _

/-- A number that fits 16 bits with its sign is had again from its low half. -/
theorem signExtend_half {value : Int} (fits : fitsSigned value = true) :
    Word.signExtend 16 (half value).toUInt32 = Word.ofInt value := by
  simp only [fitsSigned, Bool.and_eq_true, decide_eq_true_eq] at fits
  have same : (value % 0x10000).bmod 0x10000 = value := by
    have inside : (value % 0x10000).bmod 0x10000 = value.bmod 0x10000 := Int.emod_bmod value 0x10000
    rw [inside]
    exact Int.bmod_eq_of_le (by omega) (by omega)
  rw [Word.signExtend, UInt16.toNat_toUInt32, toNat_half]
  exact congrArg Word.ofInt same

theorem widen_half_signed {operation : Operation} {value : Int} (layout : operation.format = .signedImmediate)
    (fits : fitsSigned value = true) : widen operation (half value) = Word.ofInt value := by
  rw [widen, if_pos layout, signExtend_half fits]

theorem widen_half_unsigned {operation : Operation} {value : Int} (layout : operation.format = .unsignedImmediate)
    (fits : fitsUnsigned value = true) : widen operation (half value) = Word.ofInt value := by
  simp only [fitsUnsigned, Bool.and_eq_true, decide_eq_true_eq] at fits
  have number := toNat_half value
  have word := Word.toNat_ofInt value
  rw [widen, if_neg (by rw [layout]; decide), ← UInt32.toNat_inj, UInt16.toNat_toUInt32]
  omega

theorem scratch_ne_zero : Register.scratch ≠ .zero := by decide

variable [Generator] {machine : Machine} {operation : Operation} {calculation : Calculation} {rd rs rt : Register}

theorem assigns_registers {word : Word} (known : operation.calculation? = some calculation)
    (layout : operation.format = .threeRegisters)
    (same : calculation.effect rd (machine.get rs) (machine.get rt) = Effect.set rd word) :
    (registers operation rd rs rt).Assigns machine [.register rd word] :=
  fun pc delayed => (effect_ofRegisters known layout rd rs rt 0 pc delayed).trans same

theorem assigns_immediate {field : UInt16} {word : Word} (known : operation.calculation? = some calculation)
    (layout : operation.format = .signedImmediate ∨ operation.format = .unsignedImmediate)
    (same : calculation.effect rt (machine.get rs) (widen operation field) = Effect.set rt word) :
    (immediate operation rs rt field).Assigns machine [.register rt word] :=
  fun pc delayed => (effect_ofImmediate known layout rt rs field pc delayed).trans same

theorem assigns_lui (rt : Register) (field : UInt16) :
    (immediate .lui .zero rt field).Assigns machine [.register rt (field.toUInt32 <<< 16)] := by
  intro pc delayed
  have target : (ofImmediate .lui .zero rt field).rt = rt := rt_ofImmediate (by decide) (by decide)
  have content : (ofImmediate .lui .zero rt field).immediate = field.toUInt32 := immediate_ofImmediate rfl
  have same : (ofImmediate .lui .zero rt field).operation = .lui := rfl
  simp only [immediate, Instruction.effect, same, target, content]
  rfl

theorem assigns_shift {shifting : Word → Word → Word} (known : operation.shifting? = some shifting)
    (layout : operation.format = .shiftAmount) (rd value : Register) (amount : Word) :
    (shift operation rd value amount).Assigns machine
      [.register rd (shifting (machine.get value) (amount &&& 0x1F))] := by
  intro pc delayed
  have shifted : (ofRegisters operation rd .zero value amount).rt = value :=
    rt_ofRegisters (by rw [layout]; decide) (by rw [layout]; decide)
  have same : (ofRegisters operation rd .zero value amount).operation = operation := rfl
  simp only [shift, Instruction.effect, same, shifted, rd_ofRegisters, shamt_ofRegisters]
  cases operation with
  | sll | srl | sra =>
    cases known
    rfl
  | sllv | srlv => cases layout
  | _ => cases known

theorem assigns_shiftBy {shifting : Word → Word → Word} (known : operation.shifting? = some shifting)
    (layout : operation.format = .shiftRegister) (rd value amount : Register) :
    (shiftBy operation rd value amount).Assigns machine
      [.register rd (shifting (machine.get value) (machine.get amount &&& 0x1F))] := by
  intro pc delayed
  have shifted : (ofRegisters operation rd amount value 0).rt = value :=
    rt_ofRegisters (by rw [layout]; decide) (by rw [layout]; decide)
  have source : (ofRegisters operation rd amount value 0).rs = amount :=
    rs_ofRegisters (by rw [layout]; decide) (by rw [layout]; decide)
  have same : (ofRegisters operation rd amount value 0).operation = operation := rfl
  simp only [shiftBy, Instruction.effect, same, shifted, source, rd_ofRegisters]
  cases operation with
  | sllv | srlv =>
    cases known
    rfl
  | sll | srl | sra => cases layout
  | _ => cases known

/-- The two halves of a word are loaded by way of `$at`. -/
theorem leads_halves (rd : Register) (word : Word) :
    ∃ scratch, Leads [immediate .lui .zero .scratch (upper word), immediate .ori .scratch rd (lower word)] machine
      ((machine.set .scratch scratch).set rd word) := by
  have joined : (machine.set .scratch ((upper word).toUInt32 <<< 16)).get .scratch ||| widen .ori (lower word) =
      word := by
    rw [Machine.get_set_self _ scratch_ne_zero]
    exact upper_lower word
  refine ⟨(upper word).toUInt32 <<< 16, .set (assigns_lui .scratch (upper word)) (.single ?_)⟩
  exact assigns_immediate rfl (.inr rfl) (by rw [effect_bits, joined])

theorem leads_halves_scratch (word : Word) :
    Leads [immediate .lui .zero .scratch (upper word), immediate .ori .scratch .scratch (lower word)] machine
      (machine.set .scratch word) := by
  obtain ⟨scratch, leads⟩ := leads_halves .scratch word
  rwa [Machine.set_set] at leads

/-- Loading a number leaves the word that stands for it in a register, and perhaps another one in `$at`. -/
theorem leads_load {value : Int} {instructions : List Instruction} (loaded : load rd value = .ok instructions) :
    ∃ scratch, Leads instructions machine ((machine.set .scratch scratch).set rd (Word.ofInt value)) := by
  have direct (word : Word) {instruction : Instruction} (assigns : instruction.Assigns machine [.register rd word]) :
      ∃ scratch, Leads [instruction] machine ((machine.set .scratch scratch).set rd word) := by
    refine ⟨machine.get .scratch, ?_⟩
    rw [Machine.set_get]
    exact .single assigns
  unfold load at loaded
  split at loaded
  next fits =>
    cases loaded
    refine direct _ (assigns_immediate rfl (.inl rfl) ?_)
    rw [effect_sum, Machine.get_zero, widen_half_signed rfl fits, UInt32.zero_add]
  next =>
    split at loaded
    next fits =>
      cases loaded
      refine direct _ (assigns_immediate rfl (.inr rfl) ?_)
      rw [effect_bits, Machine.get_zero, widen_half_unsigned rfl fits, UInt32.zero_or]
    next =>
      unfold word at loaded
      split at loaded
      · cases loaded
        exact leads_halves rd _
      · cases loaded

theorem leads_load_scratch {value : Int} {instructions : List Instruction}
    (loaded : load .scratch value = .ok instructions) :
    Leads instructions machine (machine.set .scratch (Word.ofInt value)) := by
  obtain ⟨scratch, leads⟩ := leads_load loaded
  rwa [Machine.set_set] at leads

/-- An operation on registers whose last source was loaded before. -/
theorem delivers_throughScratch {value : Int} {loading : List Instruction} (known : operation.calculation? = some calculation)
    (layout : operation.format = .threeRegisters) (loaded : load .scratch value = .ok loading) (rd : Register)
    (spared : rs ≠ .scratch) :
    Delivers (loading ++ [registers operation rd rs .scratch]) machine
      (calculation.result rd (machine.get rs) (Word.ofInt value)) := by
  have performs : (registers operation rd rs .scratch).Performs (machine.set .scratch (Word.ofInt value)) _ :=
    performs_ofRegisters known layout rd rs .scratch 0
  rw [Machine.get_set_self _ scratch_ne_zero, Machine.get_set_ne _ spared.symm] at performs
  exact (Delivers.of_performs performs).after (leads_load_scratch loaded)

/-- Subtracting a number is adding its negative, as long as that fits 16 bits. -/
def Opposite (added subtracted : Calculation) : Prop :=
  ∀ (value : Int) (rd : Register) (word : Word), fitsSigned (-value) = true →
    added.result rd word (Word.ofInt (-value)) = subtracted.result rd word (Word.ofInt value)

omit [Generator] in
theorem opposite_difference : Opposite sum difference := by
  intro value rd word fits
  simp only [fitsSigned, Bool.and_eq_true, decide_eq_true_eq] at fits
  have positive : (Word.ofInt value).signed = value := Word.signed_ofInt (by omega) (by omega)
  have negative : (Word.ofInt (-value)).signed = -value := Word.signed_ofInt (by omega) (by omega)
  simp only [result, sum, difference, positive, negative, Int.sub_eq_add_neg]

omit [Generator] in
theorem opposite_guarded_difference : Opposite sum.guarded difference.guarded := by
  intro value rd word fits
  exact congrArg (fun result : Result => { result with checked := true }) (opposite_difference value rd word fits)

theorem delivers_subtract {addition subtraction : Operation} {added : Calculation} {value : Int}
    {instructions : List Instruction} (opposite : Opposite added calculation)
    (adds : addition.calculation? = some added) (subtracts : subtraction.calculation? = some calculation)
    (immediateLayout : addition.format = .signedImmediate) (layout : subtraction.format = .threeRegisters)
    (expanded : subtract addition subtraction rd rs value = .ok instructions) (spared : rs ≠ .scratch) :
    Delivers instructions machine (calculation.result rd (machine.get rs) (Word.ofInt value)) := by
  unfold subtract at expanded
  split at expanded
  next fits =>
    cases expanded
    have performs : (immediate addition rs rd (half (-value))).Performs machine _ :=
      performs_ofImmediate adds (.inl immediateLayout) rd rs (half (-value))
    rw [widen_half_signed immediateLayout fits, opposite value rd _ fits] at performs
    exact .of_performs performs
  next =>
    obtain ⟨loading, loaded, rfl⟩ := map_eq_ok_iff.1 expanded
    exact delivers_throughScratch subtracts layout loaded rd spared

omit [Generator] in
theorem calculation?_immediateForm? {form : Operation} {signed : Bool}
    (found : immediateForm? operation = some (form, signed)) :
    form.calculation? = operation.calculation? ∧
      form.format = if signed then .signedImmediate else .unsignedImmediate := by
  cases operation <;> cases found <;> exact ⟨rfl, rfl⟩

theorem delivers_withNumber {value : Int} {instructions : List Instruction}
    (known : operation.calculation? = some calculation) (accepts : acceptsNumber operation = true)
    (expanded : withNumber operation rd rs value = .ok instructions) (spared : rs ≠ .scratch) :
    Delivers instructions machine (calculation.result rd (machine.get rs) (Word.ofInt value)) := by
  have layout : operation.format = .threeRegisters := by
    cases operation <;> first | rfl | cases accepts
  have scratch (instructions : List Instruction) (expanded : (load .scratch value).map (fun loading =>
      loading ++ [registers operation rd rs .scratch]) = .ok instructions) :
      Delivers instructions machine (calculation.result rd (machine.get rs) (Word.ofInt value)) := by
    obtain ⟨loading, loaded, rfl⟩ := map_eq_ok_iff.1 expanded
    exact delivers_throughScratch known layout loaded rd spared
  unfold withNumber at expanded
  split at expanded
  case h_1 form found =>
    split at expanded
    next fits =>
      cases expanded
      obtain ⟨same, signed⟩ := calculation?_immediateForm? found
      have performs : (immediate form rs rd (half value)).Performs machine _ :=
        performs_ofImmediate (same.trans known) (.inl signed) rd rs (half value)
      rw [widen_half_signed signed fits] at performs
      exact .of_performs performs
    next => exact scratch _ expanded
  case h_2 form found =>
    split at expanded
    next fits =>
      cases expanded
      obtain ⟨same, unsigned⟩ := calculation?_immediateForm? found
      have performs : (immediate form rs rd (half value)).Performs machine _ :=
        performs_ofImmediate (same.trans known) (.inr unsigned) rd rs (half value)
      rw [widen_half_unsigned unsigned fits] at performs
      exact .of_performs performs
    next => exact scratch _ expanded
  case h_3 =>
    cases known
    exact delivers_subtract opposite_guarded_difference rfl rfl rfl rfl expanded spared
  case h_4 =>
    cases known
    exact delivers_subtract opposite_difference rfl rfl rfl rfl expanded spared
  case h_5 => exact scratch _ expanded

omit [Generator] in
theorem word_flag {first second : Bool} (same : first = second) :
    (if first then 1 else 0 : Word) = Word.ofInt (if second then 1 else 0) := by
  subst same
  cases first <;> rfl

theorem assigns_one : (immediate .ori .zero .scratch 1).Assigns machine [.register .scratch 1] :=
  assigns_immediate rfl (.inr rfl) (by rw [effect_bits, Machine.get_zero]; rfl)

/-- A comparison is inverted by subtracting its result from one. -/
theorem delivers_invert (operation : Operation) {related : Word → Word → Bool}
    (known : operation.calculation? = some (flag related)) (layout : operation.format = .threeRegisters)
    (spared : rd ≠ .scratch) {inverse : Bool}
    (inverted : (!related (machine.get rs) (machine.get rt)) = inverse) :
    Delivers (registers operation rd rs rt :: invert rd) machine ⟨rd, if inverse then 1 else 0, false, false⟩ := by
  have leads : Leads (registers operation rd rs rt :: invert rd) machine _ :=
    .set (assigns_registers known layout (effect_flag rd _ _ related)) <|
    .set assigns_one <|
    .single (assigns_registers rfl rfl (effect_difference rd _ _))
  rw [Machine.set_comm _ spared, Machine.set_set] at leads
  refine .of_leads 1 leads fun nonzero => ?_
  rw [Machine.get_set_self _ nonzero, Machine.get_set_ne _ spared, Machine.get_set_self _ scratch_ne_zero, ← inverted]
  cases related (machine.get rs) (machine.get rt) <;> rfl

theorem delivers_setComparison? {pseudo : Pseudo} {instructions : List Instruction}
    (known : pseudo.calculation? = some calculation) (expanded : setComparison? pseudo rd rs rt = some instructions)
    (spared : rd ≠ .scratch) :
    Delivers instructions machine (calculation.result rd (machine.get rs) (machine.get rt)) := by
  cases pseudo with
  | seq =>
    cases known
    cases expanded
    have leads : Leads [registers .subu rd rs rt, immediate .ori .zero .scratch 1, registers .sltu rd rd .scratch]
        machine _ :=
      .set (assigns_registers rfl rfl (effect_difference rd _ _)) <|
      .set assigns_one <|
      .single (assigns_registers rfl rfl (effect_flag rd _ _ _))
    rw [Machine.set_comm _ spared, Machine.set_set] at leads
    refine .of_leads 1 leads fun nonzero => word_flag ?_
    rw [Machine.get_set_self _ nonzero, Machine.get_set_ne _ spared, Machine.get_set_self _ scratch_ne_zero]
    exact decide_eq_decide.2 (Word.sub_lt_one_iff _ _)
  | sne =>
    cases known
    cases expanded
    have leads : Leads [registers .subu rd rs rt, registers .sltu rd .zero rd] machine _ :=
      .set (assigns_registers rfl rfl (effect_difference rd _ _)) <|
      .single (assigns_registers rfl rfl (effect_flag rd _ _ _))
    rw [Machine.set_set] at leads
    refine .of_leads_set leads fun nonzero => word_flag ?_
    rw [Machine.get_set_self _ nonzero, Machine.get_zero]
    exact decide_eq_decide.2 (Word.sub_pos_iff _ _)
  | sgt =>
    cases known
    cases expanded
    have performs : (registers .slt rd rt rs).Performs machine _ := performs_ofRegisters rfl rfl rd rt rs 0
    have swapped : (registers .slt rd rt rs).Performs machine
        ⟨rd, if decide ((machine.get rt).signed < (machine.get rs).signed) then 1 else 0, false, false⟩ := performs
    exact .of_performs swapped
  | sgtu =>
    cases known
    cases expanded
    have performs : (registers .sltu rd rt rs).Performs machine _ := performs_ofRegisters rfl rfl rd rt rs 0
    have swapped : (registers .sltu rd rt rs).Performs machine
        ⟨rd, if decide (machine.get rt < machine.get rs) then 1 else 0, false, false⟩ := performs
    exact .of_performs swapped
  | sge | sle =>
    cases known
    cases expanded
    exact delivers_invert .slt rfl rfl spared (by rw [← decide_not]; exact decide_eq_decide.2 Int.not_lt)
  | sgeu | sleu =>
    cases known
    cases expanded
    exact delivers_invert .sltu rfl rfl spared (by rw [← decide_not]; exact decide_eq_decide.2 UInt32.not_lt)
  | _ => cases expanded

omit [Generator] in
/-- The low five bits of a word tell how far it shifts. -/
theorem toNat_amount (word : Word) : (word &&& 0x1F).toNat = word.toNat % 32 := Word.toNat_and_mask word 5 0x1F rfl

/-- A register is shifted one way to `$at` and the other way to the destination, where both are joined. -/
theorem leads_join {first second : Instruction} {one other : Word}
    (firstAssigns : first.Assigns machine [.register .scratch one])
    (secondAssigns : second.Assigns (machine.set .scratch one) [.register rd other]) (spared : rd ≠ .scratch) :
    ∃ word, Leads [first, second, registers .or rd rd .scratch] machine ((machine.set .scratch one).set rd word) ∧
      (rd ≠ .zero → word = other ||| one) := by
  have leads : Leads [first, second, registers .or rd rd .scratch] machine _ :=
    .set firstAssigns <| .set secondAssigns <| .single (assigns_registers rfl rfl (effect_bits rd _ _ _))
  rw [Machine.set_set] at leads
  refine ⟨_, leads, fun nonzero => ?_⟩
  rw [Machine.get_set_self _ nonzero, Machine.get_set_ne _ spared, Machine.get_set_self _ scratch_ne_zero]

/-- Both halves of an address are in `$at` before the base is added. -/
theorem delivers_based (address : Address) {rd base : Register} (spared : base ≠ .scratch) :
    Delivers [immediate .lui .zero .scratch (upper address), immediate .ori .scratch .scratch (lower address),
      registers .addu rd .scratch base] machine ⟨rd, (address + machine.get base).toNat, false, false⟩ := by
  have added : (registers .addu rd .scratch base).Assigns (machine.set .scratch address) _ :=
    assigns_registers rfl rfl (effect_sum rd _ _)
  refine .of_leads address ((leads_halves_scratch address).append (.single added)) fun _ => ?_
  rw [Machine.get_set_self _ scratch_ne_zero, Machine.get_set_ne _ spared.symm]
  exact (Word.ofInt_toNat _).symm

theorem delivers_abs (spared : rd ≠ .scratch) (sparedSource : rs ≠ .scratch) :
    Delivers [shift .sra .scratch rs 31, registers .xor rd .scratch rs, registers .subu rd rd .scratch] machine
      ⟨rd, (machine.get rs).signed.natAbs, false, false⟩ := by
  have leads : Leads [shift .sra .scratch rs 31, registers .xor rd .scratch rs, registers .subu rd rd .scratch]
      machine _ :=
    .set (assigns_shift rfl rfl .scratch rs 31) <|
    .set (assigns_registers rfl rfl (effect_bits rd _ _ _)) <|
    .single (assigns_registers rfl rfl (effect_difference rd _ _))
  rw [Machine.set_set] at leads
  refine .of_leads _ leads fun nonzero => ?_
  rw [Machine.get_set_self _ nonzero, Machine.get_set_ne _ spared, Machine.get_set_self _ scratch_ne_zero,
    Machine.get_set_ne _ sparedSource.symm]
  exact Word.abs_eq _

/-- Shifting one way and shifting the other way by what is left of 32 bits rotates a word. -/
def Rotates (back forth rotation : Word → Word → Word) : Prop :=
  ∀ word amount rest : Word, (amount.toNat + rest.toNat) % 32 = 0 →
    forth word (amount &&& 0x1F) ||| back word (rest &&& 0x1F) = rotation word amount

omit [Generator] in
theorem rotates_left : Rotates (· >>> ·) (· <<< ·) fun word amount => ⟨word.toBitVec.rotateLeft amount.toNat⟩ := by
  intro word amount rest whole
  have shifted := Word.shiftLeft_or_shiftRight word (show
    ((amount &&& 0x1F).toNat + (rest &&& 0x1F).toNat) % 32 = 0 by rw [toNat_amount, toNat_amount]; omega)
  rw [toNat_amount, BitVec.rotateLeft_mod_eq_rotateLeft] at shifted
  exact shifted

omit [Generator] in
theorem rotates_right : Rotates (· <<< ·) (· >>> ·) fun word amount => ⟨word.toBitVec.rotateRight amount.toNat⟩ := by
  intro word amount rest whole
  have shifted := Word.shiftRight_or_shiftLeft word (show
    ((rest &&& 0x1F).toNat + (amount &&& 0x1F).toNat) % 32 = 0 by rw [toNat_amount, toNat_amount]; omega)
  rw [toNat_amount, BitVec.rotateRight_mod_eq_rotateRight] at shifted
  exact shifted

section Rotation

variable {back forth rotation : Word → Word → Word} {first second : Operation}

theorem delivers_rotate {amount : Int} {instructions : List Instruction} (rotates : Rotates back forth rotation)
    (firstKnown : first.shifting? = some back) (secondKnown : second.shifting? = some forth)
    (firstLayout : first.format = .shiftAmount) (secondLayout : second.format = .shiftAmount)
    (expanded : rotate first second rd rs amount = .ok instructions) (spared : rd ≠ .scratch)
    (sparedSource : rs ≠ .scratch) :
    Delivers instructions machine ((bits rotation).result rd (machine.get rs) (Word.ofInt amount)) := by
  obtain ⟨word, accepted, rfl⟩ := map_eq_ok_iff.1 expanded
  have same : word = Word.ofInt amount := by
    unfold shiftAmount at accepted
    split at accepted
    · exact (Except.ok.inj accepted).symm
    · cases accepted
  subst same
  obtain ⟨joined, leads, value⟩ := leads_join (assigns_shift firstKnown firstLayout .scratch rs _)
    (assigns_shift secondKnown secondLayout rd rs (Word.ofInt amount)) spared
  refine .of_leads _ leads fun nonzero => ?_
  rw [value nonzero, Machine.get_set_ne _ sparedSource.symm, rotates]
  · exact (Word.ofInt_toNat _).symm
  · rw [toNat_amount, UInt32.toNat_sub]
    have small := (Word.ofInt amount).toNat_lt
    change ((Word.ofInt amount).toNat + (2 ^ 32 - (Word.ofInt amount).toNat + 32) % 2 ^ 32 % 32) % 32 = 0
    omega

theorem delivers_rotateBy (rotates : Rotates back forth rotation) (firstKnown : first.shifting? = some back)
    (secondKnown : second.shifting? = some forth) (firstLayout : first.format = .shiftRegister)
    (secondLayout : second.format = .shiftRegister) (spared : rd ≠ .scratch)
    (sparedSource : rs ≠ .scratch) (sparedAmount : rt ≠ .scratch) :
    Delivers (rotateBy first second rd rs rt) machine
      ((bits rotation).result rd (machine.get rs) (machine.get rt)) := by
  have negated : (registers .subu .scratch .zero rt).Assigns machine
      [.register .scratch (machine.get .zero - machine.get rt)] :=
    assigns_registers rfl rfl (effect_difference .scratch _ _)
  obtain ⟨joined, later, value⟩ := leads_join (assigns_shiftBy firstKnown firstLayout .scratch rs .scratch)
    (assigns_shiftBy secondKnown secondLayout rd rs rt) spared
  have leads : Leads (rotateBy first second rd rs rt) machine _ := .set negated later
  rw [Machine.set_set] at leads
  refine .of_leads _ leads fun nonzero => ?_
  rw [value nonzero, Machine.get_set_self _ scratch_ne_zero, Machine.set_set, Machine.get_set_ne _ sparedSource.symm,
    Machine.get_set_ne _ sparedSource.symm, Machine.get_set_ne _ sparedAmount.symm, rotates]
  · exact (Word.ofInt_toNat _).symm
  · have small := (machine.get rt).toNat_lt
    rw [Machine.get_zero, UInt32.toNat_sub]
    change ((machine.get rt).toNat + (2 ^ 32 - (machine.get rt).toNat + 0) % 2 ^ 32) % 32 = 0
    omega

end Rotation

end Expansion

end Mips
