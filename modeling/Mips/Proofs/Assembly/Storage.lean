import Mips.Proofs.Assembly.Regions
import Mips.Proofs.Assembly.Sizes

/-!
Whether storage is given out twice. Overlaps are noticed where something is emitted at an address for the second time,
so what is emitted never overlaps; memory that is only reserved, by a directive or by name, emits nothing and is not
noticed. Main statement: `storage_of_assemble`.
-/

namespace Mips

open Std (ExtTreeMap)

section Fills

variable {α : Type}

/-- Of the cells of a width that begin at its multiples only one holds a position. -/
theorem eq_of_cells {width first second position : Nat} (alignedFirst : first % width = 0)
    (alignedSecond : second % width = 0) (inFirst : first ≤ position ∧ position < first + width)
    (inSecond : second ≤ position ∧ position < second + width) : first = second := by
  obtain ⟨i, rfl⟩ := Nat.dvd_of_mod_eq_zero alignedFirst
  obtain ⟨j, rfl⟩ := Nat.dvd_of_mod_eq_zero alignedSecond
  have cell : ∀ k, width * k ≤ position → position < width * k + width → position / width = k := by
    intro k low high
    refine Nat.div_eq_of_lt_le (by rwa [Nat.mul_comm]) ?_
    rwa [Nat.succ_mul, Nat.mul_comm]
  rw [← cell i inFirst.1 inFirst.2, ← cell j inSecond.1 inSecond.2]

/-- A position that was filled is not filled again, if all cells are aligned. -/
theorem not_fills_of_fills {width position : Nat} {first second third fourth : ExtTreeMap Address α}
    (kept : ∀ address ∈ second, address ∈ third)
    (alignedSecond : ∀ address : Address, address ∈ second → address.toNat % width = 0)
    (alignedFourth : ∀ address : Address, address ∈ fourth → address.toNat % width = 0)
    (early : Fills width first second position) :
    ¬ Fills width third fourth position := by
  rintro ⟨address, ⟨here, absent⟩, inside⟩
  obtain ⟨other, ⟨before, _⟩, within⟩ := early
  have same : address = other :=
    UInt32.toNat_inj.1 (eq_of_cells (alignedFourth address here) (alignedSecond other before) inside within)
  exact absent (kept address (same ▸ before))

end Fills

namespace Emission

/-- What has been emitted stays emitted. -/
structure Extends (before after : Emission) : Prop where
  statements : ∀ address ∈ before.statements, address ∈ after.statements
  data : ∀ address ∈ before.data, address ∈ after.data

theorem extends_reject (emission : Emission) (placed : Placed) (problem : Problem) :
    Extends emission (emission.reject placed problem) := ⟨fun _ here => here, fun _ here => here⟩

theorem extends_refl (emission : Emission) : Extends emission emission := ⟨fun _ here => here, fun _ here => here⟩

theorem Extends.trans {first second third : Emission} (before : Extends first second) (after : Extends second third) :
    Extends first third :=
  ⟨fun address here => after.statements address (before.statements address here),
    fun address here => after.data address (before.data address here)⟩

/-- Every instruction was emitted at a multiple of four. -/
def Aligned (emission : Emission) : Prop := ∀ address ∈ emission.statements, address.toNat % 4 = 0

theorem data_emitInstructions (placed : Placed) (emission : Emission) (address : Address) (source : Option String)
    (instructions : List Instruction) :
    (emitInstructions placed emission address source instructions).data = emission.data := by
  induction instructions generalizing emission address source with
  | nil => rfl
  | cons instruction rest ih =>
    unfold emitInstructions
    rw [ih]
    split <;> rfl

theorem mem_emitInstructions (placed : Placed) {emission : Emission} {other : Address}
    (here : other ∈ emission.statements) (address : Address) (source : Option String) (instructions : List Instruction) :
    other ∈ (emitInstructions placed emission address source instructions).statements := by
  induction instructions generalizing emission address source with
  | nil => exact here
  | cons instruction rest ih =>
    unfold emitInstructions
    apply ih
    split
    · exact here
    · exact ExtTreeMap.mem_insert.2 (.inr here)

theorem aligned_emitInstructions (placed : Placed) {emission : Emission} (aligned : emission.Aligned) {address : Address}
    (multiple : address.toNat % 4 = 0) (source : Option String) (instructions : List Instruction) :
    (emitInstructions placed emission address source instructions).Aligned := by
  induction instructions generalizing emission address source with
  | nil => exact aligned
  | cons instruction rest ih =>
    unfold emitInstructions
    have next : (address + 4).toNat % 4 = 0 := by
      have four : (4 : Address).toNat = 4 := rfl
      rw [UInt32.toNat_add, four]
      omega
    apply ih _ next
    split
    · exact aligned
    · intro other here
      rcases ExtTreeMap.mem_insert.1 here with same | before
      · rw [← Std.LawfulEqCmp.eq_of_compare same]
        exact multiple
      · exact aligned other before

theorem mem_emitBytes {emission : Emission} {address : Address} (here : address ∈ emission.data) (placed : Placed)
    (content : List UInt8) : address ∈ (emission.emitBytes placed content).data := by
  unfold emitBytes
  dsimp only
  split
  · exact here
  · exact mem_fill.2 (.inl here)

/-- A position at which something was emitted is not one at which something of the same kind is emitted later. -/
theorem not_adds_of_adds {first second third fourth : Emission} {position : Nat} (kept : Extends second third)
    (alignedSecond : second.Aligned) (alignedFourth : fourth.Aligned)
    (kind : second.data = first.data ∧ fourth.data = third.data ∨
      second.statements = first.statements ∧ fourth.statements = third.statements)
    (adds : Adds first second position) : ¬ Adds third fourth position := by
  have byte : ∀ address : Address, address.toNat % 1 = 0 := fun address => Nat.mod_one _
  unfold Adds at adds ⊢
  rcases kind with ⟨early, late⟩ | ⟨early, late⟩
  · rw [early] at adds
    rw [late]
    simp only [not_fills_self, or_false] at adds ⊢
    exact not_fills_of_fills kept.statements alignedSecond alignedFourth adds
  · rw [early] at adds
    rw [late]
    simp only [not_fills_self, false_or] at adds ⊢
    exact not_fills_of_fills kept.data (fun address _ => byte address) (fun address _ => byte address) adds

section Emit

variable {settings : Settings} {symbols : SymbolTable} {sources : List (Array String)} {emission : Emission}
  {placed : Placed}

/-- An instruction changes nothing but the instructions that have been emitted. -/
theorem data_emit (instruction : placed.statement.IsInstruction) :
    (emit settings symbols sources emission placed).data = emission.data := by
  obtain ⟨written, content⟩ := instruction
  simp only [emit, content]
  split
  · rfl
  · exact data_emitInstructions ..

/-- Anything else leaves the instructions that have been emitted as they are. -/
theorem statements_emit (other : ¬ placed.statement.IsInstruction) :
    (emit settings symbols sources emission placed).statements = emission.statements := by
  unfold emit
  dsimp only
  split
  case h_1 => rfl
  case h_2 written content => exact absurd ⟨written, content⟩ other
  case h_3 =>
    split
    · rfl
    next content warnings _ =>
      obtain ⟨findings, _, same⟩ := warn_eq emission placed warnings
      rw [statements_emitBytes, same]

theorem extends_emit (settings : Settings) (symbols : SymbolTable) (sources : List (Array String)) (emission : Emission)
    (placed : Placed) : Extends emission (emit settings symbols sources emission placed) := by
  unfold emit
  dsimp only
  split
  case h_1 => exact extends_refl _
  case h_2 =>
    split
    · exact extends_reject ..
    · refine ⟨fun address here => mem_emitInstructions placed here _ _ _, fun address here => ?_⟩
      rw [data_emitInstructions]
      exact here
  case h_3 =>
    split
    · exact extends_reject ..
    next content warnings _ =>
      obtain ⟨findings, _, same⟩ := warn_eq emission placed warnings
      rw [same]
      refine ⟨fun address here => ?_, fun address here => ?_⟩
      · rw [statements_emitBytes]
        exact here
      · exact mem_emitBytes (show address ∈ (⟨_, _, findings⟩ : Emission).data from here) placed content

theorem aligned_emit (aligned : emission.Aligned)
    (multiple : placed.statement.IsInstruction → placed.address.toNat % 4 = 0) :
    (emit settings symbols sources emission placed).Aligned := by
  by_cases instruction : placed.statement.IsInstruction
  · have start := multiple instruction
    obtain ⟨written, content⟩ := instruction
    simp only [emit, content]
    split
    · exact aligned
    · exact aligned_emitInstructions placed aligned start _ _
  · unfold Aligned
    rw [statements_emit instruction]
    exact aligned

end Emit

end Emission

namespace Assembly

theorem extends_emissionOf (settings : Settings) (sources : List Source) (symbols : SymbolTable)
    (earlier later : List Reservation) :
    (emissionOf settings sources symbols earlier).Extends
      (emissionOf settings sources symbols (earlier ++ later)) := by
  induction later generalizing earlier with
  | nil =>
    rw [List.append_nil]
    exact Emission.extends_refl _
  | cons reservation rest ih =>
    have step : (emissionOf settings sources symbols earlier).Extends
        (emissionOf settings sources symbols (earlier ++ [reservation])) := by
      rw [emissionOf_concat]
      exact Emission.extends_emit ..
    have rest := ih (earlier ++ [reservation])
    rw [List.append_assoc] at rest
    exact step.trans rest

theorem aligned_emissionOf (settings : Settings) (sources : List Source) (symbols : SymbolTable)
    {reservations : List Reservation}
    (multiple : ∀ reservation ∈ reservations, reservation.placed.statement.IsInstruction →
      reservation.placed.address.toNat % 4 = 0) :
    (emissionOf settings sources symbols reservations).Aligned := by
  have begun : Emission.initial.Aligned := by
    intro address here
    simp [Emission.initial] at here
  unfold emissionOf
  generalize Emission.initial = emission at begun
  induction reservations generalizing emission with
  | nil => exact begun
  | cons reservation rest ih =>
    rw [List.forall_mem_cons] at multiple
    exact ih multiple.2 _ (Emission.aligned_emit begun multiple.1)

end Assembly

open Assembly

/-- One of two data directives only reserves bytes, so that no overlap between them is noticed. -/
def Reservation.Unnoticed (first second : Reservation) : Prop :=
  ¬ first.placed.statement.IsInstruction ∧ ¬ second.placed.statement.IsInstruction ∧
    (first.placed.statement.IsSpace ∨ second.placed.statement.IsSpace)

theorem toNat_mod_of_sound {settings : Settings} {reservation : Reservation} (sound : reservation.Sound settings)
    (multiple : reservation.start % 4 = 0) : reservation.placed.address.toNat % 4 = 0 := by
  rw [sound.address, UInt32.toNat_ofNat']
  omega

/-- An instruction is no directive that reserves bytes. -/
theorem not_isSpace_of_isInstruction {statement : Statement} (instruction : statement.IsInstruction) :
    ¬ statement.IsSpace := by
  obtain ⟨written, content⟩ := instruction
  rintro ⟨size, space⟩
  cases content.symm.trans space

section Overlaps

variable {settings : Settings} {sources : List Source} {program : Program}

/-- Instructions are placed at multiples of four. -/
theorem toNat_mod_of_isInstruction (separated : settings.layout.Separated) {reservation : Reservation}
    (member : reservation ∈ Placement.reservations settings (statements sources))
    (instruction : reservation.placed.statement.IsInstruction) : reservation.placed.address.toNat % 4 = 0 := by
  obtain ⟨area, lies⟩ := (Placement.stored_reservations separated _).1 reservation member
  have sound := (accounts_statements settings sources).sound reservation member
  exact toNat_mod_of_sound sound (lies.aligned (lies.kind.1 instruction))

/-- What is emitted for a statement is emitted apart from what is emitted for a later one of the same kind. -/
theorem apart_of_emits (separated : settings.layout.Separated) (assembled : assemble settings sources = .ok program)
    {earlier middle later : List Reservation} {first second : Reservation}
    (reserved : Placement.reservations settings (statements sources) =
      earlier ++ first :: (middle ++ second :: later))
    (kind : first.placed.statement.IsInstruction ↔ second.placed.statement.IsInstruction)
    (fillsFirst : ¬ first.placed.statement.IsSpace) (fillsSecond : ¬ second.placed.statement.IsSpace) :
    first.range.Apart second.range := by
  have again : Placement.reservations settings (statements sources) =
      (earlier ++ first :: middle) ++ second :: later := by
    rw [reserved, List.append_assoc]
    rfl
  obtain ⟨_, _, emitsFirst⟩ := emits_of_assemble assembled reserved
  obtain ⟨_, _, emitsSecond⟩ := emits_of_assemble assembled again
  have kept := extends_emissionOf settings sources program.symbols (earlier ++ [first]) middle
  rw [List.append_assoc] at kept
  have aligned : ∀ taken, (∀ reservation ∈ taken, reservation ∈ Placement.reservations settings (statements sources)) →
      (emissionOf settings sources program.symbols taken).Aligned := by
    intro taken inside
    apply aligned_emissionOf settings sources program.symbols
    exact fun reservation member => toNat_mod_of_isInstruction separated (inside reservation member)
  have alignedFirst := aligned (earlier ++ [first]) (by rw [reserved]; simp; grind)
  have alignedSecond := aligned ((earlier ++ first :: middle) ++ [second]) (by rw [again]; simp; grind)
  intro position inFirst inSecond
  refine Emission.not_adds_of_adds kept alignedFirst alignedSecond ?_ (((emitsFirst fillsFirst).adds position).2 inFirst)
    (((emitsSecond fillsSecond).adds position).2 inSecond)
  rw [emissionOf_concat, emissionOf_concat]
  by_cases instruction : first.placed.statement.IsInstruction
  · exact .inl ⟨Emission.data_emit instruction, Emission.data_emit (kind.1 instruction)⟩
  · exact .inr ⟨Emission.statements_emit instruction, Emission.statements_emit (mt kind.2 instruction)⟩

/-- Two statements of an assembled program lie apart, unless an overlap between them is not noticed. -/
theorem apart_or_unnoticed (separated : settings.layout.Separated) (assembled : assemble settings sources = .ok program)
    {earlier middle later : List Reservation} {first second : Reservation}
    (reserved : Placement.reservations settings (statements sources) =
      earlier ++ first :: (middle ++ second :: later)) :
    first.range.Apart second.range ∨ first.Unnoticed second := by
  have lies := (Placement.stored_reservations separated (statements sources)).1
  obtain ⟨area, liesFirst⟩ := lies first (by simp [reserved])
  obtain ⟨other, liesSecond⟩ := lies second (by simp [reserved])
  by_cases same : area = other
  · subst same
    have kind := liesFirst.kind.trans liesSecond.kind.symm
    by_cases reserves : first.placed.statement.IsSpace ∨ second.placed.statement.IsSpace
    · have data : ¬ first.placed.statement.IsInstruction := by
        intro instruction
        rcases reserves with space | space
        · exact not_isSpace_of_isInstruction instruction space
        · exact not_isSpace_of_isInstruction (kind.1 instruction) space
      exact .inr ⟨data, mt kind.2 data, reserves⟩
    · rw [not_or] at reserves
      exact .inl (apart_of_emits separated assembled reserved kind reserves.1 reserves.2)
  · exact .inl ((Area.apart_regions separated same).mono liesFirst.inside liesSecond.inside)

end Overlaps

theorem pairwise_of_splits {α : Type} {related : α → α → Prop} {items : List α}
    (splits : ∀ earlier first middle second later, items = earlier ++ first :: (middle ++ second :: later) →
      related first second) : items.Pairwise related := by
  induction items with
  | nil => exact .nil
  | cons item rest ih =>
    refine List.pairwise_cons.2 ⟨?_, ih ?_⟩
    · intro second member
      obtain ⟨middle, later, rfl⟩ := List.append_of_mem member
      exact splits [] item middle second later rfl
    · intro earlier first middle second later same
      exact splits (item :: earlier) first middle second later (by rw [same]; rfl)

/--
Of the storage of an assembled program no address is given out twice, except where only one of two uses shows in what is
emitted. Statements lie apart from each other, unless they are data directives and one of them only reserves bytes. What
is reserved by name lies apart from all else that is, and from each statement but a data directive that was moved to
where names lie.
-/
theorem storage_of_assemble (settings : Settings) (sources : List Source) (program : Program)
    (valid : settings.layout.Valid) (assembled : assemble settings sources = .ok program) :
    let reservations := Placement.reservations settings (statements sources)
    let named := Placement.namedReservations settings (statements sources)
    (reservations.Pairwise fun first second => first.range.Apart second.range ∨ first.Unnoticed second) ∧
      named.Pairwise Range.Apart ∧
      ∀ reservation ∈ reservations, ∀ range ∈ named, reservation.range.Apart range ∨
        ¬ reservation.placed.statement.IsInstruction ∧ settings.layout.externBase.toNat ≤ reservation.start ∧
          reservation.start < settings.layout.dataBase.toNat := by
  intro reservations named
  have separated := Layout.separated_of_valid valid
  obtain ⟨lies, inside, apart⟩ := Placement.stored_reservations separated (statements sources)
  refine ⟨?_, apart, ?_⟩
  · exact pairwise_of_splits fun _ _ _ _ _ reserved => apart_or_unnoticed separated assembled reserved
  · intro reservation member range present
    obtain ⟨area, lies⟩ := lies reservation member
    have below := inside range present
    by_cases data : area = .data
    · subst data
      by_cases moved : reservation.start < settings.layout.dataBase.toNat
      · exact .inr ⟨mt lies.kind.1 (by decide), lies.inside.1, moved⟩
      · exact .inl (Range.apart_of_le (Nat.le_trans below.2 (Nat.not_lt.1 moved))).symm
    · have within : range.Within (Area.region settings.layout .data) :=
        ⟨below.1, Nat.le_trans below.2 (Nat.le_of_lt separated.data)⟩
      exact .inl ((Area.apart_regions separated data).mono lies.inside within)

/-- Two words that follow one another, the second in another file, lie apart. -/
theorem storage_of_words :
    let sources : List Source := [⟨"first.s", ".data\n.word 1"⟩, ⟨"second.s", ".data\n.word 2"⟩]
    ∃ program, assemble {} sources = .ok program ∧ Layout.standard.Valid ∧
      (Placement.reservations {} (statements sources)).Pairwise fun first second => first.range.Apart second.range := by
  intro sources
  have computed : (assemble {} sources).toOption.isSome = true := by decide +kernel
  obtain ⟨program, assembled⟩ := Option.isSome_iff_exists.1 computed
  have successful := eq_ok_of_toOption assembled
  have contents : (Placement.reservations {} (statements sources)).map (fun reservation =>
      reservation.placed.statement.content) =
      [some (.directive (.word [⟨.integer 1, 1⟩])), some (.directive (.word [⟨.integer 2, 1⟩]))] := by
    decide +kernel
  have noticed : ∀ reservation ∈ Placement.reservations {} (statements sources),
      ¬ reservation.placed.statement.IsSpace := by
    rintro reservation member ⟨size, space⟩
    have listed := List.mem_map_of_mem (f := fun reservation : Reservation => reservation.placed.statement.content) member
    rw [contents, space] at listed
    simp at listed
  obtain ⟨apart, _⟩ := storage_of_assemble {} sources program Layout.valid_standard successful
  refine ⟨program, successful, Layout.valid_standard, ?_⟩
  refine apart.imp_of_mem ?_
  intro first second inFirst inSecond either
  rcases either with apart | ⟨_, _, space | space⟩
  · exact apart
  · exact absurd space (noticed first inFirst)
  · exact absurd space (noticed second inSecond)

/-- A word is placed over bytes that are reserved, in one program by a directive and in another one by name. -/
theorem storage_assigned_twice :
    let spaced : List Source := [⟨"space.s", ".data\n.space 4\n.data 0x10010000\n.word 5"⟩]
    let named : List Source := [⟨"extern.s", ".extern buffer 4\n.data 0x10000000\n.word 5"⟩]
    (∃ program, assemble {} spaced = .ok program ∧
      ¬ (Placement.reservations {} (statements spaced)).Pairwise fun first second => first.range.Apart second.range) ∧
    ∃ program, assemble {} named = .ok program ∧
      ¬ ∀ reservation ∈ Placement.reservations {} (statements named),
        ∀ range ∈ Placement.namedReservations {} (statements named), reservation.range.Apart range := by
  intro spaced named
  refine ⟨?_, ?_⟩
  · have computed : (assemble {} spaced).toOption.isSome = true := by decide +kernel
    obtain ⟨program, assembled⟩ := Option.isSome_iff_exists.1 computed
    refine ⟨program, eq_ok_of_toOption assembled, ?_⟩
    intro apart
    have ranges : (Placement.reservations {} (statements spaced)).map Reservation.range =
        [⟨0x10010000, 0x10010004⟩, ⟨0x10010000, 0x10010004⟩] := by
      decide +kernel
    have related := List.pairwise_map.2 apart
    rw [ranges] at related
    have twice := List.rel_of_pairwise_cons related List.mem_cons_self
    exact twice 0x10010000 (by decide) (by decide)
  · have computed : (assemble {} named).toOption.isSome = true := by decide +kernel
    obtain ⟨program, assembled⟩ := Option.isSome_iff_exists.1 computed
    refine ⟨program, eq_ok_of_toOption assembled, ?_⟩
    intro apart
    have words : (Placement.reservations {} (statements named)).map Reservation.range = [⟨0x10000000, 0x10000004⟩] := by
      decide +kernel
    have names : Placement.namedReservations {} (statements named) = [⟨0x10000000, 0x10000004⟩] := by
      decide +kernel
    obtain ⟨reservation, member, range⟩ := List.mem_map.1 (words ▸ List.mem_cons_self)
    have separate := apart reservation member _ (names ▸ List.mem_cons_self)
    rw [range] at separate
    exact separate 0x10000000 (by decide) (by decide)

end Mips
