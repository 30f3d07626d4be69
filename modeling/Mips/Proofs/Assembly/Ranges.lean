import Mips.Assembly
import Mips.Proofs.Assembly.Emission
import Mips.Proofs.Assembly.Reservation
import Mips.Proofs.Expansion.Severity
import Mips.Proofs.Expansion.Sizing

/-!
What is emitted for a statement fills the range of addresses that was reserved for it, unless assembly fails. Main
statement: `emits_emit`.
-/

namespace Mips

open Std (ExtTreeMap)

section Grows

variable {α : Type}

/-- The map has kept its entries, and it has new ones under just these addresses. -/
structure Grows (before after : ExtTreeMap Address α) (added : List Address) : Prop where
  kept : ∀ address ∈ before, after[address]? = before[address]?
  grown : ∀ address, address ∈ after ∧ address ∉ before ↔ address ∈ added

theorem grows_refl (entries : ExtTreeMap Address α) : Grows entries entries [] := by
  constructor
  · intro address _
    rfl
  · intro address
    simp

theorem Grows.mem {before after : ExtTreeMap Address α} {added : List Address} (grows : Grows before after added)
    {address : Address} (member : address ∈ before) : address ∈ after := by
  rw [ExtTreeMap.mem_iff_isSome_getElem?] at member ⊢
  rw [grows.kept address (ExtTreeMap.mem_iff_isSome_getElem?.2 member)]
  exact member

theorem Grows.trans {first second third : ExtTreeMap Address α} {early late : List Address}
    (before : Grows first second early) (after : Grows second third late) : Grows first third (early ++ late) := by
  constructor
  · intro address member
    rw [after.kept address (before.mem member), before.kept address member]
  · intro address
    rw [List.mem_append, ← before.grown, ← after.grown]
    constructor
    · rintro ⟨added, absent⟩
      by_cases here : address ∈ second
      · exact .inl ⟨here, absent⟩
      · exact .inr ⟨added, here⟩
    · rintro (⟨here, absent⟩ | ⟨added, absent⟩)
      · exact ⟨after.mem here, absent⟩
      · exact ⟨added, fun here => absent (before.mem here)⟩

theorem mem_fill {cells : List (Address × α)} {entries : ExtTreeMap Address α} {address : Address} :
    address ∈ cells.foldl (fun entries cell => entries.insert cell.1 cell.2) entries ↔
      address ∈ entries ∨ address ∈ cells.map Prod.fst := by
  induction cells generalizing entries with
  | nil => simp
  | cons cell rest ih =>
    rw [List.foldl_cons, ih, ExtTreeMap.mem_insert, Std.LawfulEqCmp.compare_eq_iff_eq, List.map_cons, List.mem_cons,
      or_assoc, or_left_comm, eq_comm]

theorem getElem?_fill {cells : List (Address × α)} {entries : ExtTreeMap Address α} {address : Address}
    (absent : address ∉ cells.map Prod.fst) :
    (cells.foldl (fun entries cell => entries.insert cell.1 cell.2) entries)[address]? = entries[address]? := by
  induction cells generalizing entries with
  | nil => rfl
  | cons cell rest ih =>
    rw [List.map_cons, List.mem_cons, not_or] at absent
    rw [List.foldl_cons, ih absent.2, ExtTreeMap.getElem?_insert]
    exact if_neg fun same => absent.1 (Std.LawfulEqCmp.eq_of_compare same).symm

/-- Filling new cells. -/
theorem grows_fill {cells : List (Address × α)} {entries : ExtTreeMap Address α}
    (absent : ∀ address ∈ cells.map Prod.fst, address ∉ entries) :
    Grows entries (cells.foldl (fun entries cell => entries.insert cell.1 cell.2) entries) (cells.map Prod.fst) := by
  constructor
  · intro address member
    exact getElem?_fill fun added => absent address added member
  · intro address
    rw [mem_fill]
    constructor
    · rintro ⟨here | added, new⟩
      · exact absurd here new
      · exact added
    · intro added
      exact ⟨.inr added, absent address added⟩

theorem grows_insert {entries : ExtTreeMap Address α} {address : Address} (value : α) (absent : address ∉ entries) :
    Grows entries (entries.insert address value) [address] := by
  have fresh : ∀ added ∈ [(address, value)].map Prod.fst, added ∉ entries := by
    intro added member
    rw [List.mem_singleton.1 member]
    exact absent
  exact grows_fill fresh

/-- The position lies in a new cell of this width. -/
def Fills (width : Nat) (before after : ExtTreeMap Address α) (position : Nat) : Prop :=
  ∃ address, (address ∈ after ∧ address ∉ before) ∧ address.toNat ≤ position ∧ position < address.toNat + width

theorem not_fills_self {width : Nat} {entries : ExtTreeMap Address α} {position : Nat} :
    ¬ Fills width entries entries position := by
  rintro ⟨address, ⟨here, absent⟩, _⟩
  exact absent here

/-- So many addresses, from a number on and at this distance from each other. -/
def addresses (start width : Nat) : Nat → List Address
  | 0 => []
  | count + 1 => UInt32.ofNat start :: addresses (start + width) width count

/-- Adjacent cells fill a range. -/
theorem exists_mem_addresses {start width count position : Nat} (bounded : start + width * count ≤ 0x100000000) :
    (∃ address ∈ addresses start width count, address.toNat ≤ position ∧ position < address.toNat + width) ↔
      start ≤ position ∧ position < start + width * count := by
  induction count generalizing start with
  | zero =>
    simp only [addresses, List.not_mem_nil, false_and, exists_false, false_iff]
    omega
  | succ count ih =>
    -- No address wraps around, so the first cell ends where the others begin.
    rw [Nat.mul_succ] at bounded ⊢
    simp only [addresses, List.mem_cons, or_and_right, exists_or, exists_eq_left, UInt32.toNat_ofNat']
    rw [ih (by omega)]
    by_cases empty : width = 0
    · subst empty
      omega
    · rw [Nat.mod_eq_of_lt (by omega)]
      omega

theorem Grows.fills_iff {before after : ExtTreeMap Address α} {start width count position : Nat}
    (grows : Grows before after (addresses start width count)) (bounded : start + width * count ≤ 0x100000000) :
    Fills width before after position ↔ start ≤ position ∧ position < start + width * count := by
  rw [← exists_mem_addresses bounded]
  unfold Fills
  simp only [grows.grown]

end Grows

/-- The bytes of a list, one after another. -/
theorem fst_addressed (start : Nat) (content : List UInt8) :
    (addressed (UInt32.ofNat start) content).map Prod.fst = addresses start 1 content.length := by
  induction content generalizing start with
  | nil => rfl
  | cons byte rest ih =>
    have next : UInt32.ofNat start + 1 = UInt32.ofNat (start + 1) := (UInt32.ofNat_add _ _).symm
    rw [addressed, List.map_cons, next, ih]
    rfl

namespace Emission

/-- Instructions that are emitted without an error fill adjacent words. -/
theorem grows_emitInstructions {placed : Placed} {emission : Emission} {start : Nat} {source : Option String}
    {instructions : List Instruction}
    (successful : (emitInstructions placed emission (UInt32.ofNat start) source instructions).Successful) :
    Grows emission.statements (emitInstructions placed emission (UInt32.ofNat start) source instructions).statements
        (addresses start 4 instructions.length) ∧
      (emitInstructions placed emission (UInt32.ofNat start) source instructions).data = emission.data := by
  induction instructions generalizing emission start source with
  | nil => exact ⟨grows_refl _, rfl⟩
  | cons instruction rest ih =>
    have next : UInt32.ofNat start + 4 = UInt32.ofNat (start + 4) := (UInt32.ofNat_add _ _).symm
    unfold emitInstructions at successful ⊢
    dsimp only at successful ⊢
    rw [next] at successful ⊢
    split at successful
    next taken =>
      have rejected := successful.of_suffix (findings_emitInstructions ..)
      exact absurd rejected (not_successful_reject rfl)
    next free =>
      rw [if_neg free]
      obtain ⟨grows, same⟩ := ih successful
      have absent : UInt32.ofNat start ∉ emission.statements := fun taken => free (ExtTreeMap.mem_iff_contains.1 taken)
      exact ⟨(grows_insert _ absent).trans grows, same⟩

/-- Bytes that are emitted without an error fill adjacent bytes of memory. -/
theorem grows_emitBytes {placed : Placed} {emission : Emission} {start : Nat} {content : List UInt8}
    (address : placed.address = UInt32.ofNat start) (successful : (emission.emitBytes placed content).Successful) :
    Grows emission.data (emission.emitBytes placed content).data (addresses start 1 content.length) := by
  unfold emitBytes at successful ⊢
  dsimp only at successful ⊢
  rw [address] at successful ⊢
  split at successful
  next taken => exact absurd successful (not_successful_reject rfl)
  next free =>
    rw [← fst_addressed]
    apply grows_fill
    intro added member
    obtain ⟨cell, here, rfl⟩ := List.mem_map.1 member
    have absent := List.find?_eq_none.1 free cell here
    exact fun taken => absent (ExtTreeMap.mem_iff_contains.1 taken)

theorem severe_resolve (symbols : SymbolTable) (file : Nat) (label : Label) : Severe (resolve symbols file label) := by
  unfold resolve
  split <;> trivial

theorem severe_bytes {resolve : Label → Except Problem Address} (resolves : ∀ label, Severe (resolve label))
    (directive : Directive) : Severe (directive.bytes resolve) := by
  cases directive with
  | word items =>
    have words : ∀ item : DataItem, Severe (do
        let word ← item.value.word resolve
        pure (List.replicate item.count word.bytes).flatten) := by
      intro item
      apply Severe.bind
      · cases value : item.value with
        | integer number => trivial
        | label target addend => simpa [DataValue.word] using resolves target
      · exact fun _ => trivial
    exact Severe.bind (fails_mapM words items) fun _ => trivial
  | _ => trivial

/-- The byte of memory at a position is emitted, as one of the four of an instruction or as one of a directive. -/
def Adds (before after : Emission) (position : Nat) : Prop :=
  Fills 4 before.statements after.statements position ∨ Fills 1 before.data after.data position

/-- Exactly the bytes of a range are emitted, and nothing that was emitted before is lost. -/
structure Emits (before after : Emission) (start stop : Nat) : Prop where
  statements : ∀ address ∈ before.statements, after.statements[address]? = before.statements[address]?
  data : ∀ address ∈ before.data, after.data[address]? = before.data[address]?
  adds : ∀ position, Adds before after position ↔ start ≤ position ∧ position < stop

theorem emits_of_statements {before after : Emission} {start count : Nat} (same : after.data = before.data)
    (grows : Grows before.statements after.statements (addresses start 4 count))
    (bounded : start + 4 * count ≤ 0x100000000) : Emits before after start (start + 4 * count) := by
  refine ⟨grows.kept, fun _ _ => by rw [same], ?_⟩
  intro position
  rw [Adds, grows.fills_iff bounded, same]
  simp [not_fills_self]

theorem emits_of_data {before after : Emission} {start count : Nat} (same : after.statements = before.statements)
    (grows : Grows before.data after.data (addresses start 1 count))
    (bounded : start + count ≤ 0x100000000) : Emits before after start (start + count) := by
  refine ⟨fun _ _ => by rw [same], grows.kept, ?_⟩
  intro position
  rw [Adds, grows.fills_iff (by omega), same, Nat.one_mul]
  simp [not_fills_self]

end Emission

/-- The statement only reserves bytes. -/
def Statement.IsSpace (statement : Statement) : Prop :=
  ∃ size, statement.content = some (.directive (.space size))

namespace Emission

variable {settings : Settings} {symbols : SymbolTable} {sources : List (Array String)} {emission : Emission}
  {reservation : Reservation}

/-- An instruction that is emitted without an error fills what was reserved for it. -/
theorem emits_instruction (sound : reservation.Sound settings) {written : WrittenInstruction}
    (content : reservation.placed.statement.content = some (.instruction written))
    (successful : (emit settings symbols sources emission reservation.placed).Successful) :
    Emits emission (emit settings symbols sources emission reservation.placed) reservation.start reservation.stop := by
  have takes := sound.takes
  have ordered := sound.ordered
  have bounded := sound.bounded
  rw [Statement.Takes, content] at takes
  obtain ⟨planned, size, sized⟩ := takes
  let context : ExpansionContext := ⟨reservation.placed.address, settings.extendedAssembler,
    settings.delayedBranching, some (resolve symbols reservation.placed.file)⟩
  have resolves : context.Resolves := by
    rintro _ ⟨⟩ label
    exact severe_resolve symbols reservation.placed.file label
  -- A failure that were only a warning would go unnoticed and leave the range empty.
  have severe := severe_expand resolves written
  have foreseen := foresees_expand written context
  simp only [emit, content] at successful ⊢
  split at successful
  next problem failed =>
    rw [failed] at severe
    exact absurd successful (not_successful_reject severe)
  next instructions expanded =>
    obtain ⟨plan, same, length⟩ := foreseen instructions expanded
    have equal : planned.length = instructions.length := by
      rw [← length, ← Except.ok.inj (sized.symm.trans same)]
    have stop : reservation.stop = reservation.start + 4 * instructions.length := by omega
    rw [sound.address] at successful ⊢
    obtain ⟨grows, kept⟩ := grows_emitInstructions successful
    rw [stop]
    exact emits_of_statements kept grows (by omega)

/-- A directive that is emitted without an error fills what was reserved for it, unless it only reserves bytes. -/
theorem emits_directive (sound : reservation.Sound settings) {directive : Directive}
    (content : reservation.placed.statement.content = some (.directive directive))
    (filling : ∀ size, directive ≠ .space size)
    (successful : (emit settings symbols sources emission reservation.placed).Successful) :
    Emits emission (emit settings symbols sources emission reservation.placed) reservation.start reservation.stop := by
  have size := sound.takes
  have ordered := sound.ordered
  have bounded := sound.bounded
  rw [Statement.Takes, content] at size
  have severe := severe_bytes (severe_resolve symbols reservation.placed.file) directive
  simp only [emit, content] at successful ⊢
  split at successful
  next problem failed =>
    rw [failed] at severe
    exact absurd successful (not_successful_reject severe)
  next bytes warnings emitted =>
    have length := Directive.length_bytes (sound.readable directive content) filling emitted
    have stop : reservation.stop = reservation.start + bytes.length := by omega
    obtain ⟨findings, _, same⟩ := warn_eq emission reservation.placed warnings
    rw [same] at successful ⊢
    rw [stop]
    exact emits_of_data (statements_emitBytes _ _ _) (grows_emitBytes sound.address successful) (by omega)

/-- Reserving bytes emits nothing. -/
theorem emit_space (space : reservation.placed.statement.IsSpace) :
    emit settings symbols sources emission reservation.placed = emission := by
  obtain ⟨size, content⟩ := space
  simp only [emit, content, Directive.bytes]
  rfl

theorem emits_emit (sound : reservation.Sound settings) (filling : ¬ reservation.placed.statement.IsSpace)
    (successful : (emit settings symbols sources emission reservation.placed).Successful) :
    Emits emission (emit settings symbols sources emission reservation.placed) reservation.start reservation.stop := by
  cases content : reservation.placed.statement.content with
  | none =>
    have takes := sound.takes
    rw [Statement.Takes, content] at takes
    exact takes.elim
  | some written =>
    cases written with
    | instruction written => exact emits_instruction sound content successful
    | directive directive =>
      apply emits_directive sound content ?_ successful
      rintro size rfl
      exact filling ⟨size, content⟩

end Emission

end Mips
