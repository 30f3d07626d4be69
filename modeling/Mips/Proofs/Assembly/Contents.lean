import Mathlib.Data.List.Induction
import Mips.Proofs.Assembly.Statements
import Mips.Proofs.Assembly.Storage
import Mips.Proofs.Directive.Image
import Mips.Proofs.Loading.Image

/-!
What an assembled program consists of. Its instructions lie in text segments and its data in other ones, and from the
address of a data directive on lie the bytes that the directive says. Main statements: `located_of_assemble` and
`data_of_assemble`.
-/

namespace Mips

open Std (ExtTreeMap)

/-- The address that a name stands for in a file. -/
def SymbolTable.address? (table : SymbolTable) (file : Nat) (name : String) : Option Address :=
  (table.lookup? file name).map Symbol.address

/-- The region of an area lies in its segment. -/
theorem Area.segmentOf_of_holds {layout : Layout} (ordered : layout.Ordered) {area : Area} {address : Address}
    (inside : (area.region layout).Holds address.toNat) : layout.segmentOf address = some area.segment := by
  obtain ⟨text, room, data, heap, limit, pointer, stack, user, handler, kernel, -⟩ := ordered
  unfold region Range.Holds at inside
  unfold Layout.segmentOf
  simp only [UInt32.lt_iff_toNat_lt, UInt32.le_iff_toNat_le]
  cases area <;> simp only [low, stop] at inside <;> grind [segment]

/-- Bytes that were put at consecutive addresses are found there, and all else is found as before. -/
theorem getElem?_fill_addressed (start other : Address) {bytes : List UInt8} (entries : ExtTreeMap Address UInt8)
    (fits : bytes.length ≤ 0x100000000) :
    ((addressed start bytes).foldl (fun entries cell => entries.insert cell.1 cell.2) entries)[other]? =
      (bytes[(other - start).toNat]?).or entries[other]? := by
  induction bytes generalizing start entries with
  | nil => rfl
  | cons byte rest ih =>
    rw [List.length_cons] at fits
    rw [addressed, List.foldl_cons, ih _ _ (by omega), ExtTreeMap.getElem?_insert]
    by_cases here : start = other
    · subst here
      rw [Word.toNat_sub_add_one, List.getElem?_eq_none (by omega), UInt32.sub_self,
        if_pos Std.ReflCmp.compare_self]
      rfl
    · rw [if_neg fun same => here (Std.LawfulEqCmp.eq_of_compare same), Word.toNat_sub_succ here,
        List.getElem?_cons_succ]

namespace Emission

/-- What was emitted before is there afterwards. -/
structure Preserves (before after : Emission) : Prop where
  statements : ∀ (address : Address) (statement : ProgramStatement),
    before.statements[address]? = some statement → after.statements[address]? = some statement
  data : ∀ (address : Address) (byte : UInt8), before.data[address]? = some byte → after.data[address]? = some byte

theorem Preserves.trans {first second third : Emission} (before : Preserves first second)
    (after : Preserves second third) : Preserves first third :=
  ⟨fun address statement found => after.statements address statement (before.statements address statement found),
    fun address byte found => after.data address byte (before.data address byte found)⟩

theorem Emits.preserves {before after : Emission} {start stop : Nat} (emits : before.Emits after start stop) :
    Preserves before after := by
  constructor
  · intro address statement found
    rw [emits.statements address (ExtTreeMap.mem_iff_isSome_getElem?.2 (by rw [found]; rfl)), found]
  · intro address byte found
    rw [emits.data address (ExtTreeMap.mem_iff_isSome_getElem?.2 (by rw [found]; rfl)), found]

/-- Instructions lie in text segments, and data in other ones. -/
structure Located (layout : Layout) (emission : Emission) : Prop where
  code : ∀ address ∈ emission.statements, layout.IsText address
  data : ∀ address ∈ emission.data, ∃ segment, layout.segmentOf address = some segment ∧ segment.isText = false

theorem data_emitBytes {emission : Emission} {placed : Placed} {content : List UInt8}
    (successful : (emission.emitBytes placed content).Successful) :
    (emission.emitBytes placed content).data =
      (addressed placed.address content).foldl (fun data cell => data.insert cell.1 cell.2) emission.data := by
  unfold emitBytes at successful ⊢
  dsimp only at successful ⊢
  split at successful
  next taken => exact absurd successful (not_successful_reject rfl)
  next free => rfl

/-- A data directive that is emitted without an error leaves its bytes from its address on. -/
theorem image_emit {settings : Settings} {symbols : SymbolTable} {sources : List (Array String)} {emission : Emission}
    {reservation : Reservation} (sound : reservation.Sound settings) {directive : Directive}
    (content : reservation.placed.statement.content = some (.directive directive)) (data : directive.isData = true)
    (successful : (emit settings symbols sources emission reservation.placed).Successful) :
    ∃ bytes, directive.image? (symbols.address? reservation.placed.file) = some bytes ∧
      ∀ index byte, bytes[index]? = some byte →
        (emit settings symbols sources emission reservation.placed).data[reservation.placed.address +
          UInt32.ofNat index]? = some byte := by
  have readable := sound.readable directive content
  have severe := severe_bytes (severe_resolve symbols reservation.placed.file) directive
  have size := sound.takes
  have bounded := sound.bounded
  rw [Statement.Takes, content] at size
  have resolves : ∀ label address, resolve symbols reservation.placed.file label = .ok address →
      symbols.address? reservation.placed.file label.name = some address := by
    intro label address resolved
    unfold resolve at resolved
    split at resolved
    next symbol found =>
      cases resolved
      rw [SymbolTable.address?, found]
      rfl
    next => cases resolved
  simp only [emit, content] at successful ⊢
  split at successful
  next problem failed =>
    rw [failed] at severe
    exact absurd successful (not_successful_reject severe)
  next bytes warnings emitted =>
    refine ⟨bytes, directive.image?_of_bytes resolves readable data emitted, ?_⟩
    obtain ⟨findings, -, same⟩ := warn_eq emission reservation.placed warnings
    rw [same] at successful ⊢
    intro index byte found
    obtain ⟨inside, -⟩ := List.getElem?_eq_some_iff.1 found
    have fits : bytes.length ≤ 0x100000000 := by
      have most := directive.length_bytes_le readable emitted
      omega
    have position : (reservation.placed.address + UInt32.ofNat index - reservation.placed.address).toNat = index := by
      rw [UInt32.add_comm, UInt32.add_sub_cancel, UInt32.toNat_ofNat']
      omega
    rw [data_emitBytes successful, getElem?_fill_addressed _ _ _ fits, position, found]
    rfl

end Emission

open Assembly

section Assembled

variable {settings : Settings} {sources : List Source} {program : Program}
  (assembled : assemble settings sources = .ok program)

include assembled

/-- Each statement is emitted in the segment in which it was placed, as what it is. -/
theorem located_emissionOf (valid : settings.layout.Valid) {earlier later : List Reservation}
    (reserved : Placement.reservations settings (statements sources) = earlier ++ later) :
    (emissionOf settings sources program.symbols earlier).Located settings.layout := by
  have ordered := Layout.ordered_of_valid valid
  have lies := (Placement.stored_reservations (Layout.separated_of_valid valid) (statements sources)).1
  induction earlier using List.reverseRecOn generalizing later with
  | nil => constructor <;> simp [emissionOf, Emission.initial]
  | append_singleton earlier reservation ih =>
    have split : Placement.reservations settings (statements sources) = earlier ++ reservation :: later := by
      rw [reserved, List.append_assoc]
      rfl
    have before := ih split
    obtain ⟨-, space, fills⟩ := emits_of_assemble assembled split
    by_cases spaces : reservation.placed.statement.IsSpace
    · rwa [space spaces]
    obtain ⟨area, lies⟩ := lies reservation (by simp [split])
    have emits := fills spaces
    have inside {address : Address} (position : Emission.Adds (emissionOf settings sources program.symbols earlier)
        (emissionOf settings sources program.symbols (earlier ++ [reservation])) address.toNat) :
        settings.layout.segmentOf address = some area.segment := by
      have range := (emits.adds address.toNat).1 position
      exact Area.segmentOf_of_holds ordered
        ⟨Nat.le_trans lies.inside.1 range.1, Nat.lt_of_lt_of_le range.2 lies.inside.2⟩
    constructor
    case code =>
      intro address here
      by_cases old : address ∈ (emissionOf settings sources program.symbols earlier).statements
      · exact before.code address old
      refine ⟨area.segment, inside (.inl ⟨address, ⟨here, old⟩, Nat.le_refl _, by omega⟩), lies.kind.1 ?_⟩
      by_contra other
      rw [emissionOf_concat, Emission.statements_emit other] at here
      exact old here
    case data =>
      intro address here
      by_cases old : address ∈ (emissionOf settings sources program.symbols earlier).data
      · exact before.data address old
      refine ⟨area.segment, inside (.inr ⟨address, ⟨here, old⟩, Nat.le_refl _, by omega⟩), ?_⟩
      rw [← Bool.not_eq_true]
      intro text
      rw [emissionOf_concat, Emission.data_emit (lies.kind.2 text)] at here
      exact old here

/-- Where the instructions and the data of an assembled program lie. -/
theorem located_of_assemble (valid : settings.layout.Valid) : program.Located settings.layout := by
  obtain ⟨-, -, code, data⟩ := emission_of_assemble assembled
  have located := located_emissionOf assembled valid (List.append_nil _).symm
  have aligned : (emissionOf settings sources program.symbols
      (Placement.reservations settings (statements sources))).Aligned :=
    aligned_emissionOf settings sources program.symbols fun _ member =>
      toNat_mod_of_isInstruction (Layout.separated_of_valid valid) member
  rw [← emission_eq assembled] at located aligned
  constructor
  case own => exact fun address statement found => (canonical_of_assemble assembled found).1
  case aligned =>
    rw [← code]
    exact fun address here => (Word.isAligned_iff address).2 (aligned address here)
  case code => exact code ▸ located.code
  case data => exact data ▸ located.data

/-- What has been emitted is never written over. -/
theorem preserves_emissionOf {earlier middle later : List Reservation}
    (reserved : Placement.reservations settings (statements sources) = earlier ++ middle ++ later) :
    (emissionOf settings sources program.symbols earlier).Preserves
      (emissionOf settings sources program.symbols (earlier ++ middle)) := by
  induction middle using List.reverseRecOn generalizing later with
  | nil =>
    rw [List.append_nil]
    exact ⟨fun _ _ found => found, fun _ _ found => found⟩
  | append_singleton middle reservation ih =>
    have split : Placement.reservations settings (statements sources) =
        (earlier ++ middle) ++ reservation :: later := by
      rw [reserved]
      simp
    have before := ih split
    obtain ⟨-, space, fills⟩ := emits_of_assemble assembled split
    rw [← List.append_assoc]
    by_cases spaces : reservation.placed.statement.IsSpace
    · rwa [space spaces]
    · exact before.trans (fills spaces).preserves

/-- What is emitted for a placed statement of an assembled program is emitted without an error and found in the end. -/
theorem emitted_of_assemble {placed : Placed}
    (member : placed ∈ (Placement.ofFiles settings (statements sources)).placed) :
    ∃ (reservation : Reservation) (sources : List (Array String)) (emission : Emission),
      reservation.placed = placed ∧ reservation.Sound settings ∧
        let after := Emission.emit settings program.symbols sources emission placed
        after.Successful ∧
          (∀ (address : Address) (statement : ProgramStatement),
            after.statements[address]? = some statement → program.statements[address]? = some statement) ∧
          ∀ (address : Address) (byte : UInt8), after.data[address]? = some byte → program.data[address]? = some byte := by
  obtain ⟨-, -, code, data⟩ := emission_of_assemble assembled
  rw [← List.mem_reverse, ← placed_reservations] at member
  obtain ⟨reservation, reserved, rfl⟩ := List.mem_map.1 member
  have sound := (accounts_statements settings sources).sound reservation reserved
  obtain ⟨earlier, later, reserved⟩ := List.append_of_mem reserved
  have split : Placement.reservations settings (statements sources) = (earlier ++ [reservation]) ++ later ++ [] := by
    rw [reserved]
    simp
  have successful := successful_emissionOf assembled (split.trans (List.append_assoc _ _ _))
  obtain ⟨keepsCode, keepsData⟩ := preserves_emissionOf assembled split
  rw [List.append_nil] at split
  rw [emissionOf_concat] at successful
  rw [← split, ← emission_eq assembled, emissionOf_concat] at keepsCode keepsData
  rw [code] at keepsCode
  rw [data] at keepsData
  exact ⟨reservation, _, _, rfl, sound, successful, keepsCode, keepsData⟩

/-- From the address of a data directive on lie the bytes that it says. -/
theorem data_of_assemble {placed : Placed}
    (member : placed ∈ (Placement.ofFiles settings (statements sources)).placed) {directive : Directive}
    (content : placed.statement.content = some (.directive directive)) (data : directive.isData = true) :
    ∃ bytes, directive.image? (program.symbols.address? placed.file) = some bytes ∧
      ∀ index byte, bytes[index]? = some byte → program.data[placed.address + UInt32.ofNat index]? = some byte := by
  obtain ⟨reservation, texts, emission, rfl, sound, successful, -, kept⟩ := emitted_of_assemble assembled member
  obtain ⟨bytes, image, held⟩ := Emission.image_emit sound content data successful
  exact ⟨bytes, image, fun index byte found => kept _ _ (held index byte found)⟩

end Assembled

end Mips
