import Mips.Proofs.Layout.Order
import Mips.Proofs.Memory.Access

/-!
The search for the end of a string. Nothing but memory bounds it: it ends at the first byte that is zero or may not be
loaded, and on its way it goes around the end of the address space. Main statement: `cString_of_stops`.
-/

namespace Mips

namespace Memory

variable {memory : Memory}

/-- The byte ends a string, or may not be loaded. -/
def Stops (memory : Memory) (address : Address) : Prop := memory.Allows .byte address → memory.byteAt address = 0

instance (memory : Memory) (address : Address) : Decidable (memory.Stops address) := inferInstanceAs (Decidable (_ → _))

/-- The text segment of a valid layout is not empty, and it is protected unless code may be modified. -/
theorem exists_stops (valid : memory.layout.Valid) (protects : memory.selfModifying = false) :
    ∃ address, memory.Stops address := by
  have ordered := Layout.ordered_of_valid valid
  refine ⟨memory.layout.textBase, ?_⟩
  rintro ⟨-, segment, lies, changeable⟩
  have first : memory.layout.segmentOf memory.layout.textBase = some .text := by
    have below : memory.layout.textBase < memory.layout.externBase := ordered.text
    simp [Layout.segmentOf, below]
  cases lies.symm.trans first
  exact absurd ((changeable rfl).symm.trans protects) (by decide)

end Memory

namespace Service

variable {memory : Memory} {address : Address} {count : Nat} {outcome : Except Fault (List Char)}

/--
The search for the end of a string at the address takes so many bytes and comes to this outcome. Each byte is loaded
before the next one, and nothing ends the search but a byte that is zero or cannot be loaded.
-/
inductive Scans (memory : Memory) : Address → (count : Nat) → Except Fault (List Char) → Prop where
  | refused {address : Address} {error : MemoryError} (fails : memory.read .byte address = .error error) :
    Scans memory address 0 (.error (.ofMemory .load error))
  | zero {address : Address} (ends : memory.read .byte address = .ok 0) : Scans memory address 0 (.ok [])
  | next {address : Address} {byte : Word} {count : Nat} {outcome : Except Fault (List Char)}
      (taken : memory.read .byte address = .ok byte) (nonzero : byte ≠ 0)
      (rest : Scans memory (address + 1) count outcome) :
    Scans memory address (count + 1) (outcome.map (Char.ofNat byte.toNat :: ·))

/-- A search that has come to an end comes to the same within any limit beyond that. -/
theorem cString_of_scans (scans : Scans memory address count outcome) {limit : Nat} (room : count < limit) :
    cString memory address limit = outcome := by
  induction scans generalizing limit with
  | refused fails =>
    obtain ⟨limit, rfl⟩ := Nat.exists_eq_add_one.2 room
    simp only [cString, fails]
  | zero ends =>
    obtain ⟨limit, rfl⟩ := Nat.exists_eq_add_one.2 room
    simp only [cString, ends, if_true]
  | next taken nonzero rest ih =>
    obtain ⟨limit, rfl⟩ := Nat.exists_eq_add_one.2 (Nat.zero_lt_of_lt room)
    simp only [cString, taken, if_neg nonzero, ih (Nat.lt_of_succ_lt_succ room)]

/-- What a search has seen at its end: bytes that do not stop it, and then one that does. -/
theorem Scans.seen (scans : Scans memory address count outcome) :
    (∀ index < count, ¬memory.Stops (address + UInt32.ofNat index)) ∧
      memory.Stops (address + UInt32.ofNat count) ∧
      outcome =
        if memory.Allows .byte (address + UInt32.ofNat count) then
          .ok ((memory.bytesFrom address count).map fun byte => Char.ofNat byte.toNat)
        else .error (.inaccessible (address + UInt32.ofNat count) .load) := by
  induction scans with
  | @refused address error fails =>
    rw [Memory.read_byte] at fails
    split at fails
    · cases fails
    next forbidden =>
      cases fails
      rw [Word.add_ofNat_zero, if_neg forbidden]
      exact ⟨by simp, fun allowed => absurd allowed forbidden, rfl⟩
  | @zero address ends =>
    rw [Memory.read_byte] at ends
    split at ends
    next allowed =>
      have zero : memory.byteAt address = 0 := UInt8.toNat_inj.1 (congrArg UInt32.toNat (Except.ok.inj ends))
      rw [Word.add_ofNat_zero, if_pos allowed]
      exact ⟨by simp, fun _ => zero, rfl⟩
    · cases ends
  | @next address byte count outcome taken nonzero rest ih =>
    rw [Memory.read_byte] at taken
    split at taken
    next allowed =>
      cases taken
      obtain ⟨before, stops, same⟩ := ih
      have here : ¬memory.Stops address := fun ends => nonzero (by rw [ends allowed]; rfl)
      simp only [Word.add_ofNat_succ, Nat.forall_lt_succ_left, Word.add_ofNat_zero]
      refine ⟨⟨here, before⟩, stops, ?_⟩
      rw [same]
      split <;> rfl
    · cases taken

/-- A search takes the bytes up to the first one that stops it. -/
theorem Scans.count_eq (scans : Scans memory address count outcome) (length : Nat)
    (goesOn : ∀ index < length, ¬memory.Stops (address + UInt32.ofNat index))
    (stops : memory.Stops (address + UInt32.ofNat length)) : count = length := by
  obtain ⟨before, stopped, -⟩ := scans.seen
  rcases Nat.lt_trichotomy count length with early | same | late
  · exact absurd stopped (goesOn count early)
  · exact same
  · exact absurd stops (before length late)

/-- A byte that stops the search ends it where it begins. -/
theorem exists_scans_of_stops (stops : memory.Stops address) : ∃ outcome, Scans memory address 0 outcome := by
  have read := memory.read_byte address
  by_cases allowed : memory.Allows .byte address
  · rw [if_pos allowed, stops allowed] at read
    exact ⟨_, .zero read⟩
  · rw [if_neg allowed] at read
    exact ⟨_, .refused read⟩

/-- A search ends at the latest where a byte stops it. -/
theorem exists_scans {distance : Nat} (stops : memory.Stops (address + UInt32.ofNat distance)) :
    ∃ count ≤ distance, ∃ outcome, Scans memory address count outcome := by
  induction distance generalizing address with
  | zero =>
    rw [Word.add_ofNat_zero] at stops
    exact ⟨0, Nat.le_refl 0, exists_scans_of_stops stops⟩
  | succ distance ih =>
    by_cases here : memory.Stops address
    · exact ⟨0, Nat.zero_le _, exists_scans_of_stops here⟩
    · rw [Word.add_ofNat_succ] at stops
      obtain ⟨count, within, outcome, rest⟩ := ih stops
      obtain ⟨allowed, nonzero⟩ := Classical.not_imp.1 here
      have taken := memory.read_byte address
      rw [if_pos allowed] at taken
      have other : (memory.byteAt address).toUInt32 ≠ 0 := fun zero =>
        nonzero (UInt8.toNat_inj.1 (congrArg UInt32.toNat zero))
      exact ⟨count + 1, Nat.succ_le_succ within, _, .next taken other rest⟩

/--
The search for the end of a string ends wherever it begins, if code is protected in a valid layout or if any byte is zero
or may not be loaded. It takes bytes that may be loaded and are not zero, around the end of the address space. If the byte
behind them may be loaded, then it is zero and they are the string, with one character for each. Otherwise the load of
that byte is a fault, and it comes before any zero byte that may be loaded.
-/
theorem cString_of_stops
    (ends : memory.layout.Valid ∧ memory.selfModifying = false ∨
      ∃ place, ¬memory.Allows .byte place ∨ memory.byteAt place = 0) (address : Address) :
    ∃ count outcome, Scans memory address count outcome ∧ cString memory address addressSpace = outcome ∧
      (∀ index < count, memory.Allows .byte (address + UInt32.ofNat index) ∧
        memory.byteAt (address + UInt32.ofNat index) ≠ 0) ∧
      (memory.Allows .byte (address + UInt32.ofNat count) ∧ memory.byteAt (address + UInt32.ofNat count) = 0 ∧
          outcome = .ok ((memory.bytesFrom address count).map fun byte => Char.ofNat byte.toNat) ∨
        ¬memory.Allows .byte (address + UInt32.ofNat count) ∧
          outcome = .error (.inaccessible (address + UInt32.ofNat count) .load) ∧
          ∀ place, memory.Allows .byte place → memory.byteAt place = 0 → count < (place - address).toNat) := by
  obtain ⟨place, stops⟩ : ∃ place, memory.Stops place := by
    rcases ends with ⟨valid, protects⟩ | ⟨place, forbidden | zero⟩
    · exact Memory.exists_stops valid protects
    · exact ⟨place, fun allowed => absurd allowed forbidden⟩
    · exact ⟨place, fun _ => zero⟩
  have there := Word.add_ofNat_sub address place
  obtain ⟨count, within, outcome, scans⟩ := exists_scans (there ▸ stops)
  obtain ⟨before, stopped, came⟩ := scans.seen
  have room : count < addressSpace := Nat.lt_of_le_of_lt within (place - address).toNat_lt
  refine ⟨count, outcome, scans, cString_of_scans scans room, fun index inside => ?_, ?_⟩
  · exact Classical.not_imp.1 (before index inside)
  · by_cases allowed : memory.Allows .byte (address + UInt32.ofNat count)
    · rw [if_pos allowed] at came
      exact .inl ⟨allowed, stopped allowed, came⟩
    · rw [if_neg allowed] at came
      refine .inr ⟨allowed, came, fun other readable zero => ?_⟩
      have same := Word.add_ofNat_sub address other
      rcases Nat.lt_trichotomy count (other - address).toNat with later | here | earlier
      · exact later
      · rw [here, same] at allowed
        exact absurd readable allowed
      · have goesOn := before _ earlier
        rw [same] at goesOn
        exact absurd (fun _ => zero) goesOn

/-- A string without an end at the top of the stack is a fault, and one at the last address goes on at the first. -/
theorem cString_at_ends :
    let endless := (Memory.empty .standard false).setBytes 0x7FFFFFFE [0x68, 0x69]
    let around := (Memory.empty .compact true).setBytes 0xFFFFFFFF [0x68, 0x69, 0]
    cString endless 0x7FFFFFFE addressSpace = .error (.inaccessible 0x80000000 .load) ∧
      cString around 0xFFFFFFFF addressSpace = .ok ['h', 'i'] := by
  intro endless around
  constructor
  · obtain ⟨count, outcome, scans, came, -, last⟩ :=
      @cString_of_stops endless (.inl (by decide +kernel)) 0x7FFFFFFE
    obtain rfl := scans.count_eq 2 (by decide +kernel) (by decide +kernel)
    have beyond : ¬endless.Allows .byte (0x7FFFFFFE + UInt32.ofNat 2) := by decide +kernel
    rcases last with ⟨allowed, -, -⟩ | ⟨-, faulted, -⟩
    · exact absurd allowed beyond
    · exact came.trans faulted
  · obtain ⟨count, outcome, scans, came, -, last⟩ :=
      @cString_of_stops around (.inr ⟨1, by decide +kernel⟩) 0xFFFFFFFF
    obtain rfl := scans.count_eq 2 (by decide +kernel) (by decide +kernel)
    have within : around.Allows .byte (0xFFFFFFFF + UInt32.ofNat 2) := by decide +kernel
    rcases last with ⟨-, -, whole⟩ | ⟨forbidden, -, -⟩
    · rw [came, whole]
      exact congrArg Except.ok (by decide +kernel)
    · exact absurd within forbidden

end Service

end Mips
