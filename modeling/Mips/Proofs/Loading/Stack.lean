import Mips.Proofs.Loading.Arguments

/-!
Where the arguments of a program lie. All that is stored for them is on the stack, unless their table is put so near the
end of the stack that it reaches below it. Main statement: `argumentsOnStack_of_load`.
-/

namespace Mips

/--
Whether the table of the arguments reaches below the stack. It is put at the initial stack pointer if the texts end above
it; that the arguments fit on the whole stack does not tell whether the table fits below the stack pointer.
-/
def Settings.TableUnderruns (settings : Settings) : Prop :=
  let pointer := settings.layout.stackPointer.toNat
  pointer ≤ settings.layout.stackBase.toNat - packedBytes settings.programArguments ∧
    pointer < settings.layout.stackLimit.toNat + 4 * (settings.programArguments.length + 1)

instance (settings : Settings) : Decidable settings.TableUnderruns := inferInstanceAs (Decidable (_ ∧ _))

/-- Every word in which the memories differ lies on the stack, of which the word at its base is the last one. -/
def Memory.DifferOnStack (layout : Layout) (before after : Memory) : Prop :=
  ∀ address : Address, address.toNat < layout.stackLimit.toNat ∨ layout.stackBase.toNat + 3 < address.toNat →
    after.word? address = before.word? address

theorem Layout.Ordered.stackLimit_mod_four {layout : Layout} (ordered : layout.Ordered) :
    layout.stackLimit.toNat % 4 = 0 :=
  ordered.aligned ("stack_limit", _) (by simp [boundaries])

/-- There is a word before the stack, since the data and the heap lie below it. -/
theorem Layout.Ordered.toNat_before_stack {layout : Layout} (ordered : layout.Ordered) :
    (layout.stackLimit - 4).toNat + 4 = layout.stackLimit.toNat := by
  have four : (4 : Address).toNat = 4 := rfl
  have bound := layout.stackLimit.toNat_lt
  have multiple := ordered.stackLimit_mod_four
  have heap := ordered.heap
  have data := ordered.data
  rw [UInt32.toNat_sub, four]
  omega

/-- An address in another segment than the stack does not lie between the ends of the stack. -/
theorem Layout.Ordered.outside_of_segmentOf {layout : Layout} (ordered : layout.Ordered) {address : Address}
    {segment : Segment} (mapped : layout.segmentOf address = some segment) (other : segment ≠ .stack) :
    address.toNat < layout.stackLimit.toNat ∨ layout.stackBase.toNat + 3 < address.toNat := by
  have stack := ordered.stack
  have user := ordered.user
  have multiple := ordered.aligned
  simp only [boundaries, List.forall_mem_cons] at multiple
  obtain ⟨_, _, _, _, _, limit, _, base, ktext, _⟩ := multiple
  unfold segmentOf at mapped
  simp only [UInt32.lt_iff_toNat_lt, UInt32.le_iff_toNat_le] at mapped
  by_cases below : address.toNat < layout.stackLimit.toNat
  · exact .inl below
  · right
    have heap := ordered.heap
    have data := ordered.data
    have room := ordered.room
    have text := ordered.text
    rw [if_neg (by omega), if_neg (by omega), if_neg (by omega), if_neg below] at mapped
    split at mapped
    · exact absurd (Option.some.inj mapped).symm other
    · split at mapped
      · cases mapped
      · omega

namespace Machine

/-- The words of texts lie between the address that they are packed down from and the one that they end above. -/
theorem word?_packTexts (texts : List String) (memory : Memory) {high other : Address}
    (room : packedBytes texts ≤ high.toNat)
    (apart : other.toNat / 4 * 4 + 3 ≤ high.toNat - packedBytes texts ∨ high.toNat < other.toNat / 4 * 4) :
    (packTexts memory high texts).1.word? other = memory.word? other := by
  induction texts generalizing memory high with
  | nil => rfl
  | cons text rest ih =>
    have total : packedBytes (text :: rest) = text.utf8ByteSize + 1 + packedBytes rest := rfl
    have one : (1 : Address).toNat = 1 := rfl
    have bound := high.toNat_lt
    have first : (high - UInt32.ofNat (Text.Utf8.ofText text).length).toNat = high.toNat - text.utf8ByteSize :=
      toNat_textStart (by omega)
    have length := length_terminated text
    simp only [packTexts]
    generalize high - UInt32.ofNat (Text.Utf8.ofText text).length = start at first ⊢
    have next : (start - 1).toNat = high.toNat - text.utf8ByteSize - 1 := by
      rw [UInt32.toNat_sub, one, first]
      omega
    calc
      _ = (memory.setBytes start (Text.Utf8.ofText text ++ [0])).word? other := ih _ (by omega) (by omega)
      _ = memory.word? other := memory.word?_setBytes_of_apart (by omega) (by omega)

section

variable [Generator] {settings : Settings} {tree : FileTree} (valid : settings.Valid tree)
  (given : settings.programArguments ≠ []) (machine : Machine) (same : machine.memory.layout = settings.layout)

include valid given same

/-- What is stored for arguments: the words of the texts, and then those of the table, which begins at the stack pointer. -/
theorem words_storeArguments :
    ∃ (packed : Memory) (low : Address) (table : List Word),
      low.toNat + packedBytes settings.programArguments = settings.layout.stackBase.toNat ∧
      table.length = settings.programArguments.length + 2 ∧
      (machine.storeArguments settings.programArguments).get .sp =
        tableStart settings.layout low settings.programArguments.length ∧
      (∀ other : Address, other.toNat / 4 * 4 + 3 ≤ low.toNat ∨ settings.layout.stackBase.toNat < other.toNat / 4 * 4 →
        packed.word? other = machine.memory.word? other) ∧
      ∀ other : Address, (machine.storeArguments settings.programArguments).memory.word? other =
        (table[(other - tableStart settings.layout low settings.programArguments.length).toNat / 4]?).or
          (packed.word? other) := by
  have ordered := Layout.ordered_of_valid (Settings.layout_of_valid valid)
  have room := Settings.room_of_valid valid given
  have fits := settings.layout.stackBase.toNat_lt
  have packs := packs_packTexts settings.programArguments machine.memory settings.layout.stackBase (by omega)
  have frame (other : Address) (apart : other.toNat / 4 * 4 + 3 ≤ settings.layout.stackBase.toNat -
      packedBytes settings.programArguments ∨ settings.layout.stackBase.toNat < other.toNat / 4 * 4) :
      (packTexts machine.memory settings.layout.stackBase settings.programArguments).1.word? other =
        machine.memory.word? other :=
    word?_packTexts settings.programArguments machine.memory (by omega) apart
  have stored := storeArguments_eq machine given
  simp only [same] at stored
  generalize packTexts machine.memory settings.layout.stackBase settings.programArguments = packing at packs frame stored
  obtain ⟨packed, low, starts⟩ := packing
  dsimp only at packs frame stored
  have sum := packs.low_add
  have length : (UInt32.ofNat settings.programArguments.length :: starts ++ [0]).length =
      settings.programArguments.length + 2 := by
    rw [List.length_append, List.length_cons, packs.length_starts, List.length_singleton]
  refine ⟨packed, low, _, sum, length, ?_, ?_, ?_⟩
  · rw [stored, get_set_ne _ (by decide), get_set_ne _ (by decide), get_set_self _ (by decide)]
  · intro other apart
    exact frame other (by omega)
  · intro other
    rw [stored, memory_set, memory_set, memory_set]
    exact packed.word?_setWords other _ (tableStart_mod_four room sum ordered) (by omega)

/-- Arguments whose table does not reach below the stack leave everything outside of it as it is. -/
theorem differOnStack_storeArguments (inside : ¬settings.TableUnderruns) :
    Memory.DifferOnStack settings.layout machine.memory
        (machine.storeArguments settings.programArguments).memory ∧
      settings.layout.stackLimit.toNat ≤ ((machine.storeArguments settings.programArguments).get .sp).toNat ∧
      ((machine.storeArguments settings.programArguments).get .sp).toNat ≤ settings.layout.stackBase.toNat := by
  have ordered := Layout.ordered_of_valid (Settings.layout_of_valid valid)
  have room := Settings.room_of_valid valid given
  have limit := ordered.stackLimit_mod_four
  have base : settings.layout.stackBase.toNat % 4 = 0 :=
    ordered.aligned ("stack_base", _) (by simp [Layout.boundaries])
  have bound := settings.layout.stackBase.toNat_lt
  have pointer := ordered.pointer
  obtain ⟨packed, low, table, sum, length, stack, frame, words⟩ := words_storeArguments valid given machine same
  have start := toNat_tableStart room sum
  generalize tableStart settings.layout low settings.programArguments.length = top at start stack words
  -- Wherever the table is put, all of it lies between the limit of the stack and the initial stack pointer or the texts.
  have range : settings.layout.stackLimit.toNat ≤ top.toNat ∧
      top.toNat + 4 * (settings.programArguments.length + 2) ≤ settings.layout.stackBase.toNat + 4 := by
    unfold Settings.TableUnderruns at inside
    split at start <;> omega
  refine ⟨?_, by rw [stack]; exact range.1, by rw [stack]; omega⟩
  intro other apart
  have beyond : table.length ≤ (other - top).toNat / 4 := by
    have small := other.toNat_lt
    rw [length, UInt32.toNat_sub]
    omega
  calc
    _ = (table[(other - top).toNat / 4]?).or (packed.word? other) := words other
    _ = packed.word? other := by rw [List.getElem?_eq_none beyond, Option.none_or]
    _ = machine.memory.word? other := frame other (by omega)

/-- A table that reaches below the stack takes the last word before it. -/
theorem isSome_below_stack (underruns : settings.TableUnderruns) :
    ((machine.storeArguments settings.programArguments).memory.word? (settings.layout.stackLimit - 4)).isSome = true := by
  have ordered := Layout.ordered_of_valid (Settings.layout_of_valid valid)
  have room := Settings.room_of_valid valid given
  have limit := ordered.stackLimit_mod_four
  have multiple : settings.layout.stackPointer.toNat % 4 = 0 :=
    ordered.aligned ("stack_pointer", _) (by simp [Layout.boundaries])
  have bound := settings.layout.stackBase.toNat_lt
  have lower := ordered.limit
  obtain ⟨packed, low, table, sum, length, -, -, words⟩ := words_storeArguments valid given machine same
  have start := toNat_tableStart room sum
  generalize tableStart settings.layout low settings.programArguments.length = top at start words
  have among : (settings.layout.stackLimit - 4 - top).toNat / 4 < table.length := by
    have place := ordered.toNat_before_stack
    unfold Settings.TableUnderruns at underruns
    rw [length, UInt32.toNat_sub]
    split at start <;> omega
  rw [words, List.getElem?_eq_getElem among]
  rfl

end

end Machine

namespace Simulator

variable [Generator] {κ : Type}

/--
Whatever the machine is, all that is stored for arguments lies on the stack, exactly if their table does not reach below
it. Then the stack pointer of a loaded machine lies on the stack, and in all other segments there is what the program
put there.
-/
theorem argumentsOnStack_of_load {simulator : Simulator κ} {tree : FileTree} (valid : simulator.settings.Valid tree)
    (given : simulator.settings.programArguments ≠ []) :
    ((∀ machine : Machine, machine.memory.layout = simulator.settings.layout →
        Memory.DifferOnStack simulator.settings.layout machine.memory
          (machine.storeArguments simulator.settings.programArguments).memory) ↔
      ¬simulator.settings.TableUnderruns) ∧
    (¬simulator.settings.TableUnderruns → ∀ program : Program,
      simulator.settings.layout.stackLimit.toNat ≤ ((simulator.load program).machine.get .sp).toNat ∧
        ((simulator.load program).machine.get .sp).toNat ≤ simulator.settings.layout.stackBase.toNat ∧
        ∀ address segment, simulator.settings.layout.segmentOf address = some segment → segment ≠ .stack →
          (simulator.load program).machine.memory.word? address =
            (program.fill (.empty simulator.settings.layout simulator.settings.selfModifyingCode)).word? address) := by
  have ordered := Layout.ordered_of_valid (Settings.layout_of_valid valid)
  refine ⟨⟨?_, ?_⟩, ?_⟩
  · intro stays underruns
    let blank := Machine.blank simulator.settings
    have stored := Machine.isSome_below_stack valid given blank rfl underruns
    have place := ordered.toNat_before_stack
    have empty : blank.memory.word? (simulator.settings.layout.stackLimit - 4) = none :=
      Std.ExtTreeMap.getElem?_empty
    rw [stays blank rfl _ (.inl (by omega)), empty] at stored
    cases stored
  · intro inside machine same
    exact (Machine.differOnStack_storeArguments valid given machine same inside).1
  · intro inside program
    let start := Machine.initial simulator.settings.layout simulator.settings.selfModifyingCode program.entry
    let filled : Machine := { start with memory := program.fill start.memory }
    have loaded : (simulator.load program).machine = filled.storeArguments simulator.settings.programArguments :=
      machine_setState _ _
    obtain ⟨differ, lower, upper⟩ :=
      Machine.differOnStack_storeArguments valid given filled (rules_fill program _).1 inside
    rw [loaded]
    refine ⟨lower, upper, ?_⟩
    intro address segment mapped other
    exact differ address (ordered.outside_of_segmentOf mapped other)

end Simulator

end Mips

namespace Mips.Simulator

/-- An initial stack pointer twelve bytes above the limit of the stack leaves just enough room for the table of two arguments. -/
theorem argumentsOnStack_two :
    let settings : Settings :=
      { programArguments := ["one", "two words"], layout := { Layout.standard with stackPointer := 0x7FC0000C } }
    let start := loaded settings (Program.ofInstructions [(0x00400000, .nop)])
    let machine := (start.load (Program.ofInstructions [])).machine
    settings.Valid ⟨[], []⟩ ∧ settings.programArguments ≠ [] ∧ ¬settings.TableUnderruns ∧
      settings.layout.stackLimit.toNat ≤ (machine.get .sp).toNat ∧ (machine.get .sp) = 0x7FC00000 := by
  intro settings start machine
  have valid : start.settings.Valid ⟨[], []⟩ := by decide +kernel
  have given : start.settings.programArguments ≠ [] := by decide +kernel
  have inside : ¬start.settings.TableUnderruns := by decide +kernel
  obtain ⟨-, loads⟩ := argumentsOnStack_of_load valid given
  exact ⟨valid, given, inside, (loads inside (Program.ofInstructions [])).1, by decide +kernel⟩

/--
With the initial stack pointer at the limit of the stack the count of the arguments and their addresses come to lie in
the heap, although the settings are accepted.
-/
theorem arguments_below_stack :
    let settings : Settings :=
      { programArguments := ["a"], layout := { Layout.standard with stackPointer := 0x7FC00000 } }
    let machine := (loaded settings (Program.ofInstructions [(0x00400000, .nop)])).machine
    settings.Valid ⟨[], []⟩ ∧ machine.get .sp = 0x7FBFFFF8 ∧ machine.get .sp < settings.layout.stackLimit ∧
      machine.memory.word? 0x7FBFFFF8 = some 1 ∧ settings.layout.segmentOf 0x7FBFFFF8 = some .heap ∧
      ¬Memory.DifferOnStack settings.layout (Machine.blank settings).memory
        ((Machine.blank settings).storeArguments settings.programArguments).memory := by
  intro settings machine
  refine ⟨by decide +kernel, by decide +kernel, by decide +kernel, by decide +kernel, by decide +kernel, ?_⟩
  intro differ
  have same := differ 0x7FBFFFF8 (by decide +kernel)
  exact absurd same (by decide +kernel)

end Mips.Simulator
