import Mips.Proofs.Directive.Size
import Mips.Proofs.Execution.Straight
import Mips.Proofs.Layout.Order
import Mips.Proofs.Loading.Image
import Mips.Proofs.Simulator.Reached

/-!
The arguments that a program finds on its stack. The texts are packed downwards from the base of the stack, and the
table with their count and their addresses lies below them. Main statement: `argumentsArrive_of_load`.
-/

namespace Mips

/-- How many bytes texts take, each with a zero byte at its end. -/
def packedBytes (texts : List String) : Nat :=
  texts.foldr (fun text total => text.utf8ByteSize + 1 + total) 0

namespace Machine

/-- What packing texts downwards from an address does to memory: every text lies in the packed range. -/
structure Packs (before : Memory) (high : Address) (texts : List String) (after : Memory) (low : Address)
    (starts : List Address) : Prop where
  low_add : low.toNat + packedBytes texts = high.toNat
  length_starts : starts.length = texts.length
  outside : ∀ other : Address, other.toNat ≤ low.toNat ∨ high.toNat < other.toNat →
    after.byteAt other = before.byteAt other
  inside : ∀ (index : Nat) (text : String) (start : Address), texts[index]? = some text → starts[index]? = some start →
    low.toNat < start.toNat ∧ start.toNat + text.utf8ByteSize ≤ high.toNat ∧
      after.bytesFrom start (text.utf8ByteSize + 1) = Text.Utf8.ofText text ++ [0]

/-- A text ends where the texts before it begin. -/
theorem toNat_textStart {text : String} {high : Address} (room : text.utf8ByteSize ≤ high.toNat) :
    (high - UInt32.ofNat (Text.Utf8.ofText text).length).toNat = high.toNat - text.utf8ByteSize := by
  have bound := high.toNat_lt
  have size : (UInt32.ofNat (Text.Utf8.ofText text).length).toNat = text.utf8ByteSize := by
    rw [UInt32.toNat_ofNat', Text.Utf8.length_ofText]
    omega
  rw [UInt32.toNat_sub, size]
  omega

theorem length_terminated (text : String) : (Text.Utf8.ofText text ++ [0]).length = text.utf8ByteSize + 1 := by
  rw [List.length_append, Text.Utf8.length_ofText, List.length_singleton]

/-- A text goes on top of those that are packed below it. -/
theorem Packs.cons {memory after : Memory} {high low : Address} {text : String} {rest : List String}
    {starts : List Address} (room : text.utf8ByteSize + 1 ≤ high.toNat)
    (packs : Packs
      (memory.setBytes (high - UInt32.ofNat (Text.Utf8.ofText text).length) (Text.Utf8.ofText text ++ [0]))
      (high - UInt32.ofNat (Text.Utf8.ofText text).length - 1) rest after low starts) :
    Packs memory high (text :: rest) after low ((high - UInt32.ofNat (Text.Utf8.ofText text).length) :: starts) := by
  have total : packedBytes (text :: rest) = text.utf8ByteSize + 1 + packedBytes rest := rfl
  have bound := high.toNat_lt
  have one : (1 : Address).toNat = 1 := rfl
  have first := toNat_textStart (Nat.le_of_succ_le room)
  have length := length_terminated text
  generalize high - UInt32.ofNat (Text.Utf8.ofText text).length = start at packs first ⊢
  have next : (start - 1).toNat = high.toNat - text.utf8ByteSize - 1 := by
    rw [UInt32.toNat_sub, one, first]
    omega
  have sum := packs.low_add
  constructor
  case low_add => omega
  case length_starts => rw [List.length_cons, packs.length_starts, List.length_cons]
  case outside =>
    intro other apart
    calc
      after.byteAt other = (memory.setBytes start (Text.Utf8.ofText text ++ [0])).byteAt other :=
        packs.outside other (by omega)
      _ = memory.byteAt other := Memory.byteAt_setBytes_of_apart memory (by omega) (by omega)
  case inside =>
    intro index other address found placed
    cases index with
    | zero =>
      cases found
      cases placed
      refine ⟨by omega, by omega, ?_⟩
      have held := Memory.bytesFrom_setBytes memory start (Text.Utf8.ofText text ++ [0]) (by omega)
      rw [length] at held
      rw [← held]
      apply Memory.bytesFrom_congr (by omega)
      -- The texts below leave this one alone.
      intro other above _
      exact packs.outside other (.inr (by omega))
    | succ index =>
      obtain ⟨above, below, held⟩ := packs.inside index other address found placed
      exact ⟨above, by omega, held⟩

theorem packs_packTexts (texts : List String) (memory : Memory) (high : Address) (room : packedBytes texts ≤ high.toNat) :
    Packs memory high texts (packTexts memory high texts).1 (packTexts memory high texts).2.1
      (packTexts memory high texts).2.2 := by
  induction texts generalizing memory high with
  | nil =>
    constructor
    case low_add => rfl
    case length_starts => rfl
    case outside => exact fun _ _ => rfl
    case inside => exact fun _ _ _ found => nomatch found
  | cons text rest ih =>
    have total : packedBytes (text :: rest) = text.utf8ByteSize + 1 + packedBytes rest := rfl
    have one : (1 : Address).toNat = 1 := rfl
    have first : (high - UInt32.ofNat (Text.Utf8.ofText text).length).toNat = high.toNat - text.utf8ByteSize :=
      toNat_textStart (by omega)
    refine Packs.cons (by omega) (ih _ _ ?_)
    rw [UInt32.toNat_sub, one, first]
    have bound := high.toNat_lt
    omega

/-- Where the table of so many arguments begins whose texts lie above an address. -/
def tableStart (layout : Layout) (low : Address) (count : Nat) : Address :=
  (if low < layout.stackPointer then Word.align low - 4 else layout.stackPointer) - 4 * (UInt32.ofNat count + 1)

/-- The table on the stack: the count, and behind the addresses of the texts a zero word. -/
structure HoldsTable [Generator] (machine : Machine) (arguments : List String) : Prop where
  count : (machine.get .a0).toNat = arguments.length
  aligned : Word.isAligned (machine.get .sp) = true
  top : machine.memory.wordAt (machine.get .sp) = machine.get .a0
  table : machine.get .a1 = machine.get .sp + 4
  last : machine.memory.wordAt (machine.get .a1 + 4 * UInt32.ofNat arguments.length) = 0

/-- Every address in the table leads to the bytes of its argument and a zero byte. -/
def HoldsTexts [Generator] (machine : Machine) (arguments : List String) : Prop :=
  ∀ (index : Nat) (text : String), arguments[index]? = some text →
    machine.memory.bytesFrom (machine.memory.wordAt (machine.get .a1 + 4 * UInt32.ofNat index))
      (text.utf8ByteSize + 1) = Text.Utf8.ofText text ++ [0]

end Machine

namespace Settings

/--
Whether the table of the arguments takes bytes of their texts. It is put at the initial stack pointer if the texts end
above it, but its last word lies there: within three bytes of the texts both do not fit. A table that reaches around
the end of the address space may come upon the texts from above.
-/
def TableCollides (settings : Settings) : Prop :=
  let pointer := settings.layout.stackPointer.toNat
  let low := settings.layout.stackBase.toNat - packedBytes settings.programArguments
  pointer ≤ low ∧
    (low < pointer + 3 ∨
      0x100000000 ≤ settings.layout.stackBase.toNat - pointer + 4 * (settings.programArguments.length + 1))

instance (settings : Settings) : Decidable settings.TableCollides := inferInstanceAs (Decidable (_ ∧ _))

theorem layout_of_valid {settings : Settings} {tree : FileTree} (valid : settings.Valid tree) :
    settings.layout.Valid := by
  unfold Valid error? at valid
  split at valid
  · cases valid
  next sound => exact sound

/-- Arguments that are accepted fit on the stack, with their table. -/
theorem room_of_valid {settings : Settings} {tree : FileTree} (valid : settings.Valid tree)
    (given : settings.programArguments ≠ []) :
    settings.layout.stackLimit.toNat + packedBytes settings.programArguments +
      4 * (settings.programArguments.length + 2) + 4 ≤ settings.layout.stackBase.toNat := by
  have ordered := Layout.ordered_of_valid (layout_of_valid valid)
  have limits := Nat.le_trans ordered.limit ordered.pointer
  have filled : settings.programArguments.isEmpty = false := by
    cases held : settings.programArguments with
    | nil => exact absurd held given
    | cons => rfl
  have size : settings.argumentBytes =
    packedBytes settings.programArguments + 4 * (settings.programArguments.length + 2) + 4 := rfl
  unfold Valid error? at valid
  split at valid
  · cases valid
  split at valid
  · cases valid
  split at valid
  · cases valid
  next enough =>
    rw [filled, Bool.not_false, Bool.true_and, decide_eq_true_eq, size, stackBytes] at enough
    omega

end Settings

namespace Machine

section

variable {settings : Settings}
  (room : settings.layout.stackLimit.toNat + packedBytes settings.programArguments +
    4 * (settings.programArguments.length + 2) + 4 ≤ settings.layout.stackBase.toNat)
  {low : Address} (below : low.toNat + packedBytes settings.programArguments = settings.layout.stackBase.toNat)

include room below

theorem toNat_tableStart :
    (tableStart settings.layout low settings.programArguments.length).toNat =
      if low.toNat < settings.layout.stackPointer.toNat then low.toNat / 4 * 4 - 4 * (settings.programArguments.length + 2)
      else (0x100000000 + settings.layout.stackPointer.toNat - 4 * (settings.programArguments.length + 1)) %
        0x100000000 := by
  have bound := settings.layout.stackBase.toNat_lt
  have four : (4 : Address).toNat = 4 := rfl
  have one : (1 : Address).toNat = 1 := rfl
  have size : (4 * (UInt32.ofNat settings.programArguments.length + 1)).toNat =
      4 * (settings.programArguments.length + 1) := by
    rw [UInt32.toNat_mul, UInt32.toNat_add, UInt32.toNat_ofNat', four, one]
    omega
  have pointer := settings.layout.stackPointer.toNat_lt
  rw [tableStart, UInt32.toNat_sub, size]
  simp only [UInt32.lt_iff_toNat_lt]
  split
  · rw [UInt32.toNat_sub, Word.toNat_align, four]
    omega
  · omega

variable (ordered : settings.layout.Ordered)

include ordered

theorem tableStart_mod_four : (tableStart settings.layout low settings.programArguments.length).toNat % 4 = 0 := by
  have pointer : settings.layout.stackPointer.toNat % 4 = 0 :=
    ordered.aligned ("stack_pointer", _) (by simp [Layout.boundaries])
  rw [toNat_tableStart room below]
  split <;> omega

/-- A table that does not collide with the texts ends below each of their bytes. -/
theorem beyond_table (apart : ¬settings.TableCollides) {other : Address} (above : low.toNat < other.toNat)
    (inside : other.toNat ≤ settings.layout.stackBase.toNat) :
    settings.programArguments.length + 2 ≤
      (other - tableStart settings.layout low settings.programArguments.length).toNat / 4 := by
  have bound := settings.layout.stackBase.toNat_lt
  have start := toNat_tableStart room below
  have pointer := ordered.pointer
  have free : settings.layout.stackPointer.toNat ≤ low.toNat →
      settings.layout.stackPointer.toNat + 3 ≤ low.toNat ∧
        settings.layout.stackBase.toNat - settings.layout.stackPointer.toNat +
          4 * (settings.programArguments.length + 1) < 0x100000000 := by
    intro higher
    unfold Settings.TableCollides at apart
    omega
  rw [UInt32.toNat_sub]
  split at start
  · omega
  next higher =>
    have limits := free (Nat.le_of_not_lt higher)
    have multiple : settings.layout.stackPointer.toNat % 4 = 0 :=
      ordered.aligned ("stack_pointer", _) (by simp [Layout.boundaries])
    omega

end

theorem rules_packTexts (memory : Memory) (high : Address) (texts : List String) :
    (packTexts memory high texts).1.layout = memory.layout ∧
      (packTexts memory high texts).1.selfModifying = memory.selfModifying := by
  induction texts generalizing memory high with
  | nil => exact ⟨rfl, rfl⟩
  | cons text rest ih =>
    let bytes := Text.Utf8.ofText text
    let start := high - UInt32.ofNat bytes.length
    obtain ⟨layout, selfModifying⟩ := memory.rules_setBytes start (bytes ++ [0])
    obtain ⟨later, laterToo⟩ := ih (memory.setBytes start (bytes ++ [0])) (start - 1)
    exact ⟨later.trans layout, laterToo.trans selfModifying⟩

variable [Generator]

/-- The machine with the texts and then their table in memory, and the registers that tell where it is. -/
theorem storeArguments_eq (machine : Machine) {arguments : List String} (given : arguments ≠ []) :
    let packing := packTexts machine.memory machine.memory.layout.stackBase arguments
    let count := UInt32.ofNat arguments.length
    let start := tableStart machine.memory.layout packing.2.1 arguments.length
    machine.storeArguments arguments =
      ((({ machine with memory := packing.1.setWords start (count :: packing.2.2 ++ [0]) }.set .sp start).set
        .a0 count).set .a1 (start + 4)) := by
  unfold storeArguments
  cases arguments with
  | nil => exact absurd rfl given
  | cons => rfl

theorem cop0_set (machine : Machine) (target : Register) (value : Word) :
    (machine.set target value).cop0 = machine.cop0 := rfl

/-- Arguments change neither the rules for accessing memory nor coprocessor 0. -/
theorem rules_storeArguments (machine : Machine) (arguments : List String) :
    (machine.storeArguments arguments).memory.layout = machine.memory.layout ∧
      (machine.storeArguments arguments).memory.selfModifying = machine.memory.selfModifying ∧
      (machine.storeArguments arguments).cop0 = machine.cop0 := by
  by_cases given : arguments = []
  · subst given
    exact ⟨rfl, rfl, rfl⟩
  · obtain ⟨layout, selfModifying⟩ := rules_packTexts machine.memory machine.memory.layout.stackBase arguments
    have words := fun start words => Memory.rules_setWords
      (packTexts machine.memory machine.memory.layout.stackBase arguments).1 start words
    rw [storeArguments_eq machine given]
    refine ⟨?_, ?_, ?_⟩
    · rw [memory_set, memory_set, memory_set]
      exact (words _ _).1.trans layout
    · rw [memory_set, memory_set, memory_set]
      exact (words _ _).2.trans selfModifying
    · rw [cop0_set, cop0_set, cop0_set]

/-- A loaded machine accesses memory as the settings say, and has had no fault. -/
theorem rules_load (settings : Settings) (program : Program) :
    (Machine.load settings program).memory.layout = settings.layout ∧
      (Machine.load settings program).memory.selfModifying = settings.selfModifyingCode ∧
      (Machine.load settings program).cop0 = Cop0.initial := by
  let start := Machine.initial settings.layout settings.selfModifyingCode program.entry
  obtain ⟨layout, selfModifying⟩ := rules_fill program start.memory
  obtain ⟨stored, storedToo, kept⟩ :=
    rules_storeArguments { start with memory := program.fill start.memory } settings.programArguments
  exact ⟨stored.trans layout, storedToo.trans selfModifying, kept⟩

/-- The machine has a table of arguments at an aligned address, and its registers lead there. -/
structure Tabled (machine : Machine) (arguments : List String) (packed : Memory) (start : Address)
    (starts : List Address) : Prop where
  pointer : machine.get .sp = start
  number : machine.get .a0 = UInt32.ofNat arguments.length
  table : machine.get .a1 = start + 4
  memory : machine.memory = packed.setWords start (UInt32.ofNat arguments.length :: starts ++ [0])
  length : starts.length = arguments.length
  aligned : start.toNat % 4 = 0
  fits : 4 * (arguments.length + 2) ≤ 0x100000000

namespace Tabled

variable {machine : Machine} {arguments : List String} {packed : Memory} {start : Address} {starts : List Address}
  (tabled : machine.Tabled arguments packed start starts)

include tabled

theorem length_words : (UInt32.ofNat arguments.length :: starts ++ [0]).length = arguments.length + 2 := by
  rw [List.length_append, List.length_cons, tabled.length, List.length_singleton]

/-- A word outside of the table is as it was. -/
theorem wordAt_of_beyond {other : Address} (beyond : arguments.length + 2 ≤ (other - start).toNat / 4) :
    machine.memory.wordAt other = packed.wordAt other := by
  have fits := tabled.fits
  have length := tabled.length_words
  rw [tabled.memory, Memory.wordAt_setWords _ _ _ tabled.aligned (by omega), List.getElem?_eq_none (by omega)]
  rfl

/-- The entries of the table lie behind the count. -/
theorem entry {index : Nat} {word : Word} (found : (starts ++ [0])[index]? = some word) :
    machine.memory.wordAt (machine.get .a1 + 4 * UInt32.ofNat index) = word := by
  have fits := tabled.fits
  have length := tabled.length_words
  have place : start + 4 + 4 * UInt32.ofNat index = start + 4 * UInt32.ofNat (index + 1) := by
    have one : UInt32.ofNat 1 = 1 := rfl
    rw [UInt32.ofNat_add, UInt32.mul_add, one, UInt32.mul_one, UInt32.add_assoc, UInt32.add_comm 4]
  have behind : (UInt32.ofNat arguments.length :: starts ++ [0])[index + 1]? = some word := found
  rw [tabled.memory, tabled.table, place]
  exact Memory.wordAt_setWords_of_getElem? _ tabled.aligned (by omega) behind

theorem holdsTable : machine.HoldsTable arguments := by
  have fits := tabled.fits
  have length := tabled.length_words
  constructor
  case count =>
    rw [tabled.number, UInt32.toNat_ofNat']
    omega
  case aligned => rw [tabled.pointer, Word.isAligned_iff, tabled.aligned]
  case top =>
    have first : (start - start).toNat / 4 = 0 := by
      rw [UInt32.sub_self]
      rfl
    rw [tabled.memory, tabled.pointer, tabled.number, Memory.wordAt_setWords _ _ _ tabled.aligned (by omega), first]
    rfl
  case table => rw [tabled.table, tabled.pointer]
  case last =>
    apply tabled.entry
    rw [← tabled.length, List.getElem?_append_right (Nat.le_refl _), Nat.sub_self]
    rfl

/-- The texts arrive if the table lies apart from them. -/
theorem holdsTexts {before : Memory} {high low : Address} (packs : Packs before high arguments packed low starts)
    (beyond : ∀ other : Address, low.toNat < other.toNat → other.toNat ≤ high.toNat →
      arguments.length + 2 ≤ (other - start).toNat / 4) : machine.HoldsTexts arguments := by
  intro index text found
  obtain ⟨inside, -⟩ := List.getElem?_eq_some_iff.1 found
  obtain ⟨address, placed⟩ : ∃ address, starts[index]? = some address :=
    ⟨_, List.getElem?_eq_getElem (tabled.length.symm ▸ inside)⟩
  obtain ⟨above, below, held⟩ := packs.inside index text address found placed
  have entry : (starts ++ [0])[index]? = some address := by
    rw [List.getElem?_append_left (tabled.length.symm ▸ inside), placed]
  have bound := high.toNat_lt
  rw [tabled.entry entry, ← held]
  apply Memory.bytesFrom_congr (by omega)
  intro other lower upper
  apply Memory.byteAt_congr
  exact tabled.wordAt_of_beyond (beyond other (by omega) (by omega))

end Tabled

/-- The table always arrives, and the texts do unless the table takes some of their bytes. -/
theorem holds_storeArguments {settings : Settings} {tree : FileTree} (valid : settings.Valid tree)
    (given : settings.programArguments ≠ []) (machine : Machine) (same : machine.memory.layout = settings.layout) :
    (machine.storeArguments settings.programArguments).HoldsTable settings.programArguments ∧
      (¬settings.TableCollides →
        (machine.storeArguments settings.programArguments).HoldsTexts settings.programArguments) := by
  have ordered := Layout.ordered_of_valid (Settings.layout_of_valid valid)
  have room := Settings.room_of_valid valid given
  have fits := settings.layout.stackBase.toNat_lt
  have packs := packs_packTexts settings.programArguments machine.memory settings.layout.stackBase (by omega)
  have stored := storeArguments_eq machine given
  simp only [same] at stored
  generalize packTexts machine.memory settings.layout.stackBase settings.programArguments = packing at packs stored
  obtain ⟨packed, low, starts⟩ := packing
  have tabled : (machine.storeArguments settings.programArguments).Tabled settings.programArguments packed
      (tableStart settings.layout low settings.programArguments.length) starts := by
    rw [stored]
    constructor
    case pointer => rw [get_set_ne _ (by decide), get_set_ne _ (by decide), get_set_self _ (by decide)]
    case number => rw [get_set_ne _ (by decide), get_set_self _ (by decide)]
    case table => rw [get_set_self _ (by decide)]
    case memory => rw [memory_set, memory_set, memory_set]
    case length => exact packs.length_starts
    case aligned => exact tableStart_mod_four room packs.low_add ordered
    case fits => omega
  refine ⟨tabled.holdsTable, fun apart => tabled.holdsTexts packs ?_⟩
  exact fun other above inside => beyond_table room packs.low_add ordered apart above inside

end Machine

namespace Simulator

variable [Generator] {κ : Type}

/--
After a program has been loaded with arguments, `$a0` is their number, `$sp` leads to the same number in memory, and
behind it lie the addresses of the arguments and a zero word. Each address leads to the bytes of its argument, unless
the table was put where the texts are.
-/
theorem argumentsArrive_of_load {simulator : Simulator κ} {tree : FileTree} (valid : simulator.settings.Valid tree)
    (given : simulator.settings.programArguments ≠ []) (program : Program) :
    (simulator.load program).machine.HoldsTable simulator.settings.programArguments ∧
      (¬simulator.settings.TableCollides →
        (simulator.load program).machine.HoldsTexts simulator.settings.programArguments) := by
  have loaded : (simulator.load program).machine = Machine.load simulator.settings program := machine_setState _ _
  rw [loaded]
  apply Machine.holds_storeArguments valid given
  exact (rules_fill program _).1

end Simulator

end Mips

namespace Mips.Simulator

theorem argumentsArrive_two :
    let settings : Settings := { programArguments := ["one", "two words"] }
    let start := loaded settings (Program.ofInstructions [(0x00400000, .nop)])
    let machine := (start.load (Program.ofInstructions [])).machine
    machine.HoldsTable settings.programArguments ∧ machine.HoldsTexts settings.programArguments := by
  intro settings start machine
  have valid : start.settings.Valid ⟨[], []⟩ := by decide +kernel
  have given : start.settings.programArguments ≠ [] := by decide +kernel
  have apart : ¬start.settings.TableCollides := by decide +kernel
  obtain ⟨table, texts⟩ := argumentsArrive_of_load valid given (Program.ofInstructions [])
  exact ⟨table, texts apart⟩

/--
With the initial stack pointer four bytes below the base of the stack there is just room for the three bytes of the
argument and a zero byte between them. The zero word at the end of the table then takes the place of the argument.
-/
theorem argument_overwritten :
    let settings : Settings :=
      { programArguments := ["abc"], layout := { Layout.standard with stackPointer := 0x7FFFFFF8 } }
    let machine := (loaded settings (Program.ofInstructions [(0x00400000, .nop)])).machine
    settings.Valid ⟨[], []⟩ ∧ machine.memory.wordAt (machine.get .a1) = 0x7FFFFFF9 ∧
      machine.memory.bytesFrom 0x7FFFFFF9 4 = [0, 0, 0, 0] ∧ ¬machine.HoldsTexts settings.programArguments := by
  intro settings machine
  have address : machine.memory.wordAt (machine.get .a1 + 4 * UInt32.ofNat 0) = 0x7FFFFFF9 := by decide +kernel
  have bytes : machine.memory.bytesFrom 0x7FFFFFF9 4 = [0, 0, 0, 0] := by decide +kernel
  refine ⟨by decide +kernel, by decide +kernel, bytes, ?_⟩
  intro held
  have text := held 0 "abc" rfl
  have size : "abc".utf8ByteSize + 1 = 4 := by decide +kernel
  rw [address, size, bytes] at text
  exact absurd text (by decide +kernel)

end Mips.Simulator
