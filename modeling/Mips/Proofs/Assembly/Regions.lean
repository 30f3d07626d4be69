import Mips.Proofs.Assembly.Reservation
import Mips.Proofs.Layout.Order

/-!
Where storage is given out. Each area of statements is a region of its own, the symbols that are reserved by name lie
at the beginning of the data region, and no counter leaves its region while statements are placed. Main statement:
`stored_reservations`.
-/

namespace Mips

/-- Consecutive addresses; `stop` is the first number past them. -/
structure Range where
  start : Nat
  stop : Nat
  deriving DecidableEq, Repr

namespace Range

def Holds (range : Range) (position : Nat) : Prop := range.start ≤ position ∧ position < range.stop

instance (range : Range) (position : Nat) : Decidable (range.Holds position) := inferInstanceAs (Decidable (_ ∧ _))

/-- No position lies in both ranges. -/
def Apart (first second : Range) : Prop := ∀ position, first.Holds position → ¬ second.Holds position

/-- Every address of the inner range lies in the outer one. -/
def Within (inner outer : Range) : Prop := outer.start ≤ inner.start ∧ inner.stop ≤ outer.stop

theorem Apart.symm {first second : Range} (apart : first.Apart second) : second.Apart first :=
  fun position inSecond inFirst => apart position inFirst inSecond

theorem apart_of_le {first second : Range} (before : first.stop ≤ second.start) : first.Apart second := by
  intro position inFirst inSecond
  exact absurd (Nat.lt_of_lt_of_le inFirst.2 before) (Nat.not_lt.2 inSecond.1)

theorem Apart.mono {first second outer other : Range} (apart : outer.Apart other) (inFirst : first.Within outer)
    (inSecond : second.Within other) : first.Apart second := by
  intro position here there
  exact apart position ⟨Nat.le_trans inFirst.1 here.1, Nat.lt_of_lt_of_le here.2 inFirst.2⟩
    ⟨Nat.le_trans inSecond.1 there.1, Nat.lt_of_lt_of_le there.2 inSecond.2⟩

end Range

def Reservation.range (reservation : Reservation) : Range := ⟨reservation.start, reservation.stop⟩

namespace Layout

/-- The boundaries of a valid layout that separate the areas of statements. -/
structure Separated (layout : Layout) : Prop where
  text : layout.textBase.toNat < layout.externBase.toNat
  room : layout.externBase.toNat ≤ layout.dataBase.toNat
  data : layout.dataBase.toNat < layout.heapBase.toNat
  user : layout.heapBase.toNat ≤ layout.ktextBase.toNat
  kernel : layout.ktextBase.toNat < layout.kdataBase.toNat
  textAligned : layout.textBase.toNat % 4 = 0
  ktextAligned : layout.ktextBase.toNat % 4 = 0

theorem separated_of_valid {layout : Layout} (valid : layout.Valid) : layout.Separated := by
  have ordered := ordered_of_valid valid
  have limits := Nat.le_trans ordered.heap (Nat.le_trans ordered.limit ordered.pointer)
  have stack := ordered.stack
  have user := ordered.user
  have handler := ordered.handler
  have kernel := ordered.kernel
  constructor
  case text => exact ordered.text
  case room => exact ordered.room
  case data => exact ordered.data
  case user => omega
  case kernel => omega
  case textAligned => exact ordered.aligned ("text_base", _) (by simp [boundaries])
  case ktextAligned => exact ordered.aligned ("ktext_base", _) (by simp [boundaries])

end Layout

namespace Area

/-- The first address that statements of the area can be given. -/
def low (layout : Layout) : Area → Nat
  | .text => layout.textBase.toNat
  | .data => layout.externBase.toNat
  | .kernelText => layout.ktextBase.toNat
  | .kernelData => layout.kdataBase.toNat

def region (layout : Layout) (area : Area) : Range := ⟨area.low layout, area.stop layout⟩

/-- The segment of an area is its region. -/
theorem low_le_of_segmentOf {layout : Layout} {area : Area} {address : Address}
    (inside : layout.segmentOf address = some area.segment) : area.low layout ≤ address.toNat := by
  unfold Layout.segmentOf at inside
  simp only [UInt32.lt_iff_toNat_lt, UInt32.le_iff_toNat_le] at inside
  cases area <;> simp only [low] <;> grind [segment]

theorem apart_regions {layout : Layout} (separated : layout.Separated) {first second : Area} (different : first ≠ second) :
    (first.region layout).Apart (second.region layout) := by
  have small := layout.kdataBase.toNat_lt
  obtain ⟨text, room, data, user, kernel, _, _⟩ := separated
  intro position inFirst inSecond
  unfold region Range.Holds at inFirst inSecond
  cases first <;> cases second <;> simp only [low, stop] at inFirst inSecond <;> first | contradiction | omega

end Area

theorem le_alignUp (address : Nat) {alignment : Nat} (positive : 0 < alignment) :
    address ≤ alignUp address alignment := by
  unfold alignUp
  have split := Nat.div_add_mod (address + alignment - 1) alignment
  have small := Nat.mod_lt (address + alignment - 1) positive
  rw [Nat.mul_comm] at split
  omega

/-- Aligning to a power of two keeps multiples of four. -/
theorem alignUp_mod_four {address : Nat} (aligned : address % 4 = 0) (exponent : Nat) :
    alignUp address (Nat.pow 2 exponent) % 4 = 0 := by
  match exponent with
  | 0 =>
    change alignUp address 1 % 4 = 0
    rw [alignUp_one, aligned]
  | 1 =>
    change (address + 2 - 1) / 2 * 2 % 4 = 0
    omega
  | exponent + 2 =>
    have power : Nat.pow 2 (exponent + 2) = Nat.pow 2 exponent * 4 := by
      change Nat.pow 2 exponent * 2 * 2 = Nat.pow 2 exponent * 4
      omega
    unfold alignUp
    rw [power, ← Nat.mul_assoc]
    exact Nat.mul_mod_left _ 4

/-- Statements are aligned to a power of two, which is four at most. -/
theorem Statement.exists_alignment_eq (statement : Statement) :
    ∃ exponent ≤ 2, statement.alignment = Nat.pow 2 exponent := by
  unfold Statement.alignment
  split
  next directive _ =>
    unfold Directive.alignment
    split
    · exact ⟨2, by decide, rfl⟩
    · exact ⟨1, by decide, rfl⟩
    · exact ⟨0, by decide, rfl⟩
  next => exact ⟨0, by decide, rfl⟩

namespace Counters

theorem set_get (counters : Counters) (area : Area) : counters.set area (counters.get area) = counters := by
  cases area <;> rfl

theorem set_set (counters : Counters) (area : Area) (first second : Nat) :
    (counters.set area first).set area second = counters.set area second := by
  cases area <;> rfl

end Counters

/-- The statement is an instruction. -/
def Statement.IsInstruction (statement : Statement) : Prop := ∃ written, statement.content = some (.instruction written)

namespace Placement

/-- What a statement reserves by name: so many bytes from the address of its symbol on, if the name is new. -/
def named (before after : Placement) (statement : Statement) : List Range :=
  match statement.content with
  | some (.directive (.external label size)) =>
    if (before.symbols.global? label.name).isSome then []
    else
      (after.symbols.global? label.name).toList.map fun symbol =>
        ⟨symbol.address.toNat, symbol.address.toNat + size⟩
  | _ => []

/-- What statements reserve by name that are placed one after another. -/
def namedOf (placement : Placement) (settings : Settings) (file : Nat) : List Statement → List Range
  | [] => []
  | statement :: rest =>
    let after := place settings file placement statement
    placement.named after statement ++ after.namedOf settings file rest

/-- What files reserve by name that are counted from `file`. -/
def namedOfFiles (placement : Placement) (settings : Settings) (file : Nat) : List (List Statement) → List Range
  | [] => []
  | statements :: rest =>
    namedOf { placement with area := .text, pending := [] } settings file statements ++
      (placement.placeFile settings file statements).namedOfFiles settings (file + 1) rest

/-- What the statements of all files reserve by name, in the order in which they are placed. -/
def namedReservations (settings : Settings) (files : List (List Statement)) : List Range :=
  (initial settings.layout).namedOfFiles settings 0 files

/-- Nothing is reserved by name. -/
structure SameNames (before after : Placement) : Prop where
  counter : after.externCounter = before.externCounter
  globals : after.symbols.globals = before.symbols.globals

/--
What a step of placing does: it goes on in an area at an address of it or at an aligned one, it reserves memory under a
new name, or it places the statement at the aligned counter of its area.
-/
inductive Moves (layout : Layout) (statement : Statement) (before after : Placement) : Prop where
  | stays (names : SameNames before after) (counters : after.counters = before.counters)
      (placed : after.placed = before.placed)
  | jumps (names : SameNames before after) (address : Address)
      (inside : layout.segmentOf address = some after.area.segment)
      (aligned : after.area.isText = true → Word.isAligned address = true)
      (counters : after.counters = before.counters.set after.area address.toNat)
      (placed : after.placed = before.placed)
  | aligns (names : SameNames before after) (exponent : Nat)
      (counters : after.counters = before.counters.set before.area
        (alignUp before.counter (Nat.pow 2 exponent)))
      (placed : after.placed = before.placed)
  | names (label : Label) (size start : Nat) (content : statement.content = some (.directive (.external label size)))
      (aligned : start = alignUp before.externCounter 4) (bounded : start + size ≤ layout.dataBase.toNat)
      (counter : after.externCounter = start + size)
      (fresh : before.symbols.global? label.name = none)
      (address : (after.symbols.global? label.name).map Symbol.address = some (UInt32.ofNat start))
      (counters : after.counters = before.counters) (placed : after.placed = before.placed)
  | places (names : SameNames before after) (address : Address) (size : Nat)
      (bounded : alignUp before.counter statement.alignment + size ≤ before.area.stop layout)
      (kind : statement.IsInstruction ↔ before.area.isText = true)
      (whole : before.area.isText = true → size % 4 = 0) (area : after.area = before.area)
      (counters : after.counters = before.counters.set before.area
        (alignUp before.counter statement.alignment + size))
      (placed : ∃ file, after.placed = ⟨file, statement, address⟩ :: before.placed)

/-- Which labels are pending makes no difference to a move. -/
theorem Moves.of_pending {layout : Layout} {statement : Statement} {before after : Placement}
    {pending : List (Label × Nat)} (moves : Moves layout statement { before with pending := pending } after) :
    Moves layout statement before after := by
  cases moves with
  | stays names counters placed => exact .stays ⟨names.counter, names.globals⟩ counters placed
  | jumps names address inside aligned counters placed =>
    exact .jumps ⟨names.counter, names.globals⟩ address inside aligned counters placed
  | aligns names exponent counters placed => exact .aligns ⟨names.counter, names.globals⟩ exponent counters placed
  | names label size start content aligned bounded counter fresh address counters placed =>
    exact .names label size start content aligned bounded counter fresh address counters placed
  | places names address size bounded kind whole area counters placed =>
    exact .places ⟨names.counter, names.globals⟩ address size bounded kind whole area counters placed

theorem sameNames_bind (placement : Placement) (file : Nat) : SameNames placement (placement.bind file) := by
  unfold bind
  generalize placement.pending.reverse = labels
  have folded : ∀ bound, SameNames placement bound →
      SameNames placement (labels.foldl (fun placement pending => placement.define file pending.1 pending.2) bound) := by
    induction labels with
    | nil => exact fun _ same => same
    | cons label rest ih =>
      intro bound same
      have next : SameNames bound (bound.define file label.1 label.2) := by
        unfold define
        split <;> exact ⟨rfl, rfl⟩
      exact ih _ ⟨next.counter.trans same.counter, next.globals.trans same.globals⟩
  exact folded _ ⟨rfl, rfl⟩

theorem moves_switch (placement : Placement) (layout : Layout) (file : Nat) (statement : Statement) (area : Area)
    (address : Option Address) : Moves layout statement placement (placement.switch layout file statement area address) := by
  unfold switch
  dsimp only
  split
  · exact .stays ⟨rfl, rfl⟩ rfl rfl
  next address =>
    split
    next fits =>
      simp only [Bool.and_eq_true, Bool.or_eq_true, Bool.not_eq_true', decide_eq_true_eq] at fits
      refine .jumps ⟨rfl, rfl⟩ address fits.1 ?_ rfl rfl
      intro text
      rcases fits.2 with other | aligned
      · exact absurd (other.symm.trans text) (by decide)
      · exact aligned
    · exact .stays ⟨rfl, rfl⟩ rfl rfl

theorem moves_reserve {statement : Statement} {label : Label} {size : Nat}
    (content : statement.content = some (.directive (.external label size))) (placement : Placement) (layout : Layout)
    (file : Nat) : Moves layout statement placement (placement.reserve layout file statement label size) := by
  unfold reserve
  split
  · exact .stays ⟨rfl, rfl⟩ rfl rfl
  next fresh =>
    dsimp only
    split
    · exact .stays ⟨rfl, rfl⟩ rfl rfl
    next fits =>
      refine .names label size _ content rfl (Nat.not_lt.1 fits) rfl fresh ?_ rfl rfl
      simp [SymbolTable.global?, SymbolTable.insertGlobal]

/-- Allocating moves the counter past the statement, if there is room for it. -/
theorem moves_allocate {layout : Layout} {file : Nat} {statement : Statement} {before placement : Placement} {size : Nat}
    (area : placement.area = before.area) (names : SameNames before placement) (kept : placement.placed = before.placed)
    (counters : placement.counters = before.counters.set before.area (alignUp before.counter statement.alignment))
    (kind : statement.IsInstruction ↔ before.area.isText = true)
    (whole : before.area.isText = true → size % 4 = 0) :
    Moves layout statement before (placement.allocate layout file statement size) := by
  have same := samePlaces_bind placement file
  have bound := sameNames_bind placement file
  have allNames : SameNames before (placement.bind file) :=
    ⟨bound.counter.trans names.counter, bound.globals.trans names.globals⟩
  have start : (placement.bind file).counter = alignUp before.counter statement.alignment := by
    rw [same.counter, counter, counters, area]
    simp
  unfold allocate
  dsimp only
  split
  next full =>
    obtain ⟨exponent, -, power⟩ := statement.exists_alignment_eq
    refine .aligns ⟨allNames.counter, allNames.globals⟩ exponent ?_ (same.placed.trans kept)
    exact (same.counters.trans counters).trans (by rw [power])
  next fits =>
    rw [start, same.area, area, Nat.not_lt] at fits
    refine .places ⟨allNames.counter, allNames.globals⟩ (UInt32.ofNat (placement.bind file).counter) size fits kind
      whole (same.area.trans area) ?_ ⟨file, ?_⟩
    · simp only [withCounter, start, same.area, area, same.counters, counters, Counters.set_set]
    · rw [same.placed, kept]

theorem moves_placeInstruction {settings : Settings} {statement : Statement} {written : WrittenInstruction}
    (content : statement.content = some (.instruction written)) (placement : Placement) (file : Nat) :
    Moves settings.layout statement placement (placement.placeInstruction settings file statement written) := by
  unfold placeInstruction
  split
  · exact .stays ⟨rfl, rfl⟩ rfl rfl
  next text =>
    have bound := samePlaces_bind placement file
    split
    next instructions _ =>
      refine moves_allocate rfl ⟨rfl, rfl⟩ rfl ?_ ⟨fun _ => by simpa using text, fun _ => ⟨written, content⟩⟩
        fun _ => Nat.mul_mod_right 4 _
      rw [Statement.alignment, content, alignUp_one]
      exact (Counters.set_get _ _).symm
    next problem _ =>
      have names := sameNames_bind placement file
      exact .stays ⟨names.counter, names.globals⟩ bound.counters bound.placed

theorem moves_placeDirective {settings : Settings} {statement : Statement} {directive : Directive}
    (content : statement.content = some (.directive directive)) (placement : Placement) (file : Nat) :
    Moves settings.layout statement placement (placement.placeDirective settings file statement directive) := by
  have allocated (data : placement.area.isText = false) : Moves settings.layout statement placement
      ((placement.withCounter (alignUp placement.counter directive.alignment)).allocate settings.layout file statement
        directive.size) := by
    have never (text : placement.area.isText = true) : False := absurd (data.symm.trans text) (by decide)
    refine moves_allocate rfl ⟨rfl, rfl⟩ rfl ?_ ⟨?_, fun text => (never text).elim⟩ fun text => (never text).elim
    · rw [Statement.alignment, content]
      rfl
    · rintro ⟨written, other⟩
      cases content.symm.trans other
  unfold placeDirective
  dsimp only
  split
  case h_1 | h_2 | h_3 | h_4 => exact moves_switch ..
  case h_5 exponent => exact .aligns ⟨rfl, rfl⟩ exponent rfl rfl
  case h_6 | h_8 => exact .stays ⟨rfl, rfl⟩ rfl rfl
  case h_7 label size => exact moves_reserve content placement settings.layout file
  case h_9 =>
    split
    next => exact .stays ⟨rfl, rfl⟩ rfl rfl
    next data => exact allocated (by simpa using data)

theorem moves_place (settings : Settings) (file : Nat) (placement : Placement) (statement : Statement) :
    Moves settings.layout statement placement (place settings file placement statement) := by
  unfold place
  dsimp only
  split
  case h_1 => exact .stays ⟨rfl, rfl⟩ rfl rfl
  case h_2 written content => exact (moves_placeInstruction content _ file).of_pending
  case h_3 directive content => exact (moves_placeDirective content _ file).of_pending

/-- No counter lies below its region, those of instructions are aligned, and room is left for what is named. -/
structure Regular (layout : Layout) (placement : Placement) : Prop where
  low : ∀ area, area.low layout ≤ placement.counters.get area
  aligned : ∀ area, area.isText = true → placement.counters.get area % 4 = 0
  room : placement.externCounter ≤ layout.dataBase.toNat

theorem regular_initial {layout : Layout} (separated : layout.Separated) : (initial layout).Regular layout where
  low := by
    intro area
    cases area with
    | data => exact separated.room
    | text | kernelText | kernelData => exact Nat.le_refl _
  aligned := by
    intro area text
    cases area with
    | text => exact separated.textAligned
    | kernelText => exact separated.ktextAligned
    | data | kernelData => cases text
  room := separated.room

/-- A counter may be set to an address of its region that is aligned if instructions are placed there. -/
theorem Regular.set {layout : Layout} {before after : Placement} (regular : before.Regular layout) {area : Area}
    {value : Nat} (counters : after.counters = before.counters.set area value)
    (names : after.externCounter = before.externCounter) (low : area.low layout ≤ value)
    (aligned : area.isText = true → value % 4 = 0) : after.Regular layout where
  low := by
    intro other
    rw [counters, Counters.get_set]
    split
    next same => exact same ▸ low
    next => exact regular.low other
  aligned := by
    intro other text
    rw [counters, Counters.get_set]
    split
    next same => exact aligned (same ▸ text)
    next => exact regular.aligned other text
  room := names ▸ regular.room

/-- Binding labels leaves the counters where they are. -/
theorem Regular.bind {layout : Layout} {placement : Placement} (regular : placement.Regular layout) (file : Nat) :
    (placement.bind file).Regular layout where
  low := (samePlaces_bind placement file).counters ▸ regular.low
  aligned := (samePlaces_bind placement file).counters ▸ regular.aligned
  room := (sameNames_bind placement file).counter ▸ regular.room

/-- The statement was given storage in the region of its kind, and instructions were given aligned storage. -/
structure Lies (layout : Layout) (reservation : Reservation) (area : Area) : Prop where
  inside : reservation.range.Within (area.region layout)
  kind : reservation.placed.statement.IsInstruction ↔ area.isText = true
  aligned : area.isText = true → reservation.start % 4 = 0

/--
What was given out between two placements: statements lie in their regions, and what was named lies between the two
counters of names, one after another.
-/
structure Stored (layout : Layout) (before after : Placement) (reservations : List Reservation) (named : List Range) :
    Prop where
  regular : after.Regular layout
  grown : before.externCounter ≤ after.externCounter
  lies : ∀ reservation ∈ reservations, ∃ area, Lies layout reservation area
  inside : ∀ range ∈ named, before.externCounter ≤ range.start ∧ range.stop ≤ after.externCounter
  apart : named.Pairwise Range.Apart

theorem Stored.append {layout : Layout} {first second third : Placement} {earlier later : List Reservation}
    {names others : List Range} (before : Stored layout first second earlier names)
    (after : Stored layout second third later others) :
    Stored layout first third (earlier ++ later) (names ++ others) where
  regular := after.regular
  grown := Nat.le_trans before.grown after.grown
  lies := by
    intro reservation member
    rcases List.mem_append.1 member with early | late
    · exact before.lies reservation early
    · exact after.lies reservation late
  inside := by
    intro range member
    rcases List.mem_append.1 member with early | late
    · have inside := before.inside range early
      exact ⟨inside.1, Nat.le_trans inside.2 after.grown⟩
    · have inside := after.inside range late
      exact ⟨Nat.le_trans before.grown inside.1, inside.2⟩
  apart := by
    refine List.pairwise_append.2 ⟨before.apart, after.apart, ?_⟩
    intro range early other late
    exact Range.apart_of_le (Nat.le_trans (before.inside range early).2 (after.inside other late).1)

theorem named_of_sameNames {before after : Placement} (same : SameNames before after) (statement : Statement) :
    before.named after statement = [] := by
  unfold named
  split
  · split
    next => rfl
    next label size _ fresh =>
      have unchanged : after.symbols.global? label.name = before.symbols.global? label.name := by
        rw [SymbolTable.global?, SymbolTable.global?, same.globals]
      rw [unchanged, Option.not_isSome_iff_eq_none.1 fresh]
      rfl
  · rfl

/-- A step that places nothing and names nothing gives out nothing. -/
theorem stored_nil {layout : Layout} {before after : Placement} (regular : after.Regular layout)
    (names : SameNames before after) : Stored layout before after [] [] where
  regular := regular
  grown := Nat.le_of_eq names.counter.symm
  lies := by simp
  inside := by simp
  apart := .nil

theorem reserved_of_placed_eq {before after : Placement} (same : after.placed = before.placed) :
    before.reserved after = [] := by
  simp [reserved, same]

/-- What a step gives out. -/
theorem stored_of_moves {layout : Layout} {statement : Statement} {before after : Placement}
    (regular : before.Regular layout) (moves : Moves layout statement before after) :
    Stored layout before after (before.reserved after) (before.named after statement) := by
  cases moves with
  | stays names counters placed =>
    rw [reserved_of_placed_eq placed, named_of_sameNames names]
    refine stored_nil ?_ names
    exact regular.set (counters.trans (Counters.set_get _ .text).symm) names.counter (regular.low _) (regular.aligned _)
  | jumps names address inside aligned counters placed =>
    rw [reserved_of_placed_eq placed, named_of_sameNames names]
    refine stored_nil ?_ names
    exact regular.set counters names.counter (Area.low_le_of_segmentOf inside)
      fun text => (Word.isAligned_iff address).1 (aligned text)
  | aligns names exponent counters placed =>
    rw [reserved_of_placed_eq placed, named_of_sameNames names]
    refine stored_nil ?_ names
    refine regular.set counters names.counter ?_ fun text => alignUp_mod_four (regular.aligned _ text) exponent
    exact Nat.le_trans (regular.low before.area) (le_alignUp before.counter (Nat.pow_pos (by decide)))
  | names label size start content aligned bounded counter fresh address counters placed =>
    rw [reserved_of_placed_eq placed]
    have small := layout.dataBase.toNat_lt
    have above : before.externCounter ≤ start := aligned ▸ le_alignUp _ (by decide)
    obtain ⟨symbol, found, located⟩ := Option.map_eq_some_iff.1 address
    have position : symbol.address.toNat = start := by
      rw [located, UInt32.toNat_ofNat', Nat.mod_eq_of_lt (by omega)]
    have single : before.named after statement = [⟨start, start + size⟩] := by
      simp [named, content, fresh, found, position]
    rw [single]
    constructor
    case regular =>
      refine ⟨?_, ?_, ?_⟩
      · rw [counters]
        exact regular.low
      · rw [counters]
        exact regular.aligned
      · rw [counter]
        exact bounded
    case grown => omega
    case lies => simp
    case inside => simp [above, counter]
    case apart => exact List.pairwise_singleton _ _
  | places names address size bounded kind whole area counters placed =>
    rw [named_of_sameNames names]
    obtain ⟨file, placed⟩ := placed
    let start := alignUp before.counter statement.alignment
    obtain ⟨exponent, -, power⟩ := statement.exists_alignment_eq
    have above : before.counter ≤ start := le_alignUp _ (power ▸ Nat.pow_pos (by decide))
    have low : before.area.low layout ≤ start := Nat.le_trans (regular.low before.area) above
    have stop : after.counter = start + size := by
      rw [counter, counters, area]
      simp [start]
    have aligned (text : before.area.isText = true) : start % 4 = 0 := by
      change alignUp before.counter statement.alignment % 4 = 0
      rw [power]
      exact alignUp_mod_four (regular.aligned _ text) exponent
    have single : before.reserved after = [⟨⟨file, statement, address⟩, start, start + size⟩] := by
      simp [reserved, placed, stop, start]
    rw [single]
    constructor
    case regular =>
      refine regular.set counters names.counter (Nat.le_trans low (Nat.le_add_right _ _)) ?_
      intro text
      rw [Nat.add_mod, aligned text, whole text]
    case grown => exact Nat.le_of_eq names.counter.symm
    case lies =>
      intro reservation member
      rw [List.mem_singleton.1 member]
      exact ⟨before.area, ⟨low, bounded⟩, kind, aligned⟩
    case inside => simp
    case apart => exact .nil

/-- What statements are given that are placed one after another. -/
theorem stored_statements (settings : Settings) (file : Nat) (statements : List Statement) {placement : Placement}
    (regular : placement.Regular settings.layout) :
    Stored settings.layout placement (statements.foldl (place settings file) placement)
      (placement.reservationsOf settings file statements) (placement.namedOf settings file statements) := by
  induction statements generalizing placement with
  | nil => exact stored_nil regular ⟨rfl, rfl⟩
  | cons statement rest ih =>
    have first := stored_of_moves regular (moves_place settings file placement statement)
    exact first.append (ih first.regular)

/-- What the statements of files are given. -/
theorem stored_files (settings : Settings) (file : Nat) (files : List (List Statement)) {placement : Placement}
    (regular : placement.Regular settings.layout) :
    Stored settings.layout placement (placement.placeFiles settings file files)
      (placement.reservationsOfFiles settings file files) (placement.namedOfFiles settings file files) := by
  induction files generalizing placement file with
  | nil => exact stored_nil regular ⟨rfl, rfl⟩
  | cons statements rest ih =>
    have begun : Regular settings.layout { placement with area := .text, pending := [] } :=
      ⟨regular.low, regular.aligned, regular.room⟩
    have first := stored_statements settings file statements begun
    let placed := statements.foldl (place settings file) { placement with area := .text, pending := [] }
    have names := sameNames_bind placed file
    -- A file ends with binding the labels that are left over, which gives out nothing.
    have ended : Regular settings.layout (placement.placeFile settings file statements) := first.regular.bind file
    have whole : Stored settings.layout placement (placement.placeFile settings file statements)
        (reservationsOf { placement with area := .text, pending := [] } settings file statements)
        (namedOf { placement with area := .text, pending := [] } settings file statements) :=
      ⟨ended, Nat.le_trans first.grown (Nat.le_of_eq names.counter.symm), first.lies, fun range member =>
        ⟨(first.inside range member).1, Nat.le_trans (first.inside range member).2 (Nat.le_of_eq names.counter.symm)⟩,
        first.apart⟩
    exact whole.append (ih (file + 1) ended)

/-- What all files are given: every statement lies in its region, and what is named lies at the beginning of the data. -/
theorem stored_reservations {settings : Settings} (separated : settings.layout.Separated)
    (files : List (List Statement)) :
    (∀ reservation ∈ reservations settings files, ∃ area, Lies settings.layout reservation area) ∧
      (∀ range ∈ namedReservations settings files,
        range.Within ⟨settings.layout.externBase.toNat, settings.layout.dataBase.toNat⟩) ∧
      (namedReservations settings files).Pairwise Range.Apart := by
  have stored := stored_files settings 0 files (regular_initial separated)
  refine ⟨stored.lies, ?_, stored.apart⟩
  intro range member
  have inside := stored.inside range member
  exact ⟨inside.1, Nat.le_trans inside.2 stored.regular.room⟩

end Placement

end Mips
