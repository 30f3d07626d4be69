import Mips.Assembly.Placement
import Mips.Proofs.Directive.Size

/-!
What is reserved for statements while they are placed. A placed statement lies where the counter of its area was, once
that was aligned, and its range ends where the counter is afterwards. Main statement: `accounts_reservations`.
-/

namespace Mips

/-- The alignment of the address that the statement is given. -/
def Statement.alignment (statement : Statement) : Nat :=
  match statement.content with
  | some (.directive directive) => directive.alignment
  | _ => 1

/-- A placed statement and the range of addresses that was reserved for it; `stop` is the first number past it. -/
structure Reservation where
  placed : Placed
  start : Nat
  stop : Nat

/-- The statement takes so many bytes from an address on, by what is known before the labels are. -/
def Statement.Takes (settings : Settings) (statement : Statement) (address : Address) (size : Nat) : Prop :=
  match statement.content with
  | none => False
  | some (.instruction written) =>
    ∃ instructions, size = 4 * instructions.length ∧
      written.expand ⟨address, settings.extendedAssembler, settings.delayedBranching, none⟩ = .ok instructions
  | some (.directive directive) => size = directive.size

/-- The range lies in the address space, begins at the address of the statement, and is as long as the statement. -/
structure Reservation.Sound (settings : Settings) (reservation : Reservation) : Prop where
  address : reservation.placed.address = UInt32.ofNat reservation.start
  ordered : reservation.start ≤ reservation.stop
  bounded : reservation.stop ≤ 0x100000000
  takes : reservation.placed.statement.Takes settings reservation.placed.address
    (reservation.stop - reservation.start)
  readable : reservation.placed.statement.IsReadable

theorem Area.stop_le (layout : Layout) (area : Area) : area.stop layout ≤ 0x100000000 := by
  have small : ∀ address : Address, address.toNat ≤ 0x100000000 := fun address => Nat.le_of_lt address.toNat_lt
  cases area with
  | kernelData => exact Nat.le_refl _
  | _ => exact small _

theorem alignUp_one (address : Nat) : alignUp address 1 = address := by
  unfold alignUp
  omega

namespace Placement

/-- What has been reserved between two placements, where at most one statement was placed. -/
def reserved (before after : Placement) : List Reservation :=
  (after.placed.take (after.placed.length - before.placed.length)).map fun placed =>
    ⟨placed, alignUp before.counter placed.statement.alignment, after.counter⟩

/-- What is reserved for statements that are placed one after another. -/
def reservationsOf (placement : Placement) (settings : Settings) (file : Nat) : List Statement → List Reservation
  | [] => []
  | statement :: rest =>
    let after := place settings file placement statement
    placement.reserved after ++ after.reservationsOf settings file rest

/-- What is reserved for files that are counted from `file`. -/
def reservationsOfFiles (placement : Placement) (settings : Settings) (file : Nat) :
    List (List Statement) → List Reservation
  | [] => []
  | statements :: rest =>
    reservationsOf { placement with area := .text, pending := [] } settings file statements ++
      (placement.placeFile settings file statements).reservationsOfFiles settings (file + 1) rest

/-- What is reserved for the statements of all files, in the order in which they are placed. -/
def reservations (settings : Settings) (files : List (List Statement)) : List Reservation :=
  (initial settings.layout).reservationsOfFiles settings 0 files

@[simp] theorem counter_withCounter (placement : Placement) (value : Nat) :
    (placement.withCounter value).counter = value := by
  simp [counter, withCounter]

/-- Binding labels and reporting problems changes neither the counters nor what is placed. -/
structure SamePlaces (before after : Placement) : Prop where
  area : after.area = before.area
  counters : after.counters = before.counters
  placed : after.placed = before.placed

theorem SamePlaces.counter {before after : Placement} (same : SamePlaces before after) :
    after.counter = before.counter := by
  unfold Placement.counter
  rw [same.area, same.counters]

theorem samePlaces_define (placement : Placement) (file : Nat) (label : Label) (line : Nat) :
    SamePlaces placement (placement.define file label line) := by
  unfold define
  split <;> exact ⟨rfl, rfl, rfl⟩

theorem samePlaces_bind (placement : Placement) (file : Nat) : SamePlaces placement (placement.bind file) := by
  unfold bind
  generalize placement.pending.reverse = labels
  have folded : ∀ bound, SamePlaces placement bound →
      SamePlaces placement (labels.foldl (fun placement pending => placement.define file pending.1 pending.2) bound) := by
    induction labels with
    | nil => exact fun _ same => same
    | cons label rest ih =>
      intro bound same
      have next := samePlaces_define bound file label.1 label.2
      exact ih _ ⟨next.area.trans same.area, next.counters.trans same.counters, next.placed.trans same.placed⟩
  exact folded _ ⟨rfl, rfl, rfl⟩

/--
What a step of placing does: it places nothing, or it places the statement at the aligned counter and moves the counter
past it.
-/
inductive Step (settings : Settings) (file : Nat) (statement : Statement) (before after : Placement) : Prop where
  | passed (placed : after.placed = before.placed)
  | placed (start size : Nat) (aligned : start = alignUp before.counter statement.alignment)
    (takes : statement.Takes settings (UInt32.ofNat start) size) (bounded : start + size ≤ 0x100000000)
    (counter : after.counter = start + size)
    (placed : after.placed = ⟨file, statement, UInt32.ofNat start⟩ :: before.placed)

/-- Which labels are pending makes no difference to a step. -/
theorem Step.of_pending {settings : Settings} {file : Nat} {statement : Statement} {before after : Placement}
    {pending : List (Label × Nat)} (step : Step settings file statement { before with pending := pending } after) :
    Step settings file statement before after := by
  cases step with
  | passed placed => exact .passed placed
  | placed start size aligned takes bounded counter placed =>
    exact .placed start size aligned takes bounded counter placed

/-- Allocating places the statement at the counter, if there is room for it. -/
theorem step_allocate {settings : Settings} {file : Nat} {statement : Statement} {before placement : Placement}
    {size : Nat} (aligned : placement.counter = alignUp before.counter statement.alignment)
    (kept : placement.placed = before.placed)
    (takes : statement.Takes settings (UInt32.ofNat placement.counter) size) :
    Step settings file statement before (placement.allocate settings.layout file statement size) := by
  have bound := samePlaces_bind placement file
  unfold allocate
  dsimp only
  split
  next full => exact .passed (bound.placed.trans kept)
  next fits =>
    -- Binding labels comes first, but it leaves the counter alone, so the address is the one that was sized for.
    have below := Area.stop_le settings.layout (placement.bind file).area
    rw [bound.counter] at fits ⊢
    refine .placed placement.counter size aligned takes (by omega) ?_ ?_
    · exact counter_withCounter _ _
    · rw [bound.placed, kept]

theorem step_placeInstruction {settings : Settings} {statement : Statement} {written : WrittenInstruction}
    (content : statement.content = some (.instruction written)) (placement : Placement) (file : Nat) :
    Step settings file statement placement (placement.placeInstruction settings file statement written) := by
  unfold placeInstruction
  split
  · exact .passed rfl
  · split
    next instructions sized =>
      refine step_allocate ?_ rfl ?_
      · rw [Statement.alignment, content, alignUp_one]
      · rw [Statement.Takes, content]
        exact ⟨instructions, rfl, sized⟩
    next problem failed => exact .passed (samePlaces_bind placement file).placed

theorem placed_switch (placement : Placement) (layout : Layout) (file : Nat) (statement : Statement) (area : Area)
    (address : Option Address) : (placement.switch layout file statement area address).placed = placement.placed := by
  unfold switch
  dsimp only
  split
  · rfl
  · split <;> rfl

theorem placed_reserve (placement : Placement) (layout : Layout) (file : Nat) (statement : Statement)
    (label : Label) (size : Nat) : (placement.reserve layout file statement label size).placed = placement.placed := by
  unfold reserve
  split
  · rfl
  · dsimp only
    split <;> rfl

theorem step_placeDirective {settings : Settings} {statement : Statement} {directive : Directive}
    (content : statement.content = some (.directive directive)) (placement : Placement) (file : Nat) :
    Step settings file statement placement (placement.placeDirective settings file statement directive) := by
  have allocated : Step settings file statement placement
      ((placement.withCounter (alignUp placement.counter directive.alignment)).allocate settings.layout file statement
        directive.size) := by
    refine step_allocate ?_ rfl ?_
    · rw [counter_withCounter, Statement.alignment, content]
    · rw [Statement.Takes, content]
  unfold placeDirective
  dsimp only
  split
  case h_1 | h_2 | h_3 | h_4 => exact .passed (placed_switch ..)
  case h_5 | h_6 | h_8 => exact .passed rfl
  case h_7 => exact .passed (placed_reserve ..)
  case h_9 =>
    split
    · exact .passed rfl
    · exact allocated

theorem step_place (settings : Settings) (file : Nat) (placement : Placement) (statement : Statement) :
    Step settings file statement placement (place settings file placement statement) := by
  unfold place
  dsimp only
  split
  case h_1 => exact .passed rfl
  case h_2 written content => exact (step_placeInstruction content _ file).of_pending
  case h_3 directive content => exact (step_placeDirective content _ file).of_pending

/-- Everything that is reserved is sound, and it is reserved for what is placed. -/
structure Accounts (settings : Settings) (before after : Placement) (reservations : List Reservation) : Prop where
  sound : ∀ reservation ∈ reservations, reservation.Sound settings
  placed : after.placed.reverse = before.placed.reverse ++ reservations.map Reservation.placed

theorem Accounts.append {settings : Settings} {first second third : Placement} {earlier later : List Reservation}
    (before : Accounts settings first second earlier) (after : Accounts settings second third later) :
    Accounts settings first third (earlier ++ later) := by
  constructor
  · intro reservation member
    rcases List.mem_append.1 member with early | late
    · exact before.sound reservation early
    · exact after.sound reservation late
  · rw [after.placed, before.placed, List.map_append, List.append_assoc]

theorem accounts_nil {settings : Settings} {before after : Placement} (same : after.placed = before.placed) :
    Accounts settings before after [] := by
  constructor
  · intro reservation member
    cases member
  · rw [same, List.map_nil, List.append_nil]

/-- What a step reserves is sound, and it is what the step has placed. -/
theorem accounts_reserved {settings : Settings} {file : Nat} {statement : Statement} {before after : Placement}
    (step : Step settings file statement before after) (readable : statement.IsReadable) :
    Accounts settings before after (before.reserved after) := by
  cases step with
  | passed placed =>
    have nothing : before.reserved after = [] := by simp [reserved, placed]
    rw [nothing]
    exact accounts_nil placed
  | placed start size aligned takes bounded counter placed =>
    have single : before.reserved after = [⟨⟨file, statement, UInt32.ofNat start⟩, start, start + size⟩] := by
      simp [reserved, placed, aligned, counter]
    rw [single]
    constructor
    · intro reservation member
      rw [List.mem_singleton.1 member]
      refine ⟨rfl, Nat.le_add_right _ _, bounded, ?_, readable⟩
      rw [Nat.add_sub_cancel_left]
      exact takes
    · rw [placed, List.reverse_cons]
      rfl

theorem accounts_reservationsOf (settings : Settings) {statements : List Statement}
    (readable : ∀ statement ∈ statements, statement.IsReadable) (placement : Placement) (file : Nat) :
    Accounts settings placement (statements.foldl (place settings file) placement)
      (placement.reservationsOf settings file statements) := by
  induction statements generalizing placement with
  | nil => exact accounts_nil rfl
  | cons statement rest ih =>
    rw [List.forall_mem_cons] at readable
    have first := accounts_reserved (step_place settings file placement statement) readable.1
    exact first.append (ih readable.2 _)

theorem accounts_reservationsOfFiles (settings : Settings) {files : List (List Statement)}
    (readable : ∀ statements ∈ files, ∀ statement ∈ statements, statement.IsReadable) (placement : Placement)
    (file : Nat) :
    Accounts settings placement (placement.placeFiles settings file files)
      (placement.reservationsOfFiles settings file files) := by
  induction files generalizing placement file with
  | nil => exact accounts_nil rfl
  | cons statements rest ih =>
    rw [List.forall_mem_cons] at readable
    have first := accounts_reservationsOf settings readable.1
      { placement with area := .text, pending := [] } file
    have bound := (samePlaces_bind (statements.foldl (place settings file)
      { placement with area := .text, pending := [] }) file).placed
    -- A file ends with binding the labels that are left over, which places nothing.
    refine Accounts.append ⟨first.sound, ?_⟩ (ih readable.2 _ _)
    rw [placeFile, bound]
    exact first.placed

theorem placed_share (placement : Placement) (shared : Export) : (placement.share shared).placed = placement.placed := by
  unfold share
  dsimp only
  split
  · split <;> rfl
  · split <;> rfl

theorem placed_shareAll (placement : Placement) : placement.shareAll.placed = placement.placed := by
  unfold shareAll
  generalize placement.exports.reverse = exports
  induction exports generalizing placement with
  | nil => rfl
  | cons shared rest ih => exact (ih _).trans (placed_share placement shared)

theorem accounts_reservations {settings : Settings} {files : List (List Statement)}
    (readable : ∀ statements ∈ files, ∀ statement ∈ statements, statement.IsReadable) :
    Accounts settings (initial settings.layout) (ofFiles settings files) (reservations settings files) := by
  have accounts := accounts_reservationsOfFiles settings readable (initial settings.layout) 0
  constructor
  · exact accounts.sound
  · rw [ofFiles, placed_shareAll]
    exact accounts.placed

end Placement

end Mips
