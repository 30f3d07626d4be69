import Mips.Proofs.Simulator.DelaySlot

/-!
Parts of the machine that the machines before it account for. If what is seen of a machine is restored from what is seen
alone, and each instruction keeps account of it, then it is accounted for in every state that can be reached, whatever
was undone on the way there. Main statement: `followed_of_reached`.
-/

namespace Mips

variable [Generator] {β : Type}

/-- The instructions executed in the machines before account for what is seen of a machine, from any beginning on. -/
structure Accounts (view : Machine → β) (holds : β → List Machine → Prop) : Prop where
  restored : ∀ {first second : Machine}, view first = view second → ∀ assignment,
    view (first.assign assignment) = view (second.assign assignment)
  begun : ∀ machine, holds (view machine) []
  stepped : ∀ {machine : Machine} {past : List Machine} {delayed : Bool} {κ : Type} [Console κ] {console : κ}
    {surroundings : Surroundings} {step : Step κ}, holds (view machine) past →
      Step.ofMachine machine delayed console surroundings = some step →
        holds (view (machine.assignAll step.assignments)) (machine :: past)
  edited : ∀ machine register value, view (machine.assign (.register register value)) = view machine
  poked : ∀ (machine : Machine) (memory : Memory), view { machine with memory } = view machine

namespace Simulator

variable {κ : Type} {view : Machine → β} {holds : β → List Machine → Prop} {simulator : Simulator κ}
  {past : List Machine}

/-- The machines before a simulator account for what is seen of it, and those that can be undone to are the latest. -/
structure Followed (view : Machine → β) (holds : β → List Machine → Prop) (simulator : Simulator κ)
    (past : List Machine) : Prop where
  recent : simulator.history.map view <+: past.map view
  before : ∀ later earlier, later :: earlier <:+ past → holds (view later) earlier
  current : holds (view simulator.machine) past

/-- Undoing an instruction leads to what was seen before it. -/
theorem Followed.stepBack {after : Simulator κ} (followed : simulator.Followed view holds past)
    (undone : simulator.stepBack = some after) : after.Followed view holds past.tail := by
  obtain ⟨popped, -⟩ := history_of_stepBack undone
  have recent := followed.recent
  rw [popped] at recent
  cases past with
  | nil => exact absurd (List.prefix_nil.1 recent) (by simp)
  | cons last earlier =>
    obtain ⟨same, rest⟩ := List.cons_prefix_cons.1 recent
    refine ⟨rest, fun later others suffix => ?_, ?_⟩
    · exact followed.before later others (suffix.trans (List.suffix_cons last earlier))
    · rw [same]
      exact followed.before last earlier (List.suffix_refl _)

end Simulator

namespace Accounts

variable {κ : Type} {view : Machine → β} {holds : β → List Machine → Prop} (accounts : Accounts view holds)
  {simulator : Simulator κ} {past : List Machine}

include accounts

theorem restored_all {first second : Machine} (same : view first = view second) (assignments : List Assignment) :
    view (first.assignAll assignments) = view (second.assignAll assignments) := by
  induction assignments generalizing first second with
  | nil => exact same
  | cons assignment rest ih => exact ih (accounts.restored same assignment)

/-- Undoing leads to what is seen from what is seen alone. -/
theorem map_unwound {first second : Machine} (same : view first = view second) (groups : List (List Assignment)) :
    (first.unwound groups).map view = (second.unwound groups).map view := by
  induction groups generalizing first second with
  | nil => rfl
  | cons group rest ih =>
    have restored : view (first.restoreAll group) = view (second.restoreAll group) :=
      accounts.restored_all same group.reverse
    simp only [Machine.unwound, List.map_cons, restored, ih restored]

theorem fresh (simulator : Simulator κ) (empty : simulator.log.undoable = []) : simulator.Followed view holds [] where
  recent := by simp [Simulator.history, empty, Machine.unwound]
  before := by simp
  current := accounts.begun _

/-- What is seen alike and can undo the same is followed alike. -/
theorem congr {first second : Simulator κ} (followed : first.Followed view holds past)
    (same : view second.machine = view first.machine) (undoable : second.log.undoable = first.log.undoable) :
    second.Followed view holds past where
  recent := by
    rw [Simulator.history, undoable, accounts.map_unwound same]
    exact followed.recent
  before := followed.before
  current := same ▸ followed.current

theorem of_sameUndo {first second : Simulator κ} (followed : first.Followed view holds past)
    (same : Simulator.SameUndo second first) : second.Followed view holds past :=
  accounts.congr followed (congrArg view same.1) (congrArg UndoLog.undoable same.2)

theorem advance [Console κ] (followed : simulator.Followed view holds past) (outside : Outside) :
    (simulator.advance outside).2.Followed view holds (simulator.executing outside ++ past) := by
  cases found : simulator.nextStep? outside with
  | none =>
    rw [Simulator.executing, found, Simulator.advance_of_none found]
    obtain ⟨machine, log⟩ :=
      Simulator.sameUndo_terminate { simulator with log := simulator.log.start.abandon } .droppedOffBottom
    exact accounts.congr followed (congrArg view machine)
      ((congrArg UndoLog.undoable log).trans simulator.log.undoable_start)
  | some step =>
    rw [Simulator.executing, found]
    refine ⟨?_, ?_, ?_⟩
    · have shorter := (Simulator.history_advance_of_some found).map view
      exact shorter.trans (List.cons_prefix_cons.2 ⟨rfl, followed.recent⟩)
    · intro later earlier suffix
      rcases List.suffix_cons_iff.1 suffix with whole | rest
      · cases whole
        exact followed.current
      · exact followed.before later earlier rest
    · have same := congrArg view (Simulator.sameUndo_advance found).1
      rw [same]
      exact accounts.stepped followed.current found

theorem reset (simulator : Simulator κ) : simulator.reset.Followed view holds [] := by
  refine accounts.fresh _ ?_
  unfold Simulator.reset
  split
  next program _ => rw [Simulator.log_load, UndoLog.undoable_empty]
  next =>
    rw [Simulator.log_setState]
    exact UndoLog.undoable_empty _

/-- In every state that can be reached the machines before it account for what is seen of it. -/
theorem followed_of_reached [Console κ] (reached : Simulator.Reached simulator past) :
    simulator.Followed view holds past := by
  induction reached with
  | create created =>
    unfold Simulator.create at created
    split at created
    · cases created
    · cases created
      exact accounts.fresh _ (UndoLog.undoable_empty _)
  | @load simulator past reached program ih =>
    exact accounts.fresh _ (by rw [Simulator.log_load, UndoLog.undoable_empty])
  | @reset simulator past reached ih => exact accounts.reset simulator
  | advance reached live outside ih => exact accounts.advance ih outside
  | resume reached live ih | pause reached live ih => exact accounts.of_sameUndo ih (Simulator.sameUndo_setState _ _)
  | stop reached live ih => exact accounts.of_sameUndo ih (Simulator.sameUndo_terminate _ _)
  | stepBack reached undone ih => exact ih.stepBack undone
  | setRegister reached register value ih => exact accounts.congr ih (accounts.edited _ register value) rfl
  | @poke simulator after past reached width address value poked ih =>
    obtain ⟨memory, -, rfl⟩ := map_eq_ok_iff.1 poked
    exact accounts.congr ih (accounts.poked _ memory) rfl
  | aside reached console breakpoints accesses events outstanding ih => exact accounts.congr ih rfl rfl

end Accounts

end Mips
