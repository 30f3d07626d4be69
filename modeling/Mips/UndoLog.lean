import Mips.Machine

/-!
The log of what restores the machine, one group for each instruction that was executed, of which only the last
so many can be undone. Main statements: `undoable_push` and `undoable_pop`, by which the log is a stack that loses
its oldest group when it is full.
-/

namespace Mips

variable [Generator]

/--
A log of groups of assignments that restore the machine, each in the order it was recorded. Groups that can no
longer be undone are dropped many at a time, so that a new group costs no more than a fixed amount on average.
-/
structure UndoLog where
  /-- How many groups can be undone at most; zero if nothing is recorded. -/
  capacity : Nat
  /-- The groups, the newest one first. -/
  groups : List (List Assignment) := []
  /-- How many of the groups can be undone. -/
  size : Nat := 0
  /-- How many older groups are held that can no longer be undone. -/
  surplus : Nat := 0
  /-- What has been recorded for an instruction that is not complete. -/
  unfinished : Option (List Assignment) := none
  length_groups : groups.length = size + surplus := by rfl
  size_le_capacity : size ≤ capacity := by simp

namespace UndoLog

def empty (capacity : Nat) : UndoLog where
  capacity := capacity

/-- The groups that can be undone, the newest one first. -/
def undoable (log : UndoLog) : List (List Assignment) := log.groups.take log.size

def isEnabled (log : UndoLog) : Bool := 0 < log.capacity

def isEmpty (log : UndoLog) : Bool := log.size = 0

/-- Adds a group; a full log loses its oldest one. -/
def push (log : UndoLog) (group : List Assignment) : UndoLog :=
  if room : log.size < log.capacity then
    { log with
      groups := group :: log.groups
      size := log.size + 1
      length_groups := by simp [log.length_groups]; omega
      size_le_capacity := room }
  else if log.surplus < log.capacity then
    { log with
      groups := group :: log.groups
      surplus := log.surplus + 1
      length_groups := by simp [log.length_groups]; omega }
  else
    { log with
      groups := (group :: log.groups).take log.capacity
      size := log.capacity
      surplus := 0
      length_groups := by simp [log.length_groups]; omega
      size_le_capacity := Nat.le_refl _ }

/-- The newest group that can be undone, and the log without it. -/
def pop? (log : UndoLog) : Option (List Assignment × UndoLog) :=
  match held : log.groups, counted : log.size with
  | group :: rest, size + 1 =>
    some (group,
      { log with
        groups := rest
        size := size
        length_groups := by have := log.length_groups; simp [held, counted] at this; omega
        size_le_capacity := by have := log.size_le_capacity; omega })
  | _, _ => none

/-- Opens a group, if the log records anything. -/
def start (log : UndoLog) : UndoLog :=
  if log.isEnabled then { log with unfinished := some [] } else log

/-- Adds entries to the open group, if there is one. -/
def record (log : UndoLog) (entries : List Assignment) : UndoLog :=
  { log with unfinished := log.unfinished.map (· ++ entries) }

def abandon (log : UndoLog) : UndoLog := { log with unfinished := none }

/-- Closes the open group and keeps it; without one nothing changes. -/
def commit (log : UndoLog) : UndoLog :=
  match log.unfinished with
  | some group => log.abandon.push group
  | none => log

def clear (log : UndoLog) : UndoLog := empty log.capacity

/-- The machine and the log after undoing the newest group, if there is one. -/
def stepBack (log : UndoLog) (machine : Machine) : Option (Machine × UndoLog) :=
  log.pop?.map fun (group, log) => (machine.restoreAll group, log)

@[simp] theorem undoable_empty (capacity : Nat) : (empty capacity).undoable = [] := rfl

@[simp] theorem length_undoable (log : UndoLog) : log.undoable.length = log.size := by
  simp [undoable, log.length_groups]

/-- A new group is the first that can be undone; a full log loses its oldest one. -/
theorem undoable_push (log : UndoLog) (group : List Assignment) :
    (log.push group).undoable = (group :: log.undoable).take log.capacity := by
  have bounded := log.size_le_capacity
  unfold push
  split
  next room =>
    have fits : (group :: log.undoable).length ≤ log.capacity := by simp; omega
    rw [List.take_of_length_le fits]
    rfl
  next full =>
    have same : log.size = log.capacity := by omega
    split <;> simp only [undoable] <;> cases held : log.capacity <;>
      simp [same, held, List.take_take]

/-- The newest group is undone first. -/
theorem undoable_pop {log rest : UndoLog} {group : List Assignment}
    (popped : log.pop? = some (group, rest)) :
    log.undoable = group :: rest.undoable ∧ rest.capacity = log.capacity := by
  unfold pop? at popped
  split at popped
  next first others size held counted =>
    simp only [Option.some.injEq, Prod.mk.injEq] at popped
    obtain ⟨rfl, rfl⟩ := popped
    simp [undoable, held, counted]
  next => simp at popped

/-- There is nothing to undo exactly if no group can be undone. -/
theorem pop?_eq_none_iff {log : UndoLog} : log.pop? = none ↔ log.undoable = [] := by
  have total := log.length_groups
  unfold pop?
  split
  next first others size held counted => simp [undoable, held, counted]
  next away =>
    simp only [undoable, List.take_eq_nil_iff, true_iff]
    cases held : log.groups with
    | nil => exact .inr rfl
    | cons first others =>
      cases counted : log.size with
      | zero => exact .inl rfl
      | succ size => exact absurd counted (away first others size held)

end UndoLog

end Mips
