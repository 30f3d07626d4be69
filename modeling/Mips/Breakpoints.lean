import Mips.Word
import Std.Data.ExtTreeMap

/-!
The addresses before which a run stops.
-/

namespace Mips

open Std (ExtTreeMap)

/-- Addresses at which there is a breakpoint, each with whether it is enabled. -/
structure Breakpoints where
  entries : ExtTreeMap Address Bool := ∅
  /-- Whether those that are enabled have an effect. -/
  enabled : Bool := true

namespace Breakpoints

def empty : Breakpoints := {}

/-- Whether there is a breakpoint at an address, and whether it is enabled. -/
def get? (breakpoints : Breakpoints) (address : Address) : Option Bool :=
  breakpoints.entries[address]?

def insert (breakpoints : Breakpoints) (address : Address) : Breakpoints :=
  { breakpoints with entries := breakpoints.entries.insert address true }

def erase (breakpoints : Breakpoints) (address : Address) : Breakpoints :=
  { breakpoints with entries := breakpoints.entries.erase address }

/-- The breakpoints with the one at an address, if there is one, enabled or disabled. -/
def toggle (breakpoints : Breakpoints) (address : Address) : Breakpoints :=
  match breakpoints.get? address with
  | some enabled =>
    { breakpoints with entries := breakpoints.entries.insert address !enabled }
  | none => breakpoints

/-- The breakpoints with the effect of all of them switched on or off. -/
def toggleAll (breakpoints : Breakpoints) : Breakpoints :=
  { breakpoints with enabled := !breakpoints.enabled }

/-- The breakpoints without any entry; whether they have an effect does not change. -/
def clear (breakpoints : Breakpoints) : Breakpoints := { breakpoints with entries := ∅ }

def check (breakpoints : Breakpoints) (address : Address) : Bool :=
  breakpoints.enabled && (breakpoints.get? address).getD false

def size (breakpoints : Breakpoints) : Nat := breakpoints.entries.size

/-- The breakpoints in the order of their addresses, each with whether it is enabled. -/
def toList (breakpoints : Breakpoints) : List (Address × Bool) := breakpoints.entries.toList

end Breakpoints

end Mips
