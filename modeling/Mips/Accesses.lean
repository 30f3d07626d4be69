import Mips.Word
import Std.Data.ExtTreeMap

/-!
Which words of memory were loaded, stored and changed.
-/

namespace Mips

open Std (ExtTreeMap)

/-- The kinds of access that a word has seen. -/
structure AccessSet where
  read : Bool := false
  written : Bool := false
  /-- A store gave the word another value, or made it present. -/
  modified : Bool := false
  deriving DecidableEq, Repr

namespace AccessSet

def none : AccessSet := {}

def union (first second : AccessSet) : AccessSet where
  read := first.read || second.read
  written := first.written || second.written
  modified := first.modified || second.modified

instance : Union AccessSet := ⟨union⟩

def isAccessed (set : AccessSet) : Bool := set.read || set.written || set.modified

/-- The set with the kind that a letter stands for: `r` read, `w` written, and any other modified. -/
def insertLetter (set : AccessSet) : Char → AccessSet
  | 'r' => { set with read := true }
  | 'w' => { set with written := true }
  | _ => { set with modified := true }

end AccessSet

/-- The accesses that words have seen, under their aligned addresses. -/
structure Accesses where
  words : ExtTreeMap Address AccessSet

namespace Accesses

def empty : Accesses := ⟨∅⟩

/-- The accesses that the word with the byte at an address has seen. -/
def get (accesses : Accesses) (address : Address) : AccessSet :=
  accesses.words[Word.align address]?.getD .none

/-- The accesses with more of them for the word with the byte at an address. -/
def add (accesses : Accesses) (address : Address) (set : AccessSet) : Accesses :=
  ⟨accesses.words.insert (Word.align address) (accesses.get address ∪ set)⟩

/-- The words that have an entry, in the order of their addresses. -/
def toList (accesses : Accesses) : List (Address × AccessSet) := accesses.words.toList

theorem get_add (accesses : Accesses) (address other : Address) (set : AccessSet) :
    (accesses.add address set).get other =
      if Word.align address = Word.align other then accesses.get other ∪ set
      else accesses.get other := by
  simp only [get, add, Std.ExtTreeMap.getElem?_insert, Std.compare_eq_iff_eq]
  split
  next same => simp [same]
  next => rfl

end Accesses

end Mips
