import Mips.Text.Numeral

/-!
The 32 general-purpose registers and the names they are written with.
Main statement: `ofName?_name`, by which every register is found again under its own name.
-/

namespace Mips

/-- A general-purpose register, known by its number. -/
structure Register where
  number : Fin 32
  deriving DecidableEq, Repr

namespace Register

/-- The conventional names, in the order of the numbers. -/
def names : Vector String 32 :=
  #v["zero", "at", "v0", "v1", "a0", "a1", "a2", "a3",
     "t0", "t1", "t2", "t3", "t4", "t5", "t6", "t7",
     "s0", "s1", "s2", "s3", "s4", "s5", "s6", "s7",
     "t8", "t9", "k0", "k1", "gp", "sp", "fp", "ra"]

def zero : Register := ⟨0⟩
/-- The register that expansions compute in, written `$at`. -/
def scratch : Register := ⟨1⟩
def v0 : Register := ⟨2⟩
def a0 : Register := ⟨4⟩
def a1 : Register := ⟨5⟩
def gp : Register := ⟨28⟩
def sp : Register := ⟨29⟩
def fp : Register := ⟨30⟩
def ra : Register := ⟨31⟩

/-- All registers, by number. -/
def all : List Register := (List.finRange 32).map Register.mk

/-- The conventional name, without the dollar sign. -/
def name (register : Register) : String := names[register.number]

def text (register : Register) : String := "$" ++ register.name

/-- The register with this number, if there is one. -/
def ofNumber? (number : Nat) : Option Register :=
  if small : number < 32 then some ⟨⟨number, small⟩⟩ else none

/-- The register that the low five bits of a word select. -/
def ofField (field : Word) : Register := ⟨Fin.ofNat 32 field.toNat⟩

/--
The register a name stands for: a name of digits is the register's number, `s8` is another
name for `fp`, and any other name is a conventional one.
-/
def ofName? (name : String) : Option Register :=
  let characters := name.toList
  if !characters.isEmpty && characters.all Text.isAsciiDigit then
    (Text.readNumeral? 10 characters).bind ofNumber?
  else if name = "s8" then some fp
  else all.find? fun register => register.name = name

theorem ofName?_name : ∀ register ∈ all, ofName? register.name = some register := by
  decide +kernel

end Register

end Mips
