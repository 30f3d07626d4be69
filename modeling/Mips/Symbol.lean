import Mips.Layout
import Std.Data.ExtTreeMap

/-!
Labels with their addresses. Each file has its own symbols, and some are shared by all files.
-/

namespace Mips

open Std (ExtTreeMap)

/-- A label and where it lies. -/
structure Symbol where
  name : String
  address : Address
  segment : Segment
  /-- Whether every file sees the symbol. -/
  isGlobal : Bool
  /-- The file that defines the symbol. -/
  file : Nat
  deriving DecidableEq, Repr

/-- The symbols of each file by name, and the global ones by name. -/
structure SymbolTable where
  locals : ExtTreeMap Nat (ExtTreeMap String Symbol)
  globals : ExtTreeMap String Symbol

namespace SymbolTable

def empty : SymbolTable := ⟨∅, ∅⟩

def ofFile (table : SymbolTable) (file : Nat) : ExtTreeMap String Symbol := table.locals[file]?.getD ∅

def local? (table : SymbolTable) (file : Nat) (name : String) : Option Symbol :=
  (table.ofFile file)[name]?

def global? (table : SymbolTable) (name : String) : Option Symbol := table.globals[name]?

/-- The symbol that a name means in a file: its own one comes before a global one. -/
def lookup? (table : SymbolTable) (file : Nat) (name : String) : Option Symbol :=
  (table.local? file name).or (table.global? name)

def insertLocal (table : SymbolTable) (symbol : Symbol) : SymbolTable :=
  { table with
    locals := table.locals.insert symbol.file ((table.ofFile symbol.file).insert symbol.name symbol) }

def eraseLocal (table : SymbolTable) (file : Nat) (name : String) : SymbolTable :=
  { table with locals := table.locals.insert file ((table.ofFile file).erase name) }

def insertGlobal (table : SymbolTable) (symbol : Symbol) : SymbolTable :=
  { table with globals := table.globals.insert symbol.name symbol }

/-- All symbols: the global ones by name, and then those of each file by name. -/
def toList (table : SymbolTable) : List Symbol :=
  table.globals.toList.map Prod.snd ++
    table.locals.toList.flatMap fun file => file.2.toList.map Prod.snd

/-- The name of a symbol at an address; a global one comes before one of a file. -/
def nameAt? (table : SymbolTable) (address : Address) : Option String :=
  (table.toList.find? fun symbol => symbol.address = address).map Symbol.name

end SymbolTable

end Mips
