import Mips.Proofs.Assembly.Completeness
import Mips.Proofs.Assembly.Labels

/-!
Memory that is reserved by name. The first line that asks for it under a name is given a block of its own between the
beginning of the data segment and that of the data directives; later lines with the name are given nothing.
Main statement: `reserves_placeFiles`.
-/

namespace Mips

/-- A line of a file that asks for memory under a name. -/
structure External where
  name : String
  size : Nat
  file : Nat
  deriving DecidableEq, Repr

def Statement.external? (file : Nat) (statement : Statement) : Option External :=
  match statement.content with
  | some (.directive (.external label size)) => some ⟨label.name, size, file⟩
  | _ => none

/-- What files ask for under names that are counted from `file`, in the order of their lines. -/
def externals (file : Nat) : List (List Statement) → List External
  | [] => []
  | statements :: rest => statements.filterMap (Statement.external? file) ++ externals (file + 1) rest

/-- The line that is given memory under a name is the first one. -/
def reserving? (declared : List External) (name : String) : Option External :=
  declared.find? fun external => external.name = name

theorem name_of_reserving? {declared : List External} {name : String} {external : External}
    (found : reserving? declared name = some external) : external.name = name := by
  simpa using List.find?_some found

theorem reserving?_append (declared later : List External) (name : String) :
    reserving? (declared ++ later) name = (reserving? declared name).or (reserving? later name) :=
  List.find?_append

theorem reserving?_singleton (external : External) (name : String) :
    reserving? [external] name = if external.name = name then some external else none := by
  by_cases same : external.name = name <;> simp [reserving?, same]

namespace Symbol

/-- The symbol stands for the memory that the line was given. -/
structure Reserved (symbol : Symbol) (external : External) : Prop where
  name : symbol.name = external.name
  file : symbol.file = external.file
  segment : symbol.segment = .data
  isGlobal : symbol.isGlobal = true
  aligned : symbol.address.toNat % 4 = 0

/-- So many bytes from the address of the symbol on. -/
def block (symbol : Symbol) (size : Nat) : Range := ⟨symbol.address.toNat, symbol.address.toNat + size⟩

end Symbol

theorem SymbolTable.global?_insertGlobal (table : SymbolTable) (symbol : Symbol) (name : String) :
    (table.insertGlobal symbol).global? name = if symbol.name = name then some symbol else table.global? name := by
  simp only [global?, insertGlobal, Std.ExtTreeMap.getElem?_insert, Std.LawfulEqCmp.compare_eq_iff_eq]

theorem dvd_alignUp (address alignment : Nat) : alignment ∣ alignUp address alignment := ⟨_, Nat.mul_comm _ _⟩

namespace Placement

/-- No error has been found while statements were placed. -/
def Successful (placement : Placement) : Prop := ∀ finding ∈ placement.findings, finding.problem.severity ≠ .error

theorem Successful.of_continues {before after : Placement} (successful : after.Successful)
    (continues : Continues before after) : before.Successful :=
  fun finding member => successful finding (continues.findings.subset member)

theorem not_successful_report {placement : Placement} {file line : Nat} {span : Span} {problem : Problem}
    (severe : problem.severity = .error) : ¬ (placement.report file line span problem).Successful :=
  fun successful => successful _ List.mem_cons_self severe

/-- Each name that was asked for has a block of its own, and there are no other global names. -/
structure Reserves (layout : Layout) (placement : Placement) (declared : List External) : Prop where
  fresh : ∀ name, reserving? declared name = none → placement.symbols.global? name = none
  found : ∀ name external, reserving? declared name = some external →
    ∃ symbol, placement.symbols.global? name = some symbol ∧ symbol.Reserved external ∧
      (symbol.block external.size).Within ⟨layout.externBase.toNat, placement.externCounter⟩
  apart : ∀ first second symbol other, reserving? declared first.name = some first →
    reserving? declared second.name = some second → first.name ≠ second.name →
      placement.symbols.global? first.name = some symbol → placement.symbols.global? second.name = some other →
        (symbol.block first.size).Apart (other.block second.size)
  low : layout.externBase.toNat ≤ placement.externCounter
  room : declared ≠ [] → placement.externCounter ≤ layout.dataBase.toNat

theorem reserves_initial (layout : Layout) : (initial layout).Reserves layout [] where
  fresh name _ := by simp [initial, SymbolTable.global?, SymbolTable.empty]
  found name external found := by cases found
  apart first second symbol other found := by cases found
  low := Nat.le_refl _
  room some := absurd rfl some

variable {layout : Layout} {declared : List External}

theorem Reserves.of_sameNames {before after : Placement} (reserves : before.Reserves layout declared)
    (same : SameNames before after) : after.Reserves layout declared := by
  have globals : after.symbols.global? = before.symbols.global? := by
    funext name
    rw [SymbolTable.global?, SymbolTable.global?, same.globals]
  obtain ⟨fresh, found, apart, low, room⟩ := reserves
  constructor
  case fresh => rwa [globals]
  case found => rwa [globals, same.counter]
  case apart => rwa [globals]
  case low => rwa [same.counter]
  case room => rwa [same.counter]

/-- A line that asks for a name again is given nothing. -/
theorem Reserves.again {placement : Placement} (reserves : placement.Reserves layout declared) {external : External}
    (taken : (placement.symbols.global? external.name).isSome) : placement.Reserves layout (declared ++ [external]) := by
  have same : reserving? (declared ++ [external]) = reserving? declared := by
    funext name
    rw [reserving?_append, reserving?_singleton]
    cases found : reserving? declared name with
    | some first => rfl
    | none =>
      rw [Option.none_or, if_neg]
      rintro rfl
      rw [reserves.fresh _ found] at taken
      cases taken
  have some : declared ≠ [] := by
    rintro rfl
    rw [reserves.fresh external.name rfl] at taken
    cases taken
  obtain ⟨fresh, found, apart, low, room⟩ := reserves
  exact ⟨by rwa [same], by rwa [same], by rwa [same], low, fun _ => room some⟩

/-- A line that asks for a new name is given the next block. -/
theorem Reserves.insert {before after : Placement} (reserves : before.Reserves layout declared) {external : External}
    {symbol : Symbol} (absent : before.symbols.global? external.name = none) (reserved : symbol.Reserved external)
    (start : before.externCounter ≤ symbol.address.toNat)
    (stop : after.externCounter = symbol.address.toNat + external.size)
    (room : after.externCounter ≤ layout.dataBase.toNat)
    (globals : after.symbols.globals = (before.symbols.insertGlobal symbol).globals) :
    after.Reserves layout (declared ++ [external]) := by
  have global (name : String) : after.symbols.global? name =
      if external.name = name then some symbol else before.symbols.global? name := by
    rw [← reserved.name, ← SymbolTable.global?_insertGlobal, SymbolTable.global?, SymbolTable.global?, globals]
  have named (name : String) : reserving? (declared ++ [external]) name =
      if external.name = name then some external else reserving? declared name := by
    rw [reserving?_append, reserving?_singleton]
    split
    next same =>
      cases found : reserving? declared name with
      | none => rfl
      | some first =>
        obtain ⟨other, taken, -⟩ := reserves.found name first found
        rw [← same, absent] at taken
        cases taken
    next => rw [Option.or_none]
  have grown : before.externCounter ≤ after.externCounter := by omega
  have low := reserves.low
  -- What was given before ends where the block of the new name begins.
  have earlier {name : String} {first : External} {other : Symbol} (found : reserving? declared name = some first)
      (known : before.symbols.global? name = some other) :
      (other.block first.size).Within ⟨layout.externBase.toNat, before.externCounter⟩ := by
    obtain ⟨same, again, -, inside⟩ := reserves.found name first found
    cases known.symm.trans again
    exact inside
  constructor
  case fresh =>
    intro name none
    rw [named] at none
    rw [global]
    split at none
    next => cases none
    next different => rw [if_neg different, reserves.fresh name none]
  case found =>
    intro name first found
    rw [named] at found
    rw [global]
    split at found
    next same =>
      cases found
      rw [if_pos same]
      exact ⟨symbol, rfl, reserved, by simpa [Symbol.block] using Nat.le_trans low start, Nat.le_of_eq stop.symm⟩
    next different =>
      obtain ⟨other, known, names, inside⟩ := reserves.found name first found
      rw [if_neg different]
      exact ⟨other, known, names, inside.1, Nat.le_trans inside.2 grown⟩
  case apart =>
    intro first second one other foundFirst foundSecond different knownFirst knownSecond
    rw [named] at foundFirst foundSecond
    rw [global] at knownFirst knownSecond
    split at foundFirst <;> split at foundSecond
    next same again => exact absurd (same.symm.trans again) different
    next same fresh =>
      rw [if_pos same] at knownFirst
      rw [if_neg fresh] at knownSecond
      cases foundFirst
      cases knownFirst
      exact (Range.apart_of_le (Nat.le_trans (earlier foundSecond knownSecond).2 start)).symm
    next fresh same =>
      rw [if_neg fresh] at knownFirst
      rw [if_pos same] at knownSecond
      cases foundSecond
      cases knownSecond
      exact Range.apart_of_le (Nat.le_trans (earlier foundFirst knownFirst).2 start)
    next fresh again =>
      rw [if_neg fresh] at knownFirst
      rw [if_neg again] at knownSecond
      exact reserves.apart first second one other foundFirst foundSecond different knownFirst knownSecond
  case low => omega
  case room => exact fun _ => room

theorem reserves_reserve {placement : Placement} (reserves : placement.Reserves layout declared) (file : Nat)
    (statement : Statement) (label : Label) (size : Nat)
    (successful : (placement.reserve layout file statement label size).Successful) :
    (placement.reserve layout file statement label size).Reserves layout (declared ++ [⟨label.name, size, file⟩]) := by
  unfold reserve at successful ⊢
  split at successful
  next symbol found => exact reserves.again (by rw [found]; rfl)
  next absent =>
    dsimp only at successful ⊢
    split at successful
    next => exact absurd successful (not_successful_report rfl)
    next fits =>
      have small := layout.dataBase.toNat_lt
      have above := le_alignUp placement.externCounter (show 0 < 4 by decide)
      have position : (UInt32.ofNat (alignUp placement.externCounter 4)).toNat = alignUp placement.externCounter 4 := by
        rw [UInt32.toNat_ofNat', Nat.mod_eq_of_lt (by omega)]
      rw [if_neg fits]
      refine reserves.insert absent ⟨rfl, rfl, rfl, rfl, ?_⟩ ?_ ?_ (Nat.not_lt.1 fits) rfl
      · rw [position]
        exact Nat.mod_eq_zero_of_dvd (dvd_alignUp _ 4)
      · rw [position]
        exact above
      · rw [position]

/-- Lines that do not ask for memory under a name leave what is reserved as it is. -/
theorem sameNames_place (settings : Settings) (file : Nat) (placement : Placement) {statement : Statement}
    (other : statement.external? file = none) : SameNames placement (place settings file placement statement) := by
  cases moves_place settings file placement statement with
  | stays names | jumps names | aligns names | places names => exact names
  | names label size start content => simp [Statement.external?, content] at other

theorem reserves_place {settings : Settings} {placement : Placement} (reserves : placement.Reserves settings.layout declared)
    (file : Nat) (statement : Statement) (successful : (place settings file placement statement).Successful) :
    (place settings file placement statement).Reserves settings.layout
      (declared ++ (statement.external? file).toList) := by
  cases asked : statement.external? file with
  | none =>
    rw [Option.toList_none, List.append_nil]
    exact reserves.of_sameNames (sameNames_place settings file placement asked)
  | some external =>
    unfold Statement.external? at asked
    split at asked
    next label size content =>
      cases asked
      have placed : place settings file placement statement =
          (placement.labelled statement).reserve settings.layout file statement label size := by
        simp only [place_eq, content, placeDirective]
      have kept : (placement.labelled statement).Reserves settings.layout declared := reserves.of_sameNames ⟨rfl, rfl⟩
      rw [placed] at successful ⊢
      exact reserves_reserve kept file statement label size successful
    next => cases asked

theorem reserves_statements {settings : Settings} {placement : Placement}
    (reserves : placement.Reserves settings.layout declared) (file : Nat) (statements : List Statement)
    (successful : (statements.foldl (place settings file) placement).Successful) :
    (statements.foldl (place settings file) placement).Reserves settings.layout
      (declared ++ statements.filterMap (Statement.external? file)) := by
  induction statements generalizing placement declared with
  | nil => simpa using reserves
  | cons statement rest ih =>
    have first := successful.of_continues (continues_statements _ settings file rest)
    have later := ih (reserves_place reserves file statement first) successful
    rw [List.append_assoc] at later
    cases asked : statement.external? file with
    | none => simpa [asked] using later
    | some external => simpa [asked] using later

/-- What files ask for under names is given to them, or there is an error. -/
theorem reserves_placeFiles {settings : Settings} {placement : Placement}
    (reserves : placement.Reserves settings.layout declared) (file : Nat) (files : List (List Statement))
    (successful : (placement.placeFiles settings file files).Successful) :
    (placement.placeFiles settings file files).Reserves settings.layout (declared ++ externals file files) := by
  induction files generalizing placement declared file with
  | nil =>
    rw [externals, List.append_nil]
    exact reserves
  | cons statements rest ih =>
    have ended := successful.of_continues (continues_placeFiles _ settings (file + 1) rest)
    have placed := ended.of_continues (continues_bind _ file)
    have begun : Reserves settings.layout { placement with area := .text, pending := [] } declared :=
      reserves.of_sameNames ⟨rfl, rfl⟩
    have given := (reserves_statements begun file statements placed).of_sameNames (sameNames_bind _ file)
    have later := ih given (file + 1) successful
    rw [List.append_assoc] at later
    exact later

end Placement

end Mips
