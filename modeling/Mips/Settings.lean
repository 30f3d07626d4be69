import Mips.FileTree
import Mips.Layout

/-!
The choices that assembling and running a program depend on, and the source files they lead to.
-/

namespace Mips

/-- The choices for assembling and running a program. -/
structure Settings where
  /-- Whether pseudo-instructions and extended forms of instructions may be used. -/
  extendedAssembler : Bool := true
  /-- Whether the instruction after a branch or jump executes before control is transferred. -/
  delayedBranching : Bool := false
  /-- Whether text segments can be written and other segments executed. -/
  selfModifyingCode : Bool := false
  /-- Whether execution starts at the global label `main` if there is one. -/
  startAtMain : Bool := true
  /-- Whether executed instructions can be undone. -/
  backstepping : Bool := true
  /-- How many instructions can be undone. -/
  backstepLimit : Nat := 2000
  warningsAreErrors : Bool := false
  /-- Whether the other assembly files in the folder of the main file are assembled with it. -/
  assembleAll : Bool := false
  /-- The arguments that the program finds on its stack. -/
  programArguments : List String := []
  /-- The path of a source file that is assembled ahead of the program. -/
  exceptionHandler : Option String := none
  /-- How many instructions run between two looks for a request. -/
  checkpointInterval : Nat := 1024
  layout : Layout := .standard

/-- Why settings cannot be used or files cannot be read. -/
inductive SettingsError where
  | layout (flaw : Layout.Flaw)
  | zeroCheckpointInterval
  | handlerMissing (path : String)
  | handlerUnreadable (path : String)
  | sourceUnreadable (path : String)
  /-- The arguments need more bytes than the stack has. -/
  | argumentsTooLarge (needed available : Nat)
  deriving DecidableEq, Repr

namespace SettingsError

def message : SettingsError → String
  | .layout flaw => flaw.message
  | .zeroCheckpointInterval => "checkpoint interval cannot be 0"
  | .handlerMissing path => "cannot read exception handler " ++ path ++ ": file does not exist"
  | .handlerUnreadable path => "cannot read exception handler " ++ path ++ ": "
  | .sourceUnreadable path => "cannot read " ++ path ++ ": "
  | .argumentsTooLarge needed available =>
    "program arguments need " ++ Text.natural needed ++ " bytes but the stack has " ++
      Text.natural available

def help : SettingsError → Option String
  | .layout flaw => some flaw.help
  | .handlerMissing _ | .handlerUnreadable _ =>
    some "check the exception handler path in the settings"
  | .argumentsTooLarge .. => some "pass fewer or shorter arguments, or lower the stack limit"
  | .zeroCheckpointInterval | .sourceUnreadable _ => none

end SettingsError

namespace Settings

/--
How many bytes the arguments take on the stack: their bytes, each with a zero byte, the count, a pointer to
each, a null pointer, and what is lost by aligning them.
-/
def argumentBytes (settings : Settings) : Nat :=
  settings.programArguments.foldr (fun argument total => argument.utf8ByteSize + 1 + total) 0 +
    4 * (settings.programArguments.length + 2) + 4

def stackBytes (settings : Settings) : Nat :=
  settings.layout.stackBase.toNat - settings.layout.stackLimit.toNat

/-- The first thing that makes the settings unusable, given the files there are. -/
def error? (settings : Settings) (tree : FileTree) : Option SettingsError :=
  match settings.layout.flaw? with
  | some flaw => some (.layout flaw)
  | none =>
    if settings.checkpointInterval = 0 then some .zeroCheckpointInterval
    else if !settings.programArguments.isEmpty && settings.stackBytes < settings.argumentBytes then
      some (.argumentsTooLarge settings.argumentBytes settings.stackBytes)
    else
      match settings.exceptionHandler with
      | some path => if tree.isFile path then none else some (.handlerMissing path)
      | none => none

def Valid (settings : Settings) (tree : FileTree) : Prop := settings.error? tree = none

instance (settings : Settings) (tree : FileTree) : Decidable (settings.Valid tree) :=
  inferInstanceAs (Decidable (_ = none))

def readSource (tree : FileTree) (path : String) : Except SettingsError Source :=
  match tree.source? path with
  | some source => .ok source
  | none => .error (.sourceUnreadable path)

/-- The paths of the other assembly files in the folder of the main file, in order of their names. -/
def otherPaths (tree : FileTree) (main : String) : List String :=
  let folder := FileTree.folderOf main
  let names := (tree.fileNames folder).filter fun name =>
    (FileTree.extension? name = some "asm" || FileTree.extension? name = some "s") &&
      name ≠ FileTree.nameOf main
  (names.mergeSort fun first second => decide (first ≤ second)).map fun name => folder ++ "/" ++ name

/-- The sources to assemble for a main file, which comes first. -/
def collectSources (settings : Settings) (tree : FileTree) (main : String) :
    Except SettingsError (List Source) := do
  let first ← readSource tree main
  if !settings.assembleAll then return [first]
  return first :: (← (otherPaths tree main).mapM (readSource tree))

/-- The source of the exception handler, if there is one. -/
def readHandler (settings : Settings) (tree : FileTree) : Except SettingsError (Option Source) :=
  match settings.exceptionHandler with
  | none => .ok none
  | some path =>
    match tree.source? path with
    | some source => .ok (some source)
    | none => .error (.handlerUnreadable path)

end Settings

end Mips
