import Mips.Source
import Mips.Text.Utf8

/-!
Files in folders, named by paths that begin at a working folder.
-/

namespace Mips

/-- The content of a folder: files by their path, and folders that may be empty. -/
structure FileTree where
  files : List (List String × List UInt8)
  folders : List (List String)

namespace FileTree

def parts (path : String) : List String := (path.splitOn "/")

/-- The tree of the files and, where there is no content, the folders at these paths. -/
def ofEntries (entries : List (String × Option (List UInt8))) : FileTree where
  files := entries.filterMap fun entry => entry.2.map fun content => (place entry.1, content)
  folders := entries.filterMap fun entry => if entry.2.isNone then some (place entry.1) else none
where
  place (path : String) : List String := (parts path).filter fun part => part ≠ "" && part ≠ "."

def isFolder (tree : FileTree) (place : List String) : Bool :=
  place.isEmpty || tree.folders.any (place.isPrefixOf ·) ||
    tree.files.any fun file => place.isPrefixOf file.1 && place.length < file.1.length

/-- The place reached from a place by the parts of a path; only a folder can be passed through. -/
def walk (tree : FileTree) (place : List String) : List String → Option (List String)
  | [] => some place
  | part :: rest =>
    if !tree.isFolder place then none
    else if part = "" || part = "." then tree.walk place rest
    else if part = ".." then if place.isEmpty then none else tree.walk place.dropLast rest
    else tree.walk (place ++ [part]) rest

/-- The place a path leads to; paths that are empty or begin with a slash lead out of the tree. -/
def place? (tree : FileTree) (path : String) : Option (List String) :=
  match parts path with
  | "" :: _ => none
  | parts => tree.walk [] parts

def bytes? (tree : FileTree) (path : String) : Option (List UInt8) :=
  (tree.place? path).bind fun place => List.lookup place tree.files

def isFile (tree : FileTree) (path : String) : Bool := (tree.bytes? path).isSome

/-- The file at a path as source, if there is one and it holds text. -/
def source? (tree : FileTree) (path : String) : Option Source := do
  let characters ← Text.Utf8.decode? (← tree.bytes? path)
  some ⟨path, String.ofList characters⟩

/-- The names of the files directly in the folder at a path. -/
def fileNames (tree : FileTree) (path : String) : List String :=
  match tree.place? path with
  | none => []
  | some folder =>
    tree.files.filterMap fun file => if file.1.dropLast = folder then file.1.getLast? else none

/-- The parts without the empty ones and the dots at their end; a dot that is the first part stays. -/
def trimmed : List String → List String
  | [] => []
  | first :: rest => first :: (rest.reverse.dropWhile fun part => part = "" || part = ".").reverse

def folderOf (path : String) : String :=
  match trimmed (parts path).dropLast with
  | [] => "."
  | parts => "/".intercalate parts

def nameOf (path : String) : String := (parts path).getLast?.getD ""

/-- What follows the last dot of a name, if something stands before it. -/
def extension? (name : String) : Option String :=
  let reversed := name.toList.reverse
  match reversed.dropWhile (· ≠ '.') with
  | _ :: _ :: _ => some (String.ofList (reversed.takeWhile (· ≠ '.')).reverse)
  | _ => none

end FileTree

end Mips
