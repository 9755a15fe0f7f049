import Linewise.Fault

/-! Trees of files and directories, and what a path names in them. -/
namespace Linewise

/-- Where an entry stands: the names that lead to it from the root. -/
abbrev Place := List Text

inductive Entry where
  | directory
  | file (content : ByteArray)

/-- The entries below the root, and the working directory. -/
structure FileTree where
  entries : List (Place × Entry)
  current : Place

namespace FileTree

/-- A tree with an empty working directory. -/
def fresh : FileTree :=
  let work := ["work".toList]
  ⟨[(work, .directory)], work⟩

def entry? (tree : FileTree) (place : Place) : Option Entry :=
  if place.isEmpty then some .directory else tree.entries.lookup place

def put (tree : FileTree) (place : Place) (entry : Entry) : FileTree :=
  { tree with entries := (place, entry) :: tree.entries.filter (·.1 != place) }

/-! ## Paths -/

def byteSize (text : Text) : Nat :=
  (String.ofList text).utf8ByteSize

def maxName : Nat := 255

def maxPath : Nat := 4095

/-- The names between the separators of a path. -/
def names (path : Text) : List Text :=
  (path.splitOn '/').filter (!·.isEmpty)

def endsInSeparator (path : Text) : Bool :=
  path.getLast? == some '/'

/-- Where a path begins. No path may be empty, too long or hold the character NUL. -/
def start (tree : FileTree) (path : Text) : Except FileProblem Place :=
  if path.contains '\x00' then .error .nulInName
  else if maxPath < byteSize path then .error .nameTooLong
  else match path with
    | [] => .error .notFound
    | '/' :: _ => .ok []
    | _ => .ok tree.current

/-- The place that a component names in the directory `here`, whether or not something is there. -/
def step (tree : FileTree) (here : Place) (name : Text) : Except FileProblem Place :=
  match tree.entry? here with
  | some .directory =>
    if name = ['.'] then .ok here
    else if name = ['.', '.'] then .ok here.dropLast
    else if maxName < byteSize name then .error .nameTooLong
    else .ok (here ++ [name])
  | some (.file _) => .error .notDirectory
  | none => .error .notFound

/-- Follows components one after another. All but the last must name a directory. -/
def walk (tree : FileTree) (here : Place) : List Text → Except FileProblem Place
  | [] => .ok here
  | name :: names => do
    let there ← tree.step here name
    tree.walk there names

/-! ## Operations -/

/-- The content of a file. A separator after the last name asks for a directory. -/
def read (tree : FileTree) (path : Text) : Except FileProblem ByteArray := do
  let here ← tree.start path
  let place ← tree.walk here
    (if endsInSeparator path then names path ++ [['.']] else names path)
  match tree.entry? place with
  | some (.file content) => .ok content
  | some .directory => .error .isDirectory
  | none => .error .notFound

/-- Replaces the content of a file, or makes a new file in a directory that is there. A path that
ends in a separator names no file, whatever its last name. -/
def write (tree : FileTree) (path : Text) (content : ByteArray) : Except FileProblem FileTree := do
  let here ← tree.start path
  let place ← tree.walk here
    (if endsInSeparator path then (names path).dropLast ++ [['.']] else names path)
  match tree.entry? place with
  | some .directory => .error .isDirectory
  | _ => .ok (tree.put place (.file content))

/-- The path of each entry below the working directory, that of a directory with a separator at its
end, in the order of code points. -/
def listing (tree : FileTree) : List Text :=
  let paths := tree.entries.filterMap fun (place, entry) =>
    match tree.current.isPrefixOf? place, entry with
    | none, _ | some [], _ => none
    | some names, .directory => some (['/'].intercalate names ++ ['/'])
    | some names, .file _ => some (['/'].intercalate names)
  paths.mergeSort fun a b => !List.lex b a fun c d => c.toNat < d.toNat

end FileTree

end Linewise
