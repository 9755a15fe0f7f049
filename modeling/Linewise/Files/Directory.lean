import Linewise.Files.Tree

/-! The making of directories. -/
namespace Linewise

namespace FileTree

/-- Makes one directory, in one that is there. A path that ends in `.` or `..` or is the root names
a directory that cannot be new. -/
def makeOne (tree : FileTree) (here : Place) (names : List Text) : Except FileProblem FileTree := do
  let place ← tree.walk here names
  if names.getLast?.all (· ∈ [['.'], ['.', '.']]) || (tree.entry? place).isSome then
    .error .alreadyThere
  else
    .ok (tree.put place .directory)

def isDirectory (tree : FileTree) (here : Place) (names : List Text) : Bool :=
  match (tree.walk here names).map tree.entry? with
  | .ok (some .directory) => true
  | _ => false

/-- Makes the first of the given directories. If it has no place, those after it, which lie above it,
are made before. A directory that is there need not be made. What was made before a problem
stays. -/
def makeWithin (tree : FileTree) (here : Place) :
    List (List Text) → FileTree × Except FileProblem Unit
  | [] => (tree, .ok ())
  | names :: above =>
    match tree.makeOne here names with
    | .ok tree => (tree, .ok ())
    | .error .notFound =>
      match tree.makeWithin here above with
      | (tree, .error problem) => (tree, .error problem)
      | (tree, .ok ()) =>
        match tree.makeOne here names with
        | .ok tree => (tree, .ok ())
        | .error problem =>
          (tree, if tree.isDirectory here names then .ok () else .error problem)
    | .error problem => (tree, if tree.isDirectory here names then .ok () else .error problem)

/-- The directories that a path passes through, the longest first. The path is given by its names,
the last name first. A `.` leads to no further directory, except where a relative path begins. -/
def passed (rooted : Bool) : List Text → List (List Text)
  | [] => []
  | name :: names =>
    if name = ['.'] && (rooted || !names.isEmpty) then passed rooted names
    else (name :: names).reverse :: passed rooted names

/-- Makes a directory and those above it that are not there. -/
def makeDirectory (tree : FileTree) (path : Text) : FileTree × Except FileProblem Unit :=
  if path.isEmpty then (tree, .ok ())
  else
    match tree.start path with
    | .error problem => (tree, .error problem)
    | .ok here =>
      match passed (path.head? = some '/') (names path).reverse with
      | [] => (tree, .ok ())
      | _ :: above => tree.makeWithin here (names path :: above)

end FileTree

end Linewise
