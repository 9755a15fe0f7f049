import Linewise.Text.Basic

/-! Paths, written with `/`, and the name of the output file. -/
namespace Linewise

namespace Path

def sourceExtension : Text := "go".toList

def targetExtension : Text := "mojo".toList

/-- Drops the separators and `.` components in front of a path that is written backwards. A `.` on
which the path begins is no such component. -/
def dropTrail : Text → Text
  | '/' :: s => dropTrail s
  | '.' :: '/' :: s => dropTrail s
  | s => s

/-- The part of a path before its file name, and the file name. Separators and `.` components after
the file name do not count. There is no file name if the last component is the root, `..` or a `.`
on which the path begins. -/
def fileName? (path : Text) : Option (Text × Text) :=
  let back := dropTrail path.reverse
  let name := (back.takeWhile (· ≠ '/')).reverse
  match name with
  | [] | ['.'] | ['.', '.'] => none
  | _ => some ((back.dropWhile (· ≠ '/')).reverse, name)

/-- Cuts a file name at its last `.` into stem and extension. A `.` at the head does not count. -/
def splitName (name : Text) : Text × Option Text :=
  let extension := (name.reverse.takeWhile (· ≠ '.')).reverse
  match name.reverse.dropWhile (· ≠ '.') with
  | _ :: c :: stem => ((c :: stem).reverse, some extension)
  | _ => (name, none)

def extension? (path : Text) : Option Text := do
  let (_, name) ← fileName? path
  (splitName name).2

/-- Gives the file name the target's extension, in place of its own if it has one. -/
def withTarget (path : Text) : Text :=
  match fileName? path with
  | some (front, name) => front ++ (splitName name).1 ++ ".".toList ++ targetExtension
  | none => path

/-- Where the output goes by default. A path with the source's extension loses as many characters at
its end as that extension has, then the file name of what remains gets the target's extension. Any
other path is continued by the target's extension. -/
def outputFor (path : Text) : Text :=
  if extension? path = some sourceExtension then
    withTarget (path.take (path.length - sourceExtension.length))
  else
    path ++ ".".toList ++ targetExtension

end Path

end Linewise
