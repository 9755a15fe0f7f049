import Linewise.Text.Basic

/-! Why a conversion fails. -/
namespace Linewise

/-- What can go wrong when a file is read or written. -/
inductive FileProblem where
  | notFound
  | alreadyThere
  | notDirectory
  | isDirectory
  | nameTooLong
  | nulInName
  | notText
  | other (message : Text)
deriving DecidableEq

def FileProblem.message : FileProblem → String
  | .notFound => "No such file or directory (os error 2)"
  | .alreadyThere => "File exists (os error 17)"
  | .notDirectory => "Not a directory (os error 20)"
  | .isDirectory => "Is a directory (os error 21)"
  | .nameTooLong => "File name too long (os error 36)"
  | .nulInName => "file name contained an unexpected NUL byte"
  | .notText => "stream did not contain valid UTF-8"
  | .other message => String.ofList message

inductive Fault where
  /-- An entry of a parameter list is not a name followed by a type. -/
  | malformedParameter (line : Nat) (entry : Text)
  /-- A line that is to become a docstring line is no comment. -/
  | lostMarker (line : Nat) (text : Text)
  /-- The comment block above the line with index `header` does not lie within the lines. -/
  | outOfRange (header : Nat)
  | file (path : Text) (problem : FileProblem)
deriving DecidableEq

namespace Fault

def message : Fault → String
  | .malformedParameter line entry =>
    s!"malformed parameter `{String.ofList entry}` on line {line}: expected `name type`"
  | .lostMarker line text =>
    s!"internal error: docstring line {line} lost its comment marker: `{String.ofList text}`"
  | .outOfRange header => s!"internal error: the comment block above line {header + 1} is out of range"
  | .file path problem => s!"I/O error on {String.ofList path}: {problem.message}"

/-- The line at fault, counted from one. -/
def line? : Fault → Option Nat
  | .malformedParameter line _ | .lostMarker line _ => some line
  | .outOfRange _ | .file _ _ => none

end Fault

end Linewise
