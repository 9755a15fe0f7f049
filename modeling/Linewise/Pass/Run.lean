import Linewise.Braces
import Linewise.Control
import Linewise.Declaration
import Linewise.Docstring
import Linewise.Header.Convert

/-! Passes at work. -/
namespace Linewise

structure Options where
  /-- Whether the last line of the input stays. -/
  keepFinalLine : Bool := false
deriving DecidableEq

namespace Pass

def apply (options : Options) (pass : Pass) (lines : Lines) : Logged Lines :=
  match pass with
  | .comments => return lines.map Comment.convert
  | .functionDefinitions => Header.convertLines lines
  | .docstrings => Docstring.promote options.keepFinalLine lines
  | .controlStructures => return lines.map Control.convert
  | .variableDeclarations => return lines.map Declaration.convert
  | .braces => return lines.map Braces.remove

/-- Applies the passes one after another, up to the first fault, and reports each that is done. -/
def run (options : Options) : List Pass → Lines → Logged Lines
  | [], lines => return lines
  | pass :: passes, lines => do
    let lines ← pass.apply options lines
    Logged.record (.passDone pass lines.length)
    run options passes lines

/-- What each pass makes of the lines that the pass before it left, up to the first fault. -/
def trace (options : Options) : List Pass → Lines → List (Pass × Logged Lines)
  | [], _ => []
  | pass :: passes, lines =>
    let step := pass.apply options lines
    match step.outcome with
    | .ok lines => (pass, step) :: trace options passes lines
    | .error _ => [(pass, step)]

end Pass

end Linewise
