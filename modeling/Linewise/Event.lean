import Linewise.Text.Basic
import Linewise.Pass.Basic

/-! What a conversion reports while it runs. -/
namespace Linewise

/-- How important a report is, the most important first. -/
inductive Level where
  | error
  | warn
  | info
  | debug
deriving DecidableEq

inductive Event where
  /-- A line names the function keyword but holds no header. -/
  | unknownHeader (line : Nat) (text : Text)
  /-- Comment lines became the docstring of the definition at `line`. -/
  | promoted (comments line : Nat)
  | passDone (pass : Pass) (lines : Nat)
  | fileRead (bytes : Nat) (path : Text)
  | fileWritten (path : Text)
deriving DecidableEq

namespace Event

def level : Event → Level
  | .unknownHeader _ _ => .warn
  | .promoted _ _ | .passDone _ _ | .fileRead _ _ => .debug
  | .fileWritten _ => .info

/-- The part of the program that reports. -/
def target : Event → String
  | .unknownHeader _ _ => "gomojo::function_def_translate"
  | .promoted _ _ => "gomojo::docstring_lowering"
  | .passDone _ _ => "gomojo::transpile_main"
  | .fileRead _ _ | .fileWritten _ => "gomojo"

def message : Event → String
  | .unknownHeader line text => s!"line {line}: unrecognized function header: {String.ofList text}"
  | .promoted comments line => s!"promoted {comments} comment line(s) into docstring of line {line}"
  | .passDone pass lines => s!"pass {pass.name}: {lines} line(s)"
  | .fileRead bytes path => s!"read {bytes} byte(s) from {String.ofList path}"
  | .fileWritten path => s!"wrote {String.ofList path}"

end Event

end Linewise
