import Linewise.Command.Plain
import Linewise.Event
import Linewise.Fault

/-! What the command line prints about events and faults. -/
namespace Linewise

namespace Level

/-- The place of a level, from the most important on. -/
def rank : Level → Nat
  | .error => 1
  | .warn => 2
  | .info => 3
  | .debug => 4

def name : Level → String
  | .error => "ERROR"
  | .warn => "WARN"
  | .info => "INFO"
  | .debug => "DEBUG"

/-- The name, with blanks up to the length of the longest. -/
def column (level : Level) : String :=
  String.ofList (level.name.toList.rightpad 5 ' ')

end Level

/-- The least important level that is shown, if any is. -/
abbrev Threshold := Option Level

namespace Threshold

def shows (threshold : Threshold) (level : Level) : Bool :=
  threshold.any (level.rank ≤ ·.rank)

def ofVerbosity : Nat → Threshold
  | 0 => some .warn
  | 1 => some .info
  | _ => some .debug

/-- The threshold of a given name. Only errors are shown for a name that is none of these. -/
def ofName : String → Threshold
  | "off" => none
  | "warn" => some .warn
  | "info" => some .info
  | "debug" | "trace" => some .debug
  | _ => some .error

end Threshold

/-- Puts a margin before each line but the first. -/
def hang (margin text : String) : String :=
  (s!"\n{margin}").intercalate (text.splitOn "\n")

/-- The line that reports an event, without control codes. -/
def Event.report (event : Event) : String :=
  let message := hang "    " event.message
  plain s!"[{event.level.column} {event.target}] {message}\n"

/-- The messages that explain a fault, from the outermost on. -/
def Fault.causes (fault : Fault) : List String :=
  match fault with
  | .file _ problem => [fault.message, problem.message]
  | _ => [fault.message]

namespace Report

/-- Numbers the causes from zero. -/
def numbered (causes : List String) : List String :=
  causes.zipIdx.map fun (cause, n) =>
    let text := hang "       " cause
    s!"    {n}: {text}\n"

/-- A cause stands alone without a number. -/
def causes : List String → String
  | [cause] =>
    let text := hang "    " cause
    s!"    {text}\n"
  | several => String.join (numbered several)

/-- The report that a conversion of `input` failed. -/
def failure (input : Text) (fault : Fault) : String :=
  let reasons := causes fault.causes
  s!"Error: failed to translate {String.ofList input}\n\nCaused by:\n{reasons}"

end Report

end Linewise
