import Linewise.Command.Report
import Linewise.Command.Request
import Linewise.Files.Convert
import Linewise.Path

/-! The command line. -/
namespace Linewise

structure Exit where
  code : UInt32
  stdout : String := ""
  stderr : String := ""

namespace Command

def versionText : String := "gomojo 0.1.0\n"

def usage : String := "Usage: gomojo [OPTIONS] <INPUT>\n"

def helpText : String :=
  "Translate Go source files to Mojo\n\n" ++ usage ++ "\n" ++
  "Arguments:\n" ++
  "  <INPUT>  Go source file to translate\n\n" ++
  "Options:\n" ++
  "  -o, --output <OUTPUT>  Output file (defaults to the input path with a .mojo extension)\n" ++
  "      --keep-final-line  Keep the last line of the input, which is dropped by default\n" ++
  "  -v, --verbose...       Increase log verbosity (-v info, -vv debug)\n" ++
  "  -h, --help             Print help\n" ++
  "  -V, --version          Print version\n"

/-- The exit code of a command line that is not understood. -/
def refused : UInt32 := 2

/-- The reports of the events that the threshold lets through. -/
def reports (threshold : Threshold) (events : List Event) : String :=
  String.join ((events.filter fun event => threshold.shows event.level).map Event.report)

/-- Converts `input` as the arguments ask. A given threshold goes before the one they ask for. -/
def convertInput {m : Type → Type} [Monad m] [FileStore m] (threshold : Option Threshold)
    (input : Text) (arguments : Arguments) : m Exit := do
  let threshold := threshold.getD (.ofVerbosity arguments.verbosity)
  let output := arguments.output.getD (Path.outputFor input)
  let result ← convertFile ⟨arguments.keepFinalLine⟩ input output
  match result.outcome with
  | .ok () =>
    return { code := 0, stderr := reports threshold (result.events ++ [.fileWritten output]) }
  | .error fault =>
    return { code := 1, stderr := reports threshold result.events ++ Report.failure input fault }

def run {m : Type → Type} [Monad m] [FileStore m] (threshold : Option Threshold)
    (arguments : List Text) : m Exit :=
  match Request.ofArguments? arguments with
  | some .help => return { code := 0, stdout := helpText }
  | some .version => return { code := 0, stdout := versionText }
  | some (.convert input arguments) => convertInput threshold input arguments
  | none => return { code := refused, stderr := usage }

end Command

end Linewise
