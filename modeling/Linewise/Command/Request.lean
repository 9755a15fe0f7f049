import Linewise.Text.Basic

/-! What the command line asks for. -/
namespace Linewise

/-- The arguments read so far. -/
structure Arguments where
  input : Option Text := none
  output : Option Text := none
  keepFinalLine : Bool := false
  /-- How often more reports were asked for. -/
  verbosity : Nat := 0
deriving DecidableEq

inductive Request where
  | help
  | version
  | convert (input : Text) (arguments : Arguments)
deriving DecidableEq

namespace Arguments

/-- What one argument leads to: reading goes on, the next argument is the output path, or the
request is settled. -/
inductive Step where
  | next (arguments : Arguments)
  | awaitOutput (arguments : Arguments)
  | settled (request : Request)

/-- An input may be given once, and not empty. -/
def setInput? (arguments : Arguments) (path : Text) : Option Arguments :=
  if arguments.input.isSome || path.isEmpty then none
  else some { arguments with input := some path }

/-- An output may be given once, and not empty. -/
def setOutput? (arguments : Arguments) (path : Text) : Option Arguments :=
  if arguments.output.isSome || path.isEmpty then none
  else some { arguments with output := some path }

def moreVerbose (arguments : Arguments) : Arguments :=
  { arguments with verbosity := arguments.verbosity + 1 }

/-- Whether an argument is read as an option. A lone `-` is not. -/
def isOption : Text → Bool
  | '-' :: _ :: _ => true
  | _ => false

/-- Reads the letters of a cluster of short options. Of the letters after an `o` the output path is
made, without one `=` at their head. -/
def letters? (arguments : Arguments) : Text → Option Step
  | [] => some (.next arguments)
  | 'h' :: _ => some (.settled .help)
  | 'V' :: _ => some (.settled .version)
  | 'v' :: rest => letters? arguments.moreVerbose rest
  | ['o'] => some (.awaitOutput arguments)
  | 'o' :: '=' :: path => (arguments.setOutput? path).map .next
  | 'o' :: path => (arguments.setOutput? path).map .next
  | _ => none

/-- Reads a long option, with the value that follows its first `=`. Only an output has one. -/
def long? (arguments : Arguments) (option : Text) : Option Step :=
  let value : Option Text := Text.after? (option.dropWhile (· ≠ '=')) ['=']
  match String.ofList (option.takeWhile (· ≠ '=')), value with
  | "help", none => some (.settled .help)
  | "version", none => some (.settled .version)
  | "verbose", none => some (.next arguments.moreVerbose)
  | "keep-final-line", none =>
    if arguments.keepFinalLine then none
    else some (.next { arguments with keepFinalLine := true })
  | "output", none => some (.awaitOutput arguments)
  | "output", some path => (arguments.setOutput? path).map .next
  | _, _ => none

def step? (arguments : Arguments) (argument : Text) : Option Step :=
  match argument with
  | '-' :: '-' :: option => arguments.long? option
  | '-' :: c :: letters => arguments.letters? (c :: letters)
  | path => (arguments.setInput? path).map .next

/-- The request of arguments that are all read. There must be an input. -/
def request? (arguments : Arguments) : Option Request := do
  let input ← arguments.input
  return .convert input arguments

/-- Reads arguments of which none is an option. -/
def readPaths? (arguments : Arguments) : List Text → Option Request
  | [] => arguments.request?
  | path :: paths => do
    let arguments ← arguments.setInput? path
    arguments.readPaths? paths

/-- Reads arguments from left to right. The first that settles the request or is not understood
decides; after `--` there are no more options. -/
def read? (arguments : Arguments) : List Text → Option Request
  | [] => arguments.request?
  | argument :: rest =>
    if argument = ['-', '-'] then arguments.readPaths? rest
    else
      match arguments.step? argument, rest with
      | some (.next arguments), rest => arguments.read? rest
      | some (.settled request), _ => some request
      | some (.awaitOutput arguments), path :: rest =>
        if isOption path then none
        else
          match arguments.setOutput? path with
          | some arguments => arguments.read? rest
          | none => none
      | some (.awaitOutput _), [] => none
      | none, _ => none

end Arguments

/-- The request that a command line makes, if it is understood. -/
def Request.ofArguments? (arguments : List Text) : Option Request :=
  Arguments.read? {} arguments

end Linewise
