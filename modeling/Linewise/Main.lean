import Linewise.Command.Run

/-! The program: arguments, files and streams of the process. -/
namespace Linewise

namespace Process

/-- What the system says went wrong. -/
def systemProblem (code : UInt32) (details : String) : FileProblem :=
  match code.toNat with
  | 2 => .notFound
  | 17 => .alreadyThere
  | 20 => .notDirectory
  | 21 => .isDirectory
  | 36 => .nameTooLong
  | n => .other (s!"{details} (os error {n})").toList

def problem : IO.Error → FileProblem
  | .otherError code details | .resourceBusy code details | .resourceVanished code details
  | .unsupportedOperation code details | .hardwareFault code details
  | .unsatisfiedConstraints code details | .illegalOperation code details
  | .protocolError code details | .timeExpired code details
  | .alreadyExists _ code details | .interrupted _ code details
  | .noFileOrDirectory _ code details | .invalidArgument _ code details
  | .permissionDenied _ code details | .resourceExhausted _ code details
  | .inappropriateType _ code details | .noSuchThing _ code details => systemProblem code details
  | .unexpectedEof => .other "unexpected end of file".toList
  | .userError message => .other message.toList

/-- Runs an action on the file at `path`. -/
def onFile {α : Type} (path : Text) (action : String → IO α) : IO (Except FileProblem α) := do
  if path.contains '\x00' then return .error .nulInName
  try
    return .ok (← action (String.ofList path))
  catch error =>
    return .error (problem error)

instance : FileStore IO where
  read path := onFile path fun name => do (← IO.FS.Handle.mk name .read).readBinToEnd
  write path content := onFile path fun name => IO.FS.writeBinFile name content

end Process

end Linewise

def main (arguments : List String) : IO UInt32 := do
  let threshold := (← IO.getEnv "RUST_LOG").map Linewise.Threshold.ofName
  let result ← Linewise.Command.run threshold (arguments.map String.toList)
  IO.print result.stdout
  IO.eprint result.stderr
  return result.code
