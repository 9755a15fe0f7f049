import Linewise.Pass.Run

/-! The conversion of whole sources. -/
namespace Linewise

/-- Takes a source through all passes. -/
def convert (options : Options) (source : Text) : Logged Text := do
  let lines ← Pass.run options Pass.pipeline (Lines.ofText source)
  return lines.toText

/-- Converts a source, then the result of that, and so on, up to `times` results or the first
fault. -/
def convertAgain (options : Options) : Nat → Text → List (Logged Text)
  | 0, _ => []
  | times + 1, source =>
    let result := convert options source
    match result.outcome with
    | .ok output => result :: convertAgain options times output
    | .error _ => [result]

end Linewise
