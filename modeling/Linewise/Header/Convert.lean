import Linewise.Header.Definition
import Linewise.Header.Reader
import Linewise.Lines
import Linewise.Logged

/-! Headers become definition lines. -/
namespace Linewise

namespace Header

/-- The definition line of a line that holds a header. A line with the keyword and no header is
reported and left alone. -/
def convertLine (number : Nat) (line : Text) : Logged (Option Text) :=
  if line.mentions keyword then
    match find? line with
    | some header => do
      let definition ← header.convert number
      return some definition
    | none => do
      Logged.record (.unknownHeader number line)
      return none
  else
    return none

/-- Converts lines that are numbered from `number` on, up to the first fault. -/
def convertFrom : Nat → Lines → Logged Lines
  | _, [] => return []
  | number, line :: lines => do
    let definition ← convertLine number line
    let rest ← convertFrom (number + 1) lines
    return definition.getD line :: rest

def convertLines (lines : Lines) : Logged Lines :=
  convertFrom 1 lines

end Header

end Linewise
