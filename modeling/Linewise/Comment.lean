import Linewise.Text.Space
import Linewise.Text.Rule

/-! Comments: `//` in the source, `#` in the target. -/
namespace Linewise

namespace Comment

def sourceMarker : Text := "//".toList

def targetMarker : Text := "#".toList

/-- Reads one source marker. -/
def marker : Rule := fun s =>
  (s.after? sourceMarker).map fun rest => (targetMarker, rest)

/-- Turns every source marker of a line into a target marker, so that `///` becomes `#/`. -/
def convert (line : Text) : Text :=
  marker.applyAll line

/-- The text of a line that holds a target comment and nothing else, without one marker and the
white space around it. -/
def body? (line : Text) : Option Text :=
  (line.trim.after? targetMarker).map Text.trim

def isComment (line : Text) : Bool :=
  (body? line).isSome

end Comment

end Linewise
