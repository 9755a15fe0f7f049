import Linewise.Text.Basic

/-! Sources as lists of lines. -/
namespace Linewise

/-- The lines of a source, without their line ends. -/
abbrev Lines := List Text

namespace Lines

/-- Writes every `\r\n` as `\n`. Any other `\r` stays. -/
def unifyEnds : Text → Text
  | [] => []
  | '\r' :: '\n' :: s => '\n' :: unifyEnds s
  | c :: s => c :: unifyEnds s

/-- Cuts a source into lines. There is always at least one, and the last has no line end. -/
def ofText (source : Text) : Lines :=
  (unifyEnds source).splitOn '\n'

/-- Puts a `\n` between each line and the next. -/
def toText (lines : Lines) : Text :=
  ['\n'].intercalate lines

end Lines

end Linewise
