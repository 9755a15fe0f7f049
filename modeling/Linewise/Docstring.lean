import Linewise.Comment
import Linewise.Header.Definition
import Linewise.Lines
import Linewise.Logged

/-! Docstrings: the comment lines right above a definition move below it. -/
namespace Linewise

/-- A definition line and the comment block above it: the block is made of the lines with index
`start` up to `header - 1`, the definition has index `header`. -/
structure Span where
  start : Nat
  header : Nat
deriving DecidableEq

namespace Span

def isEmpty (span : Span) : Bool :=
  span.start == span.header

/-- The span of the line with index `header`: as many comment lines as stand directly above it. -/
def above (lines : Lines) (header : Nat) : Except Fault Span :=
  if header ≤ lines.length then
    let block := (lines.take header).reverse.takeWhile Comment.isComment
    .ok ⟨header - block.length, header⟩
  else
    .error (.outOfRange header)

/-- The indices of the definition lines, in increasing order. -/
def headers (lines : Lines) : List Nat :=
  (lines.zipIdx.filter fun (line, _) => Definition.isDefinition line).map Prod.snd

/-- One span for each definition line, in order. -/
def collect (lines : Lines) : Except Fault (List Span) :=
  (headers lines).mapM (above lines)

end Span

namespace Docstring

def delimiter : Text := "\"\"\"".toList

def indent : Text := "    ".toList

/-- The docstring lines of comment lines that are numbered from `number` on. -/
def body : Nat → Lines → Except Fault Lines
  | _, [] => return []
  | number, line :: lines => do
    let some text := Comment.body? line | .error (.lostMarker number line)
    let rest ← body (number + 1) lines
    return (indent ++ text) :: rest

/-- The docstring lines of a span's block, between their delimiters. -/
def ofSpan (lines : Lines) (span : Span) : Except Fault Lines := do
  let text ← body (span.start + 1) (lines.extract span.start span.header)
  return (indent ++ delimiter) :: text ++ [indent ++ delimiter]

/-- Writes the lines from index `cursor` up to `stop`, with the blocks of the spans moved below
their definitions. Empty spans are passed over. Each other span must begin at the cursor or later,
and its definition must be one of the lines. -/
def spliceFrom (lines : Lines) (stop : Nat) : Nat → List Span → Logged Lines
  | cursor, [] => return lines.extract cursor stop
  | cursor, span :: spans =>
    if span.isEmpty then
      spliceFrom lines stop cursor spans
    else
      match lines[span.header]? with
      | some definition =>
        if cursor ≤ span.start ∧ span.start ≤ span.header then do
          let docstring ← ofSpan lines span
          Logged.record (.promoted (span.header - span.start) (span.header + 1))
          let rest ← spliceFrom lines stop (span.header + 1) spans
          return lines.extract cursor span.start ++ definition :: docstring ++ rest
        else
          Logged.fail (.outOfRange span.header)
      | none => Logged.fail (.outOfRange span.header)

/-- Splices the spans into all lines. Unless it is kept, the last line is dropped, but never a
definition with its docstring. -/
def splice (keepFinalLine : Bool) (lines : Lines) (spans : List Span) : Logged Lines :=
  let stop := if keepFinalLine then lines.length else lines.length - 1
  spliceFrom lines stop 0 spans

/-- Moves every comment block above a definition into a docstring. -/
def promote (keepFinalLine : Bool) (lines : Lines) : Logged Lines := do
  let spans ← Span.collect lines
  splice keepFinalLine lines spans

end Docstring

end Linewise
