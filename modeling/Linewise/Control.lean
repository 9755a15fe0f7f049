import Linewise.Text.Rule
import Linewise.Text.Word

/-! Control structures: a brace opens a block in the source, a colon in the target. -/
namespace Linewise

namespace Control

def opening : Text := " \x7b".toList

/-- The text up to the last opening of a block on the line, and what follows it. -/
def untilOpening? (s : Text) : Option (Text × Text) :=
  s.stretch? (·.after? opening)

/-- `if c {` becomes `if c:`. -/
def conditional : Rule := fun s => do
  let s ← s.after? "if ".toList
  let (condition, rest) ← untilOpening? s
  return ("if ".toList ++ condition ++ ":".toList, rest)

/-- `for k, v := range e {` becomes `for k, v in enumerate(e):`. -/
def indexedLoop : Rule := fun s => do
  let s ← s.after? "for ".toList
  let (index, s) ← s.word?
  let s ← s.after? ", ".toList
  let (value, s) ← s.word?
  let s ← s.after? " := range ".toList
  let (range, rest) ← untilOpening? s
  return ("for ".toList ++ index ++ ", ".toList ++ value ++ " in enumerate(".toList ++ range ++
    "):".toList, rest)

/-- `for v := range e {` becomes `for v in e:`. -/
def rangeLoop : Rule := fun s => do
  let s ← s.after? "for ".toList
  let (value, s) ← s.word?
  let s ← s.after? " := range ".toList
  let (range, rest) ← untilOpening? s
  return ("for ".toList ++ value ++ " in ".toList ++ range ++ ":".toList, rest)

/-- The last of three clauses is all that follows the second semicolon. -/
def lastClause? (s : Text) : Option Text := do
  let clause ← s.after? "; ".toList
  if clause.isEmpty then none else some clause

/-- The second and the third clause, from the semicolon before them on. -/
def laterClauses? (s : Text) : Option (Text × Text) := do
  let s ← s.after? "; ".toList
  s.stretch? lastClause?

/-- Cuts a text into three clauses, the first as long as possible and then the second. -/
def clauses? (s : Text) : Option (Text × Text × Text) :=
  s.stretch? laterClauses?

/-- `for a; b; c {` becomes `for a in range(b, c):`. -/
def clauseLoop : Rule := fun s => do
  let s ← s.after? "for ".toList
  let (clauses, rest) ← untilOpening? s
  let (init, condition, step) ← clauses? clauses
  return ("for ".toList ++ init ++ " in range(".toList ++ condition ++ ", ".toList ++ step ++
    "):".toList, rest)

/-- The rules in the order in which they go over a line. -/
def rules : List Rule :=
  [conditional, indexedLoop, rangeLoop, clauseLoop]

def convert (line : Text) : Text :=
  rules.foldl (fun line rule => rule.applyAll line) line

end Control

end Linewise
