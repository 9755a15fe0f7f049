import Linewise.Text.Rule
import Linewise.Text.Space
import Linewise.Text.Word

/-! Function headers of the source, and the search for one in a line.

White space, word characters and the punctuation of a header exclude each other, so each piece of a
header ends where the next one begins and no reader has to try a second way. -/
namespace Linewise

/-- The receiver of a method, such as `s` of type `Stack` in `func (s *Stack) Push(v int)`. -/
structure Receiver where
  name : Text
  type : Text
deriving DecidableEq

structure Header where
  receiver : Option Receiver
  name : Text
  /-- What stands between the parentheses, as written. -/
  params : Text
  result : Option Text
deriving DecidableEq

namespace Header

def keyword : Text := "func".toList

/-- Whether a parameter list goes on after `c`. -/
def inParameters (c : Char) : Bool :=
  c != ')' && c != '\n'

/-- The text up to the closing parenthesis, on the same line, and what follows it. -/
def parameters? (s : Text) : Option (Text × Text) := do
  let rest ← Text.after? (s.dropWhile inParameters) [')']
  return (s.takeWhile inParameters, rest)

/-- A name, a parameter list and, where a word follows, a result. -/
def signature? (receiver : Option Receiver) (s : Text) : Option Header := do
  let (name, s) ← s.word?
  let s ← s.after? ['(']
  let (params, s) ← parameters? s
  return { receiver, name, params, result := s.skipSpaces.word?.map Prod.fst }

/-- A receiver in parentheses, with a pointer type. -/
def receiver? (s : Text) : Option (Receiver × Text) := do
  let s ← s.after? ['(']
  let (name, s) ← s.word?
  let s ← s.afterSpaces?
  let s ← s.after? ['*']
  let (type, s) ← s.word?
  let s ← s.after? [')']
  return (⟨name, type⟩, s)

/-- The header of a function, at the head of the text. -/
def function? (s : Text) : Option Header := do
  let s ← s.after? keyword
  let s ← s.afterSpaces?
  signature? none s

/-- The header of a method, at the head of the text. -/
def method? (s : Text) : Option Header := do
  let s ← s.after? keyword
  let s ← s.afterSpaces?
  let (receiver, s) ← receiver? s
  let s ← s.afterSpaces?
  signature? (some receiver) s

/-- The leftmost method header of a line or, if it holds none, the leftmost function header. -/
def find? (line : Text) : Option Header :=
  match Text.leftmost? method? line with
  | some header => some header
  | none => Text.leftmost? function? line

end Header

end Linewise
