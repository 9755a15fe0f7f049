import Linewise.Fault
import Linewise.Header.Reader

/-! Definition lines of the target: how the parameters of a header are read, how the header is written,
and how such a line is recognised. -/
namespace Linewise

structure Parameter where
  name : Text
  type : Text
deriving DecidableEq

namespace Parameter

def ofEntry? (entry : Text) : Option Parameter :=
  match entry.tokens with
  | [name, type] => some ⟨name, type⟩
  | _ => none

def ofEntry (line : Nat) (entry : Text) : Except Fault Parameter :=
  match ofEntry? entry with
  | some parameter => .ok parameter
  | none => .error (.malformedParameter line entry.trim)

/-- Reads a parameter list. The leftmost bad entry is reported, as an entry of the given line. -/
def readAll (line : Nat) (params : Text) : Except Fault (List Parameter) :=
  if params.isEmpty then .ok [] else (params.splitOn ',').mapM (ofEntry line)

/-- The parameter with its type, as the target writes it. -/
def annotated (parameter : Parameter) : Text :=
  parameter.name ++ ": ".toList ++ parameter.type

end Parameter

namespace Header

/-- The receiver's name, if it has one, stands before the parameters and has no type. -/
def arguments (header : Header) (parameters : List Parameter) : List Text :=
  let receiver := (header.receiver.map Receiver.name).toList.filter (!·.isEmpty)
  receiver ++ parameters.map Parameter.annotated

def returns (header : Header) : Text :=
  match header.result with
  | some type => " -> ".toList ++ type
  | none => []

/-- The definition line of a header with the given parameters. -/
def definition (header : Header) (parameters : List Parameter) : Text :=
  "fn ".toList ++ header.name ++ "(".toList ++
    ", ".toList.intercalate (header.arguments parameters) ++ ")".toList ++ header.returns ++
    ":".toList

/-- Reads the parameters of a header found on the given line, and writes the definition line. -/
def convert (header : Header) (line : Nat) : Except Fault Text := do
  let parameters ← Parameter.readAll line header.params
  return header.definition parameters

end Header

namespace Definition

/-- The end of a definition line, after its closing parenthesis. -/
def isEnding (s : Text) : Bool :=
  s == [':'] ||
    match s.after? " -> ".toList >>= Text.word? with
    | some (_, rest) => rest == [':']
    | none => false

/-- Whether some closing parenthesis of the text ends a parameter list. The text is one line. -/
def closes : Text → Bool
  | [] => false
  | c :: s => c != '\n' && (c == ')' && isEnding s || closes s)

/-- What follows the opening parenthesis of a definition line. -/
def opening? (line : Text) : Option Text := do
  let s ← line.after? "fn ".toList
  let (_, s) ← s.word?
  s.after? ['(']

def isDefinition (line : Text) : Bool :=
  (opening? line).any closes

end Definition

end Linewise
