/-! The passes of a conversion. -/
namespace Linewise

inductive Pass where
  | comments
  | functionDefinitions
  | docstrings
  | controlStructures
  | variableDeclarations
  | braces
deriving DecidableEq

namespace Pass

/-- Every pass once, in the order of a conversion. Docstrings need the definitions that the second
pass writes, and braces go last because control structures are read by them. -/
def pipeline : List Pass :=
  [.comments, .functionDefinitions, .docstrings, .controlStructures, .variableDeclarations, .braces]

def name : Pass → String
  | .comments => "comments"
  | .functionDefinitions => "function-definitions"
  | .docstrings => "docstrings"
  | .controlStructures => "control-structures"
  | .variableDeclarations => "variable-declarations"
  | .braces => "braces"

def ofName? (name : String) : Option Pass :=
  pipeline.find? (·.name == name)

end Pass

end Linewise
