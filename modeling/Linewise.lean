import Linewise.Files.Directory
import Linewise.Main
import Linewise.Proofs.Docstring.Span
import Linewise.Proofs.Docstring.Forward
import Linewise.Proofs.Docstring.FinalLine
import Linewise.Proofs.Header.Fault
import Linewise.Proofs.Header.Numbering
import Linewise.Proofs.Pass.Safety
import Linewise.Proofs.Convert.Fault
import Linewise.Proofs.Header.Written
import Linewise.Proofs.Header.Stable
import Linewise.Proofs.Convert.Stages
import Linewise.Proofs.Convert.Compose
import Linewise.Proofs.Convert.FinalLine
import Linewise.Proofs.Text.Marks
import Linewise.Proofs.Header.Marks
import Linewise.Proofs.Convert.Markers
import Linewise.Proofs.Convert.LineEnds
import Linewise.Proofs.Header.Weight
import Linewise.Proofs.Pass.Weight
import Linewise.Proofs.Docstring.Block
import Linewise.Proofs.Docstring.Weight
import Linewise.Proofs.Docstring.Splice
import Linewise.Proofs.Docstring.Collect
import Linewise.Proofs.Convert.Rest
import Linewise.Proofs.Pass.Finish
import Linewise.Proofs.Convert.Documentation
import Linewise.Proofs.Header.Grammar
import Linewise.Proofs.Text.Tokens
import Linewise.Proofs.Comment.Pieces
import Linewise.Proofs.Header.Comments
import Linewise.Proofs.Pass.Commute
import Linewise.Proofs.Files.Tree
import Linewise.Proofs.Files.Store
import Linewise.Proofs.Files.Convert
import Linewise.Proofs.Path.Components
import Linewise.Proofs.Path.Output
import Linewise.Proofs.Command.Input
import Linewise.Proofs.Header.Parameters
import Linewise.Proofs.Header.Prototype
import Linewise.Proofs.Header.Decoding
import Linewise.Proofs.Control.Opening
import Linewise.Proofs.Declaration.Written
import Linewise.Proofs.Header.Reports
import Linewise.Proofs.Path.Sibling
import Linewise.Proofs.Lines.Inverse
