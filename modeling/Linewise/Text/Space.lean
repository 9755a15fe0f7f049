import Linewise.Text.Basic
import Linewise.Text.CodeRanges

/-! White space, and the cutting of texts at it. -/
namespace Linewise

/-- The characters with the Unicode property `White_Space`. -/
def spaceRanges : CodeRanges :=
  [(0x9, 0xD), (0x20, 0x20), (0x85, 0x85), (0xA0, 0xA0), (0x1680, 0x1680), (0x2000, 0x200A),
   (0x2028, 0x2029), (0x202F, 0x202F), (0x205F, 0x205F), (0x3000, 0x3000)]

def isSpace (c : Char) : Bool :=
  spaceRanges.has c.toNat

namespace Text

def skipSpaces (s : Text) : Text :=
  s.dropWhile isSpace

/-- What follows the white space at the head; there must be some. -/
def afterSpaces? : Text → Option Text
  | [] => none
  | c :: s => if isSpace c then some (skipSpaces s) else none

/-- The text without the white space at either end. -/
def trim (s : Text) : Text :=
  (s.skipSpaces.reverse.dropWhile isSpace).reverse

/-- The longest stretches without white space, in order. -/
def tokens (s : Text) : List Text :=
  (s.splitOnP isSpace).filter (!·.isEmpty)

end Text

end Linewise
