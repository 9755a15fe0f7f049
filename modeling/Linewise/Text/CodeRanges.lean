/-! Sets of code points, written as ranges in increasing order. -/
namespace Linewise

/-- Closed ranges of code points, in increasing order and apart from each other. -/
abbrev CodeRanges := List (Nat × Nat)

/-- Whether a code point lies in one of the ranges. The search stops at the first range that begins
after it, since all later ones do as well. -/
def CodeRanges.has : CodeRanges → Nat → Bool
  | [], _ => false
  | (first, last) :: rest, n => first ≤ n && (n ≤ last || CodeRanges.has rest n)

/-- Many ranges as a search tree. -/
inductive CodeTree where
  | empty
  | node (lower : CodeTree) (first last : Nat) (upper : CodeTree)

namespace CodeTree

def has : CodeTree → Nat → Bool
  | .empty, _ => false
  | .node lower first last upper, n =>
    if n < first then lower.has n
    else if n ≤ last then true
    else upper.has n

/-- Takes ranges from the head of the list into a tree of at most the given depth, and gives back
those for which it has no room. -/
def fill : Nat → CodeRanges → CodeTree × CodeRanges
  | 0, ranges => (.empty, ranges)
  | depth + 1, ranges =>
    match fill depth ranges with
    | (lower, []) => (lower, [])
    | (lower, (first, last) :: rest) =>
      let (upper, rest) := fill depth rest
      (.node lower first last upper, rest)

/-- The tree of fewer than `2 ^ depth` ranges. -/
def ofRanges (depth : Nat) (ranges : CodeRanges) : CodeTree :=
  (fill depth ranges).1

end CodeTree

end Linewise
