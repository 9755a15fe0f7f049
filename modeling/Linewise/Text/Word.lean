import Linewise.Text.Basic
import Linewise.Text.WordTable

/-! Words: non-empty runs of word characters. -/
namespace Linewise

/-- Letters, marks, decimal digits, connector punctuation and joiners of every script. -/
def isWord (c : Char) : Bool :=
  if c.toNat < 0x80 then c.isAlphanum || c == '_' else wordTree.has c.toNat

namespace Text

/-- The longest word at the head, and what follows it. -/
def word? (s : Text) : Option (Text × Text) :=
  match s.takeWhile isWord with
  | [] => none
  | w => some (w, s.dropWhile isWord)

theorem word?_eq_some_iff {s w rest : Text} :
    s.word? = some (w, rest) ↔ w ≠ [] ∧ w = s.takeWhile isWord ∧ rest = s.dropWhile isWord := by
  unfold word?
  split
  · rename_i h
    simp only [h, reduceCtorEq, ne_eq, false_iff, not_and]
    intro hne hw
    exact absurd hw hne
  · rename_i h
    simp only [Option.some.injEq, Prod.mk.injEq, eq_comm (a := w), eq_comm (a := rest)]
    constructor
    · rintro ⟨hw, hr⟩
      exact ⟨fun hn => h (hw.trans hn), hw, hr⟩
    · rintro ⟨_, hw, hr⟩
      exact ⟨hw, hr⟩

end Text

end Linewise
