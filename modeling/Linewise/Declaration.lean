import Linewise.Text.WordRule

/-! Variable declarations. -/
namespace Linewise

namespace Declaration

/-- `var x T` becomes `var x: T`. -/
def typed : Rule := fun s => do
  let s ← s.after? "var ".toList
  let (name, s) ← s.word?
  let s ← s.after? " ".toList
  let (type, rest) ← s.word?
  return ("var ".toList ++ name ++ ": ".toList ++ type, rest)

/-- What a short declaration assigns: the rest of the line, and the text that follows it. -/
def value? (s : Text) : Option (Text × Text) := do
  let s ← s.after? " := ".toList
  let value := s.firstLine
  if value.isEmpty then none else some (value, s.drop value.length)

/-- `x := e` becomes `var x = e`. -/
def short : Rule := fun s => do
  let (name, s) ← s.word?
  let (value, rest) ← value? s
  return ("var ".toList ++ name ++ " = ".toList ++ value, rest)

theorem short_eq_none_iff {s : Text} :
    short s = none ↔ s.head?.any isWord = false ∨ value? (s.dropWhile isWord) = none := by
  cases s with
  | nil => simp [short, Text.word?]
  | cons c s =>
      cases hc : isWord c with
      | false => simp [short, Text.word?, hc]
      | true =>
          cases hv : value? (s.dropWhile isWord) with
          | none => simp [short, Text.word?, hc, hv]
          | some found => simp [short, Text.word?, hc, hv]

theorem short_beginsWithWord : short.BeginsWithWord := by
  intro c d s hc hd h
  simp only [short_eq_none_iff, List.head?_cons, Option.any_some, hc, hd, Bool.true_eq_false,
    false_or, List.dropWhile_cons, ↓reduceIte] at h ⊢
  exact h

/-- Typed declarations first, then short ones. -/
def convert (line : Text) : Text :=
  short.applyWords (typed.applyAll line)

theorem convert_eq (line : Text) : convert line = short.applyAll (typed.applyAll line) :=
  Rule.applyWords_eq_applyAll short_beginsWithWord _

end Declaration

end Linewise
