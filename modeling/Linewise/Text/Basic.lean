/-! Texts, and what can be cut off their head. -/
namespace Linewise

/-- A text, as the list of its characters. -/
abbrev Text := List Char

namespace Text

/-- What follows `lead`, when the text begins with it. -/
def after? (s lead : Text) : Option Text :=
  lead.isPrefixOf? s

theorem after?_eq_some_iff {s lead rest : Text} : s.after? lead = some rest ↔ s = lead ++ rest := by
  induction lead generalizing s with
  | nil => exact Option.some_inj
  | cons c lead ih =>
      cases s with
      | nil =>
          change none = some rest ↔ [] = c :: (lead ++ rest)
          simp
      | cons d s =>
          change (if c == d then after? s lead else none) = some rest ↔ d :: s = c :: (lead ++ rest)
          by_cases h : c = d
          · simp [h, ih]
          · simp [h, Ne.symm h]

/-- Whether `part` stands somewhere in the text. -/
def mentions : Text → Text → Bool
  | [], part => part.isEmpty
  | c :: s, part => part.isPrefixOf (c :: s) || mentions s part

theorem mentions_iff {s part : Text} : s.mentions part = true ↔ part <:+: s := by
  induction s with
  | nil => simp [mentions]
  | cons c s ih => simp [mentions, ih, List.infix_cons_iff]

/-- The characters before the first line feed. -/
def firstLine (s : Text) : Text :=
  s.takeWhile (· ≠ '\n')

end Text

end Linewise
