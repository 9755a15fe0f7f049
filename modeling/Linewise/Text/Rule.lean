import Linewise.Text.Basic

/-! Search for a construct inside a text, and its replacement wherever it stands. -/
namespace Linewise

namespace Text

/-- The reading at the leftmost place where `read` succeeds. -/
def leftmost? {α : Type} (read : Text → Option α) : Text → Option α
  | [] => read []
  | c :: s =>
    match read (c :: s) with
    | some a => some a
    | none => leftmost? read s

/-- The longest non-empty stretch of the first line after which `next` can be read, together with
that reading. -/
def stretch? {α : Type} (next : Text → Option α) : Text → Option (Text × α)
  | [] => none
  | c :: s =>
    if c == '\n' then none
    else
      match stretch? next s with
      | some (stretch, a) => some (c :: stretch, a)
      | none => (next s).map fun a => ([c], a)

end Text

/-- A rule reads a construct at the head of a text. It gives what is written in the construct's
place, and the text that follows the construct. -/
abbrev Rule := Text → Option (Text × Text)

namespace Rule

/-- Leaves out `skip` characters, then goes on as `applyAll`. -/
def applyFrom (rule : Rule) : Nat → Text → Text
  | _, [] => []
  | skip + 1, _ :: s => applyFrom rule skip s
  | 0, c :: s =>
    match rule (c :: s) with
    | some (written, rest) => written ++ applyFrom rule (s.length - rest.length) s
    | none => c :: applyFrom rule 0 s

/-- Replaces the construct from left to right, going on after each replaced stretch. -/
def applyAll (rule : Rule) (s : Text) : Text :=
  rule.applyFrom 0 s

theorem applyFrom_eq_drop (rule : Rule) (skip : Nat) (s : Text) :
    rule.applyFrom skip s = rule.applyAll (s.drop skip) := by
  induction skip generalizing s with
  | zero => rfl
  | succ skip ih =>
      cases s with
      | nil => rfl
      | cons c s => exact ih s

@[simp] theorem applyAll_nil (rule : Rule) : rule.applyAll [] = [] := rfl

theorem applyAll_of_none {rule : Rule} {c : Char} {s : Text} (h : rule (c :: s) = none) :
    rule.applyAll (c :: s) = c :: rule.applyAll s := by
  simp only [applyAll, applyFrom, h]

/-- Reading goes on right after the construct. -/
theorem applyAll_of_some {rule : Rule} {c : Char} {s written rest : Text}
    (h : rule (c :: s) = some (written, rest)) (hrest : rest <:+ s) :
    rule.applyAll (c :: s) = written ++ rule.applyAll rest := by
  have hd : s.drop (s.length - rest.length) = rest := (List.suffix_iff_eq_drop.mp hrest).symm
  rw [applyAll, applyFrom, h]
  simp only [applyFrom_eq_drop, hd]

end Rule

end Linewise
