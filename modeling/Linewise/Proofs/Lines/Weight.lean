import Linewise.Proofs.Lines
import Linewise.Proofs.Text.Weight

/-! The weight of lists of lines, in which every line counts together with a line feed. -/
namespace Linewise

open Text (weight weightAfter)

theorem pairWeight_lineFeed (before : Char) : pairWeight before '\n' = 0 := by
  simp [pairWeight]

namespace Lines

def weight (lines : Lines) : Nat :=
  (lines.map fun line => Text.weight line + 2).sum

@[simp] theorem weight_nil : weight [] = 0 := rfl

@[simp] theorem weight_cons (line : Text) (lines : Lines) :
    weight (line :: lines) = Text.weight line + 2 + weight lines := rfl

@[simp] theorem weight_append (lines later : Lines) :
    weight (lines ++ later) = weight lines + weight later := by
  rw [weight, List.map_append, List.sum_append]
  rfl

/-! ## Lighter lines -/

/-- Whether `written` is the list `lines` itself or a lighter one. -/
def SameOrLighter (written lines : Lines) : Prop :=
  written = lines ∨ weight written < weight lines

namespace SameOrLighter

variable {later written lines : Lines}

theorem refl (lines : Lines) : SameOrLighter lines lines := .inl rfl

theorem weight_le (h : SameOrLighter written lines) : weight written ≤ weight lines := by
  rcases h with rfl | h
  · exact Nat.le_refl _
  · exact Nat.le_of_lt h

theorem trans (h : SameOrLighter later written) (hwritten : SameOrLighter written lines) :
    SameOrLighter later lines := by
  rcases h with rfl | h
  · exact hwritten
  · exact .inr (Nat.lt_of_lt_of_le h hwritten.weight_le)

theorem append {written' lines' : Lines} (h : SameOrLighter written lines)
    (h' : SameOrLighter written' lines') : SameOrLighter (written ++ written') (lines ++ lines') := by
  rcases h with rfl | h
  · rcases h' with rfl | h'
    · exact refl _
    · refine .inr ?_
      rw [weight_append, weight_append]
      exact Nat.add_lt_add_left h' _
  · refine .inr ?_
    rw [weight_append, weight_append]
    exact Nat.add_lt_add_of_lt_of_le h h'.weight_le

theorem singleton {t s : Text} (h : Text.SameOrLighter t s) : SameOrLighter [t] [s] := by
  rcases h with rfl | h
  · exact refl _
  · exact .inr (Nat.add_lt_add_right (h '\n') 2)

theorem cons {t s : Text} (hline : Text.SameOrLighter t s) (h : SameOrLighter written lines) :
    SameOrLighter (t :: written) (s :: lines) :=
  (singleton hline).append h

theorem map {f : Text → Text} (h : ∀ line, Text.SameOrLighter (f line) line) (lines : Lines) :
    SameOrLighter (lines.map f) lines := by
  induction lines with
  | nil => exact refl []
  | cons line lines ih => exact cons (h line) ih

end SameOrLighter

/-! ## Lines and sources -/

/-- There is a line feed between every line and the next, but none after the last. -/
theorem weight_toText {lines : Lines} (h : lines ≠ []) :
    Text.weight (toText lines) + 2 = weight lines := by
  induction lines with
  | nil => exact absurd rfl h
  | cons line lines ih =>
      cases lines with
      | nil => simp [toText]
      | cons next lines =>
          have hfeed : charWeight '\n' = 2 := rfl
          have hlater := ih (List.cons_ne_nil _ _)
          rw [toText_cons_cons, Text.weight, Text.weightAfter_append, weightAfter, hfeed,
            pairWeight_lineFeed, weight_cons, ← hlater]
          simp only [Text.weight]
          omega

theorem unifyEnds_sameOrLighter (source : Text) : Text.SameOrLighter (unifyEnds source) source := by
  fun_induction unifyEnds source with
  | case1 => exact .refl []
  | case2 s ih =>
      refine .inr fun before => ?_
      have hreturn : charWeight '\r' = 8 := rfl
      have hrest := ih.weightAfter_le '\n'
      simp only [weightAfter, pairWeight_lineFeed, hreturn]
      omega
  | case3 c s hc ih => exact ih.cons c

theorem toText_lighter {written : Lines} {source : Text} (hne : written ≠ [])
    (h : weight written < weight (ofText source)) : Text.weight (toText written) < Text.weight source := by
  have hwritten := weight_toText hne
  have hlines := weight_toText (ofText_ne_nil source)
  have hends : Text.weight (unifyEnds source) ≤ Text.weight source :=
    (unifyEnds_sameOrLighter source).weightAfter_le '\n'
  rw [toText_ofText] at hlines
  omega

end Lines

end Linewise
