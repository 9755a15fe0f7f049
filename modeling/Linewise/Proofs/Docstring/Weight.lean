import Linewise.Proofs.Docstring.Block
import Linewise.Proofs.Lines.Weight

/-!
The weight of docstrings. A docstring has two lines more than its comment block, but every marker that
is taken away weighs more than both. Main statement: without the final line, lines always get lighter.
-/
namespace Linewise

open Text (weight weightAfter)
open Lines (SameOrLighter)

namespace Docstring

theorem weight_docLine {line : Text} (h : Comment.isComment line = true) :
    weight (docLine line) + 8 ≤ line.weight := by
  rw [Comment.isComment_eq, startsWithMarker, beq_iff_eq] at h
  obtain ⟨s, hs⟩ : ∃ s, line.trim = '#' :: s := List.head?_eq_some_iff.mp h
  have htext : weight (docLine line) = weight (Text.trim s) := by
    rw [docLine, hs]
    change weight (' ' :: ' ' :: ' ' :: ' ' :: Text.trim s) = _
    simp only [Text.weight_blank]
  have hmarker : weight ('#' :: s) = 8 + weight s := by
    have hhash : charWeight '#' + pairWeight '\n' '#' = 8 := rfl
    rw [weight, weightAfter, hhash, Text.weightAfter_of_inert rfl (by decide)]
  have htrim : weight (Text.trim s) ≤ weight s := Text.weight_le_of_isInfix (Text.trim_isInfix s)
  have hline : weight ('#' :: s) ≤ weight line := hs ▸ Text.weight_le_of_isInfix (Text.trim_isInfix line)
  omega

theorem weight_map_docLine {block : Lines} (h : ∀ line ∈ block, Comment.isComment line = true) :
    Lines.weight (block.map docLine) + 8 * block.length ≤ Lines.weight block := by
  induction block with
  | nil => exact Nat.le_refl 0
  | cons line block ih =>
      have hline := weight_docLine (h line List.mem_cons_self)
      have hblock := ih fun other hother => h other (List.mem_cons_of_mem line hother)
      rw [List.map_cons, Lines.weight_cons, Lines.weight_cons, List.length_cons]
      omega

theorem documented_lighter {block : Lines} (definition : Text) (hne : block ≠ [])
    (h : ∀ line ∈ block, Comment.isComment line = true) :
    Lines.weight (documented block definition) < Lines.weight (block ++ [definition]) := by
  obtain ⟨first, block, rfl⟩ := List.exists_cons_of_ne_nil hne
  have hdoc := weight_map_docLine h
  have hquotes : weight quotes = 0 := rfl
  rw [List.length_cons] at hdoc
  have hdefinition : Lines.weight [definition] = weight definition + 2 := rfl
  have hlines : Lines.weight [definition, quotes] = weight definition + 4 := by
    rw [Lines.weight_cons, Lines.weight_cons, hquotes, Lines.weight_nil]
  have hend : Lines.weight [quotes] = 2 := rfl
  rw [documented, Lines.weight_append, Lines.weight_append, Lines.weight_append, hlines, hend,
    hdefinition]
  omega

theorem documented_sameOrLighter {pending : Lines} (definition : Text)
    (h : ∀ line ∈ pending, Comment.isComment line = true) :
    SameOrLighter (documented pending definition) (pending ++ [definition]) := by
  by_cases hne : pending = []
  · subst hne
    exact .refl [definition]
  · exact .inr (documented_lighter definition hne h)

theorem forward_sameOrLighter (pending lines : Lines)
    (h : ∀ line ∈ pending, Comment.isComment line = true) :
    SameOrLighter (forward pending lines) (pending ++ lines) := by
  induction lines generalizing pending with
  | nil =>
      rw [List.append_nil]
      exact .refl pending
  | cons line lines ih =>
      have hlater := ih [] (by simp)
      rw [List.append_cons, forward]
      split
      · rename_i hmarker
        exact ih (pending ++ [line]) (isComment_of_mem_concat h hmarker)
      · split
        · exact (documented_sameOrLighter line h).append hlater
        · exact (SameOrLighter.refl (pending ++ [line])).append hlater

/-! ## The final line -/

theorem promoted_lighter {lines : Lines} (hne : lines ≠ []) :
    Lines.weight (promoted false lines) < Lines.weight lines := by
  cases hends : endsDocumented lines with
  | true =>
      obtain ⟨before, block, definition, rfl, hblock⟩ := exists_isBlock_of_endsDocumented hends
      have hbefore := (forward_sameOrLighter [] before (by simp)).weight_le
      have hdocumented := documented_lighter definition hblock.nonempty hblock.comments
      have hend : promoted false [] = [] := rfl
      rw [hblock.promoted_eq false [], hend, List.append_nil, List.append_assoc, Lines.weight_append,
        Lines.weight_append]
      exact Nat.add_lt_add_of_le_of_lt hbefore hdocumented
  | false =>
      have hforward := (forward_sameOrLighter [] lines (by simp)).weight_le
      have hwritten : forward [] lines ≠ [] := forward_ne_nil hne
      rw [← List.dropLast_concat_getLast hwritten, Lines.weight_append, Lines.weight_cons,
        List.nil_append] at hforward
      rw [promoted, hends, if_neg (by simp)]
      omega

end Docstring

end Linewise
