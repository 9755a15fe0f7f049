import Linewise.Proofs.Lines
import Linewise.Proofs.Text.Words

/-!
Cutting a source into lines and putting lines back together. A `\r` at the end of a line becomes part of
the line end as soon as another line follows. Main statement: each of the two undoes the other exactly
where no line end can be taken for text or text for a line end.
-/
namespace Linewise

namespace Lines

/-! ## Sources without `\r\n` -/

theorem unifyEnds_eq_self_iff {source : Text} :
    unifyEnds source = source ↔ ¬ "\r\n".toList <:+: source := by
  refine ⟨?_, unifyEnds_of_not_isInfix⟩
  intro h
  fun_induction unifyEnds source with
  | case1 => decide
  | case2 s ih => exact absurd (List.cons.inj h).1 (by decide)
  | case3 c s hc ih =>
      intro hpart
      rcases List.infix_cons_iff.mp hpart with hhead | hlater
      · -- A line end at the head would have been read as one.
        obtain ⟨rest, hrest⟩ := hhead
        obtain ⟨rfl, rfl⟩ := List.cons.inj hrest
        exact hc rest rfl rfl
      · exact ih (List.cons.inj h).2 hlater

theorem toText_ofText_eq_self_iff {source : Text} :
    toText (ofText source) = source ↔ ¬ "\r\n".toList <:+: source := by
  rw [toText_ofText, unifyEnds_eq_self_iff]

/-! ## Lines that can be read back -/

theorem withoutReturn_eq_self_iff {line : Text} :
    withoutReturn line = line ↔ line.getLast? ≠ some '\r' := by
  unfold withoutReturn
  split
  · rename_i hlast
    obtain ⟨before, rfl⟩ := List.getLast?_eq_some_iff.mp hlast
    simp
  · rename_i hlast
    simp [hlast]

theorem not_mem_of_mem_ofText {source line : Text} (h : line ∈ ofText source) : '\n' ∉ line :=
  fun hmem => (Text.mem_of_mem_splitOn h '\n' hmem).1 rfl

/-- Every line but the last loses one `\r` at its end. -/
theorem ofText_toText_concat {lines : Lines} {last : Text}
    (h : ∀ line ∈ lines ++ [last], '\n' ∉ line) :
    ofText (toText (lines ++ [last])) = lines.map withoutReturn ++ [last] := by
  induction lines with
  | nil =>
      have hwritten : toText [last] = last := by simp [toText]
      rw [List.nil_append, hwritten, ofText_of_not_mem (h last (by simp))]
      rfl
  | cons line lines ih =>
      have hwritten : toText (line :: lines ++ [last]) = line ++ '\n' :: toText (lines ++ [last]) := by
        rw [List.cons_append, ← List.singleton_append, toText_append (by simp) (by simp)]
        simp [toText]
      rw [hwritten, ofText_line _ (h line List.mem_cons_self),
        ih fun other hother => h other (List.mem_cons_of_mem line hother)]
      rfl

/-- Of two `\r` before a line feed the first is text, and so is one at the very end. -/
example : ofText (toText ["a\r\r".toList, "b\r".toList]) = ["a\r".toList, "b\r".toList] := by decide

theorem ofText_toText_concat_eq_self_iff {lines : Lines} {last : Text}
    (h : ∀ line ∈ lines ++ [last], '\n' ∉ line) :
    ofText (toText (lines ++ [last])) = lines ++ [last] ↔
      ∀ line ∈ lines, line.getLast? ≠ some '\r' := by
  rw [ofText_toText_concat h, List.append_left_inj, map_eq_self_iff]
  simp only [withoutReturn_eq_self_iff]

theorem ofText_toText_eq_self_iff {lines : Lines} :
    ofText (toText lines) = lines ↔
      lines ≠ [] ∧ (∀ line ∈ lines, '\n' ∉ line) ∧
        ∀ line ∈ lines.dropLast, line.getLast? ≠ some '\r' := by
  rcases List.eq_nil_or_concat lines with rfl | ⟨init, last, rfl⟩
  · simp [ofText_ne_nil]
  · rw [List.concat_eq_append, List.dropLast_concat]
    constructor
    · intro h
      have hfeed : ∀ line ∈ init ++ [last], '\n' ∉ line :=
        fun line hline => not_mem_of_mem_ofText (h.symm ▸ hline)
      exact ⟨by simp, hfeed, (ofText_toText_concat_eq_self_iff hfeed).mp h⟩
    · rintro ⟨-, hfeed, hreturn⟩
      exact (ofText_toText_concat_eq_self_iff hfeed).mpr hreturn

/-- Lines are read back as they were written exactly if there is one at all, none holds a line feed and
no line but the last ends in `\r`. A source is written back as it was read exactly if it holds no
`\r\n`. -/
theorem ofText_toText_inverse :
    (∀ lines : Lines, ofText (toText lines) = lines ↔
      lines ≠ [] ∧ (∀ line ∈ lines, '\n' ∉ line) ∧
        ∀ line ∈ lines.dropLast, line.getLast? ≠ some '\r') ∧
    ∀ source : Text, toText (ofText source) = source ↔ ¬ "\r\n".toList <:+: source :=
  ⟨fun _ => ofText_toText_eq_self_iff, fun _ => toText_ofText_eq_self_iff⟩

end Lines

end Linewise
