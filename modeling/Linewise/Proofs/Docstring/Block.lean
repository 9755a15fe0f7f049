import Linewise.Proofs.Docstring.FinalLine

/-!
The block of comment lines above a definition. Main statement: what stands before such a block and what
stands after its definition are handled as if they were sources of their own.
-/
namespace Linewise

namespace Docstring

/-- Whether `block` is the whole block of comment lines between the lines `before` and a definition,
and has at least one line. -/
structure IsBlock (before block : Lines) (definition : Text) : Prop where
  nonempty : block ≠ []
  comments : ∀ line ∈ block, Comment.isComment line = true
  whole : before.getLast?.any Comment.isComment = false
  isDefinition : Definition.isDefinition definition = true

/-! ## Runs of comment lines -/

theorem isComment_of_mem_concat {pending : Lines} {line : Text}
    (h : ∀ other ∈ pending, Comment.isComment other = true) (hmarker : startsWithMarker line = true) :
    ∀ other ∈ pending ++ [line], Comment.isComment other = true := by
  intro other hother
  rcases List.mem_append.mp hother with hother | hother
  · exact h other hother
  · rw [List.mem_singleton.mp hother, Comment.isComment_eq, hmarker]

theorem forward_comments (pending : Lines) {block : Lines} (lines : Lines)
    (h : ∀ line ∈ block, Comment.isComment line = true) :
    forward pending (block ++ lines) = forward (pending ++ block) lines := by
  induction block generalizing pending with
  | nil => rw [List.append_nil, List.nil_append]
  | cons line block ih =>
      have hmarker : startsWithMarker line = true := by
        rw [← Comment.isComment_eq]
        exact h line List.mem_cons_self
      rw [List.cons_append, forward, if_pos hmarker, ih _ fun l hl => h l (List.mem_cons_of_mem line hl),
        List.append_assoc, List.singleton_append]

/-- Where no comment line waits for a definition, the pass begins anew. -/
theorem forward_append (pending lines later : Lines)
    (hpending : ∀ line ∈ pending, Comment.isComment line = true)
    (h : (pending ++ lines).getLast?.any Comment.isComment = false) :
    forward pending (lines ++ later) = forward pending lines ++ forward [] later := by
  induction lines generalizing pending with
  | nil =>
      rcases List.eq_nil_or_concat pending with rfl | ⟨init, last, rfl⟩
      · rfl
      · have hlast := hpending last (by simp)
        simp [hlast] at h
  | cons line lines ih =>
      have hlines : ([] ++ lines).getLast?.any Comment.isComment = false := by
        cases lines with
        | nil => rfl
        | cons next lines =>
            rwa [List.getLast?_append_of_ne_nil _ (List.cons_ne_nil _ _), List.getLast?_cons_cons] at h
      have hnext := ih [] (by simp) hlines
      rw [List.cons_append, forward, forward]
      split
      · rename_i hmarker
        exact ih (pending ++ [line]) (isComment_of_mem_concat hpending hmarker) (by simpa using h)
      · split
        · rw [hnext, List.append_assoc]
        · rw [hnext, List.append_assoc (pending ++ [line])]

theorem endsDocumented_pair (init : Lines) (above last : Text) :
    endsDocumented (init ++ [above, last]) =
      (Definition.isDefinition last && Comment.isComment above) := by
  have hdrop : (init ++ [above, last]).dropLast = init ++ [above] := by
    rw [List.dropLast_append_of_ne_nil (List.cons_ne_nil _ _)]
    rfl
  rw [endsDocumented, hdrop]
  simp

namespace IsBlock

variable {before block : Lines} {definition : Text}

theorem forward_eq (h : IsBlock before block definition) (after : Lines) :
    forward [] (before ++ block ++ definition :: after) =
      forward [] before ++ documented block definition ++ forward [] after := by
  have hmarker : startsWithMarker definition = false := by
    rw [← Comment.isComment_eq, Comment.isComment_of_isDefinition h.isDefinition]
  have hbefore := forward_append [] before (block ++ definition :: after) (by simp) h.whole
  rw [List.append_assoc, hbefore, forward_comments [] _ h.comments, forward, if_neg (by simp [hmarker]),
    if_pos h.isDefinition, List.nil_append, List.append_assoc]

/-- A definition that ends the lines is documented, and otherwise it decides nothing about their end. -/
theorem endsDocumented_eq (h : IsBlock before block definition) (after : Lines) :
    endsDocumented (before ++ block ++ definition :: after) = (after.isEmpty || endsDocumented after) := by
  have hdefinition := Comment.isComment_of_isDefinition h.isDefinition
  rcases List.eq_nil_or_concat after with rfl | ⟨init, last, rfl⟩
  · obtain ⟨init, above, rfl⟩ := (List.eq_nil_or_concat block).resolve_left h.nonempty
    have habove := h.comments above (by simp)
    have hend : before ++ init.concat above ++ [definition] = before ++ init ++ [above, definition] := by
      simp
    rw [hend, endsDocumented_pair, habove, h.isDefinition]
    rfl
  · rcases List.eq_nil_or_concat init with rfl | ⟨init, above, rfl⟩
    · have hend : before ++ block ++ definition :: [].concat last =
          before ++ block ++ [definition, last] := rfl
      rw [hend, endsDocumented_pair, hdefinition]
      simp [endsDocumented]
    · have hpair : (init.concat above).concat last = init ++ [above, last] := by simp
      have hend : before ++ block ++ definition :: (init ++ [above, last]) =
          (before ++ block ++ definition :: init) ++ [above, last] := by simp
      rw [hpair, hend, endsDocumented_pair, endsDocumented_pair]
      simp

theorem promoted_eq (h : IsBlock before block definition) (keepFinalLine : Bool) (after : Lines) :
    promoted keepFinalLine (before ++ block ++ definition :: after) =
      forward [] before ++ documented block definition ++ promoted keepFinalLine after := by
  rw [promoted, promoted, h.endsDocumented_eq, h.forward_eq]
  cases after with
  | nil => simp [forward]
  | cons line after =>
      rw [List.isEmpty_cons, Bool.false_or]
      split
      · rfl
      · exact List.dropLast_append_of_ne_nil (forward_ne_nil (by simp))

end IsBlock

/-- The block above a documented final line begins behind the last line that is no comment. -/
theorem exists_isBlock_of_endsDocumented {lines : Lines} (h : endsDocumented lines = true) :
    ∃ before block definition, lines = before ++ block ++ [definition] ∧
      IsBlock before block definition := by
  rw [endsDocumented, Bool.and_eq_true] at h
  obtain ⟨hfinal, habove⟩ := h
  obtain ⟨definition, hlast, hdefinition⟩ := (Option.any_eq_true _ _).mp hfinal
  obtain ⟨init, rfl⟩ := List.getLast?_eq_some_iff.mp hlast
  rw [List.dropLast_concat] at habove
  refine ⟨init.rdropWhile Comment.isComment, init.rtakeWhile Comment.isComment, definition, ?_, ?_⟩
  · rw [List.rdropWhile_append_rtakeWhile]
  · exact {
      nonempty := by
        obtain ⟨above, hend, hcomment⟩ := (Option.any_eq_true _ _).mp habove
        obtain ⟨earlier, rfl⟩ := List.getLast?_eq_some_iff.mp hend
        rw [List.rtakeWhile_concat_pos _ _ _ hcomment]
        simp
      comments := fun line hline => List.mem_rtakeWhile_imp hline
      whole := Span.getLast?_rdropWhile init
      isDefinition := hdefinition }

end Docstring

end Linewise
