import Linewise.Proofs.Docstring.Forward

/-! The final line. It matters only once every span is spliced, so dropping it neither makes the
splice fail nor changes what the spans contribute. -/
namespace Linewise

namespace Docstring

theorem spliceFrom_eq_append {lines written : Lines} {cursor stop : Nat} {spans : List Span}
    (h : (spliceFrom lines stop cursor spans).outcome = .ok written) :
    ∃ head, ∀ stop, (spliceFrom lines stop cursor spans).outcome =
      .ok (head ++ lines.extract (Span.reach cursor spans) stop) := by
  induction spans generalizing cursor written with
  | nil => exact ⟨[], fun _ => rfl⟩
  | cons span spans ih =>
      cases hempty : span.isEmpty with
      | true =>
          simp only [spliceFrom_of_isEmpty _ _ _ _ hempty, Span.reach, hempty, ↓reduceIte] at h ⊢
          exact ih h
      | false =>
          cases hd : lines[span.header]? with
          | none => simp [spliceFrom, hempty, hd] at h
          | some definition =>
              by_cases hbounds : cursor ≤ span.start ∧ span.start ≤ span.header
              · rw [spliceFrom_of_bounds _ _ hempty hd hbounds] at h
                obtain ⟨docstring, hdoc, h⟩ := Outcome.bind_eq_ok_iff.mp h
                obtain ⟨later, hlater, -⟩ := Outcome.bind_eq_ok_iff.mp h
                obtain ⟨head, hall⟩ := ih hlater
                refine ⟨lines.extract cursor span.start ++ definition :: docstring ++ head, ?_⟩
                intro stop
                rw [spliceFrom_of_bounds _ _ hempty hd hbounds, hdoc, Outcome.ok_bind, hall stop,
                  Outcome.ok_bind, List.append_assoc _ head, Span.reach, hempty, if_neg Bool.false_ne_true]
              · simp [spliceFrom, hempty, hd, hbounds] at h

/-- With and without the final line, the pass succeeds and writes the same lines, except that the
last of the lines that follow all docstrings may be missing. -/
theorem promote_eq_append (lines : Lines) : ∃ head tail,
    tail = lines.drop (Span.reach 0 (Span.following [] lines)) ∧ forward [] lines = head ++ tail ∧
    (promote true lines).outcome = .ok (head ++ tail) ∧
    (promote false lines).outcome = .ok (head ++ tail.dropLast) := by
  obtain ⟨head, hall⟩ := spliceFrom_eq_append (splice_following lines)
  have hkeep := hall lines.length
  have hdrop := hall (lines.length - 1)
  generalize Span.reach 0 (Span.following [] lines) = last at hkeep hdrop ⊢
  have htail : lines.extract last lines.length = lines.drop last := by
    rw [List.extract_eq_take_drop, List.take_of_length_le (by simp)]
  have hlast : lines.extract last (lines.length - 1) = (lines.drop last).dropLast := by
    rw [List.extract_eq_take_drop, List.dropLast_eq_take, List.length_drop]
    congr 1
    omega
  rw [htail] at hkeep
  rw [hlast] at hdrop
  refine ⟨head, lines.drop last, rfl, ?_, ?_, ?_⟩
  · have hforward := (splice_following lines).symm.trans hkeep
    exact Except.ok.inj hforward
  · rw [promote_outcome]
    exact hkeep
  · rw [promote_outcome]
    exact hdrop

theorem promote_ok (keepFinalLine : Bool) (lines : Lines) :
    ∃ written, (promote keepFinalLine lines).outcome = .ok written := by
  obtain ⟨head, tail, -, -, hkeep, hdrop⟩ := promote_eq_append lines
  cases keepFinalLine with
  | true => exact ⟨_, hkeep⟩
  | false => exact ⟨_, hdrop⟩

/-! ## Which line is dropped -/

/-- Whether the final line is a definition with a comment right above it. -/
def endsDocumented (lines : Lines) : Bool :=
  lines.getLast?.any Definition.isDefinition && lines.dropLast.getLast?.any Comment.isComment

theorem reach_following_concat (init : Lines) (last : Text) :
    Span.reach 0 (Span.following [] (init ++ [last])) =
      if endsDocumented (init ++ [last]) then init.length + 1
      else Span.reach 0 (Span.following [] init) := by
  rw [Span.following_append, Span.reach_append, List.nil_append]
  cases hdefinition : Definition.isDefinition last with
  | false => simp [Span.following, Span.reach, endsDocumented, hdefinition]
  | true =>
      have hempty : Span.isEmpty ⟨(init.rdropWhile Comment.isComment).length, init.length⟩ =
          !init.getLast?.any Comment.isComment := by
        rcases List.eq_nil_or_concat init with rfl | ⟨before, above, rfl⟩
        · rfl
        · rw [List.concat_eq_append]
          cases habove : Comment.isComment above with
          | true =>
              have hle := (List.rdropWhile_prefix Comment.isComment before).length_le
              rw [List.rdropWhile_concat_pos _ _ _ habove]
              simp [Span.isEmpty, habove]
              omega
          | false =>
              rw [List.rdropWhile_concat_neg _ _ _ (by simp [habove])]
              simp [Span.isEmpty, habove]
      simp only [Span.following, hdefinition, ↓reduceIte, Span.reach, hempty, endsDocumented,
        List.getLast?_concat, List.dropLast_concat, Option.any_some, Bool.true_and]
      cases init.getLast?.any Comment.isComment <;> rfl

/-- A final line that gets no docstring is behind all docstrings. -/
theorem drop_reach_concat {init : Lines} {last : Text} (h : endsDocumented (init ++ [last]) = false) :
    (init ++ [last]).drop (Span.reach 0 (Span.following [] (init ++ [last]))) =
      init.drop (Span.reach 0 (Span.following [] init)) ++ [last] := by
  have hle : Span.reach 0 (Span.following [] init) ≤ init.length :=
    Span.reach_following_le [] init (Nat.zero_le 0)
  rw [reach_following_concat, h, if_neg Bool.false_ne_true, List.drop_append_of_le_length hle]

/-- The lines that the pass writes. A definition that has just got its docstring is never dropped. -/
def promoted (keepFinalLine : Bool) (lines : Lines) : Lines :=
  if keepFinalLine || endsDocumented lines then forward [] lines else (forward [] lines).dropLast

theorem promote_eq_promoted (keepFinalLine : Bool) (lines : Lines) :
    (promote keepFinalLine lines).outcome = .ok (promoted keepFinalLine lines) := by
  obtain ⟨head, tail, htail, hforward, hkeep, hdrop⟩ := promote_eq_append lines
  cases keepFinalLine with
  | true => rw [hkeep, promoted, Bool.true_or, if_pos rfl, hforward]
  | false =>
      rw [hdrop, promoted, Bool.false_or, hforward]
      rcases List.eq_nil_or_concat lines with rfl | ⟨init, last, rfl⟩
      · obtain ⟨rfl, rfl⟩ := List.append_eq_nil_iff.mp hforward.symm
        rfl
      · rw [List.concat_eq_append] at htail ⊢
        split
        · rename_i hdocumented
          rw [reach_following_concat, if_pos hdocumented, List.drop_of_length_le (by simp)] at htail
          rw [htail, List.dropLast_nil]
        · rename_i hplain
          rw [drop_reach_concat (Bool.eq_false_iff.mpr hplain)] at htail
          rw [List.dropLast_append_of_ne_nil (by simp [htail])]

/-! ## Definition lines -/

theorem isDefinition_of_head {s : Text} (h : s.head? = some ' ') :
    Definition.isDefinition s = false := by
  cases s with
  | nil => rfl
  | cons c s =>
      obtain rfl : c = ' ' := by simpa using h
      rfl

theorem filter_documented {definition : Text} (pending : Lines)
    (h : Definition.isDefinition definition = true) :
    (documented pending definition).filter Definition.isDefinition = [definition] := by
  have hquotes : Definition.isDefinition quotes = false := isDefinition_of_head rfl
  have hdoc : ∀ line ∈ pending.map docLine, ¬ Definition.isDefinition line = true := by
    intro line hline
    obtain ⟨comment, -, rfl⟩ := List.mem_map.mp hline
    simp [isDefinition_of_head (show (docLine comment).head? = some ' ' from rfl)]
  cases pending with
  | nil => simp [documented, h]
  | cons comment pending =>
      simp only [documented, List.filter_append, List.filter_eq_nil_iff.mpr hdoc, List.filter_cons, h,
        hquotes, Bool.false_eq_true, ↓reduceIte, List.filter_nil, List.append_nil]

theorem filter_forward (pending lines : Lines)
    (h : pending.filter Definition.isDefinition = []) :
    (forward pending lines).filter Definition.isDefinition =
      lines.filter Definition.isDefinition := by
  induction lines generalizing pending with
  | nil => exact h
  | cons line lines ih =>
      have hrest := ih [] rfl
      rw [forward]
      split
      · rename_i hmarker
        have hline : Definition.isDefinition line = false :=
          Comment.isDefinition_of_isComment (by rw [Comment.isComment_eq, hmarker])
        rw [ih (pending ++ [line]) (by simp [h, hline]), List.filter_cons_of_neg (by simp [hline])]
      · split
        · rename_i hd
          rw [List.filter_append, filter_documented pending hd, hrest, List.filter_cons_of_pos hd]
          rfl
        · rename_i hd
          rw [List.filter_append, List.filter_append, h, hrest, List.filter_cons_of_neg hd]
          simp [hd]

/-- A final line that got no docstring is written last. -/
theorem exists_forward_eq_concat {init : Lines} {last : Text}
    (h : endsDocumented (init ++ [last]) = false) :
    ∃ head, forward [] (init ++ [last]) = head ++ [last] := by
  obtain ⟨head, tail, htail, hforward, -, -⟩ := promote_eq_append (init ++ [last])
  rw [drop_reach_concat h] at htail
  refine ⟨head ++ init.drop (Span.reach 0 (Span.following [] init)), ?_⟩
  rw [hforward, htail, List.append_assoc]

theorem filter_promoted_concat {init : Lines} {last : Text}
    (h : endsDocumented (init ++ [last]) = false) :
    (promoted false (init ++ [last])).filter Definition.isDefinition =
      init.filter Definition.isDefinition := by
  obtain ⟨head, hhead⟩ := exists_forward_eq_concat h
  have hall := filter_forward [] (init ++ [last]) rfl
  rw [hhead, List.filter_append, List.filter_append] at hall
  rw [promoted, h, Bool.or_false, if_neg Bool.false_ne_true, hhead, List.dropLast_concat]
  exact List.append_cancel_right hall

/-- Definition lines stay in their order. One is lost exactly if the final line is not kept and is itself
a definition without a docstring, and then it is that one. -/
theorem promote_filter (keepFinalLine : Bool) (lines : Lines) :
    ∃ written, (promote keepFinalLine lines).outcome = .ok written ∧
      ((keepFinalLine = true ∨ endsDocumented lines = true ∨
            lines.getLast?.any Definition.isDefinition = false) ∧
          written.filter Definition.isDefinition = lines.filter Definition.isDefinition ∨
        keepFinalLine = false ∧ endsDocumented lines = false ∧
          ∃ init last, lines = init ++ [last] ∧ Definition.isDefinition last = true ∧
            written.filter Definition.isDefinition = init.filter Definition.isDefinition) := by
  refine ⟨_, promote_eq_promoted keepFinalLine lines, ?_⟩
  cases hkeep : keepFinalLine || endsDocumented lines with
  | true =>
      have hreason : keepFinalLine = true ∨ endsDocumented lines = true := by simpa using hkeep
      refine .inl ⟨hreason.imp_right .inl, ?_⟩
      rw [promoted, if_pos hkeep]
      exact filter_forward [] lines rfl
  | false =>
      obtain ⟨rfl, hplain⟩ := Bool.or_eq_false_iff.mp hkeep
      rcases List.eq_nil_or_concat lines with rfl | ⟨init, last, rfl⟩
      · exact .inl ⟨.inr (.inr rfl), rfl⟩
      · rw [List.concat_eq_append] at hplain ⊢
        rw [filter_promoted_concat hplain]
        cases hlast : Definition.isDefinition last with
        | true => exact .inr ⟨rfl, hplain, init, last, rfl, hlast, rfl⟩
        | false => exact .inl ⟨.inr (.inr (by simp [hlast])), by simp [hlast]⟩

end Docstring

end Linewise
