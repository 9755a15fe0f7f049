import Linewise.Proofs.Convert.Stages

/-! The final line of a source. Main statements: leaving it out changes nothing else, and a source
that ends with a line feed loses nothing. -/
namespace Linewise

theorem written_of_endsDocumented {entered : Lines} (h : Docstring.endsDocumented entered = true) :
    Pass.written false entered = Pass.written true entered := by
  rw [Pass.written, Docstring.promoted, h, Bool.or_true]
  rfl

theorem written_concat {entered : Lines} (h : Docstring.endsDocumented entered = false)
    (hne : entered ≠ []) : ∃ last, Pass.written true entered = Pass.written false entered ++ [last] := by
  have hforward : Docstring.forward [] entered ≠ [] := Docstring.forward_ne_nil hne
  have hdropped : Pass.written false entered =
      (Docstring.forward [] entered).dropLast.map Pass.finish := by
    rw [Pass.written, Docstring.promoted, h]
    rfl
  refine ⟨Pass.finish ((Docstring.forward [] entered).getLast hforward), ?_⟩
  rw [hdropped, ← List.map_singleton, ← List.map_append, List.dropLast_concat_getLast hforward]
  rfl

/-- A conversion fails with and without the final line in the same way, or succeeds both times. Then the
lines differ by the last one exactly, unless the final line is a definition that got a docstring. -/
theorem run_drops_final_line (source : Text) :
    (∃ fault,
      (Pass.run { keepFinalLine := false } Pass.pipeline (Lines.ofText source)).outcome =
        .error fault ∧
      (Pass.run { keepFinalLine := true } Pass.pipeline (Lines.ofText source)).outcome =
        .error fault) ∨
    ∃ entered dropped kept,
      (∀ options, (Pass.run options [.comments, .functionDefinitions] (Lines.ofText source)).outcome =
        .ok entered) ∧
      (Pass.run { keepFinalLine := false } Pass.pipeline (Lines.ofText source)).outcome =
        .ok dropped ∧
      (Pass.run { keepFinalLine := true } Pass.pipeline (Lines.ofText source)).outcome = .ok kept ∧
      (Docstring.endsDocumented entered = true → dropped = kept) ∧
      (Docstring.endsDocumented entered = false → ∃ last, kept = dropped ++ [last]) := by
  simp only [Pass.run_pipeline, Pass.run_definitions]
  cases h : (Header.convertLines ((Lines.ofText source).map Comment.convert)).outcome with
  | error fault => exact .inl ⟨fault, rfl, rfl⟩
  | ok entered =>
      exact .inr ⟨entered, _, _, fun _ => rfl, rfl, rfl, written_of_endsDocumented,
        fun hplain => written_concat hplain (entered_ne_nil h)⟩

/-- The line that is left out after a final line feed is empty, so no definition stands there. -/
theorem written_concat_nil (entered : Lines) :
    Pass.written false (entered ++ [[]]) = Pass.written true entered := by
  have hplain : Docstring.endsDocumented (entered ++ [[]]) = false := by
    rw [Docstring.endsDocumented, List.getLast?_concat]
    rfl
  rw [Pass.written, Docstring.promoted, hplain, Docstring.forward_blank]
  exact congrArg (List.map Pass.finish) List.dropLast_concat

/-- A source that ends with a line feed is converted whole, even if its final line is not kept. -/
theorem convert_line_feed {s : Text} (h : s.getLast? ≠ some '\r') :
    (convert { keepFinalLine := false } (s ++ ['\n'])).outcome =
      (convert { keepFinalLine := true } s).outcome := by
  have hlines : headerLines (s ++ ['\n']) = headerLines s ++ [[]] := headerLines_append [] h
  rw [convert_outcome, convert_outcome, hlines, Header.convertLines_blank]
  cases (Header.convertLines (headerLines s)).outcome with
  | error fault => rfl
  | ok entered =>
      rw [Outcome.ok_bind, Outcome.ok_bind, ← written_concat_nil]
      rfl

theorem convert_line_feed_documented :
    "// doc\nfunc f() \x7b".toList.getLast? ≠ some '\r' ∧
    (convert { keepFinalLine := false } ("// doc\nfunc f() \x7b".toList ++ ['\n'])).outcome =
      .ok "fn f():\n    \"\"\"\n    doc\n    \"\"\"".toList := by
  have hlast : "// doc\nfunc f() \x7b".toList.getLast? ≠ some '\r' := by decide
  refine ⟨hlast, ?_⟩
  rw [convert_line_feed hlast]
  decide +kernel

end Linewise
