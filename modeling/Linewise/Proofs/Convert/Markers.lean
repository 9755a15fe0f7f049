import Linewise.Convert
import Linewise.Proofs.Lines
import Linewise.Proofs.Pass.Markers

/-!
Comment markers and braces in converted sources. Braces are gone. Markers are gone after the first
pass, and come back only where braces stood between two slashes, because braces are removed last.
Main statement: this is exactly when converting the comments of a converted source changes it.
-/
namespace Linewise

/-! ## Comments -/

namespace Comment

theorem convert_eq_self_iff {line : Text} : convert line = line ↔ ¬ sourceMarker <:+: line := by
  constructor
  · intro h
    rw [← h]
    exact not_isInfix_convert line
  · intro h
    apply Rule.applyAll_eq_self
    intro t ht
    rw [marker, Option.map_eq_none_iff, Option.eq_none_iff_forall_ne_some]
    intro rest hrest
    have hpart : sourceMarker <+: t := ⟨rest, (Text.after?_eq_some_iff.mp hrest).symm⟩
    exact h (hpart.isInfix.trans ht.isInfix)

/-- Whether two slashes stand in the text with braces, and only braces, between them. -/
def HoldsSplitMarker (s : Text) : Prop :=
  ∃ gap : Text, gap ≠ [] ∧ (∀ c ∈ gap, c = '{' ∨ c = '}') ∧ '/' :: gap ++ ['/'] <:+: s

theorem HoldsSplitMarker.of_marksFrom {s origin : Text} (h : HoldsSplitMarker s)
    (hmarks : s.MarksFrom origin) : HoldsSplitMarker origin := by
  obtain ⟨gap, hne, hgap, hpart⟩ := h
  have hrun : Text.IsRun ('/' :: gap ++ ['/']) := by
    intro c hc
    simp only [List.cons_append, List.mem_cons, List.mem_append, List.not_mem_nil, or_false] at hc
    rcases hc with rfl | hc | rfl
    · rfl
    · rcases hgap c hc with rfl | rfl <;> rfl
    · rfl
  exact ⟨gap, hne, hgap, hmarks _ hrun hpart⟩

end Comment

/-! ## Braces -/

namespace Braces

theorem isInfix_remove_iff {line : Text} : Comment.sourceMarker <:+: remove line ↔
    ∃ gap : Text, (∀ c ∈ gap, c = '{' ∨ c = '}') ∧ '/' :: gap ++ ['/'] <:+: line := by
  rw [Comment.sourceMarker_eq]
  constructor
  · rintro ⟨before, after, h⟩
    rw [List.append_assoc] at h
    obtain ⟨left, right, rfl, -, hright⟩ := List.filter_eq_append_iff.mp h.symm
    -- What is left out of `right` up to the second slash is the gap and what stands before the first.
    obtain ⟨skipped, middle, rfl, -, -, hmiddle⟩ := List.filter_eq_cons_iff.mp hright
    obtain ⟨gap, rest, rfl, hgap, -, -⟩ := List.filter_eq_cons_iff.mp hmiddle
    refine ⟨gap, ?_, left ++ skipped, rest, by simp⟩
    intro c hc
    have hremoved := hgap c hc
    simp only [Bool.and_eq_true, bne_iff_ne, ne_eq, not_and, not_not] at hremoved
    by_cases hopen : c = '{'
    · exact .inl hopen
    · exact .inr (hremoved hopen)
  · rintro ⟨gap, hgap, hpart⟩
    have hnil : remove gap = [] := by
      rw [remove, List.filter_eq_nil_iff]
      intro c hc
      rcases hgap c hc with rfl | rfl <;> decide
    have hremove : remove ('/' :: gap ++ ['/']) = ['/', '/'] := by
      rw [remove, List.cons_append, List.filter_cons_of_pos (by decide), List.filter_append, ← remove,
        hnil]
      rfl
    rw [← hremove]
    exact hpart.filter _

end Braces

/-! ## The lines before braces are removed -/

theorem exists_of_convert {options : Options} {source output : Text}
    (h : (convert options source).outcome = .ok output) :
    ∃ lines, (Pass.run options Pass.pipeline.dropLast (Lines.ofText source)).outcome = .ok lines ∧
      output = Lines.toText (lines.map Braces.remove) := by
  rw [convert, Logged.outcome_bind] at h
  obtain ⟨written, hrun, h⟩ := Outcome.bind_eq_ok_iff.mp h
  cases h
  rw [show Pass.pipeline = Pass.pipeline.dropLast ++ [.braces] from rfl, Pass.run_append] at hrun
  obtain ⟨lines, hlines, hrun⟩ := Outcome.bind_eq_ok_iff.mp hrun
  cases hrun
  exact ⟨lines, hlines, rfl⟩

theorem not_isInfix_of_run {options : Options} {lines written : Lines} {line : Text}
    (h : (Pass.run options Pass.pipeline.dropLast lines).outcome = .ok written)
    (hline : line ∈ written) : ¬ Comment.sourceMarker <:+: line := by
  have hpasses : Pass.pipeline.dropLast =
      .comments :: [.functionDefinitions, .docstrings, .controlStructures, .variableDeclarations] := rfl
  rw [hpasses, Pass.run_comments_cons] at h
  have hfree := (Pass.run_marksFrom (by decide) h).markerFree (Comment.map_convert_markerFree lines)
  exact hfree line hline

theorem isInfix_output_iff {options : Options} {source lines : Lines}
    (h : (Pass.run options Pass.pipeline.dropLast source).outcome = .ok lines) :
    Comment.sourceMarker <:+: Lines.toText (lines.map Braces.remove) ↔
      ∃ line ∈ lines, Comment.HoldsSplitMarker line := by
  constructor
  · intro hpart
    obtain ⟨line, hline, hpart⟩ := Lines.exists_mem_of_isInfix_toText (by decide) (by decide) hpart
    obtain ⟨origin, horigin, rfl⟩ := List.mem_map.mp hline
    obtain ⟨gap, hgap, hsplit⟩ := Braces.isInfix_remove_iff.mp hpart
    refine ⟨origin, horigin, gap, ?_, hgap, hsplit⟩
    -- Without a gap it would be a marker, and there are none left.
    rintro rfl
    exact not_isInfix_of_run h horigin hsplit
  · rintro ⟨line, hline, gap, -, hgap, hsplit⟩
    have hpart := Braces.isInfix_remove_iff.mpr ⟨gap, hgap, hsplit⟩
    exact hpart.trans (Lines.isInfix_toText_of_mem (List.mem_map_of_mem hline))

theorem not_mem_output (lines : Lines) {c : Char} (hc : ∀ line, c ∉ Braces.remove line)
    (hfeed : c ≠ '\n') : c ∉ Lines.toText (lines.map Braces.remove) := by
  intro hmem
  obtain ⟨before, after, htext⟩ := List.append_of_mem hmem
  have hpart : [c] <:+: Lines.toText (lines.map Braces.remove) := ⟨before, after, by simp [htext]⟩
  obtain ⟨line, hline, hpart⟩ :=
    Lines.exists_mem_of_isInfix_toText (by simpa using Ne.symm hfeed) (by simp) hpart
  obtain ⟨origin, -, rfl⟩ := List.mem_map.mp hline
  exact hc origin (hpart.subset List.mem_cons_self)

/-! ## What is written -/

theorem map_comment_convert_iff (text : Text) :
    (Lines.ofText text).map Comment.convert = Lines.ofText text ↔ ¬ Comment.sourceMarker <:+: text := by
  rw [Lines.map_eq_self_iff]
  simp only [Comment.convert_eq_self_iff]
  constructor
  · intro h hpart
    obtain ⟨line, hline, hpart⟩ := Lines.exists_mem_ofText (by decide) (by decide) hpart
    exact h line hline hpart
  · intro h line hline hpart
    exact h (hpart.trans (Lines.isInfix_of_mem_ofText hline))

theorem map_braces_remove {text : Text} (hopen : '{' ∉ text) (hclose : '}' ∉ text) :
    (Lines.ofText text).map Braces.remove = Lines.ofText text := by
  rw [Lines.map_eq_self_iff]
  intro line hline
  have hsubset := (Lines.isInfix_of_mem_ofText hline).subset
  exact Braces.remove_eq_self (fun h => hopen (hsubset h)) fun h => hclose (hsubset h)

/-- A converted source holds no braces, and removing them again changes nothing. It holds a comment
marker, and converting comments again changes it, exactly if some line held a split marker just
before its braces were removed. Then the source held one too. -/
theorem convert_marker_iff {options : Options} {source output : Text}
    (h : (convert options source).outcome = .ok output) :
    (Lines.ofText output).map Braces.remove = Lines.ofText output ∧ '{' ∉ output ∧ '}' ∉ output ∧
    ((Lines.ofText output).map Comment.convert = Lines.ofText output ↔
      ¬ Comment.sourceMarker <:+: output) ∧
    (∃ lines, (Pass.run options Pass.pipeline.dropLast (Lines.ofText source)).outcome = .ok lines ∧
      (Comment.sourceMarker <:+: output ↔ ∃ line ∈ lines, Comment.HoldsSplitMarker line)) ∧
    (Comment.sourceMarker <:+: output → Comment.HoldsSplitMarker source) := by
  obtain ⟨lines, hlines, rfl⟩ := exists_of_convert h
  have hopen := not_mem_output lines (fun line => (Braces.not_mem_remove line).1) (by decide)
  have hclose := not_mem_output lines (fun line => (Braces.not_mem_remove line).2) (by decide)
  have hsplit := isInfix_output_iff hlines
  refine ⟨map_braces_remove hopen hclose, hopen, hclose, map_comment_convert_iff _,
    ⟨lines, hlines, hsplit⟩, ?_⟩
  intro hpart
  obtain ⟨line, hline, hholds⟩ := hsplit.mp hpart
  obtain ⟨origin, horigin, hmarks⟩ := Pass.run_marksFrom (by decide) hlines line hline
  exact hholds.of_marksFrom (hmarks.trans (.of_isInfix (Lines.isInfix_of_mem_ofText horigin)))

theorem convert_marker_iff_half :
    ∃ output, (convert { keepFinalLine := false }
        ("// half of a\nfunc half(a int) int \x7b\n".toList ++
          "\treturn a / 2 // floor\n\x7d\n".toList)).outcome = .ok output ∧
      (Lines.ofText output).map Braces.remove = Lines.ofText output ∧
      (Lines.ofText output).map Comment.convert = Lines.ofText output := by
  have h : (convert { keepFinalLine := false }
        ("// half of a\nfunc half(a int) int \x7b\n".toList ++
          "\treturn a / 2 // floor\n\x7d\n".toList)).outcome =
      .ok ("fn half(a: int) -> int:\n    \"\"\"\n    half of a\n    \"\"\"\n".toList ++
        "\treturn a / 2 # floor\n".toList) := by
    decide +kernel
  obtain ⟨hbraces, -, -, hcomments, -, -⟩ := convert_marker_iff h
  exact ⟨_, h, hbraces, hcomments.mpr (by decide +kernel)⟩

/-- Braces between two slashes, as in a path with an empty placeholder. -/
theorem convert_joins_split_marker :
    (convert { keepFinalLine := false } "path := \"/api/\x7b\x7d/v1\"\n".toList).outcome =
      .ok "var path = \"/api//v1\"".toList ∧
    (Lines.ofText "var path = \"/api//v1\"".toList).map Comment.convert ≠
      Lines.ofText "var path = \"/api//v1\"".toList := by
  decide +kernel

end Linewise
