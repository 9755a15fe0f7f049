import Linewise.Proofs.Pass.Marks

/-!
Comment markers from pass to pass. The pass over the comments leaves none behind. Main statement: no
other pass brings two slashes together, as long as braces are not removed.
-/
namespace Linewise

namespace Comment

theorem sourceMarker_eq : sourceMarker = ['/', '/'] := rfl

theorem sourceMarker_isRun : sourceMarker.IsRun := by
  simp [sourceMarker_eq, Text.IsRun, isMark]

theorem not_isInfix_convert (line : Text) : ¬ sourceMarker <:+: convert line := by
  rw [sourceMarker_eq]
  refine Rule.applyAll_induction (motive := fun _ t => ¬ ['/', '/'] <:+: t) ?_ ?_ ?_ ?_ line
  · intro c s written rest h
    exact (marker_keepsMarksApart _ _ _ h).suffix
  · decide
  · intro c s hnone hlater hpart
    rcases List.infix_cons_iff.mp hpart with hpart | hpart
    · -- A second slash comes from the line itself, and the rule would have read both.
      obtain ⟨rfl, hslash⟩ := List.cons_prefix_cons.mp hpart
      have hrun : Text.IsRun ['/'] := by simp [Text.IsRun, isMark]
      obtain ⟨rest, rfl⟩ := (marker_keepsMarksApart.applyAll s).1 ['/'] hrun hslash
      have hread : Text.after? ('/' :: '/' :: rest) sourceMarker = some rest :=
        Text.after?_eq_some_iff.mpr rfl
      simp [marker, hread] at hnone
    · exact hlater hpart
  · intro c s written rest h hlater hpart
    obtain ⟨t, -, h⟩ := Option.map_eq_some_iff.mp h
    cases h
    rcases List.infix_cons_iff.mp hpart with hpart | hpart
    · obtain ⟨h, -⟩ := List.cons_prefix_cons.mp hpart
      exact absurd h (by decide)
    · exact hlater hpart

end Comment

/-- Whether no line holds a comment marker of the source. -/
def Lines.MarkerFree (lines : Lines) : Prop :=
  ∀ line ∈ lines, ¬ Comment.sourceMarker <:+: line

instance : DecidablePred Lines.MarkerFree := fun lines =>
  inferInstanceAs (Decidable (∀ line ∈ lines, ¬ Comment.sourceMarker <:+: line))

theorem Lines.MarksFrom.markerFree {written lines : Lines} (h : Lines.MarksFrom written lines)
    (hlines : lines.MarkerFree) : written.MarkerFree := by
  intro line hline hpart
  obtain ⟨origin, horigin, hmarks⟩ := h line hline
  exact hlines origin horigin (hmarks _ Comment.sourceMarker_isRun hpart)

theorem Comment.map_convert_markerFree (lines : Lines) : Lines.MarkerFree (lines.map convert) := by
  intro line hline
  obtain ⟨origin, -, rfl⟩ := List.mem_map.mp hline
  exact not_isInfix_convert origin

/-- The pass over the comments leaves lines without a marker, and they stay so through every run of
passes, in any order and however often, that removes no braces. -/
theorem Pass.run_keeps_markerFree :
    (∀ (options : Options) (lines : Lines), ∃ written,
      (apply options .comments lines).outcome = .ok written ∧ written.MarkerFree) ∧
    ∀ (options : Options) (passes : List Pass) (lines written : Lines), .braces ∉ passes →
      lines.MarkerFree → (run options passes lines).outcome = .ok written → written.MarkerFree := by
  constructor
  · intro options lines
    exact ⟨lines.map Comment.convert, rfl, Comment.map_convert_markerFree lines⟩
  · intro options passes lines written hpasses hlines h
    exact (run_marksFrom hpasses h).markerFree hlines

/-- Slashes at the ends of comments, parameters, clauses and values. -/
theorem Pass.run_keeps_markerFree_slashes :
    ∃ passes lines written, Pass.braces ∉ passes ∧ Lines.MarkerFree lines ∧
      (run { keepFinalLine := true } passes lines).outcome = .ok written ∧ written.MarkerFree ∧
      lines = ["#/ /".toList, "func f(a/ /b, c/ /d) /".toList, "/for x/; /y/; /z/ \x7b/".toList,
        "/n := /m/".toList] ∧
      written = ["fn f(a/: /b, c/: /d):".toList, "    \"\"\"".toList, "    / /".toList,
        "    \"\"\"".toList, "/for x/ in range(/y/, /z/):/".toList, "/var n = /m/".toList] := by
  have hpasses : Pass.braces ∉
      [functionDefinitions, docstrings, controlStructures, variableDeclarations, docstrings] := by decide
  have hlines : Lines.MarkerFree ["#/ /".toList, "func f(a/ /b, c/ /d) /".toList,
      "/for x/; /y/; /z/ \x7b/".toList, "/n := /m/".toList] := by decide +kernel
  have hrun : (run { keepFinalLine := true }
      [functionDefinitions, docstrings, controlStructures, variableDeclarations, docstrings]
      ["#/ /".toList, "func f(a/ /b, c/ /d) /".toList, "/for x/; /y/; /z/ \x7b/".toList,
        "/n := /m/".toList]).outcome =
      .ok ["fn f(a/: /b, c/: /d):".toList, "    \"\"\"".toList, "    / /".toList,
        "    \"\"\"".toList, "/for x/ in range(/y/, /z/):/".toList, "/var n = /m/".toList] := by
    decide +kernel
  exact ⟨_, _, _, hpasses, hlines, hrun, run_keeps_markerFree.2 _ _ _ _ hpasses hlines hrun, rfl, rfl⟩

end Linewise
