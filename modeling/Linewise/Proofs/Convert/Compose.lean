import Linewise.Proofs.Convert.Stages

/-! Sources with a blank line between them. No comment block crosses it, so each of the two sources is
converted as if it stood alone. -/
namespace Linewise

theorem written_true_blank (entered later : Lines) :
    Pass.written true (entered ++ [] :: later) =
      Pass.written true entered ++ [] :: Pass.written true later := by
  rw [Pass.written_true, Docstring.forward_blank, List.map_append, List.map_cons]
  rfl

theorem written_true_ne_nil {entered : Lines} (h : entered ≠ []) : Pass.written true entered ≠ [] := by
  rw [Pass.written_true, ne_eq, List.map_eq_nil_iff]
  exact Docstring.forward_ne_nil h

theorem Lines.toText_blank {lines later : Lines} (h : lines ≠ []) (hlater : later ≠ []) :
    toText (lines ++ [] :: later) = toText lines ++ "\n\n".toList ++ toText later := by
  obtain ⟨next, rest, rfl⟩ := List.exists_cons_of_ne_nil hlater
  rw [toText_append h (List.cons_ne_nil _ _), toText_cons_cons]
  simp

theorem convertLines_append_blank {s : Text} (h : s.getLast? ≠ some '\r') (t : Text) :
    (Header.convertLines (headerLines (s ++ "\n\n".toList ++ t))).outcome =
      (Header.convertLines (headerLines s)).outcome >>= fun entered =>
        (Header.convertLines (headerLines t)).outcome.mapError
          (Fault.lower ((Lines.ofText s).length + 1)) >>= fun later =>
            .ok (entered ++ [] :: later) := by
  have hblank : headerLines ('\n' :: t) = [] :: headerLines t :=
    headerLines_append (s := []) t (by simp)
  have hlines : headerLines (s ++ "\n\n".toList ++ t) = headerLines s ++ [] :: headerLines t := by
    rw [List.append_assoc, ← hblank]
    exact headerLines_append ('\n' :: t) h
  have hlength : (headerLines s).length = (Lines.ofText s).length := List.length_map _
  rw [hlines, Header.convertLines_blank, hlength]

/-- Two sources with a blank line between them are converted to their conversions with a blank line
between them. The first source's fault is reported as it is, and the second one's with its line moved
down by the lines before it. A `\r` at the end of the first source would belong to the line end. -/
theorem convert_append_blank {s : Text} (h : s.getLast? ≠ some '\r') (t : Text) :
    (∀ first second, (convert { keepFinalLine := true } s).outcome = .ok first →
      (convert { keepFinalLine := true } t).outcome = .ok second →
      (convert { keepFinalLine := true } (s ++ "\n\n".toList ++ t)).outcome =
        .ok (first ++ "\n\n".toList ++ second)) ∧
    (∀ fault, (convert { keepFinalLine := true } s).outcome = .error fault →
      (convert { keepFinalLine := true } (s ++ "\n\n".toList ++ t)).outcome = .error fault) ∧
    (∀ first fault, (convert { keepFinalLine := true } s).outcome = .ok first →
      (convert { keepFinalLine := true } t).outcome = .error fault →
      ∃ line entry, fault = .malformedParameter line entry ∧
        (convert { keepFinalLine := true } (s ++ "\n\n".toList ++ t)).outcome =
          .error (.malformedParameter (line + (Lines.ofText s).length + 1) entry)) := by
  simp only [convert_outcome, convertLines_append_blank h]
  cases hs : (Header.convertLines (headerLines s)).outcome with
  | error fault => simp
  | ok entered =>
      cases ht : (Header.convertLines (headerLines t)).outcome with
      | error fault =>
          obtain ⟨index, line, entry, -, -, rfl⟩ := Header.convertFrom_eq_error_iff.mp ht
          simp [Fault.lower, Nat.add_assoc]
      | ok later =>
          have hwritten := Lines.toText_blank (written_true_ne_nil (entered_ne_nil hs))
            (written_true_ne_nil (entered_ne_nil ht))
          simp only [Outcome.mapError_ok, Outcome.ok_bind, written_true_blank, hwritten]
          simp

theorem convert_append_blank_comment :
    "x := 1\n// no docstring".toList.getLast? ≠ some '\r' ∧
    (convert { keepFinalLine := true }
      ("x := 1\n// no docstring".toList ++ "\n\n".toList ++ "func f(n int) \x7b".toList)).outcome =
        .ok ("var x = 1\n# no docstring".toList ++ "\n\n".toList ++ "fn f(n: int):".toList) ∧
    (convert { keepFinalLine := true }
      ("x := 1\n// no docstring".toList ++ "\n\n".toList ++ "\nfunc f(n) \x7b".toList)).outcome =
        .error (.malformedParameter (2 + 2 + 1) "n".toList) := by
  have hlast : "x := 1\n// no docstring".toList.getLast? ≠ some '\r' := by decide
  have hfirst : (convert { keepFinalLine := true } "x := 1\n// no docstring".toList).outcome =
      .ok "var x = 1\n# no docstring".toList := by decide +kernel
  have hsecond : (convert { keepFinalLine := true } "func f(n int) \x7b".toList).outcome =
      .ok "fn f(n: int):".toList := by decide +kernel
  have hbad : (convert { keepFinalLine := true } "\nfunc f(n) \x7b".toList).outcome =
      .error (.malformedParameter 2 "n".toList) := by decide +kernel
  obtain ⟨line, entry, hfault, hmoved⟩ := (convert_append_blank hlast _).2.2 _ _ hfirst hbad
  obtain ⟨rfl, rfl⟩ := Fault.malformedParameter.inj hfault
  exact ⟨hlast, (convert_append_blank hlast _).1 _ _ hfirst hsecond, hmoved⟩

end Linewise
