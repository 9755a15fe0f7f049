import Linewise.Pass.Run
import Linewise.Proofs.Docstring.FinalLine
import Linewise.Proofs.Header.Fault

/-! Which passes can fail. Docstrings cannot, whatever lines earlier passes left, because their
spans are read off the very lines that are spliced. Main statement: a run fails only at a malformed
parameter, found by a pass over the headers in one of the lines it was given. -/
namespace Linewise

namespace Pass

variable {options : Options}

theorem run_cons (pass : Pass) (passes : List Pass) (lines : Lines) :
    (run options (pass :: passes) lines).outcome =
      (pass.apply options lines).outcome >>= fun lines => (run options passes lines).outcome := by
  simp only [run, Logged.outcome_bind, Logged.outcome_record, Outcome.ok_bind]

theorem run_comments_cons (passes : List Pass) (lines : Lines) :
    (run options (.comments :: passes) lines).outcome =
      (run options passes (lines.map Comment.convert)).outcome := by
  rw [run_cons]
  rfl

theorem run_definitions (options : Options) (lines : Lines) :
    (run options [.comments, .functionDefinitions] lines).outcome =
      (Header.convertLines (lines.map Comment.convert)).outcome := by
  rw [run_comments_cons, run_cons]
  change (Header.convertLines (lines.map Comment.convert)).outcome >>= Except.ok = _
  cases (Header.convertLines (lines.map Comment.convert)).outcome <;> rfl

theorem run_append (passes later : List Pass) (lines : Lines) :
    (run options (passes ++ later) lines).outcome =
      (run options passes lines).outcome >>= fun next => (run options later next).outcome := by
  induction passes generalizing lines with
  | nil => rfl
  | cons pass passes ih =>
      rw [List.cons_append, run_cons, run_cons]
      cases (pass.apply options lines).outcome with
      | error fault => rfl
      | ok next => exact ih next

theorem apply_ok (options : Options) {pass : Pass} (h : pass ≠ .functionDefinitions) (lines : Lines) :
    ∃ written, (pass.apply options lines).outcome = .ok written := by
  cases pass with
  | functionDefinitions => exact absurd rfl h
  | docstrings => exact Docstring.promote_ok options.keepFinalLine lines
  | comments | controlStructures | variableDeclarations | braces => exact ⟨_, rfl⟩

theorem apply_fault {pass : Pass} {lines : Lines} {fault : Fault}
    (h : (pass.apply options lines).outcome = .error fault) :
    pass = .functionDefinitions ∧ ∃ line entry, fault = .malformedParameter line entry ∧
      1 ≤ line ∧ line ≤ lines.length := by
  by_cases hpass : pass = .functionDefinitions
  · subst hpass
    obtain ⟨index, line, entry, ⟨hline, -⟩, -, hfault⟩ := Header.convertFrom_eq_error_iff.mp h
    have hindex : index < lines.length := (List.getElem?_eq_some_iff.mp hline).1
    exact ⟨rfl, 1 + index, entry.trim, hfault, by omega, by omega⟩
  · obtain ⟨written, hok⟩ := apply_ok options hpass lines
    rw [hok] at h
    cases h

theorem run_ok (options : Options) {passes : List Pass} (h : .functionDefinitions ∉ passes)
    (lines : Lines) : ∃ written, (run options passes lines).outcome = .ok written := by
  induction passes generalizing lines with
  | nil => exact ⟨lines, rfl⟩
  | cons pass passes ih =>
      obtain ⟨hpass, hpasses⟩ := List.ne_and_not_mem_of_not_mem_cons h
      obtain ⟨next, hnext⟩ := apply_ok options (Ne.symm hpass) lines
      rw [run_cons, hnext]
      exact ih hpasses next

theorem exists_of_run_fault {passes : List Pass} {lines : Lines} {fault : Fault}
    (h : (run options passes lines).outcome = .error fault) :
    ∃ before pass after entered, passes = before ++ pass :: after ∧
      (run options before lines).outcome = .ok entered ∧
      (pass.apply options entered).outcome = .error fault := by
  induction passes generalizing lines with
  | nil => cases h
  | cons pass passes ih =>
      rw [run_cons] at h
      rcases Outcome.bind_eq_error_iff.mp h with happly | ⟨next, hnext, hrun⟩
      · exact ⟨[], pass, passes, lines, rfl, rfl, happly⟩
      · obtain ⟨before, failing, after, entered, rfl, hbefore, hfault⟩ := ih hrun
        refine ⟨pass :: before, failing, after, entered, rfl, ?_, hfault⟩
        rw [run_cons, hnext]
        exact hbefore

/-- Whatever passes are run, in whatever order and how often, on whatever lines: no pass but those
over the headers can fail, and these fail only at a malformed parameter of a line they were given. -/
theorem run_ok_or_malformed (options : Options) (passes : List Pass) (lines : Lines) :
    (∀ pass entered, pass = .functionDefinitions ∨
      ∃ written, (apply options pass entered).outcome = .ok written) ∧
    ((∃ written, (run options passes lines).outcome = .ok written) ∨
      ∃ before after entered line entry, passes = before ++ .functionDefinitions :: after ∧
        (run options before lines).outcome = .ok entered ∧
        (apply options .functionDefinitions entered).outcome = .error (.malformedParameter line entry) ∧
        1 ≤ line ∧ line ≤ entered.length ∧
        (run options passes lines).outcome = .error (.malformedParameter line entry)) := by
  constructor
  · intro pass entered
    by_cases hpass : pass = .functionDefinitions
    · exact .inl hpass
    · exact .inr (apply_ok options hpass entered)
  · cases hrun : (run options passes lines).outcome with
    | ok written => exact .inl ⟨written, rfl⟩
    | error fault =>
        obtain ⟨before, pass, after, entered, hpasses, hbefore, hfault⟩ := exists_of_run_fault hrun
        obtain ⟨rfl, line, entry, rfl, hpos, hle⟩ := apply_fault hfault
        exact .inr ⟨before, after, entered, line, entry, hpasses, hbefore, hfault, hpos, hle, rfl⟩

end Pass

end Linewise
