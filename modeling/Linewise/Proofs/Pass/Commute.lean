import Linewise.Proofs.Header.Comments
import Linewise.Proofs.Pass.Safety

/-! The order of the first two passes. Main statement: comments and headers can be converted in either
order, and only the entry that is reported of a malformed parameter tells them apart. -/
namespace Linewise

namespace Pass

theorem run_headers_first (options : Options) (lines : Lines) :
    (run options [.functionDefinitions, .comments] lines).outcome =
      (Header.convertLines lines).outcome.map (List.map Comment.convert) := by
  rw [run_cons]
  change ((Header.convertLines lines).outcome >>= fun written =>
    .ok (written.map Comment.convert)) = _
  cases (Header.convertLines lines).outcome <;> rfl

/-- Comments and headers in either order: both runs give the same lines, or both find a malformed
parameter on the same line, and the entry that is reported with the comments first is the other one with
its comment markers converted. -/
theorem run_comments_headers_comm (options : Options) (lines : Lines) :
    (∃ written, (run options [.comments, .functionDefinitions] lines).outcome = .ok written ∧
      (run options [.functionDefinitions, .comments] lines).outcome = .ok written) ∨
    ∃ number entry,
      (run options [.comments, .functionDefinitions] lines).outcome =
        .error (.malformedParameter number (Comment.convert entry)) ∧
      (run options [.functionDefinitions, .comments] lines).outcome =
        .error (.malformedParameter number entry) := by
  have hconvert : (Header.convertLines (lines.map Comment.convert)).outcome =
      ((Header.convertLines lines).outcome.map (List.map Comment.convert)).mapError
        (Fault.mapEntry Comment.convert) := Header.convertFrom_convert 1 lines
  rw [run_definitions, run_headers_first, hconvert]
  cases h : (Header.convertLines lines).outcome with
  | ok written => exact .inl ⟨written.map Comment.convert, rfl, rfl⟩
  | error fault =>
      obtain ⟨index, line, entry, -, -, rfl⟩ := Header.convertFrom_eq_error_iff.mp h
      exact .inr ⟨1 + index, entry.trim, rfl, rfl⟩

example : (run {} [.comments, .functionDefinitions] ["func f(a ///int, //b///)".toList]).outcome =
    .error (.malformedParameter 1 "#b#/".toList) := by
  decide +kernel

end Pass

end Linewise
