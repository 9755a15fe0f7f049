import Linewise.Convert
import Linewise.Proofs.Lines
import Linewise.Proofs.Pass.Safety

/-! When the conversion of a source fails. Only the pass over the headers can fail, and it sees the
lines of the source with their comment markers converted, so the options play no part. -/
namespace Linewise

/-- The lines that the pass over the headers is given. -/
def headerLines (source : Text) : Lines :=
  (Lines.ofText source).map Comment.convert

theorem exists_split_headerLines {source : Text} {index : Nat}
    (h : index < (headerLines source).length) :
    ∃ before rest, source = before ++ rest ∧ (before = [] ∨ before.getLast? = some '\n') ∧
      before.count '\n' = index ∧ headerLines rest = (headerLines source).drop index := by
  rw [headerLines, List.length_map] at h
  obtain ⟨before, rest, hsource, hbefore, hcount, hrest⟩ := Lines.exists_split_of_index h
  refine ⟨before, rest, hsource, hbefore, hcount, ?_⟩
  rw [headerLines, headerLines, hrest, List.map_drop]

theorem convert_eq_error_iff {options : Options} {source : Text} {fault : Fault} :
    (convert options source).outcome = .error fault ↔
      (Header.convertLines (headerLines source)).outcome = .error fault := by
  have hrun : (Pass.run options Pass.pipeline (Lines.ofText source)).outcome =
      (Header.convertLines (headerLines source)).outcome >>= fun lines =>
        (Pass.run options [.docstrings, .controlStructures, .variableDeclarations, .braces]
          lines).outcome := by
    have hcomments : (Pass.apply options .comments (Lines.ofText source)).outcome =
        .ok (headerLines source) := rfl
    rw [Pass.pipeline, Pass.run_cons, hcomments, Outcome.ok_bind, Pass.run_cons]
    rfl
  rw [convert, Logged.outcome_bind, hrun]
  cases h : (Header.convertLines (headerLines source)).outcome with
  | error fault => simp
  | ok lines =>
      have hrest : Pass.functionDefinitions ∉
          [Pass.docstrings, .controlStructures, .variableDeclarations, .braces] := by decide
      obtain ⟨written, hwritten⟩ := Pass.run_ok options hrest lines
      simp [hwritten]

/-- A source cannot be converted exactly if one of its lines, with comment markers converted, holds a
header with an entry that is no pair. The first such line and the leftmost such entry on it are
reported, whether or not the final line is kept. -/
theorem convert_fault_iff (options : Options) (source : Text) :
    ((∃ fault, (convert options source).outcome = .error fault) ↔
      ∃ line ∈ headerLines source, Header.Malformed line) ∧
    (∀ fault, (convert options source).outcome = .error fault ↔
      ∃ index line entry, Header.FirstMalformed (headerLines source) index line ∧
        Header.FirstBadEntry line entry ∧ fault = .malformedParameter (index + 1) entry.trim ∧
        ∃ before rest, source = before ++ rest ∧ (before = [] ∨ before.getLast? = some '\n') ∧
          before.count '\n' = index ∧ headerLines rest = (headerLines source).drop index) ∧
    (∀ other fault, (convert options source).outcome = .error fault ↔
      (convert other source).outcome = .error fault) := by
  refine ⟨?_, ?_, ?_⟩
  · simp only [convert_eq_error_iff]
    exact Header.exists_convertFrom_eq_error_iff
  · intro fault
    rw [convert_eq_error_iff, Header.convertLines, Header.convertFrom_eq_error_iff]
    constructor
    · rintro ⟨index, line, entry, hfirst, hentry, hfault⟩
      refine ⟨index, line, entry, hfirst, hentry, by rw [hfault, Nat.add_comm], ?_⟩
      exact exists_split_headerLines (List.getElem?_eq_some_iff.mp hfirst.1).1
    · rintro ⟨index, line, entry, hfirst, hentry, hfault, -⟩
      exact ⟨index, line, entry, hfirst, hentry, by rw [hfault, Nat.add_comm]⟩
  · intro other fault
    rw [convert_eq_error_iff, convert_eq_error_iff]

end Linewise
