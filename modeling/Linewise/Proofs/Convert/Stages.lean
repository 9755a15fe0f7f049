import Linewise.Proofs.Convert.Fault
import Linewise.Proofs.Header.Numbering

/-! The stages of a conversion. Headers become definitions, definitions get their docstrings, and from
then on every line is finished on its own. -/
namespace Linewise

namespace Pass

/-- What the passes after the docstrings make of a line. -/
def finish (line : Text) : Text :=
  Braces.remove (Declaration.convert (Control.convert line))

/-- The lines that are written once the headers are definitions. -/
def written (keepFinalLine : Bool) (entered : Lines) : Lines :=
  (Docstring.promoted keepFinalLine entered).map finish

theorem run_finish (options : Options) (entered : Lines) :
    (run options [.docstrings, .controlStructures, .variableDeclarations, .braces] entered).outcome =
      .ok (written options.keepFinalLine entered) := by
  rw [run_cons, apply, Docstring.promote_eq_promoted]
  simp [apply, run, written, finish]

theorem run_pipeline (options : Options) (lines : Lines) :
    (run options pipeline lines).outcome =
      (Header.convertLines (lines.map Comment.convert)).outcome >>= fun entered =>
        .ok (written options.keepFinalLine entered) := by
  have hpasses : pipeline = [.comments, .functionDefinitions] ++
      [.docstrings, .controlStructures, .variableDeclarations, .braces] := rfl
  rw [hpasses, run_append, run_definitions]
  simp only [run_finish]

theorem written_true (entered : Lines) :
    written true entered = (Docstring.forward [] entered).map finish := rfl

end Pass

theorem convert_outcome (options : Options) (source : Text) :
    (convert options source).outcome =
      (Header.convertLines (headerLines source)).outcome >>= fun entered =>
        .ok (Pass.written options.keepFinalLine entered).toText := by
  rw [convert, Logged.outcome_bind, Pass.run_pipeline, headerLines]
  cases (Header.convertLines ((Lines.ofText source).map Comment.convert)).outcome <;> rfl

/-- Even an empty source has a line. -/
theorem entered_ne_nil {source : Text} {entered : Lines}
    (h : (Header.convertLines (headerLines source)).outcome = .ok entered) : entered ≠ [] := by
  have hlength := Header.length_of_convertFrom h
  rw [headerLines, List.length_map] at hlength
  rw [← List.length_pos_iff, hlength, List.length_pos_iff]
  exact Lines.ofText_ne_nil source

/-! ## Blank lines -/

theorem headerLines_append {s : Text} (rest : Text) (h : s.getLast? ≠ some '\r') :
    headerLines (s ++ '\n' :: rest) = headerLines s ++ headerLines rest := by
  rw [headerLines, Lines.ofText_append rest h, List.map_append]
  rfl

theorem Header.convertLines_blank (lines later : Lines) :
    (convertLines (lines ++ [] :: later)).outcome =
      (convertLines lines).outcome >>= fun written =>
        (convertLines later).outcome.mapError (Fault.lower (lines.length + 1)) >>= fun rest =>
          .ok (written ++ [] :: rest) := by
  have hblank (number : Nat) : (convertLine number []).outcome = .ok none := rfl
  have hlater : (convertFrom (1 + lines.length + 1) later).outcome =
      (convertFrom 1 later).outcome.mapError (Fault.lower (lines.length + 1)) := by
    rw [Nat.add_assoc, convertFrom_lower]
  simp only [convertLines, convertFrom_append, convertFrom_cons, hblank, Outcome.ok_bind, hlater]
  cases (convertFrom 1 lines).outcome with
  | error fault => rfl
  | ok written => cases (convertFrom 1 later).outcome <;> rfl

theorem Docstring.forward_blank (lines later : Lines) :
    forward [] (lines ++ [] :: later) = forward [] lines ++ [] :: forward [] later :=
  forward_append_cons [] lines later rfl rfl

end Linewise
