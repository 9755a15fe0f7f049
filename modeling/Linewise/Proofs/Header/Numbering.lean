import Linewise.Proofs.Header.Fault

/-! Line numbers of the pass over the headers. They are reported and nothing else depends on them, so
lines that are numbered from further down give the same definitions, and their faults move down too. -/
namespace Linewise

/-- The same fault, on lines that stand `count` lines further down. -/
def Fault.lower (count : Nat) : Fault → Fault
  | .malformedParameter line entry => .malformedParameter (line + count) entry
  | .lostMarker line text => .lostMarker (line + count) text
  | .outOfRange header => .outOfRange (header + count)
  | .file path problem => .file path problem

theorem Parameter.readAll_lower (number count : Nat) (params : Text) :
    readAll (number + count) params = (readAll number params).mapError (Fault.lower count) := by
  have hentry : ofEntry (number + count) =
      fun entry => (ofEntry number entry).mapError (Fault.lower count) := by
    funext entry
    unfold ofEntry
    cases ofEntry? entry <;> rfl
  unfold readAll
  split
  · rfl
  · rw [hentry, Outcome.mapM_mapError]

namespace Header

theorem convertLine_lower (number count : Nat) (line : Text) :
    (convertLine (number + count) line).outcome =
      (convertLine number line).outcome.mapError (Fault.lower count) := by
  cases h : find? line with
  | none => rw [convertLine_of_none _ h, convertLine_of_none _ h, Outcome.mapError_ok]
  | some header =>
      simp only [convertLine_of_some _ h, Header.convert, Parameter.readAll_lower,
        Outcome.mapError_bind]
      rfl

theorem convertFrom_lower (number count : Nat) (lines : Lines) :
    (convertFrom (number + count) lines).outcome =
      (convertFrom number lines).outcome.mapError (Fault.lower count) := by
  induction lines generalizing number with
  | nil => rfl
  | cons line lines ih =>
      have hlater := ih (number + 1)
      rw [Nat.add_right_comm] at hlater
      simp only [convertFrom_cons, convertLine_lower, hlater, Outcome.mapError_bind,
        Outcome.mapError_ok]

/-! ## Lines one after the other -/

theorem convertFrom_append (number : Nat) (lines later : Lines) :
    (convertFrom number (lines ++ later)).outcome =
      (convertFrom number lines).outcome >>= fun written =>
        (convertFrom (number + lines.length) later).outcome >>= fun rest => .ok (written ++ rest) := by
  induction lines generalizing number with
  | nil =>
      rw [List.nil_append, List.length_nil, Nat.add_zero]
      change _ = (convertFrom number later).outcome >>= fun rest => .ok rest
      cases (convertFrom number later).outcome <;> rfl
  | cons line lines ih =>
      rw [List.cons_append, convertFrom_cons, convertFrom_cons, ih, List.length_cons,
        Nat.add_right_comm, ← Nat.add_assoc]
      cases (convertLine number line).outcome with
      | error fault => rfl
      | ok definition =>
          cases (convertFrom (number + 1) lines).outcome with
          | error fault => rfl
          | ok written => cases (convertFrom (number + lines.length + 1) later).outcome <;> rfl

theorem length_of_convertFrom {number : Nat} {lines written : Lines}
    (h : (convertFrom number lines).outcome = .ok written) : written.length = lines.length := by
  induction lines generalizing number written with
  | nil =>
      cases h
      rfl
  | cons line lines ih =>
      obtain ⟨definition, rest, -, hrest, rfl⟩ := convertFrom_cons_eq_ok h
      rw [List.length_cons, List.length_cons, ih hrest]

end Header

end Linewise
