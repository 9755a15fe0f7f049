import Linewise.Proofs.Docstring.Weight
import Linewise.Proofs.Header.Weight
import Linewise.Proofs.Pass.Weight

/-!
Conversions of conversions. Every conversion leaves a source as it is or makes it lighter, so converting
over and over comes to rest. Main statement: after as many conversions as a source weighs, and one more,
there is a fault or a text that no further conversion changes.
-/
namespace Linewise

open Text (weight weightAfter)

/-! ## One conversion -/

theorem Header.convertFrom_sameOrLighter {number : Nat} {lines written : Lines}
    (h : (convertFrom number lines).outcome = .ok written) : Lines.SameOrLighter written lines := by
  induction lines generalizing number written with
  | nil =>
      cases h
      exact .refl []
  | cons line lines ih =>
      obtain ⟨definition, rest, hline, hrest, rfl⟩ := convertFrom_cons_eq_ok h
      have hfirst : Text.SameOrLighter (definition.getD line) line := by
        cases definition with
        | none => exact .refl line
        | some definition => exact .inr (convertLine_lighter hline)
      exact .cons hfirst (ih hrest)

theorem entered_sameOrLighter {source : Text} {entered : Lines}
    (h : (Header.convertLines (headerLines source)).outcome = .ok entered) :
    Lines.SameOrLighter entered (Lines.ofText source) :=
  (Header.convertFrom_sameOrLighter h).trans (.map Comment.convert_sameOrLighter _)

theorem Pass.written_sameOrLighter (entered : Lines) :
    Lines.SameOrLighter (written true entered) entered :=
  (Lines.SameOrLighter.map finish_sameOrLighter _).trans
    (Docstring.forward_sameOrLighter [] entered (by simp))

theorem Pass.written_lighter {entered : Lines} (hne : entered ≠ []) :
    Lines.weight (written false entered) < Lines.weight entered :=
  Nat.lt_of_le_of_lt (Lines.SameOrLighter.map finish_sameOrLighter _).weight_le
    (Docstring.promoted_lighter hne)

/-- Whether a conversion leaves the text as it is. Without the final line only the empty text is left. -/
structure Rests (options : Options) (text : Text) : Prop where
  fixed : (convert options text).outcome = .ok text
  empty : options.keepFinalLine = false → text = []

theorem rests_nil : Rests { keepFinalLine := false } [] :=
  ⟨rfl, fun _ => rfl⟩

theorem convert_rests_or_lighter {options : Options} {source output : Text}
    (h : (convert options source).outcome = .ok output) :
    Rests options output ∨ weight output < weight source := by
  have houtcome := h
  rw [convert_outcome] at houtcome
  obtain ⟨entered, hentered, hwritten⟩ := Outcome.bind_eq_ok_iff.mp houtcome
  have hne := entered_ne_nil hentered
  have hlines := entered_sameOrLighter hentered
  obtain ⟨keepFinalLine⟩ := options
  cases hwritten
  cases keepFinalLine with
  | true =>
      rcases (Pass.written_sameOrLighter entered).trans hlines with hsame | hlighter
      · -- Only the line ends may be other ones.
        rw [hsame, Lines.toText_ofText] at h ⊢
        rcases Lines.unifyEnds_sameOrLighter source with hends | hends
        · rw [hends] at h ⊢
          exact .inl ⟨h, fun hkeep => nomatch hkeep⟩
        · exact .inr (hends '\n')
      · have hlast : Pass.written true entered ≠ [] := by
          rw [Pass.written_true, ne_eq, List.map_eq_nil_iff]
          exact Docstring.forward_ne_nil hne
        exact .inr (Lines.toText_lighter hlast hlighter)
  | false =>
      by_cases hnil : Pass.written false entered = []
      · rw [hnil]
        exact .inl rests_nil
      · exact .inr (Lines.toText_lighter hnil
          (Nat.lt_of_lt_of_le (Pass.written_lighter hne) hlines.weight_le))

/-! ## Many conversions -/

/-- What the last of `times` conversions gives, if there was one. -/
def lastOutcome (options : Options) (times : Nat) (source : Text) : Option (Except Fault Text) :=
  (convertAgain options times source).getLast?.map Logged.outcome

theorem lastOutcome_of_error {options : Options} {source : Text} {fault : Fault}
    (h : (convert options source).outcome = .error fault) (times : Nat) :
    lastOutcome options (times + 1) source = some (.error fault) := by
  simp [lastOutcome, convertAgain, h]

theorem lastOutcome_one (options : Options) (source : Text) :
    lastOutcome options 1 source = some (convert options source).outcome := by
  rw [lastOutcome, convertAgain]
  cases h : (convert options source).outcome <;> simp [convertAgain, h]

theorem convertAgain_ne_nil (options : Options) (times : Nat) (source : Text) :
    convertAgain options (times + 1) source ≠ [] := by
  rw [convertAgain]
  cases h : (convert options source).outcome <;> simp

theorem lastOutcome_of_ok {options : Options} {source output : Text}
    (h : (convert options source).outcome = .ok output) (times : Nat) :
    lastOutcome options (times + 2) source = lastOutcome options (times + 1) output := by
  obtain ⟨first, later, hlater⟩ := List.exists_cons_of_ne_nil (convertAgain_ne_nil options times output)
  rw [lastOutcome, convertAgain]
  simp only [h, hlater, lastOutcome, List.getLast?_cons_cons]

theorem Rests.lastOutcome {options : Options} {source output : Text} (h : Rests options output)
    (hconvert : (convert options source).outcome = .ok output) (times : Nat) :
    lastOutcome options (times + 1) source = some (.ok output) := by
  induction times generalizing source with
  | zero => rw [lastOutcome_one, hconvert]
  | succ times ih => rw [lastOutcome_of_ok hconvert, ih h.fixed]

theorem exists_lastOutcome (options : Options) (source : Text) :
    ∃ result, (∀ times > weight source, lastOutcome options times source = some result) ∧
      ∀ text, result = .ok text → Rests options text := by
  induction hweight : weight source using Nat.strongRecOn generalizing source with
  | ind n ih =>
      cases hconvert : (convert options source).outcome with
      | error fault =>
          refine ⟨.error fault, ?_, fun text h => nomatch h⟩
          intro times htimes
          obtain ⟨times, rfl⟩ := Nat.exists_eq_succ_of_ne_zero (Nat.ne_zero_of_lt htimes)
          exact lastOutcome_of_error hconvert times
      | ok output =>
          rcases convert_rests_or_lighter hconvert with hrests | hlighter
          · refine ⟨.ok output, ?_, ?_⟩
            · intro times htimes
              obtain ⟨times, rfl⟩ := Nat.exists_eq_succ_of_ne_zero (Nat.ne_zero_of_lt htimes)
              exact hrests.lastOutcome hconvert times
            · rintro text ⟨⟩
              exact hrests
          · obtain ⟨result, hlast, hrests⟩ := ih (weight output) (hweight ▸ hlighter) output rfl
            refine ⟨result, ?_, hrests⟩
            intro times htimes
            obtain ⟨times, rfl⟩ : ∃ fewer, times = fewer + 2 := ⟨times - 2, by omega⟩
            rw [lastOutcome_of_ok hconvert]
            exact hlast (times + 1) (by omega)

/-- Converting over and over ends with a fault, or with a text that stays, and the length of the source
bounds how long that takes. Without the final line it is the empty text that stays. -/
theorem convertAgain_settles (options : Options) (source : Text) :
    (∃ fault, ∀ times > 10 * source.length,
      lastOutcome options times source = some (.error fault)) ∨
    ∃ fixed, (∀ times > 10 * source.length, lastOutcome options times source = some (.ok fixed)) ∧
      (convert options fixed).outcome = .ok fixed ∧ (options.keepFinalLine = false → fixed = []) := by
  obtain ⟨result, hlast, hrests⟩ := exists_lastOutcome options source
  have hsteps (times : Nat) (htimes : times > 10 * source.length) :
      lastOutcome options times source = some result :=
    hlast times (Nat.lt_of_le_of_lt (Text.weightAfter_le_length '\n' source) htimes)
  cases result with
  | error fault => exact .inl ⟨fault, hsteps⟩
  | ok fixed => exact .inr ⟨fixed, hsteps, (hrests fixed rfl).fixed, (hrests fixed rfl).empty⟩

end Linewise
