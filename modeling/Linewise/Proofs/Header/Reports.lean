import Linewise.Proofs.Header.Numbering
import Linewise.Proofs.Header.Stable
import Linewise.Proofs.Lines

/-!
What the pass over the headers reports. A line that names the keyword of a function and holds no header
is passed through, with a warning. Main statement: the warnings are those for the lines before the first
fault, in order, and a pass without fault changes the lines with a header and no others.
-/
namespace Linewise

namespace Logged

variable {α β : Type}

theorem events_bind_of_ok {x : Logged α} {a : α} (h : x.outcome = .ok a) (f : α → Logged β) :
    (x >>= f).events = x.events ++ (f a).events := by
  rw [bind_of_ok h]

theorem events_bind_of_error {x : Logged α} {fault : Fault} (h : x.outcome = .error fault)
    (f : α → Logged β) : (x >>= f).events = x.events := by
  rw [bind_of_error h]

theorem events_bind_pure (x : Logged α) (f : α → β) : (x >>= fun a => pure (f a)).events = x.events := by
  cases h : x.outcome with
  | error fault => exact events_bind_of_error h _
  | ok a => rw [events_bind_of_ok h]; exact List.append_nil _

end Logged

namespace Header

/-! ## Lines -/

/-- A line that names the keyword and holds no header. -/
def Unrecognised (line : Text) : Prop :=
  keyword <:+: line ∧ find? line = none

instance : DecidablePred Unrecognised :=
  fun line => inferInstanceAs (Decidable (keyword <:+: line ∧ find? line = none))

theorem convertLine_events (number : Nat) (line : Text) :
    (convertLine number line).events =
      if Unrecognised line then [.unknownHeader number line] else [] := by
  cases hfind : find? line with
  | some header =>
      have hnot : ¬ Unrecognised line := by simp [Unrecognised, hfind]
      rw [if_neg hnot]
      simp only [convertLine, mentions_of_find? hfind, ↓reduceIte, hfind]
      exact Logged.events_bind_pure _ _
  | none =>
      by_cases hkeyword : keyword <:+: line
      · rw [if_pos ⟨hkeyword, hfind⟩]
        simp only [convertLine, Text.mentions_iff.mpr hkeyword, ↓reduceIte, hfind]
        rfl
      · have hmentions : line.mentions keyword = false := by
          rw [Bool.eq_false_iff, ne_eq, Text.mentions_iff]
          exact hkeyword
        rw [if_neg fun h => hkeyword h.1]
        simp only [convertLine, hmentions, Bool.false_eq_true, ↓reduceIte]
        rfl

/-! ## The pass -/

/-- The place of the first line that cannot be converted or, if there is none, the number of lines. -/
def firstFault (number : Nat) (lines : Lines) : Nat :=
  (lines.zipIdx number).findIdx fun numbered => !(convertLine numbered.2 numbered.1).outcome.isOk

/-- The lines that are reported, each with its number: the unrecognised ones before the first fault. -/
def reported (number : Nat) (lines : Lines) : List (Text × Nat) :=
  ((lines.zipIdx number).take (firstFault number lines)).filter fun numbered => Unrecognised numbered.1

theorem firstFault_of_error {number : Nat} {line : Text} {fault : Fault} (lines : Lines)
    (h : (convertLine number line).outcome = .error fault) : firstFault number (line :: lines) = 0 := by
  rw [firstFault, List.zipIdx_cons, List.findIdx_cons, h]
  rfl

theorem firstFault_of_ok {number : Nat} {line : Text} {definition : Option Text} (lines : Lines)
    (h : (convertLine number line).outcome = .ok definition) :
    firstFault number (line :: lines) = firstFault (number + 1) lines + 1 := by
  rw [firstFault, List.zipIdx_cons, List.findIdx_cons, h]
  rfl

theorem reported_of_error {number : Nat} {line : Text} {fault : Fault} (lines : Lines)
    (h : (convertLine number line).outcome = .error fault) : reported number (line :: lines) = [] := by
  rw [reported, firstFault_of_error lines h]
  rfl

theorem reported_of_ok {number : Nat} {line : Text} {definition : Option Text} (lines : Lines)
    (h : (convertLine number line).outcome = .ok definition) :
    reported number (line :: lines) =
      (if Unrecognised line then [(line, number)] else []) ++ reported (number + 1) lines := by
  rw [reported, firstFault_of_ok lines h, List.zipIdx_cons, List.take_succ_cons, List.filter_cons]
  by_cases hunrecognised : Unrecognised line
  · simp [hunrecognised, reported]
  · simp [hunrecognised, reported]

theorem convertFrom_events (number : Nat) (lines : Lines) :
    (convertFrom number lines).events =
      (reported number lines).map fun numbered => .unknownHeader numbered.2 numbered.1 := by
  induction lines generalizing number with
  | nil => rfl
  | cons line lines ih =>
      have hline := convertLine_events number line
      cases h : (convertLine number line).outcome with
      | error fault =>
          -- Only a header can be at fault, so the line that ends the pass is not reported itself.
          have hrecognised : ¬ Unrecognised line := by
            intro hnot
            rw [convertLine_of_none number hnot.2] at h
            cases h
          rw [if_neg hrecognised] at hline
          rw [convertFrom, Logged.events_bind_of_error h, hline, reported_of_error lines h]
          rfl
      | ok definition =>
          rw [convertFrom, Logged.events_bind_of_ok h, Logged.events_bind_pure, ih, hline,
            reported_of_ok lines h]
          by_cases hunrecognised : Unrecognised line
          · simp [hunrecognised]
          · simp [hunrecognised]

theorem convertFrom_ok_iff {number : Nat} {lines : Lines} :
    (∃ written, (convertFrom number lines).outcome = .ok written) ↔
      firstFault number lines = lines.length := by
  induction lines generalizing number with
  | nil => simp [convertFrom, firstFault]
  | cons line lines ih =>
      rw [convertFrom_cons]
      cases h : (convertLine number line).outcome with
      | error fault => simp [firstFault_of_error lines h]
      | ok definition =>
          rw [firstFault_of_ok lines h, List.length_cons, Nat.add_right_cancel_iff, ← ih]
          simp [Outcome.bind_eq_ok_iff]

theorem pairwise_reported (number : Nat) (lines : Lines) :
    ((reported number lines).map Prod.snd).Pairwise (· < ·) :=
  Lines.pairwise_of_sublist_zipIdx (List.filter_sublist.trans (List.take_sublist _ _))

theorem getElem?_of_convertFrom_of_some {number index : Nat} {lines written : Lines} {line : Text}
    {header : Header} (h : (convertFrom number lines).outcome = .ok written)
    (hline : lines[index]? = some line) (hfind : find? line = some header) :
    ∃ definition, header.convert (number + index) = .ok definition ∧
      written[index]? = some definition := by
  have hgood := not_malformed_of_convertFrom h line (List.mem_of_getElem? hline)
  obtain ⟨converted, hconverted⟩ := convertLine_ok_iff.mpr hgood
  have hwritten := getElem?_of_convertFrom h hline hconverted
  rw [convertLine_of_some _ hfind] at hconverted
  obtain ⟨definition, hdefinition, hsome⟩ := Outcome.bind_eq_ok_iff.mp hconverted
  cases hsome
  exact ⟨definition, hdefinition, hwritten⟩

/-- The pass warns of the unrecognised lines before the first line that it cannot convert: in order,
once each, by number and with their text. It succeeds if there is no such line, and then every line
without a header is kept at its place and every other line is replaced by its definition. -/
theorem convertLines_reports (lines : Lines) :
    (convertLines lines).events =
        (reported 1 lines).map (fun numbered => .unknownHeader numbered.2 numbered.1) ∧
      (convertLines lines).events.map (fun event => (event.level, event.message)) =
        (reported 1 lines).map (fun numbered => (.warn,
          s!"line {numbered.2}: unrecognized function header: {String.ofList numbered.1}")) ∧
      ((reported 1 lines).map Prod.snd).Pairwise (· < ·) ∧
      ((∃ written, (convertLines lines).outcome = .ok written) ↔
        firstFault 1 lines = lines.length) ∧
      ∀ written, (convertLines lines).outcome = .ok written →
        written.length = lines.length ∧
        ∀ index line, lines[index]? = some line →
          (find? line = none → written[index]? = some line) ∧
          ∀ header, find? line = some header →
            ∃ definition, header.convert (index + 1) = .ok definition ∧
              written[index]? = some definition := by
  have hevents : (convertLines lines).events = _ := convertFrom_events 1 lines
  refine ⟨hevents, ?_, pairwise_reported 1 lines, convertFrom_ok_iff, ?_⟩
  · rw [hevents, List.map_map]
    rfl
  · intro written h
    refine ⟨length_of_convertFrom h, ?_⟩
    intro index line hline
    constructor
    · intro hfind
      exact getElem?_of_convertFrom h hline (convertLine_of_none _ hfind)
    · intro header hfind
      rw [Nat.add_comm]
      exact getElem?_of_convertFrom_of_some h hline hfind

/-- The second line is rewritten and the two beside it are passed through with a warning. -/
theorem convertLines_reports_around :
    ∃ lines, lines = ["var f func()".toList, "func g(a int) \x7b".toList, "// func".toList] ∧
      (convertLines lines).events = [.unknownHeader 1 "var f func()".toList,
        .unknownHeader 3 "// func".toList] ∧
      (convertLines lines).outcome = .ok ["var f func()".toList, "fn g(a: int):".toList,
        "// func".toList] ∧
      firstFault 1 lines = 3 ∧
      ∃ header, find? "func g(a int) \x7b".toList = some header ∧
        header.convert 2 = .ok "fn g(a: int):".toList := by
  obtain ⟨hevents, -, -, hok, hwritten⟩ :=
    convertLines_reports ["var f func()".toList, "func g(a int) \x7b".toList, "// func".toList]
  have hreported :
      reported 1 ["var f func()".toList, "func g(a int) \x7b".toList, "// func".toList] =
        [("var f func()".toList, 1), ("// func".toList, 3)] := by decide +kernel
  have houtcome :
      (convertLines ["var f func()".toList, "func g(a int) \x7b".toList, "// func".toList]).outcome =
        .ok ["var f func()".toList, "fn g(a: int):".toList, "// func".toList] := by decide +kernel
  have hfind : find? "func g(a int) \x7b".toList =
      some ⟨none, "g".toList, "a int".toList, none⟩ := by decide +kernel
  rw [hreported] at hevents
  obtain ⟨definition, hconvert, hdefinition⟩ := ((hwritten _ houtcome).2 1 _ rfl).2 _ hfind
  cases hdefinition
  exact ⟨_, rfl, hevents, houtcome, hok.mp ⟨_, houtcome⟩, _, hfind, hconvert⟩

end Header

end Linewise
