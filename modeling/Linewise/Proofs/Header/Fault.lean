import Linewise.Header.Convert
import Linewise.Proofs.Outcome
import Linewise.Proofs.Text.Search
import Mathlib.Data.List.Basic

/-! When the header pass fails. A line is at fault if it holds a header with a parameter entry that
is no name followed by a type. Main statement: the pass reports the first such line and the leftmost
such entry on it. -/
namespace Linewise

/-! ## Parameter lists -/

namespace Parameter

/-- Whether an entry is a name followed by a type. -/
def IsPair (entry : Text) : Prop :=
  entry.tokens.length = 2

instance : DecidablePred IsPair :=
  fun entry => inferInstanceAs (Decidable (entry.tokens.length = 2))

theorem ofEntry?_eq_none_iff {entry : Text} : ofEntry? entry = none ↔ ¬ IsPair entry := by
  unfold ofEntry? IsPair
  split
  · rename_i htokens
    simp [htokens]
  · rename_i hpair
    simp only [true_iff]
    intro hlength
    obtain ⟨name, type, htokens⟩ := List.length_eq_two.mp hlength
    exact hpair name type htokens

theorem ofEntry_eq_ok_iff {number : Nat} {entry : Text} :
    (∃ parameter, ofEntry number entry = .ok parameter) ↔ IsPair entry := by
  unfold ofEntry
  cases h : ofEntry? entry with
  | none => simpa using ofEntry?_eq_none_iff.mp h
  | some parameter =>
      have hpair : IsPair entry := by
        by_contra hnot
        rw [ofEntry?_eq_none_iff.mpr hnot] at h
        cases h
      simpa using hpair

theorem ofEntry_eq_error_iff {number : Nat} {entry : Text} {fault : Fault} :
    ofEntry number entry = .error fault ↔
      ¬ IsPair entry ∧ fault = .malformedParameter number entry.trim := by
  rw [← ofEntry?_eq_none_iff]
  unfold ofEntry
  cases h : ofEntry? entry with
  | none => simp [eq_comm]
  | some parameter => simp

/-- The leftmost entry of a parameter list that is no pair. A list without text has no entries. -/
def FirstBad (params entry : Text) : Prop :=
  params ≠ [] ∧ ∃ before after, params.splitOn ',' = before ++ entry :: after ∧
    (∀ earlier ∈ before, IsPair earlier) ∧ ¬ IsPair entry

theorem readAll_eq_error_iff {number : Nat} {params : Text} {fault : Fault} :
    readAll number params = .error fault ↔
      ∃ entry, FirstBad params entry ∧ fault = .malformedParameter number entry.trim := by
  cases params with
  | nil => simp [readAll, FirstBad]
  | cons c s =>
      have hread : readAll number (c :: s) = ((c :: s).splitOn ',').mapM (ofEntry number) := rfl
      rw [hread, Outcome.mapM_eq_error_iff]
      simp only [ofEntry_eq_ok_iff, ofEntry_eq_error_iff, FirstBad]
      constructor
      · rintro ⟨before, entry, after, hsplit, hbefore, hentry, hfault⟩
        exact ⟨entry, ⟨by simp, before, after, hsplit, hbefore, hentry⟩, hfault⟩
      · rintro ⟨entry, ⟨-, before, after, hsplit, hbefore, hentry⟩, hfault⟩
        exact ⟨before, entry, after, hsplit, hbefore, hentry, hfault⟩

end Parameter

namespace Header

/-! ## Lines -/

/-- Whether a line holds a header with an entry that is no pair. -/
def Malformed (line : Text) : Prop :=
  ∃ header, find? line = some header ∧ header.params ≠ [] ∧
    ∃ entry ∈ header.params.splitOn ',', ¬ Parameter.IsPair entry

/-- The leftmost entry that makes a line malformed. -/
def FirstBadEntry (line entry : Text) : Prop :=
  ∃ header, find? line = some header ∧ Parameter.FirstBad header.params entry

theorem malformed_iff {line : Text} : Malformed line ↔ ∃ entry, FirstBadEntry line entry := by
  constructor
  · rintro ⟨header, hfind, hne, bad, hmem, hbad⟩
    have hsome : ((header.params.splitOn ',').find? fun e => ¬ Parameter.IsPair e).isSome = true :=
      List.find?_isSome.mpr ⟨bad, hmem, by simpa using hbad⟩
    obtain ⟨entry, hentry⟩ := Option.isSome_iff_exists.mp hsome
    obtain ⟨hnot, before, after, hsplit, hbefore⟩ := List.find?_eq_some_iff_append.mp hentry
    exact ⟨entry, header, hfind, hne, before, after, hsplit, by simpa using hbefore,
      by simpa using hnot⟩
  · rintro ⟨entry, header, hfind, hne, before, after, hsplit, -, hbad⟩
    exact ⟨header, hfind, hne, entry, by rw [hsplit]; simp, hbad⟩

theorem exists_of_find? {line : Text} {header : Header} (h : find? line = some header) :
    ∃ t, t <:+ line ∧ (method? t = some header ∨ function? t = some header) := by
  unfold find? at h
  split at h
  · rename_i hmethod
    cases h
    obtain ⟨t, ht, hread⟩ := Text.exists_of_leftmost? hmethod
    exact ⟨t, ht, .inl hread⟩
  · obtain ⟨t, ht, hread⟩ := Text.exists_of_leftmost? h
    exact ⟨t, ht, .inr hread⟩

theorem mentions_of_find? {line : Text} {header : Header} (h : find? line = some header) :
    line.mentions keyword = true := by
  obtain ⟨t, ht, hread⟩ := exists_of_find? h
  have hkeyword : ∃ rest, Text.after? t keyword = some rest := by
    rcases hread with hread | hread
    · obtain ⟨rest, hrest, -⟩ := Option.bind_eq_some_iff.mp hread
      exact ⟨rest, hrest⟩
    · obtain ⟨rest, hrest, -⟩ := Option.bind_eq_some_iff.mp hread
      exact ⟨rest, hrest⟩
  obtain ⟨rest, hrest⟩ := hkeyword
  rw [Text.after?_eq_some_iff] at hrest
  rw [Text.mentions_iff]
  exact (hrest ▸ List.prefix_append keyword rest).isInfix.trans ht.isInfix

theorem convertLine_of_none {line : Text} (number : Nat) (h : find? line = none) :
    (convertLine number line).outcome = .ok none := by
  unfold convertLine
  split
  · rw [h]; rfl
  · rfl

theorem convertLine_of_some {line : Text} {header : Header} (number : Nat)
    (h : find? line = some header) :
    (convertLine number line).outcome =
      header.convert number >>= fun definition => .ok (some definition) := by
  simp only [convertLine, mentions_of_find? h, ↓reduceIte, h, Logged.outcome_bind,
    Logged.outcome_lift, Logged.outcome_pure]

theorem convertLine_eq_error_iff {number : Nat} {line : Text} {fault : Fault} :
    (convertLine number line).outcome = .error fault ↔
      ∃ entry, FirstBadEntry line entry ∧ fault = .malformedParameter number entry.trim := by
  cases h : find? line with
  | none => simp [convertLine_of_none number h, FirstBadEntry, h]
  | some header =>
      rw [convertLine_of_some number h, Header.convert, Outcome.bind_eq_error_iff,
        Outcome.bind_eq_error_iff, Parameter.readAll_eq_error_iff]
      simp [FirstBadEntry, h, pure, Except.pure]

/-! ## The pass -/

theorem convertFrom_cons (number : Nat) (line : Text) (lines : Lines) :
    (convertFrom number (line :: lines)).outcome =
      (convertLine number line).outcome >>= fun definition =>
        (convertFrom (number + 1) lines).outcome >>= fun rest =>
          .ok (definition.getD line :: rest) := by
  simp only [convertFrom, Logged.outcome_bind, Logged.outcome_pure]

theorem convertFrom_cons_eq_ok {number : Nat} {line : Text} {lines written : Lines}
    (h : (convertFrom number (line :: lines)).outcome = .ok written) :
    ∃ definition rest, (convertLine number line).outcome = .ok definition ∧
      (convertFrom (number + 1) lines).outcome = .ok rest ∧
      written = definition.getD line :: rest := by
  rw [convertFrom_cons] at h
  obtain ⟨definition, hline, h⟩ := Outcome.bind_eq_ok_iff.mp h
  obtain ⟨rest, hrest, h⟩ := Outcome.bind_eq_ok_iff.mp h
  cases h
  exact ⟨definition, rest, hline, hrest, rfl⟩

/-- The first malformed line of a list, with its place. -/
def FirstMalformed (lines : Lines) (index : Nat) (line : Text) : Prop :=
  lines[index]? = some line ∧ Malformed line ∧
    ∀ earlier ∈ lines.take index, ¬ Malformed earlier

theorem convertLine_ok_iff {number : Nat} {line : Text} :
    (∃ definition, (convertLine number line).outcome = .ok definition) ↔ ¬ Malformed line := by
  rw [malformed_iff]
  cases h : (convertLine number line).outcome with
  | error fault =>
      obtain ⟨entry, hentry, -⟩ := convertLine_eq_error_iff.mp h
      simpa using ⟨entry, hentry⟩
  | ok definition =>
      simp only [Except.ok.injEq, exists_eq', true_iff]
      rintro ⟨entry, hentry⟩
      rw [convertLine_eq_error_iff.mpr ⟨entry, hentry, rfl⟩] at h
      cases h

theorem convertFrom_eq_error_iff {number : Nat} {lines : Lines} {fault : Fault} :
    (convertFrom number lines).outcome = .error fault ↔
      ∃ index line entry, FirstMalformed lines index line ∧ FirstBadEntry line entry ∧
        fault = .malformedParameter (number + index) entry.trim := by
  induction lines generalizing number with
  | nil => simp [convertFrom, FirstMalformed]
  | cons head lines ih =>
      rw [convertFrom_cons, Outcome.bind_eq_error_iff]
      constructor
      · rintro (hhead | ⟨definition, hhead, hrest⟩)
        · obtain ⟨entry, hentry, hfault⟩ := convertLine_eq_error_iff.mp hhead
          exact ⟨0, head, entry, ⟨rfl, malformed_iff.mpr ⟨entry, hentry⟩, by simp⟩, hentry, hfault⟩
        · have hlater : (convertFrom (number + 1) lines).outcome = .error fault := by
            rcases Outcome.bind_eq_error_iff.mp hrest with hlater | ⟨rest, -, h⟩
            · exact hlater
            · cases h
          obtain ⟨index, line, entry, ⟨hline, hbad, hfirst⟩, hentry, hfault⟩ := ih.mp hlater
          have hgood : ¬ Malformed head := convertLine_ok_iff.mp ⟨definition, hhead⟩
          refine ⟨index + 1, line, entry, ⟨hline, hbad, ?_⟩, hentry, ?_⟩
          · simpa [hgood] using hfirst
          · rw [hfault]
            congr 1
            omega
      · rintro ⟨index, line, entry, ⟨hline, hbad, hfirst⟩, hentry, hfault⟩
        cases index with
        | zero =>
            obtain rfl : head = line := by simpa using hline
            exact .inl (convertLine_eq_error_iff.mpr ⟨entry, hentry, hfault⟩)
        | succ index =>
            rw [List.take_succ_cons] at hfirst
            obtain ⟨definition, hhead⟩ := convertLine_ok_iff.mpr (hfirst head (by simp))
            have hlater : (convertFrom (number + 1) lines).outcome = .error fault := by
              refine ih.mpr ⟨index, line, entry, ⟨by simpa using hline, hbad, ?_⟩, hentry, ?_⟩
              · intro earlier hearlier
                exact hfirst earlier (by simp [hearlier])
              · rw [hfault]
                congr 1
                omega
            exact .inr ⟨definition, hhead, by rw [hlater]; rfl⟩

theorem not_malformed_of_convertFrom {number : Nat} {lines written : Lines}
    (h : (convertFrom number lines).outcome = .ok written) : ∀ line ∈ lines, ¬ Malformed line := by
  induction lines generalizing number written with
  | nil => simp
  | cons head lines ih =>
      obtain ⟨definition, rest, hhead, hrest, -⟩ := convertFrom_cons_eq_ok h
      intro line hline
      rcases List.mem_cons.mp hline with rfl | hline
      · exact convertLine_ok_iff.mp ⟨definition, hhead⟩
      · exact ih hrest line hline

theorem exists_convertFrom_eq_error_iff {number : Nat} {lines : Lines} :
    (∃ fault, (convertFrom number lines).outcome = .error fault) ↔
      ∃ line ∈ lines, Malformed line := by
  constructor
  · rintro ⟨fault, h⟩
    obtain ⟨index, line, entry, ⟨hline, hbad, -⟩, -, -⟩ := convertFrom_eq_error_iff.mp h
    exact ⟨line, List.mem_of_getElem? hline, hbad⟩
  · rintro ⟨line, hline, hbad⟩
    cases h : (convertFrom number lines).outcome with
    | error fault => exact ⟨fault, rfl⟩
    | ok written => exact absurd hbad (not_malformed_of_convertFrom h line hline)

end Header

end Linewise
