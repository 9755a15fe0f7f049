import Linewise.Proofs.Docstring.Forward
import Mathlib.Data.Nat.Find

/-!
Which spans can be spliced. The lines before the cursor are written, so a span has to begin at the
cursor or later, and the cursor then moves behind its definition. Main statement: the splice accepts
exactly the lists of spans that all fit in this way, the first span that does not fit decides how it
fails, and each docstring makes the output two lines longer.
-/
namespace Linewise

open Docstring (startsWithMarker)

namespace Span

/-! ## Spans that fit -/

/-- The span has a block, between the cursor and its definition, which is one of the lines. -/
structure InBounds (lines : Lines) (cursor : Nat) (span : Span) : Prop where
  cursor_le : cursor ≤ span.start
  start_lt : span.start < span.header
  header_lt : span.header < lines.length

/-- Every line of the block is a comment. -/
def IsCommented (lines : Lines) (span : Span) : Prop :=
  ∀ index line, span.start ≤ index → index < span.header → lines[index]? = some line →
    startsWithMarker line = true

/-- The first line of the block that is no comment, with its index. -/
structure IsFirstOther (lines : Lines) (span : Span) (index : Nat) (line : Text) : Prop where
  start_le : span.start ≤ index
  lt_header : index < span.header
  getElem? : lines[index]? = some line
  other : startsWithMarker line = false
  first : ∀ earlier text, span.start ≤ earlier → earlier < index → lines[earlier]? = some text →
    startsWithMarker text = true

/-- Whether the span can be spliced when the lines before the cursor are written. -/
def Fits (lines : Lines) (cursor : Nat) (span : Span) : Prop :=
  span.isEmpty = true ∨ span.InBounds lines cursor ∧ span.IsCommented lines

/-- How a span fails that does not fit: by its bounds, or else by the first line of its block that is
no comment. -/
inductive Fails (lines : Lines) (cursor : Nat) (span : Span) : Fault → Prop
  | bounds : span.isEmpty = false → ¬ span.InBounds lines cursor →
      Fails lines cursor span (.outOfRange span.header)
  | marker {index : Nat} {line : Text} : span.isEmpty = false → span.InBounds lines cursor →
      span.IsFirstOther lines index line → Fails lines cursor span (.lostMarker (index + 1) line)

/-- Every span fits where the spans before it leave the cursor. -/
def WellFormed (lines : Lines) (cursor : Nat) (spans : List Span) : Prop :=
  ∀ before span after, spans = before ++ span :: after → span.Fits lines (reach cursor before)

theorem exists_isFirstOther {lines : Lines} {span : Span} (h : ¬ span.IsCommented lines) :
    ∃ index line, span.IsFirstOther lines index line := by
  classical
  have hother : ∃ index line, span.start ≤ index ∧ index < span.header ∧ lines[index]? = some line ∧
      startsWithMarker line = false := by
    simpa [IsCommented] using h
  obtain ⟨line, hstart, hheader, hline, hmarker⟩ := Nat.find_spec hother
  refine ⟨Nat.find hother, line, hstart, hheader, hline, hmarker, ?_⟩
  intro earlier text hearlier hlt htext
  by_contra hnot
  exact Nat.find_min hother hlt ⟨text, hearlier, by omega, htext, by simpa using hnot⟩

theorem fits_or_fails (lines : Lines) (cursor : Nat) (span : Span) :
    span.Fits lines cursor ∨ ∃ fault, span.Fails lines cursor fault := by
  cases hempty : span.isEmpty with
  | true => exact .inl (.inl hempty)
  | false =>
      by_cases hbounds : span.InBounds lines cursor
      · by_cases hcommented : span.IsCommented lines
        · exact .inl (.inr ⟨hbounds, hcommented⟩)
        · obtain ⟨index, line, hfirst⟩ := exists_isFirstOther hcommented
          exact .inr ⟨_, .marker hempty hbounds hfirst⟩
      · exact .inr ⟨_, .bounds hempty hbounds⟩

theorem wellFormed_nil (lines : Lines) (cursor : Nat) : WellFormed lines cursor [] := by
  intro before span after h
  simp at h

theorem wellFormed_cons_iff {lines : Lines} {cursor : Nat} {span : Span} {spans : List Span} :
    WellFormed lines cursor (span :: spans) ↔
      span.Fits lines cursor ∧ WellFormed lines (reach cursor [span]) spans := by
  constructor
  · intro h
    refine ⟨h [] span spans rfl, ?_⟩
    intro before other after hsplit
    rw [← reach_append]
    exact h (span :: before) other after (by rw [hsplit]; rfl)
  · intro h before other after hsplit
    cases before with
    | nil =>
        obtain ⟨rfl, rfl⟩ := List.cons.inj hsplit
        exact h.1
    | cons first before =>
        obtain ⟨rfl, hlater⟩ := List.cons.inj hsplit
        have hother := h.2 before other after hlater
        rw [← reach_append] at hother
        exact hother

/-- All spans fit, or there is a first one that does not. -/
theorem wellFormed_or_fails (lines : Lines) (cursor : Nat) (spans : List Span) :
    WellFormed lines cursor spans ∨ ∃ before span after fault, spans = before ++ span :: after ∧
      WellFormed lines cursor before ∧ span.Fails lines (reach cursor before) fault := by
  induction spans generalizing cursor with
  | nil => exact .inl (wellFormed_nil lines cursor)
  | cons span spans ih =>
      rcases fits_or_fails lines cursor span with hfits | ⟨fault, hfails⟩
      · rcases ih (reach cursor [span]) with hlater | ⟨before, other, after, fault, rfl, hbefore, hfails⟩
        · exact .inl (wellFormed_cons_iff.mpr ⟨hfits, hlater⟩)
        · rw [← reach_append] at hfails
          exact .inr ⟨span :: before, other, after, fault, rfl,
            wellFormed_cons_iff.mpr ⟨hfits, hbefore⟩, hfails⟩
      · exact .inr ⟨[], span, spans, fault, rfl, wellFormed_nil lines cursor, hfails⟩

end Span

namespace Docstring

/-! ## One span -/

theorem getElem?_block {lines : Lines} {start header : Nat} (offset : Nat) :
    (lines.extract start header)[offset]? =
      if offset < header - start then lines[start + offset]? else none := by
  rw [List.extract_eq_take_drop, List.getElem?_take, List.getElem?_drop]

theorem body_of_other {number index : Nat} {block : Lines} {line : Text}
    (hline : block[index]? = some line) (hother : startsWithMarker line = false)
    (hfirst : ∀ earlier text, earlier < index → block[earlier]? = some text →
      startsWithMarker text = true) :
    body number block = .error (.lostMarker (number + index) line) := by
  induction block generalizing number index with
  | nil => cases hline
  | cons head block ih =>
      cases index with
      | zero =>
          obtain rfl : head = line := by simpa using hline
          simp only [body, Comment.body?_eq, hother]
          rfl
      | succ index =>
          have hhead : startsWithMarker head = true := hfirst 0 head (by omega) rfl
          have hlater : body (number + 1) block = .error (.lostMarker (number + 1 + index) line) :=
            ih (by simpa using hline) fun earlier text hlt htext =>
              hfirst (earlier + 1) text (by omega) (by simpa using htext)
          have hnumber : number + (index + 1) = number + 1 + index := by omega
          simp only [body, Comment.body?_eq, hhead, ↓reduceIte, hlater, hnumber]
          rfl

theorem ofSpan_of_isFirstOther {lines : Lines} {span : Span} {index : Nat} {line : Text}
    (h : span.IsFirstOther lines index line) :
    ofSpan lines span = .error (.lostMarker (index + 1) line) := by
  have hstart := h.start_le
  have hheader := h.lt_header
  have hbody : body (span.start + 1) (lines.extract span.start span.header) =
      .error (.lostMarker (span.start + 1 + (index - span.start)) line) := by
    refine body_of_other ?_ h.other ?_
    · rw [getElem?_block, if_pos (by omega), Nat.add_sub_of_le hstart, h.getElem?]
    · intro earlier text hlt htext
      rw [getElem?_block, if_pos (by omega)] at htext
      exact h.first (span.start + earlier) text (by omega) (by omega) htext
  have hnumber : span.start + 1 + (index - span.start) = index + 1 := by omega
  rw [ofSpan, hbody, hnumber]
  rfl

theorem ofSpan_of_isCommented {lines : Lines} {span : Span} (h : span.IsCommented lines) :
    ofSpan lines span =
      .ok (quotes :: (lines.extract span.start span.header).map docLine ++ [quotes]) := by
  have hblock : ∀ line ∈ lines.extract span.start span.header, Comment.isComment line = true := by
    intro line hline
    obtain ⟨offset, hoffset⟩ := List.mem_iff_getElem?.mp hline
    rw [getElem?_block] at hoffset
    split at hoffset
    · rw [Comment.isComment_eq]
      exact h _ line (by omega) (by omega) hoffset
    · cases hoffset
  rw [ofSpan, body_eq_map _ hblock]
  rfl

theorem spliceFrom_of_fails {lines : Lines} {cursor : Nat} {span : Span} {fault : Fault}
    (h : span.Fails lines cursor fault) (stop : Nat) (spans : List Span) :
    (spliceFrom lines stop cursor (span :: spans)).outcome = .error fault := by
  cases h with
  | bounds hempty hbounds =>
      cases hdefinition : lines[span.header]? with
      | none => simp [spliceFrom, hempty, hdefinition]
      | some definition =>
          have hlength : span.header < lines.length := (List.getElem?_eq_some_iff.mp hdefinition).1
          have hne : span.start ≠ span.header := by simpa [Span.isEmpty] using hempty
          have hnot : ¬ (cursor ≤ span.start ∧ span.start ≤ span.header) :=
            fun h => hbounds ⟨h.1, by omega, hlength⟩
          simp [spliceFrom, hempty, hdefinition, hnot]
  | marker hempty hbounds hfirst =>
      rw [spliceFrom_of_bounds stop spans hempty (List.getElem?_eq_getElem hbounds.header_lt)
        ⟨hbounds.cursor_le, Nat.le_of_lt hbounds.start_lt⟩, ofSpan_of_isFirstOther hfirst]
      rfl

/-- A span that fits moves the cursor, and writes the lines that the cursor passes over and two
more. -/
theorem spliceFrom_of_fits {lines : Lines} {cursor : Nat} {span : Span} (h : span.Fits lines cursor)
    (stop : Nat) (spans : List Span) : ∃ written : Lines,
    cursor + written.length =
      Span.reach cursor [span] + 2 * [span].countP (!·.isEmpty) ∧
    (spliceFrom lines stop cursor (span :: spans)).outcome =
      (spliceFrom lines stop (Span.reach cursor [span]) spans).outcome >>= fun later =>
        .ok (written ++ later) := by
  cases hempty : span.isEmpty with
  | true =>
      refine ⟨[], by simp [Span.reach, hempty], ?_⟩
      simp only [spliceFrom_of_isEmpty _ _ _ _ hempty, Span.reach, hempty, ↓reduceIte, List.nil_append]
      cases (spliceFrom lines stop cursor spans).outcome <;> rfl
  | false =>
      obtain ⟨hbounds, hcommented⟩ := h.resolve_left (by simp [hempty])
      obtain ⟨hcursor, hstart, hheader⟩ := hbounds
      refine ⟨lines.extract cursor span.start ++ lines[span.header] ::
        (quotes :: (lines.extract span.start span.header).map docLine ++ [quotes]), ?_, ?_⟩
      · simp [Span.reach, hempty, List.extract_eq_take_drop]
        omega
      · rw [spliceFrom_of_bounds stop spans hempty (List.getElem?_eq_getElem hheader)
          ⟨hcursor, Nat.le_of_lt hstart⟩, ofSpan_of_isCommented hcommented, Outcome.ok_bind]
        simp [Span.reach, hempty]

/-! ## All spans -/

theorem spliceFrom_append {lines : Lines} {cursor : Nat} {before : List Span}
    (h : Span.WellFormed lines cursor before) (stop : Nat) (spans : List Span) : ∃ written : Lines,
    cursor + written.length = Span.reach cursor before + 2 * before.countP (!·.isEmpty) ∧
    (spliceFrom lines stop cursor (before ++ spans)).outcome =
      (spliceFrom lines stop (Span.reach cursor before) spans).outcome >>= fun later =>
        .ok (written ++ later) := by
  induction before generalizing cursor with
  | nil =>
      refine ⟨[], by simp [Span.reach], ?_⟩
      simp only [List.nil_append, Span.reach]
      cases (spliceFrom lines stop cursor spans).outcome <;> rfl
  | cons span before ih =>
      obtain ⟨hfits, hbefore⟩ := Span.wellFormed_cons_iff.mp h
      obtain ⟨first, hfirst, hstep⟩ := spliceFrom_of_fits hfits stop (before ++ spans)
      obtain ⟨later, hlater, hrun⟩ := ih hbefore
      have hreach : Span.reach cursor (span :: before) =
          Span.reach (Span.reach cursor [span]) before := Span.reach_append cursor [span] before
      have hcount : (span :: before).countP (!·.isEmpty) =
          [span].countP (!·.isEmpty) + before.countP (!·.isEmpty) := by
        rw [← List.countP_append]
        rfl
      refine ⟨first ++ later, ?_, ?_⟩
      · rw [hreach, hcount, List.length_append]
        omega
      · rw [List.cons_append, hstep, hrun, hreach]
        cases (spliceFrom lines stop (Span.reach (Span.reach cursor [span]) before) spans).outcome <;>
          simp

/-- The index at which the lines end that are written after all docstrings. -/
def stop (keepFinalLine : Bool) (lines : Lines) : Nat :=
  if keepFinalLine then lines.length else lines.length - 1

theorem splice_of_wellFormed {lines : Lines} {spans : List Span} (h : Span.WellFormed lines 0 spans)
    (keepFinalLine : Bool) : ∃ written, (splice keepFinalLine lines spans).outcome = .ok written ∧
      written.length = max (Span.reach 0 spans) (stop keepFinalLine lines) +
        2 * spans.countP (!·.isEmpty) := by
  obtain ⟨written, hlength, hrun⟩ := spliceFrom_append h (stop keepFinalLine lines) []
  refine ⟨written ++ lines.extract (Span.reach 0 spans) (stop keepFinalLine lines), ?_, ?_⟩
  · rw [List.append_nil] at hrun
    exact hrun
  · have hstop : stop keepFinalLine lines ≤ lines.length := by
      cases keepFinalLine <;> simp [stop]
    simp only [List.length_append, List.extract_eq_take_drop, List.length_take, List.length_drop]
    omega

theorem splice_of_fails {lines : Lines} {before : List Span} {span : Span} {fault : Fault}
    (hbefore : Span.WellFormed lines 0 before) (h : span.Fails lines (Span.reach 0 before) fault)
    (keepFinalLine : Bool) (after : List Span) :
    (splice keepFinalLine lines (before ++ span :: after)).outcome = .error fault := by
  obtain ⟨written, -, hrun⟩ := spliceFrom_append hbefore (stop keepFinalLine lines) (span :: after)
  rw [spliceFrom_of_fails h] at hrun
  exact hrun

theorem splice_ok_iff {keepFinalLine : Bool} {lines : Lines} {spans : List Span} :
    (∃ written, (splice keepFinalLine lines spans).outcome = .ok written) ↔
      Span.WellFormed lines 0 spans := by
  constructor
  · intro ⟨written, hok⟩
    rcases Span.wellFormed_or_fails lines 0 spans with
      hfits | ⟨before, span, after, fault, rfl, hbefore, hfails⟩
    · exact hfits
    · rw [splice_of_fails hbefore hfails] at hok
      cases hok
  · intro hfits
    obtain ⟨written, hok, -⟩ := splice_of_wellFormed hfits keepFinalLine
    exact ⟨written, hok⟩

theorem splice_error_iff {keepFinalLine : Bool} {lines : Lines} {spans : List Span} {fault : Fault} :
    (splice keepFinalLine lines spans).outcome = .error fault ↔
      ∃ before span after, spans = before ++ span :: after ∧ Span.WellFormed lines 0 before ∧
        span.Fails lines (Span.reach 0 before) fault := by
  constructor
  · intro herror
    rcases Span.wellFormed_or_fails lines 0 spans with
      hfits | ⟨before, span, after, other, rfl, hbefore, hfails⟩
    · obtain ⟨written, hok⟩ := splice_ok_iff.mpr hfits
      rw [hok] at herror
      cases herror
    · rw [splice_of_fails hbefore hfails] at herror
      cases herror
      exact ⟨before, span, after, rfl, hbefore, hfails⟩
  · intro ⟨before, span, after, hspans, hbefore, hfails⟩
    rw [hspans]
    exact splice_of_fails hbefore hfails keepFinalLine after

/-- The splice accepts exactly the well-formed lists of spans. Otherwise the first span that does not
fit decides: it is out of range if its bounds are wrong, and else the first line of its block that is
no comment is reported. Each docstring adds two lines, and a definition with its docstring is written
even where it is the final line. -/
theorem splice_accepts_wellFormed (keepFinalLine : Bool) (lines : Lines) (spans : List Span) :
    ((∃ written, (splice keepFinalLine lines spans).outcome = .ok written) ↔
      Span.WellFormed lines 0 spans) ∧
    (∀ fault, (splice keepFinalLine lines spans).outcome = .error fault ↔
      ∃ before span after, spans = before ++ span :: after ∧ Span.WellFormed lines 0 before ∧
        span.Fails lines (Span.reach 0 before) fault) ∧
    ∀ written, (splice keepFinalLine lines spans).outcome = .ok written →
      written.length = max (Span.reach 0 spans) (stop keepFinalLine lines) +
        2 * spans.countP (!·.isEmpty) := by
  refine ⟨splice_ok_iff, fun fault => splice_error_iff, ?_⟩
  intro written hwritten
  obtain ⟨other, hother, hlength⟩ :=
    splice_of_wellFormed (splice_ok_iff.mp ⟨written, hwritten⟩) keepFinalLine
  obtain rfl : written = other := Except.ok.inj (hwritten.symm.trans hother)
  exact hlength

theorem splice_accepts_wellFormed_two : ∃ lines : Lines,
    lines = ["# a".toList, "fn f():".toList, "x".toList, "\t# b".toList, "fn g():".toList] ∧
    Span.WellFormed lines 0 [⟨0, 1⟩, ⟨9, 9⟩, ⟨3, 4⟩] ∧
    (∃ written, (splice false lines [⟨0, 1⟩, ⟨9, 9⟩, ⟨3, 4⟩]).outcome = .ok written ∧
      written.length = max 5 4 + 2 * 2) ∧
    ∃ before after : List Span, ∃ span : Span, [⟨0, 1⟩, ⟨2, 4⟩] = before ++ span :: after ∧
      span.Fails lines (Span.reach 0 before) (.lostMarker 3 "x".toList) := by
  refine ⟨_, rfl, ?_⟩
  have hok : (splice false ["# a".toList, "fn f():".toList, "x".toList, "\t# b".toList,
      "fn g():".toList] [⟨0, 1⟩, ⟨9, 9⟩, ⟨3, 4⟩]).outcome =
      .ok ["fn f():".toList, quotes, "    a".toList, quotes, "x".toList, "fn g():".toList, quotes,
        "    b".toList, quotes] := by decide +kernel
  have herror : (splice false ["# a".toList, "fn f():".toList, "x".toList, "\t# b".toList,
      "fn g():".toList] [⟨0, 1⟩, ⟨2, 4⟩]).outcome = .error (.lostMarker 3 "x".toList) := by
    decide +kernel
  obtain ⟨hiff, -, hlength⟩ := splice_accepts_wellFormed false ["# a".toList, "fn f():".toList,
    "x".toList, "\t# b".toList, "fn g():".toList] [⟨0, 1⟩, ⟨9, 9⟩, ⟨3, 4⟩]
  obtain ⟨before, span, after, hspans, -, hfails⟩ :=
    ((splice_accepts_wellFormed false _ _).2.1 _).mp herror
  exact ⟨hiff.mp ⟨_, hok⟩, ⟨_, hok, hlength _ hok⟩, before, after, span, hspans, hfails⟩

end Docstring

end Linewise
