import Linewise.Proofs.Docstring.Splice
import Linewise.Proofs.Lines
import Mathlib.Data.List.Pairwise

/-!
The spans that are collected. Every scan goes backwards from its own definition and knows nothing of the
others. Main statement: there is one span for each definition, in order, each span has the whole block of
comment lines above its definition, and no two spans meet, because no definition is a comment.
-/
namespace Linewise

open Docstring (startsWithMarker)

namespace Span

/-- Whether the line with the given index is in the block. -/
def Holds (span : Span) (index : Nat) : Prop :=
  span.start ≤ index ∧ index < span.header

/-- The block is made of comment lines, and the line above it, if there is one, is no comment. -/
structure IsWhole (lines : Lines) (span : Span) : Prop where
  start_le : span.start ≤ span.header
  commented : span.IsCommented lines
  maximal : span.start = 0 ∨
    ∃ line, lines[span.start - 1]? = some line ∧ startsWithMarker line = false

/-! ## One scan -/

theorem isWhole_of_block {before block : Lines} (rest : Lines)
    (hblock : ∀ line ∈ block, Comment.isComment line = true)
    (hbefore : before.getLast?.any Comment.isComment = false) :
    IsWhole (before ++ block ++ rest) ⟨before.length, (before ++ block).length⟩ where
  start_le := by simp
  commented := by
    intro index line hstart hheader hline
    dsimp only at hstart hheader
    rw [List.getElem?_append_left hheader, List.getElem?_append_right hstart] at hline
    rw [← Comment.isComment_eq]
    exact hblock line (List.mem_of_getElem? hline)
  maximal := by
    rcases List.eq_nil_or_concat before with rfl | ⟨init, last, rfl⟩
    · exact .inl rfl
    · refine .inr ⟨last, by simp, ?_⟩
      rw [← Comment.isComment_eq]
      simpa using hbefore

theorem isWhole_of_above {lines : Lines} {header : Nat} {span : Span}
    (h : above lines header = .ok span) : span.IsWhole lines := by
  have hheader : header ≤ lines.length := by
    by_contra hnot
    rw [above, if_neg hnot] at h
    cases h
  have hlength : (lines.take header).length = header := List.length_take_of_le hheader
  have hscan := above_length (lines.take header) (lines.drop header)
  rw [List.take_append_drop, hlength, h, Except.ok.injEq] at hscan
  have hblock : ∀ line ∈ (lines.take header).rtakeWhile Comment.isComment,
      Comment.isComment line = true := fun _ => List.mem_rtakeWhile_imp
  have hwhole := isWhole_of_block (lines.drop header) hblock (getLast?_rdropWhile (lines.take header))
  rw [List.rdropWhile_append_rtakeWhile, List.take_append_drop, hlength] at hwhole
  rwa [hscan]

/-! ## All scans -/

theorem pairwise_headers (lines : Lines) : (headers lines).Pairwise (· < ·) :=
  Lines.pairwise_of_sublist_zipIdx List.filter_sublist

theorem map_header_of_collect {lines : Lines} {spans : List Span} (h : collect lines = .ok spans) :
    spans.map header = headers lines := by
  rw [collect_eq_following, Except.ok.injEq] at h
  rw [← h]
  exact map_header_following [] lines

theorem isWhole_of_mem_collect {lines : Lines} {spans : List Span} {span : Span}
    (h : collect lines = .ok spans) (hspan : span ∈ spans) : span.IsWhole lines := by
  obtain ⟨header, -, habove⟩ := Outcome.exists_of_mem_mapM h hspan
  exact isWhole_of_above habove

theorem not_holds_header {lines : Lines} {spans : List Span} {span other : Span}
    (h : collect lines = .ok spans) (hspan : span ∈ spans) (hother : other ∈ spans) :
    ¬ span.Holds other.header := by
  rintro ⟨hstart, hheader⟩
  have hmem : other.header ∈ headers lines := by
    rw [← map_header_of_collect h]
    exact List.mem_map_of_mem hother
  obtain ⟨line, hline, hdefinition⟩ := mem_headers_iff.mp hmem
  have hmarker := (isWhole_of_mem_collect h hspan).commented _ line hstart hheader hline
  rw [← Comment.isComment_eq, Comment.isComment_of_isDefinition hdefinition] at hmarker
  cases hmarker

/-- A scan cannot go past an earlier definition, which is no comment. -/
theorem pairwise_header_lt_start {lines : Lines} {spans : List Span} (h : collect lines = .ok spans) :
    spans.Pairwise fun span next => span.header < next.start := by
  have hheaders := pairwise_headers lines
  rw [← map_header_of_collect h, List.pairwise_map] at hheaders
  refine hheaders.imp_of_mem ?_
  intro span next hspan hnext hlt
  by_contra hnot
  exact not_holds_header h hnext hspan ⟨Nat.le_of_not_lt hnot, hlt⟩

/-- One of the spans ends with its definition before the other begins. -/
def Apart (span other : Span) : Prop :=
  span.header < other.start ∨ other.header < span.start

instance : Std.Symm Apart := ⟨fun _ _ => Or.symm⟩

theorem Apart.not_holds {span other : Span} {index : Nat} (h : Apart span other)
    (hspan : span.Holds index) : ¬ other.Holds index := by
  simp only [Apart, Holds] at *
  omega

theorem eq_of_holds {spans : List Span} {span other : Span} {index : Nat}
    (h : spans.Pairwise fun span next => span.header < next.start) (hspan : span ∈ spans)
    (hother : other ∈ spans) (hholds : span.Holds index) (hboth : other.Holds index) :
    span = other := by
  have hapart : spans.Pairwise Apart := h.imp fun hlt => .inl hlt
  by_contra hne
  exact (hapart.forall hspan hother hne).not_holds hholds hboth

/-- The definitions of the collected spans are all the definition lines, in increasing order. Each span
has the whole block of comment lines above its definition. A span ends with its definition before the
next one begins, so no line is in two blocks and no definition is in a block. -/
theorem collect_separates (lines : Lines) :
    ∃ spans, collect lines = .ok spans ∧
      (spans.map header).Pairwise (· < ·) ∧
      (∀ index, index ∈ spans.map header ↔
        ∃ line, lines[index]? = some line ∧ Definition.isDefinition line = true) ∧
      (∀ span ∈ spans, span.IsWhole lines) ∧
      (spans.Pairwise fun span next => span.header < next.start) ∧
      (∀ span ∈ spans, ∀ other ∈ spans, ∀ index,
        span.Holds index → other.Holds index → span = other) ∧
      ∀ span ∈ spans, ∀ other ∈ spans, ¬ span.Holds other.header := by
  have hcollect := collect_eq_following lines
  have hheaders := map_header_of_collect hcollect
  have hapart := pairwise_header_lt_start hcollect
  refine ⟨_, hcollect, ?_, ?_, fun span => isWhole_of_mem_collect hcollect, hapart, ?_, ?_⟩
  · rw [hheaders]
    exact pairwise_headers lines
  · intro index
    rw [hheaders]
    exact mem_headers_iff
  · intro span hspan other hother index hholds hboth
    exact eq_of_holds hapart hspan hother hholds hboth
  · intro span hspan other hother
    exact not_holds_header hcollect hspan hother

/-- The second definition has no block, and the line `# c` is too far from the third to be in one. -/
theorem collect_separates_three :
    ∃ lines : Lines, ∃ spans, lines = ["# a".toList, "\t# b".toList, "fn f():".toList,
        "fn g():".toList, "# c".toList, [], "# d".toList, "fn h() -> int:".toList] ∧
      collect lines = .ok spans ∧ spans = [⟨0, 2⟩, ⟨3, 3⟩, ⟨6, 7⟩] ∧
      (∀ span ∈ spans, span.IsWhole lines) ∧
      (∀ span ∈ spans, span.Holds 1 → span = ⟨0, 2⟩) ∧
      ∀ span ∈ spans, ¬ span.Holds 3 := by
  have hspans : collect ["# a".toList, "\t# b".toList, "fn f():".toList, "fn g():".toList,
      "# c".toList, [], "# d".toList, "fn h() -> int:".toList] =
      .ok [⟨0, 2⟩, ⟨3, 3⟩, ⟨6, 7⟩] := by decide +kernel
  obtain ⟨spans, hcollect, -, -, hwhole, -, hone, hnone⟩ :=
    collect_separates ["# a".toList, "\t# b".toList, "fn f():".toList, "fn g():".toList,
      "# c".toList, [], "# d".toList, "fn h() -> int:".toList]
  obtain rfl : [⟨0, 2⟩, ⟨3, 3⟩, ⟨6, 7⟩] = spans := Except.ok.inj (hspans.symm.trans hcollect)
  refine ⟨_, _, rfl, hcollect, rfl, hwhole, ?_, ?_⟩
  · intro span hspan hholds
    exact hone span hspan ⟨0, 2⟩ (by simp) 1 hholds ⟨by decide, by decide⟩
  · intro span hspan
    exact hnone span hspan ⟨3, 3⟩ (by simp)

end Span

end Linewise
