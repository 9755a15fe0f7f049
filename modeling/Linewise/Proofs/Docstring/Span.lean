import Linewise.Docstring
import Linewise.Proofs.Outcome
import Mathlib.Data.List.DropRight

/-! Spans, read off the lines from the first to the last. Each backward scan sees only the lines
before its definition, so the spans of the lines that are left depend on those that are done. -/
namespace Linewise

namespace Span

/-- The spans of the definitions in `rest`, when the lines `done` stand before it. -/
def following : Lines → Lines → List Span
  | _, [] => []
  | done, line :: rest =>
    if Definition.isDefinition line then
      ⟨(done.rdropWhile Comment.isComment).length, done.length⟩ :: following (done ++ [line]) rest
    else
      following (done ++ [line]) rest

theorem rdropWhile_append_block {block : Lines} (done : Lines)
    (h : ∀ line ∈ block, Comment.isComment line = true) :
    (done ++ block).rdropWhile Comment.isComment = done.rdropWhile Comment.isComment := by
  rw [List.rdropWhile, List.reverse_append, List.dropWhile_append_of_pos (by simpa using h)]
  rfl

theorem getLast?_rdropWhile (done : Lines) :
    (done.rdropWhile Comment.isComment).getLast?.any Comment.isComment = false := by
  rw [Option.any_eq_false]
  intro last hend
  have hne : done.rdropWhile Comment.isComment ≠ [] := by
    intro hnil
    rw [hnil] at hend
    cases hend
  rw [List.getLast?_eq_some_getLast hne, Option.some.injEq] at hend
  exact hend ▸ Bool.eq_false_iff.mpr (List.rdropWhile_last_not _ _ hne)

theorem above_length (done rest : Lines) : above (done ++ rest) done.length =
    .ok ⟨(done.rdropWhile Comment.isComment).length, done.length⟩ := by
  have hsplit : (done.rdropWhile Comment.isComment).length +
      (done.rtakeWhile Comment.isComment).length = done.length := by
    rw [← List.length_append, List.rdropWhile_append_rtakeWhile]
  have hblock : (done.rtakeWhile Comment.isComment).length =
      (done.reverse.takeWhile Comment.isComment).length := by
    rw [List.rtakeWhile, List.length_reverse]
  have hle : done.length ≤ (done ++ rest).length := by simp
  simp only [above, hle, ↓reduceIte, List.take_left, ← hblock]
  congr 2
  omega

theorem mapM_above_following (done rest : Lines) :
    (((rest.zipIdx done.length).filter fun (line, _) => Definition.isDefinition line).map
      Prod.snd).mapM (above (done ++ rest)) = .ok (following done rest) := by
  induction rest generalizing done with
  | nil => rfl
  | cons line rest ih =>
      have hrest := ih (done ++ [line])
      simp only [List.length_append, List.length_singleton, List.append_assoc,
        List.singleton_append] at hrest
      cases hd : Definition.isDefinition line with
      | true =>
          simp only [List.zipIdx_cons, List.filter_cons, hd, ↓reduceIte, List.map_cons,
            List.mapM_cons, above_length, hrest, following, Outcome.ok_bind]
          rfl
      | false =>
          simp only [List.zipIdx_cons, List.filter_cons, hd, Bool.false_eq_true, ↓reduceIte, hrest,
            following]

theorem map_header_following (done rest : Lines) : (following done rest).map Span.header =
    ((rest.zipIdx done.length).filter fun (line, _) => Definition.isDefinition line).map Prod.snd := by
  induction rest generalizing done with
  | nil => rfl
  | cons line rest ih =>
      have hrest := ih (done ++ [line])
      rw [List.length_append, List.length_singleton] at hrest
      cases hd : Definition.isDefinition line with
      | true =>
          simp only [following, List.zipIdx_cons, List.filter_cons, hd, ↓reduceIte, List.map_cons,
            hrest]
      | false =>
          simp only [following, List.zipIdx_cons, List.filter_cons, hd, Bool.false_eq_true,
            ↓reduceIte, hrest]

theorem mem_headers_iff {lines : Lines} {index : Nat} : index ∈ headers lines ↔
    ∃ line, lines[index]? = some line ∧ Definition.isDefinition line = true := by
  simp only [headers, List.mem_map, List.mem_filter, Prod.exists, List.mem_zipIdx_iff_getElem?]
  constructor
  · rintro ⟨line, other, ⟨hline, hd⟩, rfl⟩
    exact ⟨line, hline, hd⟩
  · rintro ⟨line, hline, hd⟩
    exact ⟨line, index, ⟨hline, hd⟩, rfl⟩

theorem collect_eq_following (lines : Lines) : collect lines = .ok (following [] lines) :=
  mapM_above_following [] lines

theorem following_append (done lines later : Lines) :
    following done (lines ++ later) = following done lines ++ following (done ++ lines) later := by
  induction lines generalizing done with
  | nil => simp [following]
  | cons line lines ih =>
      have hrest := ih (done ++ [line])
      rw [List.append_assoc, List.singleton_append] at hrest
      rw [List.cons_append, following, following, hrest]
      split <;> rfl

/-! ## How far spans reach -/

/-- The index of the first line that is still to be written when the spans are spliced. -/
def reach : Nat → List Span → Nat
  | cursor, [] => cursor
  | cursor, span :: spans => reach (if span.isEmpty then cursor else span.header + 1) spans

theorem reach_append (cursor : Nat) (spans later : List Span) :
    reach cursor (spans ++ later) = reach (reach cursor spans) later := by
  induction spans generalizing cursor with
  | nil => rfl
  | cons span spans ih => exact ih _

theorem reach_following_le (done rest : Lines) {cursor : Nat} (h : cursor ≤ done.length) :
    reach cursor (following done rest) ≤ (done ++ rest).length := by
  induction rest generalizing done cursor with
  | nil => simpa [following, reach] using h
  | cons line rest ih =>
      have hlater (c : Nat) (hc : c ≤ (done ++ [line]).length) := ih (done ++ [line]) hc
      simp only [List.length_append, List.length_singleton, List.append_assoc,
        List.singleton_append] at hlater ⊢
      rw [following]
      split
      · rw [reach]
        apply hlater
        dsimp only
        split <;> omega
      · exact hlater cursor (by omega)

end Span

end Linewise
