import Linewise.Lines
import Mathlib.Data.List.Infix

/-! Where the lines of a source begin, and how sources and lists of lines are put together. -/
namespace Linewise

namespace Lines

theorem unifyEnds_cons {c : Char} {s : Text} (h : c = '\r' → s.head? ≠ some '\n') :
    unifyEnds (c :: s) = c :: unifyEnds s := by
  rw [unifyEnds]
  rintro rest rfl rfl
  exact h rfl rfl

/-- A line without its line end: one `\r` before the `\n` belongs to the line end. -/
def withoutReturn (s : Text) : Text :=
  if s.getLast? = some '\r' then s.dropLast else s

theorem withoutReturn_subset (s : Text) : withoutReturn s ⊆ s := by
  unfold withoutReturn
  split
  · exact List.dropLast_subset s
  · exact List.Subset.refl s

theorem unifyEnds_line {s : Text} (rest : Text) (h : '\n' ∉ s) :
    unifyEnds (s ++ '\n' :: rest) = withoutReturn s ++ '\n' :: unifyEnds rest := by
  induction s with
  | nil => exact unifyEnds_cons (by simp)
  | cons c s ih =>
      obtain ⟨hc, hs⟩ := List.ne_and_not_mem_of_not_mem_cons h
      cases s with
      | nil =>
          by_cases hr : c = '\r'
          · subst hr
            rfl
          · have hline : withoutReturn [c] = [c] := by simp [withoutReturn, hr]
            rw [hline, List.cons_append, unifyEnds_cons (fun h => absurd h hr), List.nil_append,
              unifyEnds_cons (by simp)]
            rfl
      | cons d s =>
          have hline : withoutReturn (c :: d :: s) = c :: withoutReturn (d :: s) := by
            unfold withoutReturn
            rw [List.getLast?_cons_cons]
            split <;> rfl
          rw [hline, List.cons_append, unifyEnds_cons (by simpa using fun _ h => hs (by simp [h])),
            ih hs]
          rfl

theorem ofText_line {s : Text} (rest : Text) (h : '\n' ∉ s) :
    ofText (s ++ '\n' :: rest) = withoutReturn s :: ofText rest := by
  rw [ofText, unifyEnds_line rest h, List.splitOn_append_cons_self_of_not_mem]
  · rfl
  · exact fun hmem => h (withoutReturn_subset s hmem)

theorem unifyEnds_of_not_mem {s : Text} (h : '\n' ∉ s) : unifyEnds s = s := by
  induction s with
  | nil => rfl
  | cons c s ih =>
      obtain ⟨-, hs⟩ := List.ne_and_not_mem_of_not_mem_cons h
      rw [unifyEnds_cons fun _ hhead => hs (List.mem_of_head? hhead), ih hs]

theorem ofText_of_not_mem {s : Text} (h : '\n' ∉ s) : ofText s = [s] := by
  rw [ofText, unifyEnds_of_not_mem h, List.splitOn_eq_singleton h]

theorem unifyEnds_of_not_isInfix {source : Text} (h : ¬ "\r\n".toList <:+: source) :
    unifyEnds source = source := by
  fun_induction unifyEnds source with
  | case1 => rfl
  | case2 s ih => exact absurd ⟨[], s, rfl⟩ h
  | case3 c s hc ih => rw [ih fun hpart => h (List.infix_cons hpart)]

/-- Induction along the lines of a source. -/
theorem line_induction {motive : Text → Prop} (last : ∀ s, '\n' ∉ s → motive s)
    (line : ∀ s rest, '\n' ∉ s → motive rest → motive (s ++ '\n' :: rest)) (source : Text) :
    motive source := by
  induction hlength : source.length using Nat.strongRecOn generalizing source with
  | ind n ih =>
      by_cases hmem : '\n' ∈ source
      · obtain ⟨s, rest, rfl, hs⟩ := List.eq_append_cons_of_mem hmem
        have hshorter : rest.length < n := by
          rw [← hlength, List.length_append, List.length_cons]
          omega
        exact line s rest hs (ih rest.length hshorter rest rfl)
      · exact last source hmem

/-- Every line begins right after as many line feeds as there are lines before it. -/
theorem exists_split_of_index {source : Text} {index : Nat} (h : index < (ofText source).length) :
    ∃ before rest, source = before ++ rest ∧ (before = [] ∨ before.getLast? = some '\n') ∧
      before.count '\n' = index ∧ ofText rest = (ofText source).drop index := by
  induction index with
  | zero => exact ⟨[], source, rfl, .inl rfl, rfl, rfl⟩
  | succ index ih =>
      obtain ⟨before, rest, hsource, -, hcount, hrest⟩ := ih (by omega)
      -- There is a line after this one, so a line feed is still to come.
      have hmem : '\n' ∈ rest := by
        by_contra hnot
        have hlength := congrArg List.length (ofText_of_not_mem hnot)
        rw [hrest, List.length_drop, List.length_singleton] at hlength
        omega
      obtain ⟨line, later, rfl, hline⟩ := List.eq_append_cons_of_mem hmem
      refine ⟨before ++ (line ++ ['\n']), later, by simp [hsource], .inr (by simp), ?_, ?_⟩
      · simp [List.count_append, hcount, List.count_eq_zero_of_not_mem hline]
      · rw [ofText_line later hline] at hrest
        rw [← List.drop_drop, ← hrest]
        rfl

/-! ## Sources one after the other -/

theorem unifyEnds_append {s : Text} (rest : Text)
    (h : s.getLast? = some '\r' → rest.head? ≠ some '\n') :
    unifyEnds (s ++ rest) = unifyEnds s ++ unifyEnds rest := by
  fun_induction unifyEnds s with
  | case1 => rfl
  | case2 s ih =>
      -- A line end that is already complete does not depend on what follows it.
      have hlast : s.getLast? = some '\r' → rest.head? ≠ some '\n' := by
        intro hs
        cases s with
        | nil => cases hs
        | cons d s => exact h (by rw [List.getLast?_cons_cons, List.getLast?_cons_cons, hs])
      rw [List.cons_append, List.cons_append, unifyEnds, ih hlast, List.cons_append]
  | case3 c s hc ih =>
      cases s with
      | nil =>
          rw [List.singleton_append, unifyEnds_cons fun hr => h (by rw [hr]; rfl)]
          rfl
      | cons d s =>
          have hlast : (d :: s).getLast? = some '\r' → rest.head? ≠ some '\n' := by
            rwa [List.getLast?_cons_cons] at h
          have hhead : c = '\r' → (d :: s ++ rest).head? ≠ some '\n' := by
            rintro hr hd
            obtain rfl : d = '\n' := by simpa using hd
            exact hc s hr rfl
          rw [List.cons_append, unifyEnds_cons hhead, ih hlast, List.cons_append]

/-- A line feed between two sources keeps their lines apart, unless it completes a line end that the
first one begins. -/
theorem ofText_append {s : Text} (rest : Text) (h : s.getLast? ≠ some '\r') :
    ofText (s ++ '\n' :: rest) = ofText s ++ ofText rest := by
  have hfeed : unifyEnds ('\n' :: rest) = '\n' :: unifyEnds rest := unifyEnds_cons (by simp)
  rw [ofText, unifyEnds_append _ fun hr => absurd hr h, hfeed, List.splitOn_append_cons_self]
  rfl

theorem ofText_ne_nil (source : Text) : ofText source ≠ [] :=
  List.splitOn_ne_nil '\n' (unifyEnds source)

/-! ## What stands in a source and in its lines -/

theorem isInfix_of_append_cons {part s t : Text} {c : Char} (hc : c ∉ part)
    (h : part <:+: s ++ c :: t) : part <:+: s ∨ part <:+: t := by
  -- A part that begins in `s` ends there, and one that begins at `c` is empty.
  have hnil {rest : Text} (hrest : rest <+: c :: t) (hmem : c ∉ rest) : rest = [] := by
    cases rest with
    | nil => rfl
    | cons d rest =>
        obtain ⟨rfl, -⟩ := List.cons_prefix_cons.mp hrest
        exact absurd List.mem_cons_self hmem
  rcases List.infix_append_iff.mp h with h | h | ⟨left, right, rfl, hleft, hright⟩
  · exact .inl h
  · rcases List.infix_cons_iff.mp h with h | h
    · rw [hnil h hc]
      exact .inl List.nil_infix
    · exact .inr h
  · rw [hnil hright fun hmem => hc (List.mem_append_right left hmem), List.append_nil]
    exact .inl hleft.isInfix

theorem isInfix_of_mem_ofText {source line : Text} (h : line ∈ ofText source) : line <:+: source := by
  induction source using line_induction with
  | last s hs =>
      rw [ofText_of_not_mem hs] at h
      exact List.mem_singleton.mp h ▸ List.infix_rfl
  | line s rest hs ih =>
      rw [ofText_line rest hs] at h
      rcases List.mem_cons.mp h with rfl | h
      · have hline : withoutReturn s <+: s := by
          unfold withoutReturn
          split
          · exact List.dropLast_prefix s
          · exact List.prefix_rfl
        exact (hline.trans (List.prefix_append s _)).isInfix
      · exact (List.infix_cons (ih h)).trans (List.suffix_append s _).isInfix

theorem exists_mem_ofText {source part : Text} (hfeed : '\n' ∉ part) (hreturn : '\r' ∉ part)
    (h : part <:+: source) : ∃ line ∈ ofText source, part <:+: line := by
  induction source using line_induction with
  | last s hs => exact ⟨s, by simp [ofText_of_not_mem hs], h⟩
  | line s rest hs ih =>
      rw [ofText_line rest hs]
      rcases isInfix_of_append_cons hfeed h with h | h
      · refine ⟨withoutReturn s, List.mem_cons_self, ?_⟩
        unfold withoutReturn
        split
        · rename_i hlast
          obtain ⟨before, rfl⟩ := List.getLast?_eq_some_iff.mp hlast
          rw [List.dropLast_concat]
          rcases isInfix_of_append_cons hreturn h with h | h
          · exact h
          · rw [List.infix_nil.mp h]
            exact List.nil_infix
        · exact h
      · obtain ⟨line, hline, hpart⟩ := ih h
        exact ⟨line, List.mem_cons_of_mem _ hline, hpart⟩

/-! ## Line by line -/

theorem map_eq_self_iff {f : Text → Text} {lines : Lines} :
    lines.map f = lines ↔ ∀ line ∈ lines, f line = line := by
  have h : lines.map f = lines.map id ↔ ∀ line ∈ lines, f line = id line := List.map_inj_left
  rwa [List.map_id] at h

/-- Numbered lines that are left out do not change the order of the others. -/
theorem pairwise_of_sublist_zipIdx {numbered : List (Text × Nat)} {lines : Lines} {number : Nat}
    (h : numbered.Sublist (lines.zipIdx number)) : (numbered.map Prod.snd).Pairwise (· < ·) := by
  refine List.Pairwise.sublist (h.map Prod.snd) ?_
  rw [List.zipIdx_map_snd]
  exact List.pairwise_lt_range'

/-! ## Lines written one after the other -/

theorem toText_cons_cons (line next : Text) (lines : Lines) :
    toText (line :: next :: lines) = line ++ '\n' :: toText (next :: lines) := by
  rw [toText, List.intercalate_cons_cons, List.append_assoc]
  rfl

theorem toText_append {lines later : Lines} (h : lines ≠ []) (hlater : later ≠ []) :
    toText (lines ++ later) = toText lines ++ '\n' :: toText later := by
  obtain ⟨next, rest, rfl⟩ := List.exists_cons_of_ne_nil hlater
  induction lines with
  | nil => exact absurd rfl h
  | cons line lines ih =>
      cases lines with
      | nil =>
          rw [List.singleton_append, toText_cons_cons]
          simp [toText]
      | cons second lines =>
          rw [List.cons_append, List.cons_append, toText_cons_cons, ← List.cons_append, ih (by simp),
            toText_cons_cons, List.append_assoc, List.cons_append]

theorem toText_ofText (source : Text) : toText (ofText source) = unifyEnds source :=
  List.intercalate_splitOn '\n'

theorem isInfix_toText_of_mem {lines : Lines} {line : Text} (h : line ∈ lines) :
    line <:+: toText lines := by
  induction lines with
  | nil => cases h
  | cons first lines ih =>
      cases lines with
      | nil =>
          rw [List.mem_singleton.mp h]
          simp [toText]
      | cons next lines =>
          rw [toText_cons_cons]
          rcases List.mem_cons.mp h with rfl | h
          · exact (List.prefix_append _ _).isInfix
          · exact (List.infix_cons (ih h)).trans (List.suffix_append first _).isInfix

theorem exists_mem_of_isInfix_toText {lines : Lines} {part : Text} (hfeed : '\n' ∉ part)
    (hne : part ≠ []) (h : part <:+: toText lines) : ∃ line ∈ lines, part <:+: line := by
  induction lines with
  | nil => exact absurd (List.infix_nil.mp h) hne
  | cons first lines ih =>
      cases lines with
      | nil => exact ⟨first, List.mem_cons_self, by simpa [toText] using h⟩
      | cons next lines =>
          rw [toText_cons_cons] at h
          rcases isInfix_of_append_cons hfeed h with h | h
          · exact ⟨first, List.mem_cons_self, h⟩
          · obtain ⟨line, hline, hpart⟩ := ih h
            exact ⟨line, List.mem_cons_of_mem first hline, hpart⟩

end Lines

end Linewise
