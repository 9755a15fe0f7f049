import Linewise.Text.Space
import Linewise.Text.Word
import Mathlib.Data.List.DropRight
import Mathlib.Data.List.TakeWhile

/-! Words and tokens, by the characters they are made of. -/
namespace Linewise

/-! ## Word characters and white space -/

theorem CodeRanges.exists_of_has {ranges : CodeRanges} {n : Nat} (h : ranges.has n = true) :
    ∃ range ∈ ranges, range.1 ≤ n ∧ n ≤ range.2 := by
  induction ranges with
  | nil => cases h
  | cons range ranges ih =>
      simp only [has, Bool.and_eq_true, Bool.or_eq_true, decide_eq_true_eq] at h
      obtain ⟨hfirst, hlast | hlater⟩ := h
      · exact ⟨range, List.mem_cons_self, hfirst, hlast⟩
      · obtain ⟨other, hother, hbounds⟩ := ih hlater
        exact ⟨other, List.mem_cons_of_mem range hother, hbounds⟩

theorem isWord_of_isSpace {c : Char} (h : isSpace c = true) : isWord c = false := by
  -- There are few white space characters: each of them is looked up among the word characters.
  have hranges : ∀ range ∈ spaceRanges, ∀ k < range.2 + 1 - range.1,
      isWord (Char.ofNat (range.1 + k)) = false := by decide +kernel
  obtain ⟨range, hrange, hfirst, hlast⟩ := CodeRanges.exists_of_has h
  have hc := hranges range hrange (c.toNat - range.1) (by omega)
  rwa [Nat.add_sub_of_le hfirst, Char.ofNat_toNat] at hc

theorem isSpace_of_isWord {c : Char} (h : isWord c = true) : isSpace c = false := by
  cases hs : isSpace c with
  | false => rfl
  | true => rw [isWord_of_isSpace hs] at h; cases h

namespace Text

/-! ## Where a run ends -/

theorem head?_dropWhile (p : Char → Bool) (s : Text) : (s.dropWhile p).head?.any p = false := by
  have h := List.head?_dropWhile_not p s
  cases hs : (s.dropWhile p).head? with
  | none => rfl
  | some c =>
      rw [hs] at h
      exact h

theorem dropWhile_of_head? {p : Char → Bool} {s : Text} (h : s.head?.any p = false) :
    s.dropWhile p = s := by
  cases s with
  | nil => rfl
  | cons c s => exact List.dropWhile_cons_of_neg (by simpa using h)

theorem takeWhile_of_head? {p : Char → Bool} {s : Text} (h : s.head?.any p = false) :
    s.takeWhile p = [] := by
  cases s with
  | nil => rfl
  | cons c s => exact List.takeWhile_cons_of_neg (by simpa using h)

theorem takeWhile_append_of_head? {p : Char → Bool} {run rest : Text}
    (hrun : ∀ c ∈ run, p c = true) (hrest : rest.head?.any p = false) :
    (run ++ rest).takeWhile p = run := by
  rw [List.takeWhile_append_of_pos hrun, takeWhile_of_head? hrest, List.append_nil]

theorem dropWhile_append_of_head? {p : Char → Bool} {run rest : Text}
    (hrun : ∀ c ∈ run, p c = true) (hrest : rest.head?.any p = false) :
    (run ++ rest).dropWhile p = rest := by
  rw [List.dropWhile_append_of_pos hrun, dropWhile_of_head? hrest]

/-! ## Words -/

/-- A non-empty run of word characters. -/
structure IsWord (w : Text) : Prop where
  nonempty : w ≠ []
  chars : ∀ c ∈ w, isWord c = true

instance (w : Text) : Decidable w.IsWord :=
  decidable_of_iff (w ≠ [] ∧ w.all isWord = true)
    ⟨fun h => ⟨h.1, List.all_eq_true.mp h.2⟩, fun h => ⟨h.nonempty, List.all_eq_true.mpr h.chars⟩⟩

theorem IsWord.not_mem {w : Text} (h : w.IsWord) {c : Char} (hc : isWord c = false) : c ∉ w := by
  intro hmem
  rw [h.chars c hmem] at hc
  cases hc

theorem IsWord.head?_append {w : Text} (h : w.IsWord) (rest : Text) :
    (w ++ rest).head?.any isSpace = false := by
  obtain ⟨c, w, rfl⟩ := List.exists_cons_of_ne_nil h.nonempty
  exact isSpace_of_isWord (h.chars c List.mem_cons_self)

theorem IsWord.getLast?_append {w : Text} (h : w.IsWord) (before : Text) :
    (before ++ w).getLast?.any isWord = true := by
  rw [List.getLast?_append_of_ne_nil before h.nonempty, List.getLast?_eq_some_getLast h.nonempty]
  exact h.chars _ (List.getLast_mem h.nonempty)

theorem isWord_of_word? {s w rest : Text} (h : s.word? = some (w, rest)) : w.IsWord := by
  obtain ⟨hne, hw, -⟩ := word?_eq_some_iff.mp h
  refine ⟨hne, ?_⟩
  intro c hc
  rw [hw] at hc
  exact List.mem_takeWhile_imp hc

theorem append_of_word? {s w rest : Text} (h : s.word? = some (w, rest)) : s = w ++ rest := by
  obtain ⟨-, rfl, rfl⟩ := word?_eq_some_iff.mp h
  exact List.takeWhile_append_dropWhile.symm

theorem suffix_of_word? {s w rest : Text} (h : s.word? = some (w, rest)) : rest <:+ s :=
  ⟨w, (append_of_word? h).symm⟩

/-- A word is read as far as it goes. -/
theorem word?_eq_some_iff_append {s w rest : Text} :
    s.word? = some (w, rest) ↔ w.IsWord ∧ s = w ++ rest ∧ rest.head?.any isWord = false := by
  constructor
  · intro h
    refine ⟨isWord_of_word? h, append_of_word? h, ?_⟩
    obtain ⟨-, -, rfl⟩ := word?_eq_some_iff.mp h
    exact head?_dropWhile isWord s
  · rintro ⟨hw, rfl, hrest⟩
    refine word?_eq_some_iff.mpr ⟨hw.nonempty, ?_, ?_⟩
    · rw [takeWhile_append_of_head? hw.chars hrest]
    · rw [dropWhile_append_of_head? hw.chars hrest]

theorem IsWord.word?_of_head? {w rest : Text} (hw : w.IsWord) (hrest : rest.head?.any isWord = false) :
    (w ++ rest).word? = some (w, rest) :=
  word?_eq_some_iff_append.mpr ⟨hw, rfl, hrest⟩

theorem IsWord.word?_append {w : Text} (hw : w.IsWord) (c : Char) (rest : Text)
    (hc : isWord c = false) : (w ++ c :: rest).word? = some (w, c :: rest) :=
  hw.word?_of_head? hc

theorem word?_eq_none_iff {s : Text} : s.word? = none ↔ s.head?.any isWord = false := by
  cases s with
  | nil => simp [word?]
  | cons c s =>
      cases hc : isWord c <;> simp [word?, hc]

/-- A text ends on a word character at every place inside a word, and where the word ends. -/
theorem IsWord.getLast?_of_across {before tail earlier word rest : Text} (hword : word.IsWord)
    (h : before ++ tail = earlier ++ (word ++ rest)) (hbegins : earlier.length < before.length)
    (hends : before.length ≤ (earlier ++ word).length) : before.getLast?.any isWord = true := by
  obtain ⟨part, rfl⟩ : earlier <+: before :=
    List.prefix_of_prefix_length_le (List.prefix_append earlier (word ++ rest)) ⟨tail, h⟩
      (Nat.le_of_lt hbegins)
  rw [List.append_assoc] at h
  have hpart : part <+: word := by
    refine List.prefix_of_prefix_length_le ⟨tail, List.append_cancel_left h⟩
      (List.prefix_append word rest) ?_
    simpa using hends
  have hne : part ≠ [] := by
    rintro rfl
    simp at hbegins
  exact IsWord.getLast?_append ⟨hne, fun c hc => hword.chars c (hpart.subset hc)⟩ earlier

/-- A text that ends on a word character ends on a whole word. -/
theorem exists_last_word {s : Text} (h : s.getLast?.any isWord = true) :
    ∃ before word, s = before ++ word ∧ word.IsWord ∧ before.getLast?.any isWord = false := by
  have hdrop : (s.rdropWhile isWord).getLast?.any isWord = false := by
    rw [List.rdropWhile, List.getLast?_reverse]
    exact head?_dropWhile isWord s.reverse
  refine ⟨s.rdropWhile isWord, s.rtakeWhile isWord, List.rdropWhile_append_rtakeWhile.symm,
    ⟨?_, fun c => List.mem_rtakeWhile_imp⟩, hdrop⟩
  intro hnil
  have hs : s.rdropWhile isWord = s := by
    have happend := @List.rdropWhile_append_rtakeWhile _ isWord s
    rwa [hnil, List.append_nil] at happend
  rw [hs, h] at hdrop
  cases hdrop

/-! ## White space -/

/-- A non-empty run of white space. -/
structure IsBlank (s : Text) : Prop where
  nonempty : s ≠ []
  chars : ∀ c ∈ s, isSpace c = true

theorem isBlank_blank : IsBlank " ".toList :=
  ⟨by simp, List.all_eq_true.mp rfl⟩

theorem IsBlank.head?_append {blank : Text} (h : blank.IsBlank) (rest : Text) :
    (blank ++ rest).head?.any isWord = false := by
  obtain ⟨c, blank, rfl⟩ := List.exists_cons_of_ne_nil h.nonempty
  exact isWord_of_isSpace (h.chars c List.mem_cons_self)

/-- White space is read as far as it goes. -/
theorem afterSpaces?_eq_some_iff {s rest : Text} :
    s.afterSpaces? = some rest ↔
      ∃ blank : Text, blank.IsBlank ∧ s = blank ++ rest ∧ rest.head?.any isSpace = false := by
  constructor
  · intro h
    cases s with
    | nil => cases h
    | cons c s =>
        rw [afterSpaces?] at h
        split at h
        · rename_i hc
          cases h
          refine ⟨c :: s.takeWhile isSpace, ⟨List.cons_ne_nil _ _, ?_⟩, ?_, head?_dropWhile isSpace s⟩
          · intro d hd
            rcases List.mem_cons.mp hd with rfl | hd
            · exact hc
            · exact List.mem_takeWhile_imp hd
          · rw [List.cons_append, skipSpaces, List.takeWhile_append_dropWhile]
        · cases h
  · rintro ⟨blank, hblank, rfl, hrest⟩
    obtain ⟨c, blank, rfl⟩ := List.exists_cons_of_ne_nil hblank.nonempty
    have hc := hblank.chars c List.mem_cons_self
    have hskip : skipSpaces (blank ++ rest) = rest :=
      dropWhile_append_of_head? (fun d hd => hblank.chars d (List.mem_cons_of_mem c hd)) hrest
    rw [List.cons_append, afterSpaces?, if_pos hc, hskip]

theorem suffix_of_afterSpaces? {s rest : Text} (h : s.afterSpaces? = some rest) : rest <:+ s := by
  cases s with
  | nil => cases h
  | cons c s =>
      rw [afterSpaces?] at h
      split at h
      · cases h
        exact (List.dropWhile_suffix isSpace).trans (List.suffix_cons c s)
      · cases h

theorem trim_isInfix (s : Text) : s.trim <:+: s :=
  (List.rdropWhile_prefix isSpace s.skipSpaces).isInfix.trans (List.dropWhile_suffix isSpace).isInfix

/-! ## Pieces of a text -/

theorem parts_of_splitOnP (p : Char → Bool) (s : Text) :
    (∀ piece ∈ s.splitOnP p, piece <:+: s) ∧ ∀ first ∈ (s.splitOnP p).head?, first <+: s := by
  induction s with
  | nil => simp
  | cons d s ih =>
      obtain ⟨hpart, hstart⟩ := ih
      rw [List.splitOnP_cons_eq_if_modifyHead]
      split
      · refine ⟨?_, by simp⟩
        intro piece hpiece
        rcases List.mem_cons.mp hpiece with rfl | hpiece
        · exact List.nil_infix
        · exact List.infix_cons (hpart piece hpiece)
      · cases hs : s.splitOnP p with
        | nil => exact absurd hs (List.splitOnP_ne_nil p s)
        | cons first pieces =>
            rw [hs] at hpart hstart
            have hfirst : d :: first <+: d :: s := List.cons_prefix_cons.mpr ⟨rfl, hstart first rfl⟩
            refine ⟨?_, by simpa using hfirst⟩
            intro piece hpiece
            rcases List.mem_cons.mp hpiece with rfl | hpiece
            · exact hfirst.isInfix
            · exact List.infix_cons (hpart piece (List.mem_cons_of_mem first hpiece))

theorem infix_of_mem_splitOnP {p : Char → Bool} {s piece : Text} (h : piece ∈ s.splitOnP p) :
    piece <:+: s :=
  (parts_of_splitOnP p s).1 piece h

theorem prefix_of_splitOnP {p : Char → Bool} {s first : Text} {pieces : List Text}
    (h : s.splitOnP p = first :: pieces) : first <+: s :=
  (parts_of_splitOnP p s).2 first (by rw [h]; rfl)

theorem mem_of_mem_splitOnP {p : Char → Bool} {s piece : Text} (h : piece ∈ s.splitOnP p) :
    ∀ c ∈ piece, p c = false ∧ c ∈ s := by
  induction s generalizing piece with
  | nil =>
      intro c hc
      simp only [List.splitOnP_nil, List.mem_singleton] at h
      rw [h] at hc
      cases hc
  | cons d s ih =>
      intro c hc
      rw [List.splitOnP_cons_eq_if_modifyHead] at h
      split at h
      · rcases List.mem_cons.mp h with rfl | h
        · cases hc
        · exact ⟨(ih h c hc).1, List.mem_cons_of_mem d (ih h c hc).2⟩
      · rename_i hd
        cases hs : s.splitOnP p with
        | nil => exact absurd hs (List.splitOnP_ne_nil p s)
        | cons first pieces =>
            rw [hs] at h ih
            rcases List.mem_cons.mp h with rfl | h
            · rcases List.mem_cons.mp hc with rfl | hc
              · exact ⟨by simpa using hd, List.mem_cons_self⟩
              · have hfirst := ih List.mem_cons_self c hc
                exact ⟨hfirst.1, List.mem_cons_of_mem d hfirst.2⟩
            · have hlater := ih (List.mem_cons_of_mem first h) c hc
              exact ⟨hlater.1, List.mem_cons_of_mem d hlater.2⟩

theorem mem_of_mem_splitOn {a : Char} {s piece : Text} (h : piece ∈ s.splitOn a) :
    ∀ c ∈ piece, c ≠ a ∧ c ∈ s := by
  rw [List.splitOn_eq_splitOnP] at h
  intro c hc
  have hpiece := mem_of_mem_splitOnP h c hc
  exact ⟨by simpa using hpiece.1, hpiece.2⟩

theorem mem_of_mem_tokens {s token : Text} (h : token ∈ s.tokens) :
    ∀ c ∈ token, isSpace c = false ∧ c ∈ s :=
  mem_of_mem_splitOnP (List.mem_filter.mp h).1

theorem infix_of_mem_tokens {s token : Text} (h : token ∈ s.tokens) : token <:+: s :=
  infix_of_mem_splitOnP (List.mem_filter.mp h).1

end Text

end Linewise
