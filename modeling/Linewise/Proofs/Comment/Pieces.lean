import Linewise.Comment
import Linewise.Proofs.Text.Search
import Linewise.Proofs.Text.Words

/-!
Comment markers and the pieces of a text. A marker is made of slashes only, so where a text is cut at
something else, no marker is cut. Main statement: it makes no difference whether markers are converted
before or after a text is cut into its pieces.
-/
namespace Linewise

namespace Comment

/-! ## One character after the other -/

theorem marker_slashes (s : Text) : marker ('/' :: '/' :: s) = some (targetMarker, s) := by
  have hread : Text.after? ('/' :: '/' :: s) sourceMarker = some s := Text.after?_eq_some_iff.mpr rfl
  simp only [marker, hread, Option.map_some]

theorem marker_eq_none {c : Char} {s : Text} (h : ¬ (c = '/' ∧ s.head? = some '/')) :
    marker (c :: s) = none := by
  rw [marker, Option.map_eq_none_iff, Option.eq_none_iff_forall_ne_some]
  intro rest hrest
  obtain ⟨rfl, rfl⟩ := List.cons.inj (Text.after?_eq_some_iff.mp hrest)
  exact h ⟨rfl, rfl⟩

theorem convert_slashes (s : Text) : convert ('/' :: '/' :: s) = '#' :: convert s :=
  Rule.applyAll_of_some (marker_slashes s) (List.suffix_cons '/' s)

theorem convert_cons {c : Char} {s : Text} (h : ¬ (c = '/' ∧ s.head? = some '/')) :
    convert (c :: s) = c :: convert s :=
  Rule.applyAll_of_none (marker_eq_none h)

theorem convert_cons_of_ne {c : Char} (s : Text) (h : c ≠ '/') : convert (c :: s) = c :: convert s :=
  convert_cons fun hc => h hc.1

/-- Induction along a line: two slashes are a marker, anything else is kept. -/
theorem convert_induction {motive : Text → Prop} (nil : motive [])
    (keep : ∀ c s, ¬ (c = '/' ∧ s.head? = some '/') → motive s → motive (c :: s))
    (slashes : ∀ s, motive s → motive ('/' :: '/' :: s)) (s : Text) : motive s := by
  induction hlength : s.length using Nat.strongRecOn generalizing s with
  | ind n ih =>
      cases s with
      | nil => exact nil
      | cons c s =>
          rw [List.length_cons] at hlength
          by_cases h : c = '/' ∧ s.head? = some '/'
          · obtain ⟨rfl, hhead⟩ := h
            obtain ⟨rest, rfl⟩ := List.head?_eq_some_iff.mp hhead
            rw [List.length_cons] at hlength
            exact slashes rest (ih rest.length (by omega) rest rfl)
          · exact keep c s h (ih s.length (by omega) s rfl)

/-! ## Texts one after the other -/

theorem convert_append (s : Text) {t : Text} (h : t.head? ≠ some '/') :
    convert (s ++ t) = convert s ++ convert t := by
  induction s using convert_induction with
  | nil => rfl
  | keep c s hc ih =>
      have hseam : ¬ (c = '/' ∧ (s ++ t).head? = some '/') := by
        rintro ⟨rfl, hhead⟩
        cases s with
        | nil => exact h hhead
        | cons d s => exact hc ⟨rfl, hhead⟩
      rw [List.cons_append, convert_cons hseam, ih, convert_cons hc, List.cons_append]
  | slashes s ih =>
      rw [List.cons_append, List.cons_append, convert_slashes, ih, convert_slashes, List.cons_append]

theorem convert_append_of_not_mem {s : Text} (t : Text) (h : '/' ∉ s) :
    convert (s ++ t) = s ++ convert t := by
  induction s with
  | nil => rfl
  | cons c s ih =>
      obtain ⟨hc, hs⟩ := List.ne_and_not_mem_of_not_mem_cons h
      rw [List.cons_append, convert_cons_of_ne _ (Ne.symm hc), ih hs, List.cons_append]

theorem convert_of_not_mem {s : Text} (h : '/' ∉ s) : convert s = s := by
  have hs := convert_append_of_not_mem [] h
  rwa [List.append_nil, show convert [] = [] from rfl, List.append_nil] at hs

theorem convert_intercalate (pieces : List Text) :
    convert (", ".toList.intercalate pieces) = ", ".toList.intercalate (pieces.map convert) := by
  induction pieces with
  | nil => rfl
  | cons piece pieces ih =>
      cases pieces with
      | nil => simp only [List.map_cons, List.map_nil, List.intercalate_singleton]
      | cons next pieces =>
          have hcomma : '/' ∉ ", ".toList := by decide
          rw [List.intercalate_cons_cons, List.append_assoc, convert_append _ (by simp),
            convert_append_of_not_mem _ hcomma, ih]
          simp only [List.map_cons, List.intercalate_cons_cons, List.append_assoc]

theorem convert_eq_nil_iff {s : Text} : convert s = [] ↔ s = [] := by
  induction s using convert_induction with
  | nil => exact Iff.rfl
  | keep c s hc _ => simp [convert_cons hc]
  | slashes s _ => simp [convert_slashes]

theorem isEmpty_convert (s : Text) : (convert s).isEmpty = s.isEmpty := by
  rw [Bool.eq_iff_iff, List.isEmpty_iff, List.isEmpty_iff, convert_eq_nil_iff]

/-! ## Characters -/

theorem mem_of_mem_convert {c : Char} {s : Text} (h : c ∈ convert s) :
    c ∈ s ∨ c = '#' ∧ '/' ∈ s := by
  induction s using convert_induction with
  | nil => cases h
  | keep d s hd ih =>
      rw [convert_cons hd] at h
      rcases List.mem_cons.mp h with rfl | h
      · exact .inl List.mem_cons_self
      · exact (ih h).imp (List.mem_cons_of_mem d) (And.imp_right (List.mem_cons_of_mem d))
  | slashes s ih =>
      rw [convert_slashes] at h
      rcases List.mem_cons.mp h with rfl | h
      · exact .inr ⟨rfl, List.mem_cons_self⟩
      · rcases ih h with h | ⟨rfl, -⟩
        · exact .inl (List.mem_cons_of_mem _ (List.mem_cons_of_mem _ h))
        · exact .inr ⟨rfl, List.mem_cons_self⟩

/-! ## Cuts

The places where texts are cut are told by predicates that do not tell `#` from a slash. -/

section

variable {p : Char → Bool}

theorem head?_convert (hp : p '#' = p '/') (s : Text) :
    (convert s).head?.any p = s.head?.any p := by
  cases s using convert_induction with
  | nil => rfl
  | keep c s hc => rw [convert_cons hc]; rfl
  | slashes s => rw [convert_slashes]; exact hp

theorem getLast?_cons_any (p : Char → Bool) (c : Char) (s : Text) :
    (c :: s).getLast?.any p = if s = [] then p c else s.getLast?.any p := by
  cases s <;> rfl

theorem getLast?_convert (hp : p '#' = p '/') (s : Text) :
    (convert s).getLast?.any p = s.getLast?.any p := by
  induction s using convert_induction with
  | nil => rfl
  | keep c s hc ih =>
      rw [convert_cons hc, getLast?_cons_any, getLast?_cons_any, ih]
      simp only [convert_eq_nil_iff]
  | slashes s ih =>
      rw [convert_slashes, getLast?_cons_any, List.getLast?_cons_cons, getLast?_cons_any, ih, hp]
      simp only [convert_eq_nil_iff]

theorem convert_takeWhile_append (p : Char → Bool) (s : Text) :
    convert s = convert (s.takeWhile p) ++ convert (s.dropWhile p) := by
  have hs : s = s.takeWhile p ++ s.dropWhile p := List.takeWhile_append_dropWhile.symm
  cases hslash : p '/' with
  | true =>
      have hrest : (s.dropWhile p).head? ≠ some '/' := by
        intro hhead
        have hstop := Text.head?_dropWhile p s
        rw [hhead, Option.any_some, hslash] at hstop
        cases hstop
      nth_rewrite 1 [hs]
      exact convert_append _ hrest
  | false =>
      have hrun : '/' ∉ s.takeWhile p := by
        intro hmem
        have hp := List.mem_takeWhile_imp hmem
        rw [hslash] at hp
        cases hp
      nth_rewrite 1 [hs]
      rw [convert_append_of_not_mem _ hrun, convert_of_not_mem hrun]

theorem all_convert {s : Text} (hp : p '#' = p '/') (h : ∀ c ∈ s, p c = true) :
    ∀ c ∈ convert s, p c = true := by
  intro c hc
  rcases mem_of_mem_convert hc with hc | ⟨rfl, hslash⟩
  · exact h c hc
  · exact hp.trans (h '/' hslash)

theorem takeWhile_convert (hp : p '#' = p '/') (s : Text) :
    (convert s).takeWhile p = convert (s.takeWhile p) := by
  rw [convert_takeWhile_append p s]
  apply Text.takeWhile_append_of_head?
  · exact all_convert hp fun c hc => List.mem_takeWhile_imp hc
  · rw [head?_convert hp]
    exact Text.head?_dropWhile p s

theorem dropWhile_convert (hp : p '#' = p '/') (s : Text) :
    (convert s).dropWhile p = convert (s.dropWhile p) := by
  nth_rewrite 1 [convert_takeWhile_append p s]
  apply Text.dropWhile_append_of_head?
  · exact all_convert hp fun c hc => List.mem_takeWhile_imp hc
  · rw [head?_convert hp]
    exact Text.head?_dropWhile p s

theorem splitOnP_convert (hslash : p '/' = false) (hhash : p '#' = false) (s : Text) :
    (convert s).splitOnP p = (s.splitOnP p).map convert := by
  have hkeep {c : Char} (hc : p c = false) (t : Text) :
      (c :: t).splitOnP p = (t.splitOnP p).modifyHead (List.cons c) := by
    rw [List.splitOnP_cons_eq_if_modifyHead, if_neg (by simp [hc])]
  induction s using convert_induction with
  | nil => rfl
  | keep c s hc ih =>
      rw [convert_cons hc]
      cases hp : p c with
      | true =>
          rw [List.splitOnP_cons_eq_if_modifyHead, List.splitOnP_cons_eq_if_modifyHead, if_pos hp,
            if_pos hp, ih]
          rfl
      | false =>
          rw [hkeep hp, hkeep hp, ih]
          cases hs : s.splitOnP p with
          | nil => exact absurd hs (List.splitOnP_ne_nil p s)
          | cons first pieces =>
              -- The first piece begins as the text does, so that no marker comes about at its head.
              have hfirst : ¬ (c = '/' ∧ first.head? = some '/') := by
                rintro ⟨rfl, hhead⟩
                obtain ⟨rest, rfl⟩ := Text.prefix_of_splitOnP hs
                exact hc ⟨rfl, by rw [List.head?_append, hhead]; rfl⟩
              simp only [List.map_cons, List.modifyHead_cons, convert_cons hfirst]
  | slashes s ih =>
      rw [convert_slashes, hkeep hhash, hkeep hslash, hkeep hslash, ih]
      cases s.splitOnP p with
      | nil => rfl
      | cons first pieces => simp only [List.map_cons, List.modifyHead_cons, convert_slashes]

theorem rdropWhile_convert (hslash : p '/' = false) (hhash : p '#' = false) (s : Text) :
    (convert s).rdropWhile p = convert (s.rdropWhile p) := by
  have hrun : '/' ∉ s.rtakeWhile p := by
    intro hmem
    have hp := List.mem_rtakeWhile_imp hmem
    rw [hslash] at hp
    cases hp
  have hhead : (s.rtakeWhile p).head? ≠ some '/' := fun h => hrun (List.mem_of_mem_head? h)
  have hs : convert s = convert (s.rdropWhile p) ++ s.rtakeWhile p := by
    rw [← convert_of_not_mem hrun, ← convert_append _ hhead, List.rdropWhile_append_rtakeWhile]
  have hlast : (convert (s.rdropWhile p)).reverse.head?.any p = false := by
    rw [List.head?_reverse, getLast?_convert (hhash.trans hslash.symm), ← List.head?_reverse,
      List.rdropWhile, List.reverse_reverse]
    exact Text.head?_dropWhile p s.reverse
  have hblanks : ∀ c ∈ (s.rtakeWhile p).reverse, p c = true := by
    intro c hc
    exact List.mem_rtakeWhile_imp (List.mem_reverse.mp hc)
  rw [hs, List.rdropWhile, List.reverse_append, Text.dropWhile_append_of_head? hblanks hlast,
    List.reverse_reverse]

end

theorem trim_convert (s : Text) : (convert s).trim = convert s.trim := by
  have hspaces : Text.skipSpaces (convert s) = convert s.skipSpaces := dropWhile_convert rfl s
  rw [Text.trim, hspaces]
  exact rdropWhile_convert rfl rfl s.skipSpaces

theorem tokens_convert (s : Text) : (convert s).tokens = s.tokens.map convert := by
  have hempty : (fun t => !t.isEmpty) ∘ convert = fun t : Text => !t.isEmpty := by
    funext t
    rw [Function.comp_apply, isEmpty_convert]
  rw [Text.tokens, splitOnP_convert rfl rfl, List.filter_map, hempty, Text.tokens]

/-! ## Readers -/

theorem after?_convert {lead : Text} (hslash : '/' ∉ lead) (hhash : '#' ∉ lead) (s : Text) :
    (convert s).after? lead = (s.after? lead).map convert := by
  induction lead generalizing s with
  | nil => rfl
  | cons c lead ih =>
      have hcons (d : Char) (t : Text) :
          Text.after? (d :: t) (c :: lead) = if c == d then Text.after? t lead else none := rfl
      obtain ⟨hcs, hslash⟩ := List.ne_and_not_mem_of_not_mem_cons hslash
      obtain ⟨hch, hhash⟩ := List.ne_and_not_mem_of_not_mem_cons hhash
      cases s using convert_induction with
      | nil => rfl
      | keep d s hd =>
          rw [convert_cons hd, hcons, hcons, ih hslash hhash]
          split <;> rfl
      | slashes s =>
          rw [convert_slashes, hcons, hcons, if_neg (by simpa using Ne.symm hch),
            if_neg (by simpa using Ne.symm hcs)]
          rfl

theorem afterSpaces?_convert (s : Text) :
    (convert s).afterSpaces? = s.afterSpaces?.map convert := by
  cases s using convert_induction with
  | nil => rfl
  | keep c s hc =>
      rw [convert_cons hc, Text.afterSpaces?, Text.afterSpaces?, Text.skipSpaces,
        dropWhile_convert rfl]
      split <;> rfl
  | slashes s =>
      rw [convert_slashes]
      rfl

theorem takeWhile_isWord_convert (s : Text) : (convert s).takeWhile isWord = s.takeWhile isWord := by
  have hword : '/' ∉ s.takeWhile isWord := fun h => absurd (List.mem_takeWhile_imp h) (by decide)
  rw [takeWhile_convert rfl, convert_of_not_mem hword]

theorem word?_convert (s : Text) :
    (convert s).word? = s.word?.map fun (word, rest) => (word, convert rest) := by
  unfold Text.word?
  rw [takeWhile_isWord_convert, dropWhile_convert rfl]
  split <;> rfl

end Comment

/-! ## Searches -/

theorem Text.leftmost?_convert {α : Type} {read : Text → Option α} {f : α → α}
    (hread : ∀ s, read (Comment.convert s) = (read s).map f) (hslash : ∀ s, read ('/' :: s) = none)
    (s : Text) : leftmost? read (Comment.convert s) = (leftmost? read s).map f := by
  induction s using Comment.convert_induction with
  | nil => exact hread []
  | keep c s hc ih =>
      have hhead := hread (c :: s)
      rw [Comment.convert_cons hc] at hhead ⊢
      cases h : read (c :: s) with
      | some a =>
          rw [h] at hhead
          rw [leftmost?_of_some hhead, leftmost?_of_some h]
          rfl
      | none =>
          rw [h] at hhead
          rw [leftmost?_of_none hhead, leftmost?_of_none h, ih]
  | slashes s ih =>
      have hhead := hread ('/' :: '/' :: s)
      rw [Comment.convert_slashes, hslash] at hhead
      rw [Comment.convert_slashes, leftmost?_of_none hhead, leftmost?_of_none (hslash _),
        leftmost?_of_none (hslash _), ih]

end Linewise
