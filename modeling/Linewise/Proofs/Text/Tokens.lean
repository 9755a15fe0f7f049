import Linewise.Proofs.Text.Words

/-! Texts cut into pieces: into tokens at white space, into entries at commas. What is known about
tokens rests on one equation, for a text that is cut at one of its white space characters. -/
namespace Linewise

namespace Text

/-- A non-empty text without white space. -/
structure IsToken (s : Text) : Prop where
  nonempty : s ≠ []
  chars : ∀ c ∈ s, isSpace c = false

instance (s : Text) : Decidable s.IsToken :=
  decidable_of_iff (s ≠ [] ∧ s.all (!isSpace ·) = true)
    ⟨fun h => ⟨h.1, by simpa using h.2⟩, fun h => ⟨h.nonempty, by simpa using h.chars⟩⟩

theorem IsToken.not_mem {token : Text} (h : token.IsToken) {c : Char} (hc : isSpace c = true) :
    c ∉ token := by
  intro hmem
  rw [h.chars c hmem] at hc
  cases hc

/-! ## Cutting -/

@[simp] theorem tokens_nil : tokens [] = [] := rfl

theorem tokens_append_cons {c : Char} (hc : isSpace c = true) (s t : Text) :
    tokens (s ++ c :: t) = tokens s ++ tokens t := by
  rw [tokens, List.splitOnP_append_cons s t hc, List.filter_append]
  rfl

theorem tokens_spaces_append {blanks : Text} (h : ∀ c ∈ blanks, isSpace c = true) (s : Text) :
    tokens (blanks ++ s) = tokens s := by
  induction blanks with
  | nil => rfl
  | cons c blanks ih =>
      have hrest := ih fun d hd => h d (List.mem_cons_of_mem c hd)
      simpa [hrest] using tokens_append_cons (h c List.mem_cons_self) [] (blanks ++ s)

theorem tokens_of_spaces {blanks : Text} (h : ∀ c ∈ blanks, isSpace c = true) : tokens blanks = [] := by
  simpa using tokens_spaces_append h []

theorem IsBlank.tokens_append {blank : Text} (h : blank.IsBlank) (s t : Text) :
    tokens (s ++ (blank ++ t)) = tokens s ++ tokens t := by
  obtain ⟨c, blank, rfl⟩ := List.exists_cons_of_ne_nil h.nonempty
  rw [List.cons_append, tokens_append_cons (h.chars c List.mem_cons_self),
    tokens_spaces_append fun d hd => h.chars d (List.mem_cons_of_mem c hd)]

theorem IsToken.tokens_eq {token : Text} (h : token.IsToken) : tokens token = [token] := by
  rw [tokens, List.splitOnP_eq_singleton h.chars]
  simp [h.nonempty]

/-- A token ends at white space or with the text. -/
theorem IsToken.tokens_append {token rest : Text} (h : token.IsToken)
    (hrest : rest.head?.all isSpace = true) : tokens (token ++ rest) = token :: tokens rest := by
  cases rest with
  | nil => simp [h.tokens_eq]
  | cons c rest =>
      have hc : isSpace c = true := by simpa using hrest
      have hskip : tokens (c :: rest) = tokens rest := by simpa using tokens_append_cons hc [] rest
      rw [tokens_append_cons hc, h.tokens_eq, hskip, List.singleton_append]

/-! ## What was cut -/

theorem head?_dropWhile_not (s : Text) : (s.dropWhile (!isSpace ·)).head?.all isSpace = true := by
  have h := head?_dropWhile (!isSpace ·) s
  cases hs : (s.dropWhile (!isSpace ·)).head? with
  | none => rfl
  | some c => simpa [hs] using h

/-- A text is white space, or white space and then its first token. -/
theorem exists_first_token (s : Text) : (∀ c ∈ s, isSpace c = true) ∨
    ∃ blanks token rest : Text, (∀ c ∈ blanks, isSpace c = true) ∧ token.IsToken ∧
      rest.head?.all isSpace = true ∧ s = blanks ++ token ++ rest := by
  have hs : s = s.takeWhile isSpace ++ s.skipSpaces := List.takeWhile_append_dropWhile.symm
  have hblanks : ∀ c ∈ s.takeWhile isSpace, isSpace c = true := fun _ => List.mem_takeWhile_imp
  cases hskip : s.skipSpaces with
  | nil =>
      rw [hskip, List.append_nil] at hs
      exact .inl (hs ▸ hblanks)
  | cons c later =>
      have hc : isSpace c = false := by
        have hhead := head?_dropWhile isSpace s
        rw [skipSpaces] at hskip
        simpa [hskip] using hhead
      refine .inr ⟨s.takeWhile isSpace, (c :: later).takeWhile (!isSpace ·),
        (c :: later).dropWhile (!isSpace ·), hblanks, ⟨?_, ?_⟩, head?_dropWhile_not _, ?_⟩
      · simp [hc]
      · intro d hd
        simpa using List.mem_takeWhile_imp hd
      · rw [List.append_assoc, List.takeWhile_append_dropWhile, ← hskip, ← hs]

theorem tokens_eq_nil_iff {s : Text} : tokens s = [] ↔ ∀ c ∈ s, isSpace c = true := by
  refine ⟨fun h => ?_, tokens_of_spaces⟩
  rcases exists_first_token s with hspaces | ⟨blanks, token, rest, hblanks, htoken, hrest, rfl⟩
  · exact hspaces
  · rw [List.append_assoc, tokens_spaces_append hblanks, htoken.tokens_append hrest] at h
    cases h

/-- The first token, and the text in which the others are found. -/
theorem exists_of_tokens_eq_cons {s token : Text} {later : List Text} (h : tokens s = token :: later) :
    ∃ blanks rest : Text, (∀ c ∈ blanks, isSpace c = true) ∧ token.IsToken ∧
      rest.head?.all isSpace = true ∧ tokens rest = later ∧ s = blanks ++ token ++ rest := by
  rcases exists_first_token s with hspaces | ⟨blanks, first, rest, hblanks, hfirst, hrest, rfl⟩
  · rw [tokens_of_spaces hspaces] at h
    cases h
  · rw [List.append_assoc, tokens_spaces_append hblanks, hfirst.tokens_append hrest] at h
    obtain ⟨rfl, rfl⟩ := List.cons.inj h
    exact ⟨blanks, rest, hblanks, hfirst, hrest, rfl, rfl⟩

/-! ## Separators -/

theorem length_splitOn (a : Char) (s : Text) : (s.splitOn a).length = s.count a + 1 := by
  induction s with
  | nil => rfl
  | cons c s ih =>
      rw [List.splitOn_cons_eq_if_modifyHead, List.count_cons]
      split <;> simp [ih]

theorem count_intercalate (a : Char) {pieces : List Text} (h : pieces ≠ []) :
    ([a].intercalate pieces).count a + 1 = pieces.flatten.count a + pieces.length := by
  induction pieces with
  | nil => exact absurd rfl h
  | cons piece pieces ih =>
      cases pieces with
      | nil => simp [List.intercalate_singleton]
      | cons next pieces =>
          have hnext := ih (List.cons_ne_nil next pieces)
          simp only [List.intercalate_cons_cons, List.count_append, List.count_singleton_self,
            List.flatten_cons, List.length_cons] at hnext ⊢
          omega

/-- A text is cut at a separator into as many pieces as there is room for, and that fixes them. -/
theorem splitOn_eq_iff {a : Char} {s : Text} {pieces : List Text} :
    s.splitOn a = pieces ↔ s = [a].intercalate pieces ∧ pieces.length = s.count a + 1 := by
  constructor
  · intro h
    rw [← h]
    exact ⟨(List.intercalate_splitOn a).symm, length_splitOn a s⟩
  · intro h
    obtain ⟨hjoin, hlength⟩ := h
    have hne : pieces ≠ [] := by
      intro hnil
      simp [hnil] at hlength
    have hcount := count_intercalate a hne
    have hnone : pieces.flatten.count a = 0 := by
      rw [hjoin] at hlength
      omega
    rw [hjoin]
    refine List.splitOn_intercalate a ?_ hne
    intro piece hpiece hmem
    exact List.count_eq_zero.mp hnone (List.mem_flatten.mpr ⟨piece, hpiece, hmem⟩)

theorem not_mem_intercalate {c : Char} {separator : Text} {pieces : List Text} (hseparator : c ∉ separator)
    (h : ∀ piece ∈ pieces, c ∉ piece) : c ∉ separator.intercalate pieces := by
  induction pieces with
  | nil => simp
  | cons piece pieces ih =>
      have hpiece := h piece List.mem_cons_self
      have hpieces := ih fun other hother => h other (List.mem_cons_of_mem piece hother)
      cases pieces with
      | nil => simpa [List.intercalate_singleton] using hpiece
      | cons next pieces => simp [List.intercalate_cons_cons, hpiece, hseparator, hpieces]

/-- A comma and a blank between pieces are a comma between them and a blank before each but the
first. -/
theorem intercalate_comma (piece : Text) (pieces : List Text) :
    ", ".toList.intercalate (piece :: pieces) =
      [','].intercalate (piece :: pieces.map (' ' :: ·)) := by
  induction pieces generalizing piece with
  | nil => simp [List.intercalate_singleton]
  | cons next pieces ih =>
      have hnext : [','].intercalate ((' ' :: next) :: pieces.map (' ' :: ·)) =
          ' ' :: ", ".toList.intercalate (next :: pieces) := by
        rw [ih next]
        cases pieces <;> simp [List.intercalate_singleton, List.intercalate_cons_cons]
      rw [List.map_cons, List.intercalate_cons_cons, List.intercalate_cons_cons, hnext]
      simp

end Text

end Linewise
