import Linewise.Proofs.Text.Marks
import Mathlib.Algebra.Ring.Nat

/-!
The weight of a text. Characters that conversions take away weigh most. Besides, a character can weigh
by the one before it: white space after a word, which headers and declarations need, and the `=` of a
short declaration. Main statement: a rule that writes less weight than it reads makes every text lighter
in which it reads anything.
-/
namespace Linewise

/-- What a character weighs wherever it stands. -/
def charWeight (c : Char) : Nat :=
  if isMark c || c == '#' || c == '\r' then 8 else if c == '\n' then 2 else 0

/-- What a character weighs because of the one before it. The keyword of a header ends with `c`, and
white space after it counts twice, since a definition line keeps one blank after a word. -/
def pairWeight (before c : Char) : Nat :=
  if before == ':' && c == '=' then 2
  else if isWord before && isSpace c && c != '\n' then if before == 'c' then 2 else 1
  else 0

/-- Whether a character weighs nothing and adds no weight to the one after it. -/
def isNeutral (c : Char) : Bool :=
  charWeight c == 0 && !isSpace c && c != '=' && !isWord c && c != ':'

theorem charWeight_of_isWord {c : Char} (h : isWord c = true) : charWeight c = 0 := by
  have hmark := isMark_of_isWord h
  have hother : c ≠ '#' ∧ c ≠ '\r' ∧ c ≠ '\n' := by
    refine ⟨?_, ?_, ?_⟩ <;> (rintro rfl; cases h)
  simp [charWeight, hmark, hother]

theorem charWeight_le (c : Char) : charWeight c ≤ 8 := by
  unfold charWeight
  split
  · exact Nat.le_refl 8
  · split <;> omega

theorem pairWeight_le (before c : Char) : pairWeight before c ≤ 2 := by
  unfold pairWeight
  split
  · exact Nat.le_refl 2
  · split
    · split <;> omega
    · omega

theorem pairWeight_of_inert {before : Char} (hword : isWord before = false) (hcolon : before ≠ ':')
    (c : Char) : pairWeight before c = 0 := by
  simp [pairWeight, hword, hcolon]

theorem pairWeight_of_dense (before : Char) {c : Char} (hspace : isSpace c = false) (heq : c ≠ '=') :
    pairWeight before c = 0 := by
  simp [pairWeight, hspace, heq]

theorem one_le_pairWeight {before : Char} (h : isWord before = true) : 1 ≤ pairWeight before ' ' := by
  have hblank : (isWord before && isSpace ' ' && ' ' != '\n') = true := by
    rw [h]
    rfl
  rw [pairWeight, if_pos hblank]
  split
  · exact Nat.le_succ 1
  · split <;> omega

namespace Text

/-- The weight of a text that stands after the character `before`. -/
def weightAfter : Char → Text → Nat
  | _, [] => 0
  | before, c :: s => charWeight c + pairWeight before c + weightAfter c s

/-- The weight of a text at the beginning of a line. -/
def weight (s : Text) : Nat :=
  weightAfter '\n' s

theorem weightAfter_le_length (before : Char) (s : Text) : s.weightAfter before ≤ 10 * s.length := by
  induction s generalizing before with
  | nil => exact Nat.le_refl 0
  | cons c s ih =>
      have hchar := charWeight_le c
      have hpair := pairWeight_le before c
      have hrest := ih c
      rw [weightAfter, List.length_cons]
      omega

/-! ## Pieces of a text -/

@[simp] theorem weight_nil : weight [] = 0 := rfl

theorem weightAfter_append (before : Char) (s t : Text) :
    weightAfter before (s ++ t) = weightAfter before s + weightAfter (s.getLastD before) t := by
  induction s generalizing before with
  | nil => simp [weightAfter]
  | cons c s ih =>
      rw [List.cons_append, weightAfter, weightAfter, ih, List.getLastD_cons]
      omega

theorem weight_le_weightAfter (before : Char) (s : Text) : s.weight ≤ s.weightAfter before := by
  cases s with
  | nil => exact Nat.le_refl 0
  | cons c s =>
      have hstart : pairWeight '\n' c = 0 := pairWeight_of_inert rfl (by decide) c
      simp only [weight, weightAfter, hstart]
      omega

theorem weightAfter_le (before : Char) (s : Text) : s.weightAfter before ≤ s.weight + 2 := by
  cases s with
  | nil => exact Nat.zero_le _
  | cons c s =>
      have hpair := pairWeight_le before c
      simp only [weight, weightAfter]
      omega

theorem weightAfter_of_inert {before : Char} (hword : isWord before = false) (hcolon : before ≠ ':')
    (s : Text) : s.weightAfter before = s.weight := by
  cases s with
  | nil => rfl
  | cons c s =>
      have hstart : pairWeight '\n' c = 0 := pairWeight_of_inert rfl (by decide) c
      simp only [weight, weightAfter, hstart, pairWeight_of_inert hword hcolon]

theorem weightAfter_of_isWord (before : Char) {w : Text} (h : ∀ c ∈ w, isWord c = true) :
    w.weightAfter before = 0 := by
  induction w generalizing before with
  | nil => rfl
  | cons c w ih =>
      have hc := h c List.mem_cons_self
      have heq : c ≠ '=' := by
        rintro rfl
        cases hc
      simp only [weightAfter, charWeight_of_isWord hc, pairWeight_of_dense before (isSpace_of_isWord hc) heq,
        ih c fun d hd => h d (List.mem_cons_of_mem c hd)]

theorem weight_append_le (s t : Text) : s.weight + t.weight ≤ (s ++ t).weight := by
  have hrest := weight_le_weightAfter (s.getLastD '\n') t
  simp only [weight, weightAfter_append] at hrest ⊢
  exact Nat.add_le_add_left hrest _

theorem weight_le_of_isInfix {part s : Text} (h : part <:+: s) : part.weight ≤ s.weight := by
  obtain ⟨before, after, rfl⟩ := h
  have hfront := weight_append_le before part
  have hback := weight_append_le (before ++ part) after
  omega

theorem weightAfter_cons_of_dense (before : Char) {c : Char} (s : Text) (hweight : charWeight c = 0)
    (hspace : isSpace c = false) (heq : c ≠ '=') : weightAfter before (c :: s) = s.weightAfter c := by
  rw [weightAfter, hweight, pairWeight_of_dense before hspace heq, Nat.add_zero, Nat.zero_add]

@[simp] theorem weight_blank (s : Text) : weight (' ' :: s) = s.weight := by
  have hrest : s.weightAfter ' ' = s.weight := weightAfter_of_inert rfl (by decide) s
  have hblank : charWeight ' ' + pairWeight '\n' ' ' = 0 := rfl
  rw [weight, weightAfter, hblank, hrest, Nat.zero_add]

/-- What follows punctuation weighs as much as it does at the beginning of a line. -/
theorem weightAfter_append_cons (before : Char) (s : Text) (c : Char) (t : Text)
    (hc : isNeutral c = true) : weightAfter before (s ++ c :: t) = s.weightAfter before + t.weight := by
  simp only [isNeutral, Bool.and_eq_true, beq_iff_eq, Bool.not_eq_true', bne_iff_ne] at hc
  obtain ⟨⟨⟨⟨hweight, hspace⟩, heq⟩, hword⟩, hcolon⟩ := hc
  rw [weightAfter_append, weightAfter_cons_of_dense _ t hweight hspace heq,
    weightAfter_of_inert hword hcolon]

theorem weightAfter_append_colon (before : Char) (s t : Text) :
    weightAfter before (s ++ ':' :: ' ' :: t) = s.weightAfter before + t.weight := by
  have hblank : charWeight ' ' + pairWeight ':' ' ' = 0 := rfl
  have hrest : t.weightAfter ' ' = t.weight := weightAfter_of_inert rfl (by decide) t
  rw [weightAfter_append, weightAfter_cons_of_dense _ _ rfl rfl (by decide), weightAfter, hblank, hrest,
    Nat.zero_add]

/-- What follows a phrase between blanks or brackets weighs as much as it does at the beginning of a
line, and the phrase itself weighs by the text before it only in its first blank. -/
theorem weightAfter_phrase (before : Char) (s phrase t : Text)
    (hword : isWord (phrase.getLastD ' ') = false) (hcolon : phrase.getLastD ' ' ≠ ':') :
    weightAfter before (s ++ ' ' :: (phrase ++ t)) =
      s.weightAfter before + pairWeight (s.getLastD before) ' ' + phrase.weight + t.weight := by
  have hblank : charWeight ' ' = 0 := rfl
  have hphrase : phrase.weightAfter ' ' = phrase.weight := weightAfter_of_inert rfl (by decide) phrase
  rw [weightAfter_append, weightAfter, weightAfter_append, hblank, hphrase,
    weightAfter_of_inert hword hcolon]
  omega

theorem IsWord.getLastD_append {w : Text} (h : w.IsWord) (s : Text) (before : Char) :
    isWord ((s ++ w).getLastD before) = true := by
  obtain ⟨hne, hchars⟩ := h
  rw [List.getLastD_eq_getLast?, List.getLast?_append_of_ne_nil s hne,
    List.getLast?_eq_some_getLast hne]
  exact hchars _ (List.getLast_mem hne)

/-- The pieces of a text weigh no more than the text, even if the first one follows `before`. -/
theorem weight_splitOnP_le (p : Char → Bool) (before : Char) (s : Text) {first : Text}
    {pieces : List Text} (h : s.splitOnP p = first :: pieces) :
    first.weightAfter before + (pieces.map weight).sum ≤ s.weightAfter before := by
  induction s generalizing before first pieces with
  | nil =>
      obtain ⟨rfl, rfl⟩ := List.cons.inj (List.splitOnP_nil.symm.trans h)
      exact Nat.le_refl 0
  | cons c s ih =>
      obtain ⟨next, later, hs⟩ := List.exists_cons_of_ne_nil (List.splitOnP_ne_nil p s)
      rw [List.splitOnP_cons_eq_if_modifyHead, hs] at h
      rw [weightAfter]
      split at h
      · obtain ⟨rfl, rfl⟩ := List.cons.inj h
        have hlater : weight next + (later.map weight).sum ≤ weight s := ih '\n' hs
        have hrest := weight_le_weightAfter c s
        simp only [weightAfter, List.map_cons, List.sum_cons]
        omega
      · obtain ⟨rfl, rfl⟩ := List.cons.inj h
        have hlater := ih c hs
        rw [weightAfter]
        omega

theorem weight_pieces_le (p : Char → Bool) (s : Text) : ((s.splitOnP p).map weight).sum ≤ s.weight := by
  obtain ⟨first, pieces, h⟩ := List.exists_cons_of_ne_nil (List.splitOnP_ne_nil p s)
  rw [h]
  exact weight_splitOnP_le p '\n' s h

/-! ## Lighter texts -/

/-- Whether `t` is `s` itself or lighter, whatever stands before it. -/
def SameOrLighter (t s : Text) : Prop :=
  t = s ∨ ∀ before, t.weightAfter before < s.weightAfter before

namespace SameOrLighter

variable {s t u : Text}

theorem refl (s : Text) : SameOrLighter s s := .inl rfl

theorem weightAfter_le (h : SameOrLighter t s) (before : Char) :
    t.weightAfter before ≤ s.weightAfter before := by
  rcases h with rfl | h
  · exact Nat.le_refl _
  · exact Nat.le_of_lt (h before)

theorem trans (h : SameOrLighter u t) (ht : SameOrLighter t s) : SameOrLighter u s := by
  rcases h with rfl | h
  · exact ht
  · exact .inr fun before => Nat.lt_of_lt_of_le (h before) (ht.weightAfter_le before)

theorem cons (c : Char) (h : SameOrLighter t s) : SameOrLighter (c :: t) (c :: s) := by
  rcases h with rfl | h
  · exact refl _
  · exact .inr fun before => Nat.add_lt_add_left (h c) _

/-- Weight that is lost on the way does not come back. -/
theorem eq_of_eq (h : SameOrLighter u t) (ht : SameOrLighter t s) (heq : u = s) : t = s := by
  rcases ht with rfl | ht
  · rfl
  · have hle := h.weightAfter_le '\n'
    have hlt := ht '\n'
    rw [heq] at hle
    omega

end SameOrLighter

end Text

/-! ## Rules -/

namespace Rule

/-- Whether the rule writes less weight than it reads, whatever stands around it. -/
def Lightens (rule : Rule) : Prop :=
  ∀ s written rest, rule s = some (written, rest) → ∃ read, read ≠ [] ∧ s = read ++ rest ∧
    ∀ before after, Text.weightAfter before (written ++ after) < Text.weightAfter before (read ++ after)

/-- Either the rule reads nothing in the text, or the text becomes lighter. -/
theorem Lightens.applyAll {rule : Rule} (hrule : rule.Lightens) (s : Text) :
    (∀ t, t <:+ s → rule t = none) ∧ rule.applyAll s = s ∨
      ∀ before, (rule.applyAll s).weightAfter before < s.weightAfter before := by
  refine applyAll_induction (motive := fun s t => (∀ u, u <:+ s → rule u = none) ∧ t = s ∨
    ∀ before, t.weightAfter before < s.weightAfter before) ?_ ?_ ?_ ?_ s
  · intro c s written rest h
    obtain ⟨read, hne, hs, -⟩ := hrule _ _ _ h
    obtain ⟨d, read, rfl⟩ := List.exists_cons_of_ne_nil hne
    exact ⟨read, (List.cons.inj hs).2.symm⟩
  · refine .inl ⟨?_, rfl⟩
    intro u hu
    rw [List.suffix_nil.mp hu, Option.eq_none_iff_forall_ne_some]
    rintro ⟨written, rest⟩ h
    obtain ⟨read, hne, hs, -⟩ := hrule _ _ _ h
    exact hne (List.append_eq_nil_iff.mp hs.symm).1
  · rintro c s hnone (⟨hlater, heq⟩ | hlighter)
    · refine .inl ⟨?_, by rw [heq]⟩
      intro u hu
      rcases List.suffix_cons_iff.mp hu with rfl | hu
      · exact hnone
      · exact hlater u hu
    · exact .inr fun before => Nat.add_lt_add_left (hlighter c) _
  · intro c s written rest h hlater
    obtain ⟨read, -, hs, hlighter⟩ := hrule _ _ _ h
    have hrest (before : Char) : (rule.applyAll rest).weightAfter before ≤ rest.weightAfter before := by
      rcases hlater with ⟨-, heq⟩ | hlater
      · rw [heq]
      · exact Nat.le_of_lt (hlater before)
    refine .inr fun before => ?_
    rw [hs]
    calc Text.weightAfter before (written ++ rule.applyAll rest)
        < Text.weightAfter before (read ++ rule.applyAll rest) := hlighter before _
      _ ≤ Text.weightAfter before (read ++ rest) := by
          rw [Text.weightAfter_append, Text.weightAfter_append]
          exact Nat.add_le_add_left (hrest _) _

theorem Lightens.sameOrLighter {rule : Rule} (hrule : rule.Lightens) (s : Text) :
    Text.SameOrLighter (rule.applyAll s) s :=
  (hrule.applyAll s).imp_left And.right

/-- A text in which such a rule reads anything is changed by it. -/
theorem Lightens.applyAll_eq_self_iff {rule : Rule} (hrule : rule.Lightens) {s : Text} :
    rule.applyAll s = s ↔ ∀ t, t <:+ s → rule t = none := by
  constructor
  · intro heq
    rcases hrule.applyAll s with ⟨hnone, -⟩ | hlighter
    · exact hnone
    · have hlt := hlighter '\n'
      rw [heq] at hlt
      omega
  · exact applyAll_eq_self

end Rule

end Linewise
