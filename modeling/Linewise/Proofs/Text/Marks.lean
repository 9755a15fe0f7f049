import Linewise.Proofs.Text.Search
import Linewise.Proofs.Text.Words
import Mathlib.Data.List.Infix

/-!
Marks: slashes, which comment markers are made of, and braces. A text that is put together from pieces
of another one, with something that is no mark between the pieces, brings no marks together. Main
statement: a rule that writes such texts brings none together wherever it is applied.
-/
namespace Linewise

def isMark (c : Char) : Bool :=
  c == '/' || c == '{' || c == '}'

theorem isMark_of_isWord {c : Char} (h : isWord c = true) : isMark c = false := by
  cases hc : isMark c with
  | false => rfl
  | true =>
      have hcases : (c = '/' ∨ c = '{') ∨ c = '}' := by simpa [isMark] using hc
      rcases hcases with (rfl | rfl) | rfl <;> cases h

namespace Text

/-- A text made of marks only. -/
def IsRun (run : Text) : Prop :=
  ∀ c ∈ run, isMark c = true

/-- A text without marks. -/
def IsPlain (s : Text) : Prop :=
  ∀ c ∈ s, isMark c = false

/-- A text that keeps marks apart when it stands between them. -/
def Divides (s : Text) : Prop :=
  s ≠ [] ∧ s.IsPlain

instance : DecidablePred Divides := fun s =>
  decidable_of_iff (s.isEmpty = false ∧ s.all (fun c => !isMark c) = true) (by simp [Divides, IsPlain])

/-- Every run of marks in the text stands in `origin` as well. -/
def MarksFrom (s origin : Text) : Prop :=
  ∀ run : Text, run.IsRun → run <:+: s → run <:+: origin

/-! ## Ends of a text -/

theorem IsRun.eq_nil_of_isPrefix {run s : Text} (hrun : run.IsRun) (h : run <+: s)
    (hs : s.head?.any isMark = false) : run = [] := by
  cases run with
  | nil => rfl
  | cons c run =>
      obtain ⟨rest, rfl⟩ := h
      rw [List.cons_append, List.head?_cons, Option.any_some, hrun c List.mem_cons_self] at hs
      cases hs

theorem IsRun.eq_nil_of_isSuffix {run s : Text} (hrun : run.IsRun) (h : run <:+ s)
    (hs : s.getLast?.any isMark = false) : run = [] := by
  refine List.reverse_eq_nil_iff.mp (IsRun.eq_nil_of_isPrefix ?_ (List.reverse_prefix.mpr h) ?_)
  · intro c hc
    exact hrun c (List.mem_reverse.mp hc)
  · rwa [List.head?_reverse]

theorem IsPlain.head? {s : Text} (h : s.IsPlain) : s.head?.any isMark = false := by
  cases s with
  | nil => rfl
  | cons c s => exact h c List.mem_cons_self

theorem Divides.getLast?_append {s : Text} (h : s.Divides) (before : Text) :
    (before ++ s).getLast?.any isMark = false := by
  obtain ⟨hne, hplain⟩ := h
  rw [List.getLast?_append_of_ne_nil _ hne, List.getLast?_eq_some_getLast hne]
  exact hplain _ (List.getLast_mem hne)

theorem IsWord.divides {w : Text} (h : w.IsWord) : w.Divides :=
  ⟨h.nonempty, fun c hc => isMark_of_isWord (h.chars c hc)⟩

/-! ## Where marks come from -/

namespace MarksFrom

variable {s t origin : Text}

theorem of_isInfix (h : s <:+: origin) : MarksFrom s origin :=
  fun _ _ hrun => hrun.trans h

theorem trans (h : MarksFrom s t) (ht : MarksFrom t origin) : MarksFrom s origin :=
  fun run hrun hs => ht run hrun (h run hrun hs)

theorem of_isPlain (h : s.IsPlain) : MarksFrom s origin := by
  intro run hrun hs
  cases run with
  | nil => exact List.nil_infix
  | cons c run =>
      have hmark := hrun c List.mem_cons_self
      rw [h c (hs.subset List.mem_cons_self)] at hmark
      cases hmark

theorem of_isWord (h : s.IsWord) : MarksFrom s origin :=
  of_isPlain h.divides.2

theorem append (hs : MarksFrom s origin) (ht : MarksFrom t origin)
    (h : s.getLast?.any isMark = false ∨ t.head?.any isMark = false) : MarksFrom (s ++ t) origin := by
  intro run hrun hpart
  rcases List.infix_append_iff.mp hpart with hleft | hright | ⟨left, right, rfl, hleft, hright⟩
  · exact hs run hrun hleft
  · exact ht run hrun hright
  · -- The run would stand across the seam, but one side of it is no mark.
    have hl : IsRun left := fun c hc => hrun c (List.mem_append_left right hc)
    have hr : IsRun right := fun c hc => hrun c (List.mem_append_right left hc)
    rcases h with h | h
    · obtain rfl := hl.eq_nil_of_isSuffix hleft h
      exact ht right hr hright.isInfix
    · obtain rfl := hr.eq_nil_of_isPrefix hright h
      rw [List.append_nil]
      exact hs left hl hleft.isInfix

theorem divider_append (hs : s.Divides) (ht : MarksFrom t origin) : MarksFrom (s ++ t) origin :=
  (of_isPlain hs.2).append ht (.inl (hs.getLast?_append []))

theorem append_divider (hs : MarksFrom s origin) (ht : t.Divides) : MarksFrom (s ++ t) origin :=
  hs.append (of_isPlain ht.2) (.inr ht.2.head?)

theorem join (hs : MarksFrom s origin) (divider : Text) (h : divider.Divides)
    (ht : MarksFrom t origin) : MarksFrom (s ++ divider ++ t) origin :=
  (hs.append_divider h).append ht (.inl (h.getLast?_append s))

theorem intercalate (divider : Text) (hdivider : divider.Divides) {pieces : List Text}
    (h : ∀ piece ∈ pieces, MarksFrom piece origin) :
    MarksFrom (divider.intercalate pieces) origin := by
  induction pieces with
  | nil => exact of_isInfix List.nil_infix
  | cons piece pieces ih =>
      have hpiece := h piece List.mem_cons_self
      have hpieces := ih fun other hother => h other (List.mem_cons_of_mem piece hother)
      cases pieces with
      | nil =>
          rw [List.intercalate_singleton]
          exact hpiece
      | cons next pieces =>
          rw [List.intercalate_cons_cons]
          exact hpiece.join divider hdivider hpieces

end MarksFrom

end Text

/-! ## Rules -/

namespace Rule

/-- What a rule makes of the head of `s`: it reads something, and writes a text that keeps its marks
apart from what stands before and after. -/
structure KeepsApart (s written rest : Text) : Prop where
  reads : ∃ read, read ≠ [] ∧ s = read ++ rest
  marks : written.MarksFrom s
  opens : ∃ c tail, written = c :: tail ∧ isMark c = false
  closes : written.getLast?.any isMark = false ∨ rest.head?.any isMark = false

def KeepsMarksApart (rule : Rule) : Prop :=
  ∀ s written rest, rule s = some (written, rest) → KeepsApart s written rest

theorem KeepsApart.suffix {c : Char} {s written rest : Text} (h : KeepsApart (c :: s) written rest) :
    rest <:+ s := by
  obtain ⟨read, hne, hs⟩ := h.reads
  obtain ⟨d, read, rfl⟩ := List.exists_cons_of_ne_nil hne
  exact ⟨read, (List.cons.inj hs).2.symm⟩

theorem head?_of_runs {s t : Text} (h : ∀ run : Text, run.IsRun → run <+: t → run <+: s)
    (hs : s.head?.any isMark = false) : t.head?.any isMark = false := by
  cases t with
  | nil => rfl
  | cons c t =>
      cases hc : isMark c with
      | false => simpa using hc
      | true =>
          have hrun : Text.IsRun [c] := by simpa [Text.IsRun] using hc
          have hnil := hrun.eq_nil_of_isPrefix (h [c] hrun ⟨t, rfl⟩) hs
          cases hnil

/-- Runs of marks at the head stay there, and those further on come from the text too. -/
theorem KeepsMarksApart.applyAll {rule : Rule} (hrule : rule.KeepsMarksApart) (s : Text) :
    (∀ run : Text, run.IsRun → run <+: rule.applyAll s → run <+: s) ∧
      (rule.applyAll s).MarksFrom s := by
  refine applyAll_induction (motive := fun s t =>
    (∀ run : Text, run.IsRun → run <+: t → run <+: s) ∧ t.MarksFrom s) ?_ ?_ ?_ ?_ s
  · intro c s written rest h
    exact (hrule _ _ _ h).suffix
  · exact ⟨fun _ _ h => h, Text.MarksFrom.of_isInfix List.infix_rfl⟩
  · rintro c s - ⟨hhead, hmarks⟩
    have hstart (run : Text) (hrun : run.IsRun) (h : run <+: c :: rule.applyAll s) :
        run <+: c :: s := by
      cases run with
      | nil => exact List.nil_prefix
      | cons d run =>
          obtain ⟨rfl, hrest⟩ := List.cons_prefix_cons.mp h
          have hrun : Text.IsRun run := fun e he => hrun e (List.mem_cons_of_mem _ he)
          exact List.cons_prefix_cons.mpr ⟨rfl, hhead run hrun hrest⟩
    refine ⟨hstart, ?_⟩
    intro run hrun h
    rcases List.infix_cons_iff.mp h with h | h
    · exact (hstart run hrun h).isInfix
    · exact List.infix_cons (hmarks run hrun h)
  · rintro c s written rest h ⟨hhead, hmarks⟩
    have hapart := hrule _ _ _ h
    obtain ⟨d, tail, rfl, hd⟩ := hapart.opens
    have hrest : (rule.applyAll rest).MarksFrom (c :: s) :=
      hmarks.trans (.of_isInfix (hapart.suffix.trans (List.suffix_cons c s)).isInfix)
    refine ⟨?_, hapart.marks.append hrest ?_⟩
    · intro run hrun h
      rw [hrun.eq_nil_of_isPrefix h (by simpa using hd)]
      exact List.nil_prefix
    · rcases hapart.closes with h | h
      · exact .inl h
      · exact .inr (head?_of_runs hhead h)

end Rule

end Linewise
