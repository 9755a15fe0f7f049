import Linewise.Text.Rule

/-! Searching a text: every place where something can be read is a suffix of it. -/
namespace Linewise

namespace Text

variable {α : Type} {read : Text → Option α}

theorem leftmost?_eq_none_iff {s : Text} :
    leftmost? read s = none ↔ ∀ t, t <:+ s → read t = none := by
  induction s with
  | nil => simp [leftmost?]
  | cons c s ih =>
      cases h : read (c :: s) with
      | some a =>
          simp only [leftmost?, h, reduceCtorEq, false_iff]
          intro hnone
          have hhead := hnone (c :: s) List.suffix_rfl
          rw [h] at hhead
          cases hhead
      | none =>
          simp only [leftmost?, h, ih, List.suffix_cons_iff, or_imp, forall_and, forall_eq, true_and]

theorem leftmost?_of_some {s : Text} {a : α} (h : read s = some a) : leftmost? read s = some a := by
  cases s with
  | nil => exact h
  | cons c s => simp only [leftmost?, h]

theorem leftmost?_of_none {c : Char} {s : Text} (h : read (c :: s) = none) :
    leftmost? read (c :: s) = leftmost? read s := by
  simp only [leftmost?, h]

theorem leftmost?_eq_some_iff {s : Text} {a : α} :
    leftmost? read s = some a ↔ ∃ before rest, s = before ++ rest ∧ read rest = some a ∧
      ∀ earlier later, s = earlier ++ later → earlier.length < before.length → read later = none := by
  constructor
  · intro h
    induction s with
    | nil => exact ⟨[], [], rfl, h, by simp⟩
    | cons c s ih =>
        cases hhead : read (c :: s) with
        | some b =>
            rw [leftmost?_of_some hhead] at h
            exact ⟨[], c :: s, rfl, hhead.trans h, by simp⟩
        | none =>
            rw [leftmost?_of_none hhead] at h
            obtain ⟨before, rest, rfl, hread, hfirst⟩ := ih h
            refine ⟨c :: before, rest, rfl, hread, ?_⟩
            intro earlier later hs hlength
            cases earlier with
            | nil => rwa [← hs.trans (List.nil_append later)]
            | cons d earlier =>
                exact hfirst earlier later (List.cons.inj hs).2 (Nat.lt_of_succ_lt_succ hlength)
  · rintro ⟨before, rest, rfl, hread, hfirst⟩
    induction before with
    | nil => exact leftmost?_of_some hread
    | cons c before ih =>
        have hhead : read (c :: (before ++ rest)) = none := hfirst [] _ rfl (Nat.succ_pos _)
        rw [List.cons_append, leftmost?_of_none hhead]
        apply ih
        intro earlier later hs hlength
        exact hfirst (c :: earlier) later (by rw [List.cons_append, List.cons_append, hs])
          (Nat.succ_lt_succ hlength)

theorem exists_of_leftmost? {s : Text} {a : α} (h : leftmost? read s = some a) :
    ∃ t, t <:+ s ∧ read t = some a := by
  obtain ⟨before, rest, rfl, hread, -⟩ := leftmost?_eq_some_iff.mp h
  exact ⟨rest, List.suffix_append before rest, hread⟩

theorem after?_append (lead rest : Text) : (lead ++ rest).after? lead = some rest :=
  after?_eq_some_iff.mpr rfl

theorem suffix_of_after? {s lead rest : Text} (h : s.after? lead = some rest) : rest <:+ s :=
  ⟨lead, (after?_eq_some_iff.mp h).symm⟩

theorem exists_of_stretch? {next : Text → Option α} {s stretch : Text} {a : α}
    (h : stretch? next s = some (stretch, a)) : ∃ rest, s = stretch ++ rest ∧ next rest = some a := by
  induction s generalizing stretch with
  | nil => cases h
  | cons c s ih =>
      rw [stretch?] at h
      split at h
      · cases h
      · split at h
        · rename_i longer b hlonger
          obtain ⟨rfl, rfl⟩ := Prod.mk.inj (Option.some.inj h)
          obtain ⟨rest, rfl, hnext⟩ := ih hlonger
          exact ⟨rest, rfl, hnext⟩
        · obtain ⟨b, hb, h⟩ := Option.map_eq_some_iff.mp h
          obtain ⟨rfl, rfl⟩ := Prod.mk.inj h
          exact ⟨s, rfl, hb⟩

end Text

namespace Rule

theorem applyAll_eq_self {rule : Rule} {s : Text} (h : ∀ t, t <:+ s → rule t = none) :
    rule.applyAll s = s := by
  induction s with
  | nil => rfl
  | cons c s ih =>
      rw [applyAll_of_none (h _ List.suffix_rfl)]
      rw [ih fun t ht => h t (ht.trans (List.suffix_cons c s))]

/-- Rules that one by one leave a line alone do so in a row. -/
theorem foldl_applyAll_eq_self {rules : List Rule} {line : Text}
    (h : ∀ rule ∈ rules, rule.applyAll line = line) :
    rules.foldl (fun line rule => rule.applyAll line) line = line := by
  refine List.foldlRecOn (motive := fun written => written = line) rules _ rfl ?_
  intro written hwritten rule hrule
  rw [hwritten, h rule hrule]

/-- Induction along a replacement: a character is kept, or a construct is replaced and the replacement
goes on behind it. -/
theorem applyAll_induction {rule : Rule} {motive : Text → Text → Prop}
    (hrule : ∀ c s written rest, rule (c :: s) = some (written, rest) → rest <:+ s)
    (nil : motive [] [])
    (keep : ∀ c s, rule (c :: s) = none → motive s (rule.applyAll s) →
      motive (c :: s) (c :: rule.applyAll s))
    (replace : ∀ c s written rest, rule (c :: s) = some (written, rest) →
      motive rest (rule.applyAll rest) → motive (c :: s) (written ++ rule.applyAll rest))
    (s : Text) : motive s (rule.applyAll s) := by
  induction hlength : s.length using Nat.strongRecOn generalizing s with
  | ind n ih =>
      cases s with
      | nil => exact nil
      | cons c s =>
          rw [List.length_cons] at hlength
          cases h : rule (c :: s) with
          | none =>
              rw [applyAll_of_none h]
              exact keep c s h (ih s.length (by omega) s rfl)
          | some found =>
              obtain ⟨written, rest⟩ := found
              have hrest := hrule c s written rest h
              have hle := hrest.length_le
              rw [applyAll_of_some h hrest]
              exact replace c s written rest h (ih rest.length (by omega) rest rfl)

/-- Whether every construct that the rule reads begins with `lead`. -/
def BeginsWith (rule : Rule) (lead : Text) : Prop :=
  ∀ s : Text, s.after? lead = none → rule s = none

theorem beginsWith_after? (lead : Text) (next : Rule) :
    BeginsWith (fun s => s.after? lead >>= next) lead := by
  intro s h
  dsimp only
  rw [h]
  rfl

end Rule

end Linewise
