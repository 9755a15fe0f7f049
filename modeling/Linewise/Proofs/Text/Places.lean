import Linewise.Proofs.Text.Search
import Mathlib.Data.List.Basic

/-!
Places of a text, each of them a cut into what stands before it and what follows. Main statements: what
holds at some place holds at a first one, a stretch is read up to the last place where its end can be
read, and a rule keeps what stands before the first place where it reads something.
-/
namespace Linewise

namespace Text

/-- The first place of a text at which `P` holds. -/
structure IsFirst (P : Text → Text → Prop) (before rest : Text) : Prop where
  holds : P before rest
  least : ∀ earlier later, before ++ rest = earlier ++ later → P earlier later →
    before.length ≤ earlier.length

theorem exists_isFirst (P : Text → Text → Prop) (before rest : Text) (h : P before rest) :
    ∃ first later, before ++ rest = first ++ later ∧ IsFirst P first later := by
  induction hlength : before.length using Nat.strongRecOn generalizing before rest with
  | ind n ih =>
      by_cases hshorter : ∃ earlier later, before ++ rest = earlier ++ later ∧ P earlier later ∧
          earlier.length < before.length
      · obtain ⟨earlier, later, hsplit, hearlier, hlt⟩ := hshorter
        obtain ⟨first, found, hfound, hfirst⟩ := ih earlier.length (hlength ▸ hlt) earlier later hearlier rfl
        exact ⟨first, found, hsplit.trans hfound, hfirst⟩
      · refine ⟨before, rest, rfl, h, ?_⟩
        intro earlier later hsplit hearlier
        by_contra hlt
        exact hshorter ⟨earlier, later, hsplit, hearlier, Nat.lt_of_not_le hlt⟩

/-! ## The longest stretch -/

variable {α : Type} {next : Text → Option α}

theorem length_le_of_ne_nil {s : Text} {n : Nat} (h : s ≠ [] → s.length ≤ n) : s.length ≤ n := by
  cases s with
  | nil => exact Nat.zero_le n
  | cons c s => exact h (List.cons_ne_nil c s)

theorem stretch?_cons_of_some {c : Char} {s stretch : Text} {a : α} (hc : c ≠ '\n')
    (h : stretch? next s = some (stretch, a)) : stretch? next (c :: s) = some (c :: stretch, a) := by
  simp [stretch?, hc, h]

theorem stretch?_cons_of_none {c : Char} {s : Text} (hc : c ≠ '\n') (h : stretch? next s = none) :
    stretch? next (c :: s) = (next s).map fun a => ([c], a) := by
  simp [stretch?, hc, h]

theorem line_of_stretch? {s stretch : Text} {a : α} (h : stretch? next s = some (stretch, a)) :
    stretch ≠ [] ∧ '\n' ∉ stretch := by
  induction s generalizing stretch with
  | nil => cases h
  | cons c s ih =>
      by_cases hc : c = '\n'
      · simp [stretch?, hc] at h
      · cases hlonger : stretch? next s with
        | some found =>
            obtain ⟨longer, b⟩ := found
            rw [stretch?_cons_of_some hc hlonger] at h
            cases h
            simp [Ne.symm hc, (ih hlonger).2]
        | none =>
            rw [stretch?_cons_of_none hc hlonger] at h
            obtain ⟨b, -, h⟩ := Option.map_eq_some_iff.mp h
            cases h
            simp [Ne.symm hc]

/-- A stretch is read wherever its end can be, and goes at least as far. -/
theorem exists_stretch? {longer later : Text} {a : α} (hne : longer ≠ []) (hline : '\n' ∉ longer)
    (h : next later = some a) :
    ∃ stretch b, stretch? next (longer ++ later) = some (stretch, b) ∧
      longer.length ≤ stretch.length := by
  induction longer with
  | nil => exact absurd rfl hne
  | cons c longer ih =>
      have hc : c ≠ '\n' := (List.ne_of_not_mem_cons hline).symm
      rw [List.cons_append]
      cases hlonger : stretch? next (longer ++ later) with
      | some found =>
          obtain ⟨stretch, b⟩ := found
          refine ⟨_, _, stretch?_cons_of_some hc hlonger, Nat.succ_le_succ (length_le_of_ne_nil ?_)⟩
          intro hnil
          obtain ⟨_, _, hread, hle⟩ := ih hnil (List.not_mem_of_not_mem_cons hline)
          rw [hlonger] at hread
          cases hread
          exact hle
      | none =>
          have hnil : longer = [] := by
            by_contra hnil
            obtain ⟨_, _, hread, -⟩ := ih hnil (List.not_mem_of_not_mem_cons hline)
            rw [hlonger] at hread
            cases hread
          rw [hnil, List.nil_append] at hlonger ⊢
          exact ⟨[c], a, by rw [stretch?_cons_of_none hc hlonger, h]; rfl, Nat.le_refl _⟩

/-- A stretch ends at the last place of the line at which `next` reads something. -/
theorem stretch?_eq_some_iff {s stretch : Text} {a : α} :
    stretch? next s = some (stretch, a) ↔ stretch ≠ [] ∧ '\n' ∉ stretch ∧
      ∃ rest, s = stretch ++ rest ∧ next rest = some a ∧
        ∀ longer later b, s = longer ++ later → '\n' ∉ longer → next later = some b →
          longer.length ≤ stretch.length := by
  constructor
  · intro h
    obtain ⟨hne, hline⟩ := line_of_stretch? h
    obtain ⟨rest, hs, hnext⟩ := exists_of_stretch? h
    refine ⟨hne, hline, rest, hs, hnext, ?_⟩
    intro longer later b hlonger hlongerLine hlater
    refine length_le_of_ne_nil fun hnil => ?_
    obtain ⟨_, _, hread, hle⟩ := exists_stretch? hnil hlongerLine hlater
    rw [← hlonger, h] at hread
    cases hread
    exact hle
  · rintro ⟨hne, hline, rest, rfl, hnext, hlast⟩
    obtain ⟨found, b, hread, hle⟩ := exists_stretch? hne hline hnext
    obtain ⟨later, hsplit, hlater⟩ := exists_of_stretch? hread
    have hfound := hlast found later b hsplit (line_of_stretch? hread).2 hlater
    obtain ⟨rfl, rfl⟩ := List.append_inj hsplit (Nat.le_antisymm hle hfound)
    obtain rfl : a = b := Option.some.inj (hnext.symm.trans hlater)
    exact hread

end Text

/-! ## The first construct -/

namespace Rule

theorem applyAll_of_forall_ne_some {rule : Rule} {s : Text}
    (h : ∀ earlier later found, s = earlier ++ later → rule later ≠ some found) : rule.applyAll s = s := by
  refine applyAll_eq_self ?_
  rintro later ⟨earlier, hs⟩
  rw [Option.eq_none_iff_forall_ne_some]
  exact fun found => h earlier later found hs.symm

theorem applyAll_append_of_none {rule : Rule} {before rest : Text}
    (h : ∀ earlier later, before ++ rest = earlier ++ later → earlier.length < before.length →
      rule later = none) :
    rule.applyAll (before ++ rest) = before ++ rule.applyAll rest := by
  induction before with
  | nil => rfl
  | cons c before ih =>
      have hhead : rule (c :: (before ++ rest)) = none := h [] _ rfl (Nat.succ_pos _)
      rw [List.cons_append, applyAll_of_none hhead, ih, List.cons_append]
      intro earlier later hs hlength
      exact h (c :: earlier) later (by rw [List.cons_append, List.cons_append, hs])
        (Nat.succ_lt_succ hlength)

/-- What stands before the first construct is kept, and reading goes on right after it. -/
theorem applyAll_of_isFirst {rule : Rule} {before s written rest : Text}
    (hfirst : Text.IsFirst (fun _ later => ∃ found, rule later = some found) before s)
    (h : rule s = some (written, rest)) (hrest : ∃ read, read ≠ [] ∧ s = read ++ rest) :
    rule.applyAll (before ++ s) = before ++ (written ++ rule.applyAll rest) := by
  have hread : rule.applyAll s = written ++ rule.applyAll rest := by
    obtain ⟨read, hne, rfl⟩ := hrest
    obtain ⟨c, read, rfl⟩ := List.exists_cons_of_ne_nil hne
    exact applyAll_of_some h (List.suffix_append read rest)
  rw [applyAll_append_of_none, hread]
  intro earlier later hs hlength
  rw [Option.eq_none_iff_forall_ne_some]
  intro found hfound
  exact Nat.not_le_of_lt hlength (hfirst.least earlier later hs ⟨found, hfound⟩)

end Rule

end Linewise
