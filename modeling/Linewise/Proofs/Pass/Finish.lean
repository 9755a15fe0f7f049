import Linewise.Proofs.Header.Stable
import Linewise.Proofs.Pass.Weight

/-!
What the passes after the docstrings leave of a line. Weight that one of them takes away does not come
back with another, so a line comes out as it was only if each of them leaves it alone. Main statement:
those are the lines without braces and without declarations.
-/
namespace Linewise

namespace Control

theorem untilOpening?_eq_none {s t : Text} (h : '{' ∉ s) (ht : t <:+ s) : untilOpening? t = none := by
  rw [Option.eq_none_iff_forall_ne_some]
  rintro ⟨stretch, rest⟩ hopen
  have hmem : '{' ∈ t := by
    rw [append_of_untilOpening? hopen]
    simp [opening]
  exact h (ht.subset hmem)

/-- Every control structure opens a block. -/
theorem eq_none_of_mem_rules {rule : Rule} (hrule : rule ∈ rules) {s : Text} (h : '{' ∉ s) :
    rule s = none := by
  rw [Option.eq_none_iff_forall_ne_some]
  intro found hread
  have hclosed {t : Text} {α : Type} {next : Text × Text → Option α} {a : α} (ht : t <:+ s)
      (hopen : (untilOpening? t).bind next = some a) : False := by
    rw [untilOpening?_eq_none h ht] at hopen
    cases hopen
  simp only [rules, List.mem_cons, List.not_mem_nil, or_false] at hrule
  rcases hrule with rfl | rfl | rfl | rfl
  · obtain ⟨t, hlead, hread⟩ := Option.bind_eq_some_iff.mp hread
    exact hclosed (Text.suffix_of_after? hlead) hread
  · obtain ⟨t, hlead, hread⟩ := Option.bind_eq_some_iff.mp hread
    obtain ⟨⟨index, afterIndex⟩, hindex, hread⟩ := Option.bind_eq_some_iff.mp hread
    obtain ⟨second, hsecond, hread⟩ := Option.bind_eq_some_iff.mp hread
    obtain ⟨⟨value, afterValue⟩, hvalue, hread⟩ := Option.bind_eq_some_iff.mp hread
    obtain ⟨third, hthird, hread⟩ := Option.bind_eq_some_iff.mp hread
    refine hclosed ?_ hread
    calc third <:+ afterValue := Text.suffix_of_after? hthird
      _ <:+ second := Text.suffix_of_word? hvalue
      _ <:+ afterIndex := Text.suffix_of_after? hsecond
      _ <:+ t := Text.suffix_of_word? hindex
      _ <:+ s := Text.suffix_of_after? hlead
  · obtain ⟨t, hlead, hread⟩ := Option.bind_eq_some_iff.mp hread
    obtain ⟨⟨value, afterValue⟩, hvalue, hread⟩ := Option.bind_eq_some_iff.mp hread
    obtain ⟨second, hsecond, hread⟩ := Option.bind_eq_some_iff.mp hread
    refine hclosed ?_ hread
    calc second <:+ afterValue := Text.suffix_of_after? hsecond
      _ <:+ t := Text.suffix_of_word? hvalue
      _ <:+ s := Text.suffix_of_after? hlead
  · obtain ⟨t, hlead, hread⟩ := Option.bind_eq_some_iff.mp hread
    exact hclosed (Text.suffix_of_after? hlead) hread

theorem foldl_eq_self {later : List Rule} (hlater : later ⊆ rules) {line : Text} (h : '{' ∉ line) :
    later.foldl (fun line rule => rule.applyAll line) line = line := by
  refine Rule.foldl_applyAll_eq_self ?_
  intro rule hrule
  exact Rule.applyAll_eq_self fun t ht =>
    eq_none_of_mem_rules (hlater hrule) fun hmem => h (ht.subset hmem)

theorem convert_eq_self {line : Text} (h : '{' ∉ line) : convert line = line :=
  foldl_eq_self (List.Subset.refl rules) h

theorem convert_blank (s : Text) : convert (' ' :: s) = ' ' :: convert s := by
  refine List.foldl_rel (r := fun indented line => indented = ' ' :: line) rfl ?_
  rintro rule hrule indented line rfl
  apply Rule.applyAll_of_none
  rcases beginsWith_of_mem_rules hrule with hif | hfor
  · exact hif _ rfl
  · exact hfor _ rfl

end Control

namespace Declaration

/-- Whether no declaration stands in the text. -/
def Free (s : Text) : Prop :=
  ∀ t, t <:+ s → typed t = none ∧ short t = none

theorem convert_eq_self_iff {line : Text} : convert line = line ↔ Free line := by
  rw [convert_eq]
  constructor
  · intro h
    have htyped : typed.applyAll line = line :=
      (short_lightens.sameOrLighter _).eq_of_eq (typed_lightens.sameOrLighter line) h
    rw [htyped] at h
    intro t ht
    exact ⟨typed_lightens.applyAll_eq_self_iff.mp htyped t ht,
      short_lightens.applyAll_eq_self_iff.mp h t ht⟩
  · intro h
    rw [Rule.applyAll_eq_self fun t ht => (h t ht).1, Rule.applyAll_eq_self fun t ht => (h t ht).2]

theorem convert_blank (s : Text) : convert (' ' :: s) = ' ' :: convert s := by
  rw [convert_eq, convert_eq, Rule.applyAll_of_none (typed_beginsWith _ rfl),
    Rule.applyAll_of_none (short_eq_none_iff.mpr (.inl rfl))]

end Declaration

namespace Pass

theorem finish_eq_self_iff {line : Text} :
    finish line = line ↔ '{' ∉ line ∧ '}' ∉ line ∧ Declaration.Free line := by
  constructor
  · intro h
    have hcontrol := Control.convert_sameOrLighter line
    have hdeclaration := (Declaration.convert_sameOrLighter _).trans hcontrol
    have hbraces := Braces.remove_sameOrLighter (Declaration.convert (Control.convert line))
    -- The last pass gives the line back, so nothing was lost before it, and so on to the first.
    have hsecond : Declaration.convert (Control.convert line) = line := hbraces.eq_of_eq hdeclaration h
    have hfirst : Control.convert line = line :=
      (Declaration.convert_sameOrLighter _).eq_of_eq hcontrol hsecond
    rw [hfirst] at hsecond
    rw [finish, hfirst, hsecond] at h
    have hremoved := Braces.not_mem_remove line
    rw [h] at hremoved
    exact ⟨hremoved.1, hremoved.2, Declaration.convert_eq_self_iff.mp hsecond⟩
  · rintro ⟨hopen, hclose, hfree⟩
    rw [finish, Control.convert_eq_self hopen, Declaration.convert_eq_self_iff.mpr hfree,
      Braces.remove_eq_self hopen hclose]

theorem finish_blank (s : Text) : finish (' ' :: s) = ' ' :: finish s := by
  rw [finish, Control.convert_blank, Declaration.convert_blank, Braces.remove,
    List.filter_cons_of_pos rfl]
  rfl

theorem finish_indented {indent : Text} (h : ∀ c ∈ indent, c = ' ') (s : Text) :
    finish (indent ++ s) = indent ++ finish s := by
  induction indent with
  | nil => rfl
  | cons c indent ih =>
      obtain ⟨rfl, hindent⟩ := List.forall_mem_cons.mp h
      rw [List.cons_append, finish_blank, ih hindent, List.cons_append]

theorem finish_of_settled {s : Text} (h : Header.Settled s) : finish s = Braces.remove s := by
  rw [finish, h.control_convert, h.declaration_convert]

end Pass

end Linewise
