import Linewise.Proofs.Convert.Stages
import Linewise.Proofs.Pass.Marks
import Linewise.Proofs.Text.Weight

/-!
Every rule of a pass writes less weight than it reads. So a pass over lines leaves a line as it is or
makes it lighter.
-/
namespace Linewise

open Text (SameOrLighter weight weightAfter)

/-! ## Comments -/

namespace Comment

theorem marker_lightens : marker.Lightens := by
  intro s written rest h
  obtain ⟨t, ht, h⟩ := Option.map_eq_some_iff.mp h
  cases h
  refine ⟨sourceMarker, List.cons_ne_nil _ _, Text.after?_eq_some_iff.mp ht, ?_⟩
  intro before after
  have hhash : charWeight '#' + pairWeight before '#' = 8 := by
    rw [pairWeight_of_dense before rfl (by decide)]
    rfl
  have hslash : charWeight '/' + pairWeight '/' '/' = 8 := rfl
  have hfirst : 8 ≤ charWeight '/' + pairWeight before '/' := Nat.le_add_right 8 _
  have hwritten : after.weightAfter '#' = after.weight := Text.weightAfter_of_inert rfl (by decide) after
  have hread : after.weightAfter '/' = after.weight := Text.weightAfter_of_inert rfl (by decide) after
  change charWeight '#' + pairWeight before '#' + after.weightAfter '#' <
    charWeight '/' + pairWeight before '/' +
      (charWeight '/' + pairWeight '/' '/' + after.weightAfter '/')
  omega

theorem convert_sameOrLighter (line : Text) : SameOrLighter (convert line) line :=
  marker_lightens.sameOrLighter line

end Comment

/-! ## Control structures -/

namespace Control

theorem append_of_untilOpening? {s stretch rest : Text} (h : untilOpening? s = some (stretch, rest)) :
    s = stretch ++ opening ++ rest := by
  obtain ⟨after, hstretch, hafter⟩ := Text.exists_of_stretch? h
  rw [hstretch, Text.after?_eq_some_iff.mp hafter, List.append_assoc]

/-- The brace that opens a block weighs more than what is written for it, and than what the words of the
structure may add. -/
theorem weightAfter_closing {head read close : Text}
    (hclose : close = ":".toList ∨ close = "):".toList)
    (h : ∀ before, head.weightAfter before ≤ read.weightAfter before + 5) (before : Char)
    (after : Text) :
    weightAfter before (head ++ close ++ after) < weightAfter before (read ++ opening ++ after) := by
  have hcolon (last : Char) : weightAfter last (':' :: after) ≤ after.weight + 2 := by
    rw [Text.weightAfter_cons_of_dense last after rfl rfl (by decide)]
    exact Text.weightAfter_le ':' after
  have hwritten (last : Char) : weightAfter last (close ++ after) ≤ after.weight + 2 := by
    rcases hclose with rfl | rfl
    · exact hcolon last
    · change weightAfter last (')' :: ':' :: after) ≤ _
      rw [Text.weightAfter_cons_of_dense last _ rfl rfl (by decide)]
      exact hcolon ')'
  have hopening (last : Char) : after.weight + 8 ≤ weightAfter last (opening ++ after) := by
    change _ ≤ weightAfter last (' ' :: '{' :: after)
    have hbrace : charWeight '{' + pairWeight ' ' '{' = 8 := rfl
    have hafter := Text.weight_le_weightAfter '{' after
    simp only [weightAfter]
    omega
  calc weightAfter before (head ++ close ++ after)
      = head.weightAfter before + weightAfter (head.getLastD before) (close ++ after) := by
        rw [List.append_assoc, Text.weightAfter_append before head]
    _ ≤ head.weightAfter before + (after.weight + 2) := Nat.add_le_add_left (hwritten _) _
    _ < read.weightAfter before + (after.weight + 8) := by
        have hhead := h before
        omega
    _ ≤ read.weightAfter before + weightAfter (read.getLastD before) (opening ++ after) :=
        Nat.add_le_add_left (hopening _) _
    _ = weightAfter before (read ++ opening ++ after) := by
        rw [List.append_assoc, Text.weightAfter_append before read]

/-- The phrase between the variables of a loop and its range. -/
theorem weightAfter_range_le (names : Text) {phrase : Text} (hweight : phrase.weight = 1)
    (hword : isWord (phrase.getLastD ' ') = false) (hcolon : phrase.getLastD ' ' ≠ ':')
    (before : Char) (range : Text) :
    weightAfter before (names ++ (' ' :: phrase) ++ range) ≤
      weightAfter before (names ++ " := range ".toList ++ range) + 5 := by
  have hread := Text.weightAfter_phrase before names ":= range ".toList range rfl (by decide)
  have hwritten := Text.weightAfter_phrase before names phrase range hword hcolon
  have hassigned : Text.weight ":= range ".toList = 3 := rfl
  rw [List.append_assoc, List.append_assoc]
  change weightAfter before (names ++ ' ' :: (phrase ++ range)) ≤
    weightAfter before (names ++ ' ' :: (":= range ".toList ++ range)) + 5
  omega

/-- Both forms separate the clauses of a loop, and only the words between the first two add weight. -/
theorem weightAfter_clauses_le (lead condition step : Text) (before : Char) :
    weightAfter before (lead ++ " in range(".toList ++ condition ++ ", ".toList ++ step) ≤
      weightAfter before (lead ++ "; ".toList ++ (condition ++ "; ".toList ++ step)) + 5 := by
  have hlater (c : Char) (hc : isNeutral c = true) :
      weight (condition ++ c :: ' ' :: step) = condition.weight + step.weight := by
    rw [weight, Text.weightAfter_append_cons '\n' condition c _ hc, Text.weight_blank]
    rfl
  have hwritten := Text.weightAfter_phrase before lead "in range(".toList
    (condition ++ ',' :: ' ' :: step) rfl (by decide)
  have hread := Text.weightAfter_append_cons before lead ';'
    (' ' :: (condition ++ ';' :: ' ' :: step)) rfl
  have hphrase : Text.weight "in range(".toList = 1 := rfl
  have hpair := pairWeight_le (lead.getLastD before) ' '
  rw [hlater ',' rfl] at hwritten
  rw [Text.weight_blank, hlater ';' rfl] at hread
  have hclauses : lead ++ "; ".toList ++ (condition ++ "; ".toList ++ step) =
      lead ++ ';' :: ' ' :: (condition ++ ';' :: ' ' :: step) := by
    simp
  have hloop : lead ++ " in range(".toList ++ condition ++ ", ".toList ++ step =
      lead ++ ' ' :: ("in range(".toList ++ (condition ++ ',' :: ' ' :: step)) := by
    simp
  rw [hclauses, hloop, hwritten, hread]
  omega

theorem conditional_lightens : conditional.Lightens := by
  intro s written rest h
  obtain ⟨t, hlead, h⟩ := Option.bind_eq_some_iff.mp h
  obtain ⟨⟨condition, after⟩, hopen, h⟩ := Option.bind_eq_some_iff.mp h
  cases h
  refine ⟨"if ".toList ++ condition ++ opening, List.cons_ne_nil _ _, ?_,
    weightAfter_closing (.inl rfl) fun before => Nat.le_add_right _ 5⟩
  rw [Text.after?_eq_some_iff.mp hlead, append_of_untilOpening? hopen]
  simp only [List.append_assoc]

theorem indexedLoop_lightens : indexedLoop.Lightens := by
  intro s written rest h
  obtain ⟨t, hlead, h⟩ := Option.bind_eq_some_iff.mp h
  obtain ⟨⟨index, afterIndex⟩, hindex, h⟩ := Option.bind_eq_some_iff.mp h
  obtain ⟨second, hsecond, h⟩ := Option.bind_eq_some_iff.mp h
  obtain ⟨⟨value, afterValue⟩, hvalue, h⟩ := Option.bind_eq_some_iff.mp h
  obtain ⟨third, hthird, h⟩ := Option.bind_eq_some_iff.mp h
  obtain ⟨⟨range, after⟩, hopen, h⟩ := Option.bind_eq_some_iff.mp h
  cases h
  refine ⟨"for ".toList ++ index ++ ", ".toList ++ value ++ " := range ".toList ++ range ++ opening,
    List.cons_ne_nil _ _, ?_, weightAfter_closing (.inr rfl) fun before => ?_⟩
  · rw [Text.after?_eq_some_iff.mp hlead, Text.append_of_word? hindex,
      Text.after?_eq_some_iff.mp hsecond, Text.append_of_word? hvalue,
      Text.after?_eq_some_iff.mp hthird, append_of_untilOpening? hopen]
    simp only [List.append_assoc]
  · exact weightAfter_range_le _ rfl rfl (by decide) before range

theorem rangeLoop_lightens : rangeLoop.Lightens := by
  intro s written rest h
  obtain ⟨t, hlead, h⟩ := Option.bind_eq_some_iff.mp h
  obtain ⟨⟨value, afterValue⟩, hvalue, h⟩ := Option.bind_eq_some_iff.mp h
  obtain ⟨second, hsecond, h⟩ := Option.bind_eq_some_iff.mp h
  obtain ⟨⟨range, after⟩, hopen, h⟩ := Option.bind_eq_some_iff.mp h
  cases h
  refine ⟨"for ".toList ++ value ++ " := range ".toList ++ range ++ opening, List.cons_ne_nil _ _, ?_,
    weightAfter_closing (.inl rfl) fun before => ?_⟩
  · rw [Text.after?_eq_some_iff.mp hlead, Text.append_of_word? hvalue,
      Text.after?_eq_some_iff.mp hsecond, append_of_untilOpening? hopen]
    simp only [List.append_assoc]
  · exact weightAfter_range_le _ rfl rfl (by decide) before range

theorem clauseLoop_lightens : clauseLoop.Lightens := by
  intro s written rest h
  obtain ⟨t, hlead, h⟩ := Option.bind_eq_some_iff.mp h
  obtain ⟨⟨clauses, after⟩, hopen, h⟩ := Option.bind_eq_some_iff.mp h
  obtain ⟨⟨init, condition, step⟩, hclauses, h⟩ := Option.bind_eq_some_iff.mp h
  cases h
  refine ⟨"for ".toList ++ init ++ "; ".toList ++ (condition ++ "; ".toList ++ step) ++ opening,
    List.cons_ne_nil _ _, ?_, weightAfter_closing (.inr rfl) fun before => ?_⟩
  · rw [Text.after?_eq_some_iff.mp hlead, append_of_untilOpening? hopen, append_of_clauses? hclauses]
    simp only [List.append_assoc]
  · exact weightAfter_clauses_le _ condition step before

theorem convert_sameOrLighter (line : Text) : SameOrLighter (convert line) line := by
  have hconditional := conditional_lightens.sameOrLighter line
  have hindexed := indexedLoop_lightens.sameOrLighter (conditional.applyAll line)
  have hrange := rangeLoop_lightens.sameOrLighter (indexedLoop.applyAll (conditional.applyAll line))
  exact (clauseLoop_lightens.sameOrLighter _).trans (hrange.trans (hindexed.trans hconditional))

end Control

/-! ## Declarations -/

namespace Declaration

theorem typed_lightens : typed.Lightens := by
  intro s written rest h
  obtain ⟨t, hlead, h⟩ := Option.bind_eq_some_iff.mp h
  obtain ⟨⟨name, afterName⟩, hname, h⟩ := Option.bind_eq_some_iff.mp h
  obtain ⟨second, hsecond, h⟩ := Option.bind_eq_some_iff.mp h
  obtain ⟨⟨type, after⟩, htype, h⟩ := Option.bind_eq_some_iff.mp h
  cases h
  refine ⟨"var ".toList ++ name ++ " ".toList ++ type, List.cons_ne_nil _ _, ?_, ?_⟩
  · rw [Text.after?_eq_some_iff.mp hlead, Text.append_of_word? hname,
      Text.after?_eq_some_iff.mp hsecond, Text.append_of_word? htype]
    simp only [List.append_assoc]
  · -- The blank after the name is what is lost: the one after the colon weighs nothing.
    intro before after
    have hblank := one_le_pairWeight
      ((Text.isWord_of_word? hname).getLastD_append "var ".toList before)
    have hwritten := Text.weightAfter_append_colon before ("var ".toList ++ name) (type ++ after)
    have hread := Text.weightAfter_phrase before ("var ".toList ++ name) [] (type ++ after) rfl
      (by decide)
    have hcolon : "var ".toList ++ name ++ ": ".toList ++ type ++ after =
        "var ".toList ++ name ++ ':' :: ' ' :: (type ++ after) := by
      simp
    have hspace : "var ".toList ++ name ++ " ".toList ++ type ++ after =
        "var ".toList ++ name ++ ' ' :: ([] ++ (type ++ after)) := by
      simp
    rw [hcolon, hspace, hwritten, hread]
    omega

theorem append_of_value? {s value rest : Text} (h : value? s = some (value, rest)) :
    s = " := ".toList ++ value ++ rest := by
  obtain ⟨t, ht, h⟩ := Option.bind_eq_some_iff.mp h
  dsimp only at h
  split at h
  · cases h
  · cases h
    have hline : t = Text.firstLine t ++ t.drop (Text.firstLine t).length :=
      List.prefix_append_drop (List.takeWhile_prefix _)
    rw [Text.after?_eq_some_iff.mp ht, List.append_assoc, ← hline]

theorem short_lightens : short.Lightens := by
  intro s written rest h
  obtain ⟨⟨name, afterName⟩, hname, h⟩ := Option.bind_eq_some_iff.mp h
  obtain ⟨⟨value, after⟩, hvalue, h⟩ := Option.bind_eq_some_iff.mp h
  cases h
  have hword := Text.isWord_of_word? hname
  refine ⟨name ++ " := ".toList ++ value, by simp, ?_, ?_⟩
  · rw [Text.append_of_word? hname, append_of_value? hvalue]
    simp only [List.append_assoc]
  · intro before after
    have hlast : ("var ".toList ++ name).getLastD before = name.getLastD before := by
      rw [List.getLastD_eq_getLast?, List.getLastD_eq_getLast?,
        List.getLast?_append_of_ne_nil _ hword.nonempty]
    have hvar : weightAfter before ("var ".toList ++ name) = 1 := by
      rw [Text.weightAfter_append, Text.weightAfter_of_isWord _ hword.chars]
      exact Text.weightAfter_cons_of_dense before _ rfl rfl (by decide)
    have hwritten := Text.weightAfter_phrase before ("var ".toList ++ name) "= ".toList
      (value ++ after) rfl (by decide)
    have hread := Text.weightAfter_phrase before name ":= ".toList (value ++ after) rfl (by decide)
    have hequals : Text.weight "= ".toList = 0 := rfl
    have hassigned : Text.weight ":= ".toList = 2 := rfl
    have hfull : "var ".toList ++ name ++ " = ".toList ++ value ++ after =
        "var ".toList ++ name ++ ' ' :: ("= ".toList ++ (value ++ after)) := by
      simp
    have hshort : name ++ " := ".toList ++ value ++ after =
        name ++ ' ' :: (":= ".toList ++ (value ++ after)) := by
      simp
    rw [hfull, hshort, hwritten, hread, hlast, hvar]
    omega

theorem convert_sameOrLighter (line : Text) : SameOrLighter (convert line) line := by
  rw [convert_eq]
  exact (short_lightens.sameOrLighter _).trans (typed_lightens.sameOrLighter line)

end Declaration

/-! ## Braces -/

theorem Braces.remove_sameOrLighter (line : Text) : SameOrLighter (remove line) line := by
  induction line with
  | nil => exact .refl []
  | cons c line ih =>
      by_cases hc : c = '{' ∨ c = '}'
      · have hremove : remove (c :: line) = remove line :=
          List.filter_cons_of_neg (by rcases hc with rfl | rfl <;> decide)
        have hweight : charWeight c = 8 := by
          rcases hc with rfl | rfl <;> rfl
        refine .inr fun before => ?_
        have hrest := Text.weight_le_weightAfter c line
        have hline := ih.weightAfter_le before
        have hfirst := Text.weightAfter_le before line
        rw [hremove, weightAfter, hweight]
        omega
      · obtain ⟨hopen, hclose⟩ := not_or.mp hc
        have hremove : remove (c :: line) = c :: remove line :=
          List.filter_cons_of_pos (by simp [hopen, hclose])
        rw [hremove]
        exact ih.cons c

theorem Pass.finish_sameOrLighter (line : Text) : SameOrLighter (finish line) line :=
  (Braces.remove_sameOrLighter _).trans
    ((Declaration.convert_sameOrLighter _).trans (Control.convert_sameOrLighter line))

end Linewise
