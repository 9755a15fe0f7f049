import Linewise.Proofs.Header.Marks
import Linewise.Proofs.Pass.Safety

/-!
Slashes and braces from pass to pass. All passes but the one that removes braces write something else
between the pieces that they keep. Main statement: slashes and braces that stand side by side after a
run of such passes stood side by side before it.
-/
namespace Linewise

open Text (MarksFrom)

theorem Rule.reads_of_append {s lead t rest : Text} (h : s = lead ++ t) (hne : lead ≠ [])
    (hrest : rest <:+ t) : ∃ read, read ≠ [] ∧ s = read ++ rest := by
  obtain ⟨between, rfl⟩ := hrest
  refine ⟨lead ++ between, ?_, by rw [h, List.append_assoc]⟩
  simp [hne]

/-! ## Comments -/

theorem Comment.marker_keepsMarksApart : marker.KeepsMarksApart := by
  intro s written rest h
  obtain ⟨t, ht, h⟩ := Option.map_eq_some_iff.mp h
  cases h
  exact {
    reads := Rule.reads_of_append (Text.after?_eq_some_iff.mp ht) (List.cons_ne_nil _ _) List.suffix_rfl
    marks := .of_isPlain (show Text.Divides targetMarker by decide).2
    opens := ⟨'#', [], rfl, rfl⟩
    closes := .inl rfl }

/-! ## Control structures -/

namespace Control

/-- A control structure is read from its keyword to the opening of its block, and ends with a colon
where the block was opened. -/
theorem keepsApart_of_opening {s lead t before stretch rest body close : Text}
    (hlead : s.after? lead = some t) (hne : lead ≠ []) (hbefore : before <:+ t)
    (hopen : untilOpening? before = some (stretch, rest))
    (hbody : ∃ c tail, body = c :: tail ∧ isMark c = false)
    (hmarks : stretch <:+: s → MarksFrom body s) (hclose : close.Divides) :
    Rule.KeepsApart s (body ++ close) rest := by
  obtain ⟨after, hstretch, hafter⟩ := Text.exists_of_stretch? hopen
  have hs := Text.after?_eq_some_iff.mp hlead
  have hrest : rest <:+ before :=
    (Text.suffix_of_after? hafter).trans ⟨stretch, hstretch.symm⟩
  have hpart : stretch <:+: before := ⟨[], after, hstretch.symm⟩
  obtain ⟨c, tail, rfl, hc⟩ := hbody
  exact {
    reads := Rule.reads_of_append hs hne (hrest.trans hbefore)
    marks := (hmarks (hpart.trans (hbefore.trans ⟨lead, hs.symm⟩).isInfix)).append_divider hclose
    opens := ⟨c, tail ++ close, rfl, hc⟩
    closes := .inl (hclose.getLast?_append (c :: tail)) }

theorem conditional_keepsMarksApart : conditional.KeepsMarksApart := by
  intro s written rest h
  obtain ⟨t, hlead, h⟩ := Option.bind_eq_some_iff.mp h
  obtain ⟨⟨condition, after⟩, hopen, h⟩ := Option.bind_eq_some_iff.mp h
  cases h
  refine keepsApart_of_opening hlead (List.cons_ne_nil _ _) List.suffix_rfl hopen ⟨'i', _, rfl, rfl⟩
    ?_ (by decide)
  intro hcondition
  exact .divider_append (by decide) (.of_isInfix hcondition)

theorem indexedLoop_keepsMarksApart : indexedLoop.KeepsMarksApart := by
  intro s written rest h
  obtain ⟨t, hlead, h⟩ := Option.bind_eq_some_iff.mp h
  obtain ⟨⟨index, afterIndex⟩, hindex, h⟩ := Option.bind_eq_some_iff.mp h
  obtain ⟨second, hsecond, h⟩ := Option.bind_eq_some_iff.mp h
  obtain ⟨⟨value, afterValue⟩, hvalue, h⟩ := Option.bind_eq_some_iff.mp h
  obtain ⟨before, hbefore, h⟩ := Option.bind_eq_some_iff.mp h
  obtain ⟨⟨range, after⟩, hopen, h⟩ := Option.bind_eq_some_iff.mp h
  cases h
  have hsuffix : before <:+ t :=
    calc before <:+ afterValue := Text.suffix_of_after? hbefore
      _ <:+ second := Text.suffix_of_word? hvalue
      _ <:+ afterIndex := Text.suffix_of_after? hsecond
      _ <:+ t := Text.suffix_of_word? hindex
  refine keepsApart_of_opening hlead (List.cons_ne_nil _ _) hsuffix hopen ⟨'f', _, rfl, rfl⟩ ?_
    (by decide)
  intro hrange
  have hfirst : MarksFrom ("for ".toList ++ index) s :=
    .divider_append (by decide) (.of_isWord (Text.isWord_of_word? hindex))
  have hboth := hfirst.join ", ".toList (by decide) (.of_isWord (Text.isWord_of_word? hvalue))
  exact hboth.join " in enumerate(".toList (by decide) (.of_isInfix hrange)

theorem rangeLoop_keepsMarksApart : rangeLoop.KeepsMarksApart := by
  intro s written rest h
  obtain ⟨t, hlead, h⟩ := Option.bind_eq_some_iff.mp h
  obtain ⟨⟨value, afterValue⟩, hvalue, h⟩ := Option.bind_eq_some_iff.mp h
  obtain ⟨before, hbefore, h⟩ := Option.bind_eq_some_iff.mp h
  obtain ⟨⟨range, after⟩, hopen, h⟩ := Option.bind_eq_some_iff.mp h
  cases h
  have hsuffix : before <:+ t :=
    (Text.suffix_of_after? hbefore).trans (Text.suffix_of_word? hvalue)
  refine keepsApart_of_opening hlead (List.cons_ne_nil _ _) hsuffix hopen ⟨'f', _, rfl, rfl⟩ ?_
    (by decide)
  intro hrange
  have hfirst : MarksFrom ("for ".toList ++ value) s :=
    .divider_append (by decide) (.of_isWord (Text.isWord_of_word? hvalue))
  exact hfirst.join " in ".toList (by decide) (.of_isInfix hrange)

theorem append_of_clauses? {s init condition step : Text}
    (h : clauses? s = some (init, condition, step)) :
    s = init ++ "; ".toList ++ (condition ++ "; ".toList ++ step) := by
  obtain ⟨afterInit, hinit, h⟩ := Text.exists_of_stretch? h
  obtain ⟨second, hsecond, h⟩ := Option.bind_eq_some_iff.mp h
  obtain ⟨afterCondition, hcondition, h⟩ := Text.exists_of_stretch? h
  obtain ⟨third, hthird, h⟩ := Option.bind_eq_some_iff.mp h
  obtain rfl : third = step := by
    split at h
    · cases h
    · exact Option.some.inj h
  rw [hinit, Text.after?_eq_some_iff.mp hsecond, hcondition, Text.after?_eq_some_iff.mp hthird,
    List.append_assoc, List.append_assoc]

theorem clauses?_isInfix {s init condition step : Text}
    (h : clauses? s = some (init, condition, step)) :
    init <:+: s ∧ condition <:+: s ∧ step <:+: s := by
  rw [append_of_clauses? h]
  refine ⟨?_, ?_, ?_⟩
  · exact ((List.prefix_append _ _).trans (List.prefix_append _ _)).isInfix
  · exact ((List.prefix_append _ _).trans (List.prefix_append _ _)).isInfix.trans
      (List.suffix_append _ _).isInfix
  · exact ((List.suffix_append _ _).trans (List.suffix_append _ _)).isInfix

theorem clauseLoop_keepsMarksApart : clauseLoop.KeepsMarksApart := by
  intro s written rest h
  obtain ⟨t, hlead, h⟩ := Option.bind_eq_some_iff.mp h
  obtain ⟨⟨clauses, after⟩, hopen, h⟩ := Option.bind_eq_some_iff.mp h
  obtain ⟨⟨init, condition, step⟩, hclauses, h⟩ := Option.bind_eq_some_iff.mp h
  cases h
  obtain ⟨hinit, hcondition, hstep⟩ := clauses?_isInfix hclauses
  refine keepsApart_of_opening hlead (List.cons_ne_nil _ _) List.suffix_rfl hopen ⟨'f', _, rfl, rfl⟩
    ?_ (by decide)
  intro hpart
  have hfirst : MarksFrom ("for ".toList ++ init) s :=
    .divider_append (by decide) (.of_isInfix (hinit.trans hpart))
  have hboth := hfirst.join " in range(".toList (by decide) (.of_isInfix (hcondition.trans hpart))
  exact hboth.join ", ".toList (by decide) (.of_isInfix (hstep.trans hpart))

theorem convert_marksFrom (line : Text) : MarksFrom (convert line) line := by
  have hrules : ∀ rule ∈ rules, rule.KeepsMarksApart := by
    intro rule hrule
    simp only [rules, List.mem_cons, List.not_mem_nil, or_false] at hrule
    rcases hrule with rfl | rfl | rfl | rfl
    · exact conditional_keepsMarksApart
    · exact indexedLoop_keepsMarksApart
    · exact rangeLoop_keepsMarksApart
    · exact clauseLoop_keepsMarksApart
  rw [convert]
  generalize rules = rules at hrules
  induction rules generalizing line with
  | nil => exact .of_isInfix List.infix_rfl
  | cons rule rules ih =>
      have hlater := ih (rule.applyAll line) fun other hother =>
        hrules other (List.mem_cons_of_mem rule hother)
      exact hlater.trans ((hrules rule List.mem_cons_self).applyAll line).2

end Control

/-! ## Declarations -/

namespace Declaration

theorem typed_keepsMarksApart : typed.KeepsMarksApart := by
  intro s written rest h
  obtain ⟨t, hlead, h⟩ := Option.bind_eq_some_iff.mp h
  obtain ⟨⟨name, afterName⟩, hname, h⟩ := Option.bind_eq_some_iff.mp h
  obtain ⟨second, hsecond, h⟩ := Option.bind_eq_some_iff.mp h
  obtain ⟨⟨type, after⟩, htype, h⟩ := Option.bind_eq_some_iff.mp h
  cases h
  have hrest : rest <:+ t :=
    calc rest <:+ second := Text.suffix_of_word? htype
      _ <:+ afterName := Text.suffix_of_after? hsecond
      _ <:+ t := Text.suffix_of_word? hname
  have hfirst : MarksFrom ("var ".toList ++ name) s :=
    .divider_append (by decide) (.of_isWord (Text.isWord_of_word? hname))
  have hword := Text.isWord_of_word? htype
  exact {
    reads := Rule.reads_of_append (Text.after?_eq_some_iff.mp hlead) (List.cons_ne_nil _ _) hrest
    marks := hfirst.join ": ".toList (by decide) (.of_isWord hword)
    opens := ⟨'v', _, rfl, rfl⟩
    closes := .inl (hword.divides.getLast?_append _) }

/-- What follows a line is a line feed or nothing. -/
theorem head?_drop_firstLine (s : Text) :
    (s.drop s.firstLine.length).head?.any isMark = false := by
  induction s with
  | nil => rfl
  | cons c s ih =>
      by_cases hc : c = '\n'
      · subst hc
        rfl
      · have hline : Text.firstLine (c :: s) = c :: Text.firstLine s :=
          List.takeWhile_cons_of_pos (by simpa using hc)
        rw [hline]
        exact ih

theorem short_keepsMarksApart : short.KeepsMarksApart := by
  intro s written rest h
  obtain ⟨⟨name, afterName⟩, hname, h⟩ := Option.bind_eq_some_iff.mp h
  obtain ⟨⟨value, after⟩, hvalue, h⟩ := Option.bind_eq_some_iff.mp h
  obtain ⟨t, ht, hvalue⟩ := Option.bind_eq_some_iff.mp hvalue
  dsimp only at hvalue
  split at hvalue
  · cases hvalue
  · cases hvalue
    cases h
    have hword := Text.isWord_of_word? hname
    have hsuffix : t <:+ s := (Text.suffix_of_after? ht).trans (Text.suffix_of_word? hname)
    have hline : Text.firstLine t <:+: s :=
      (List.takeWhile_prefix (· ≠ '\n')).isInfix.trans hsuffix.isInfix
    have hfirst : MarksFrom ("var ".toList ++ name) s :=
      .divider_append (by decide) (.of_isWord hword)
    exact {
      reads := Rule.reads_of_append (Text.append_of_word? hname) hword.nonempty
        ((List.drop_suffix _ t).trans (Text.suffix_of_after? ht))
      marks := hfirst.join " = ".toList (by decide) (.of_isInfix hline)
      opens := ⟨'v', _, rfl, rfl⟩
      closes := .inr (head?_drop_firstLine t) }

theorem convert_marksFrom (line : Text) : MarksFrom (convert line) line := by
  rw [convert_eq]
  exact (short_keepsMarksApart.applyAll (typed.applyAll line)).2.trans
    (typed_keepsMarksApart.applyAll line).2

end Declaration

/-! ## Braces -/

namespace Braces

theorem not_mem_remove (line : Text) : '{' ∉ remove line ∧ '}' ∉ remove line := by
  simp [remove]

theorem remove_eq_self {line : Text} (hopen : '{' ∉ line) (hclose : '}' ∉ line) :
    remove line = line := by
  rw [remove, List.filter_eq_self]
  intro c hc
  have h : c ≠ '{' ∧ c ≠ '}' := ⟨fun h => hopen (h ▸ hc), fun h => hclose (h ▸ hc)⟩
  simpa using h

end Braces

/-! ## Lists of lines -/

/-- Every line has its runs of marks from one of `lines`. -/
def Lines.MarksFrom (written lines : Lines) : Prop :=
  ∀ line ∈ written, ∃ origin ∈ lines, Text.MarksFrom line origin

namespace Lines.MarksFrom

variable {written later lines : Lines}

theorem of_subset (h : written ⊆ lines) : Lines.MarksFrom written lines :=
  fun line hline => ⟨line, h hline, .of_isInfix List.infix_rfl⟩

theorem trans (h : Lines.MarksFrom later written) (hwritten : Lines.MarksFrom written lines) :
    Lines.MarksFrom later lines := by
  intro line hline
  obtain ⟨middle, hmiddle, hmarks⟩ := h line hline
  obtain ⟨origin, horigin, hfrom⟩ := hwritten middle hmiddle
  exact ⟨origin, horigin, hmarks.trans hfrom⟩

theorem map {f : Text → Text} (h : ∀ line, Text.MarksFrom (f line) line) (lines : Lines) :
    Lines.MarksFrom (lines.map f) lines := by
  intro line hline
  obtain ⟨origin, horigin, rfl⟩ := List.mem_map.mp hline
  exact ⟨origin, horigin, h origin⟩

theorem append (hwritten : Lines.MarksFrom written lines) (hlater : Lines.MarksFrom later lines) :
    Lines.MarksFrom (written ++ later) lines := by
  intro line hline
  rcases List.mem_append.mp hline with hline | hline
  · exact hwritten line hline
  · exact hlater line hline

end Lines.MarksFrom

theorem Header.convertFrom_marksFrom {number : Nat} {lines written : Lines}
    (h : (convertFrom number lines).outcome = .ok written) : Lines.MarksFrom written lines := by
  induction lines generalizing number written with
  | nil =>
      cases h
      exact .of_subset (List.Subset.refl [])
  | cons line lines ih =>
      obtain ⟨definition, rest, hline, hrest, rfl⟩ := convertFrom_cons_eq_ok h
      have hlater : Lines.MarksFrom rest (line :: lines) :=
        (ih hrest).trans (.of_subset (List.subset_cons_self line lines))
      have hfirst : Text.MarksFrom (definition.getD line) line := by
        cases definition with
        | none => exact .of_isInfix List.infix_rfl
        | some definition => exact convertLine_marksFrom hline
      intro written hwritten
      rcases List.mem_cons.mp hwritten with rfl | hwritten
      · exact ⟨line, List.mem_cons_self, hfirst⟩
      · exact hlater written hwritten

namespace Docstring

theorem docLine_marksFrom (line : Text) : Text.MarksFrom (docLine line) line := by
  have htext : Text.trim (line.trim.drop 1) <:+: line :=
    ((Text.trim_isInfix _).trans (List.drop_suffix 1 _).isInfix).trans (Text.trim_isInfix line)
  exact .divider_append (by decide) (.of_isInfix htext)

theorem documented_marksFrom (pending : Lines) (definition : Text) :
    Lines.MarksFrom (documented pending definition) (pending ++ [definition]) := by
  have hdivides : quotes.Divides := by decide
  have hquotes (origin : Text) : Text.MarksFrom quotes origin := .of_isPlain hdivides.2
  cases pending with
  | nil => exact .of_subset (List.Subset.refl _)
  | cons first pending =>
      intro line hline
      have hdefinition : definition ∈ first :: pending ++ [definition] := by simp
      rcases List.mem_append.mp hline with hline | hline
      · rcases List.mem_append.mp hline with hline | hline
        · rcases List.mem_pair.mp hline with rfl | rfl
          · exact ⟨line, hdefinition, .of_isInfix List.infix_rfl⟩
          · exact ⟨definition, hdefinition, hquotes definition⟩
        · obtain ⟨comment, hcomment, rfl⟩ := List.mem_map.mp hline
          exact ⟨comment, List.mem_append_left _ hcomment, docLine_marksFrom comment⟩
      · obtain rfl := List.mem_singleton.mp hline
        exact ⟨definition, hdefinition, hquotes definition⟩

theorem forward_marksFrom (pending lines : Lines) :
    Lines.MarksFrom (forward pending lines) (pending ++ lines) := by
  induction lines generalizing pending with
  | nil => exact .of_subset (by simp [forward])
  | cons line lines ih =>
      have hlater : Lines.MarksFrom (forward [] lines) (pending ++ line :: lines) :=
        (ih []).trans (.of_subset (by simp))
      rw [forward]
      split
      · have hnext := ih (pending ++ [line])
        rwa [List.append_assoc] at hnext
      · split
        · exact ((documented_marksFrom pending line).trans (.of_subset (by simp))).append hlater
        · exact (Lines.MarksFrom.of_subset (by simp)).append hlater

theorem promoted_marksFrom (keepFinalLine : Bool) (lines : Lines) :
    Lines.MarksFrom (promoted keepFinalLine lines) lines := by
  rw [promoted]
  split
  · exact forward_marksFrom [] lines
  · exact (Lines.MarksFrom.of_subset (List.dropLast_subset _)).trans (forward_marksFrom [] lines)

end Docstring

/-! ## Runs of passes -/

namespace Pass

variable {options : Options}

theorem apply_marksFrom {pass : Pass} (hpass : pass ≠ .braces) {lines written : Lines}
    (h : (pass.apply options lines).outcome = .ok written) : Lines.MarksFrom written lines := by
  cases pass with
  | comments =>
      cases h
      exact .map (fun line => (Comment.marker_keepsMarksApart.applyAll line).2) lines
  | functionDefinitions => exact Header.convertFrom_marksFrom h
  | docstrings =>
      rw [apply, Docstring.promote_eq_promoted] at h
      cases h
      exact Docstring.promoted_marksFrom _ lines
  | controlStructures =>
      cases h
      exact .map Control.convert_marksFrom lines
  | variableDeclarations =>
      cases h
      exact .map Declaration.convert_marksFrom lines
  | braces => exact absurd rfl hpass

theorem run_marksFrom {passes : List Pass} (hpasses : .braces ∉ passes) {lines written : Lines}
    (h : (run options passes lines).outcome = .ok written) : Lines.MarksFrom written lines := by
  induction passes generalizing lines with
  | nil =>
      cases h
      exact .of_subset (List.Subset.refl _)
  | cons pass passes ih =>
      obtain ⟨hpass, hpasses⟩ := List.ne_and_not_mem_of_not_mem_cons hpasses
      rw [run_cons] at h
      obtain ⟨next, hnext, h⟩ := Outcome.bind_eq_ok_iff.mp h
      exact (ih hpasses h).trans (apply_marksFrom (Ne.symm hpass) hnext)

end Pass

end Linewise
