import Linewise.Proofs.Pass.Finish
import Linewise.Proofs.Text.Places
import Mathlib.Data.List.Forall2

/-!
Lines that open a block at their end. The control structures have four forms, each told by what stands
before the opening, and a line may hold several of them. Main statement: the first form that stands in
the line at all decides what becomes of it, and where it stands more than once the leftmost place does;
a line without any of them is left alone.
-/
namespace Linewise

namespace Control

/-! ## Forms of control structures -/

/-- A condition up to the opening of its block, and what is written for both. -/
inductive Conditional : Text → Text → Prop
  | mk {condition : Text} : condition ≠ [] →
      Conditional ("if ".toList ++ condition) ("if ".toList ++ condition ++ ":".toList)

/-- A loop over the positions and the elements of a range. -/
inductive IndexedLoop : Text → Text → Prop
  | mk {index value range : Text} : index.IsWord → value.IsWord → range ≠ [] →
      IndexedLoop
        ("for ".toList ++ index ++ ", ".toList ++ value ++ " := range ".toList ++ range)
        ("for ".toList ++ index ++ ", ".toList ++ value ++ " in enumerate(".toList ++ range ++
          "):".toList)

/-- A loop over the elements of a range. -/
inductive RangeLoop : Text → Text → Prop
  | mk {value range : Text} : value.IsWord → range ≠ [] →
      RangeLoop ("for ".toList ++ value ++ " := range ".toList ++ range)
        ("for ".toList ++ value ++ " in ".toList ++ range ++ ":".toList)

structure Clauses where
  init : Text
  condition : Text
  step : Text

namespace Clauses

def text (clauses : Clauses) : Text :=
  clauses.init ++ ("; ".toList ++ (clauses.condition ++ "; ".toList ++ clauses.step))

/-- Clauses that are all there. -/
structure AreFull (clauses : Clauses) : Prop where
  init : clauses.init ≠ []
  condition : clauses.condition ≠ []
  step : clauses.step ≠ []

/-- Of all cuts of a text into clauses, the one whose first clause is longest and, among those with the
same first clause, whose second clause is. -/
structure AreGreedy (clauses : Clauses) : Prop extends clauses.AreFull where
  longest_init : ∀ other : Clauses, other.AreFull → other.text = clauses.text →
    other.init.length ≤ clauses.init.length
  longest_condition : ∀ other : Clauses, other.AreFull → other.text = clauses.text →
    other.init = clauses.init → other.condition.length ≤ clauses.condition.length

end Clauses

/-- A loop with three clauses. -/
inductive ClauseLoop : Text → Text → Prop
  | mk {clauses : Clauses} : clauses.AreGreedy →
      ClauseLoop ("for ".toList ++ clauses.text)
        ("for ".toList ++ clauses.init ++ " in range(".toList ++ clauses.condition ++ ", ".toList ++
          clauses.step ++ "):".toList)

/-- The forms in the order in which they are looked for. -/
def forms : List (Text → Text → Prop) :=
  [Conditional, IndexedLoop, RangeLoop, ClauseLoop]

/-- Whether a structure of the form stands in the text. -/
def Stands (form : Text → Text → Prop) (s : Text) : Prop :=
  ∃ before rest written, s = before ++ rest ∧ form rest written

/-- What is written for a line that opens a block after `s`: the first form that stands in `s` decides,
at the first place where it stands. -/
inductive Decides (s : Text) : List (Text → Text → Prop) → Text → Prop
  | here {form : Text → Text → Prop} {later : List (Text → Text → Prop)}
      {before rest written : Text} : s = before ++ rest →
      Text.IsFirst (fun _ rest => ∃ written, form rest written) before rest → form rest written →
      Decides s (form :: later) (before ++ written)
  | next {form : Text → Text → Prop} {later : List (Text → Text → Prop)} {written : Text} :
      ¬ Stands form s → Decides s later written → Decides s (form :: later) written
  | none : Decides s [] (s ++ opening)

theorem exists_decides (s : Text) (forms : List (Text → Text → Prop)) :
    ∃ written, Decides s forms written := by
  induction forms with
  | nil => exact ⟨_, .none⟩
  | cons form later ih =>
      by_cases hstands : Stands form s
      · obtain ⟨before, rest, written, rfl, hform⟩ := hstands
        obtain ⟨first, found, hsplit, hfirst⟩ :=
          Text.exists_isFirst (fun _ rest => ∃ written, form rest written) before rest ⟨written, hform⟩
        obtain ⟨other, hother⟩ := hfirst.holds
        exact ⟨_, .here hsplit hfirst hother⟩
      · obtain ⟨written, hwritten⟩ := ih
        exact ⟨written, .next hstands hwritten⟩

/-! ## Where a line opens a block -/

/-- A line on which nothing follows the brace of a block. -/
structure OpensLast (line : Text) : Prop where
  brace : ∀ before rest, line = before ++ '{' :: rest → rest = []
  oneLine : '\n' ∉ line

theorem OpensLast.of_suffix {line t : Text} (h : OpensLast line) (ht : t <:+ line) : OpensLast t := by
  obtain ⟨front, rfl⟩ := ht
  refine ⟨?_, fun hmem => h.oneLine (List.mem_append_right front hmem)⟩
  rintro before rest rfl
  exact h.brace (front ++ before) rest (List.append_assoc ..).symm

theorem opensLast_append_opening {s : Text} (hbrace : '{' ∉ s) (hline : '\n' ∉ s) :
    OpensLast (s ++ opening) := by
  refine ⟨?_, by simpa [opening] using hline⟩
  intro before rest h
  have hsplit : (s ++ [' ']) ++ ['{'] = before ++ '{' :: rest := by simpa [opening] using h
  rcases List.append_eq_append_iff.mp hsplit with ⟨between, -, hend⟩ | ⟨between, hfront, hend⟩
  · cases between with
    | nil => exact (List.cons.inj hend).2.symm
    | cons c between => simp at hend
  · cases between with
    | nil => exact (List.cons.inj hend).2
    | cons c between =>
        obtain ⟨rfl, -⟩ := List.cons.inj hend
        have hmem : '{' ∈ s ++ [' '] := hfront ▸ by simp
        simp [hbrace] at hmem

theorem untilOpening?_eq_some_iff {line stretch rest : Text} (h : OpensLast line) :
    untilOpening? line = some (stretch, rest) ↔
      stretch ≠ [] ∧ rest = [] ∧ line = stretch ++ opening := by
  have hend {before after : Text} (hs : line = before ++ (opening ++ after)) : after = [] :=
    h.brace (before ++ [' ']) after (by simpa [opening] using hs)
  rw [untilOpening?, Text.stretch?_eq_some_iff]
  constructor
  · rintro ⟨hne, -, after, hs, hafter, -⟩
    rw [Text.after?_eq_some_iff.mp hafter] at hs
    obtain rfl := hend hs
    rw [List.append_nil] at hs
    exact ⟨hne, rfl, hs⟩
  · rintro ⟨hne, rfl, hs⟩
    refine ⟨hne, ?_, opening, hs, Text.after?_eq_some_iff.mpr (List.append_nil _).symm, ?_⟩
    · intro hmem
      exact h.oneLine (hs ▸ List.mem_append_left _ hmem)
    · intro longer later found hlonger _ hlater
      rw [Text.after?_eq_some_iff.mp hlater] at hlonger
      obtain rfl := hend hlonger
      rw [hs, List.append_nil] at hlonger
      rw [List.append_cancel_right hlonger]

/-! ## Rules and forms -/

/-- The rule reads a structure of the form together with the opening of its block. -/
def Reads (rule : Rule) (form : Text → Text → Prop) : Prop :=
  ∀ line, OpensLast line → ∀ written rest, rule line = some (written, rest) ↔
    rest = [] ∧ ∃ s, line = s ++ opening ∧ form s written

theorem conditional_reads : Reads conditional Conditional := by
  intro line hline written rest
  constructor
  · intro h
    obtain ⟨t, hlead, h⟩ := Option.bind_eq_some_iff.mp h
    obtain ⟨⟨condition, after⟩, hopen, h⟩ := Option.bind_eq_some_iff.mp h
    cases h
    have ht := hline.of_suffix (Text.suffix_of_after? hlead)
    obtain ⟨hne, rfl, rfl⟩ := (untilOpening?_eq_some_iff ht).mp hopen
    obtain rfl := Text.after?_eq_some_iff.mp hlead
    exact ⟨rfl, _, (List.append_assoc ..).symm, .mk hne⟩
  · rintro ⟨rfl, s, rfl, hform⟩
    cases hform with
    | @mk condition hne =>
        rw [List.append_assoc] at hline ⊢
        have ht := hline.of_suffix (List.suffix_append _ (condition ++ opening))
        have hopen := (untilOpening?_eq_some_iff ht).mpr ⟨hne, rfl, rfl⟩
        simp only [conditional, Option.bind_eq_bind, Text.after?_append, Option.bind_some, hopen, pure]

theorem indexedLoop_reads : Reads indexedLoop IndexedLoop := by
  intro line hline written rest
  constructor
  · intro h
    obtain ⟨t, hlead, h⟩ := Option.bind_eq_some_iff.mp h
    obtain ⟨⟨index, afterIndex⟩, hindex, h⟩ := Option.bind_eq_some_iff.mp h
    obtain ⟨second, hsecond, h⟩ := Option.bind_eq_some_iff.mp h
    obtain ⟨⟨value, afterValue⟩, hvalue, h⟩ := Option.bind_eq_some_iff.mp h
    obtain ⟨third, hthird, h⟩ := Option.bind_eq_some_iff.mp h
    obtain ⟨⟨range, after⟩, hopen, h⟩ := Option.bind_eq_some_iff.mp h
    cases h
    obtain ⟨hindexWord, rfl, -⟩ := Text.word?_eq_some_iff_append.mp hindex
    obtain ⟨hvalueWord, rfl, -⟩ := Text.word?_eq_some_iff_append.mp hvalue
    obtain rfl := Text.after?_eq_some_iff.mp hlead
    obtain rfl := Text.after?_eq_some_iff.mp hsecond
    obtain rfl := Text.after?_eq_some_iff.mp hthird
    have ht : OpensLast third := hline.of_suffix (by simp only [← List.append_assoc, List.suffix_append])
    obtain ⟨hne, rfl, rfl⟩ := (untilOpening?_eq_some_iff ht).mp hopen
    exact ⟨rfl, _, by simp only [List.append_assoc], .mk hindexWord hvalueWord hne⟩
  · rintro ⟨rfl, s, rfl, hform⟩
    cases hform with
    | @mk index value range hindex hvalue hne =>
        have ht : OpensLast (range ++ opening) := hline.of_suffix ⟨_, (List.append_assoc ..).symm⟩
        have hopen := (untilOpening?_eq_some_iff ht).mpr ⟨hne, rfl, rfl⟩
        have hcomma (s : Text) : (", ".toList ++ s).head?.any isWord = false := rfl
        have hassign (s : Text) : (" := range ".toList ++ s).head?.any isWord = false := rfl
        simp only [indexedLoop, List.append_assoc, Option.bind_eq_bind, Text.after?_append,
          Option.bind_some, hindex.word?_of_head? (hcomma _), hvalue.word?_of_head? (hassign _), hopen,
          pure]

theorem rangeLoop_reads : Reads rangeLoop RangeLoop := by
  intro line hline written rest
  constructor
  · intro h
    obtain ⟨t, hlead, h⟩ := Option.bind_eq_some_iff.mp h
    obtain ⟨⟨value, afterValue⟩, hvalue, h⟩ := Option.bind_eq_some_iff.mp h
    obtain ⟨second, hsecond, h⟩ := Option.bind_eq_some_iff.mp h
    obtain ⟨⟨range, after⟩, hopen, h⟩ := Option.bind_eq_some_iff.mp h
    cases h
    obtain ⟨hword, rfl, -⟩ := Text.word?_eq_some_iff_append.mp hvalue
    obtain rfl := Text.after?_eq_some_iff.mp hlead
    obtain rfl := Text.after?_eq_some_iff.mp hsecond
    have ht : OpensLast second :=
      hline.of_suffix (by simp only [← List.append_assoc, List.suffix_append])
    obtain ⟨hne, rfl, rfl⟩ := (untilOpening?_eq_some_iff ht).mp hopen
    exact ⟨rfl, _, by simp only [List.append_assoc], .mk hword hne⟩
  · rintro ⟨rfl, s, rfl, hform⟩
    cases hform with
    | @mk value range hvalue hne =>
        have ht : OpensLast (range ++ opening) := hline.of_suffix ⟨_, (List.append_assoc ..).symm⟩
        have hopen := (untilOpening?_eq_some_iff ht).mpr ⟨hne, rfl, rfl⟩
        have hassign (s : Text) : (" := range ".toList ++ s).head?.any isWord = false := rfl
        simp only [rangeLoop, List.append_assoc, Option.bind_eq_bind, Text.after?_append,
          Option.bind_some, hvalue.word?_of_head? (hassign _), hopen, pure]

theorem lastClause?_eq_some_iff {s step : Text} :
    lastClause? s = some step ↔ step ≠ [] ∧ s = "; ".toList ++ step := by
  rw [lastClause?, Option.bind_eq_bind, Option.bind_eq_some_iff]
  constructor
  · rintro ⟨clause, hclause, h⟩
    split at h
    · cases h
    · rename_i hne
      cases h
      exact ⟨by simpa using hne, Text.after?_eq_some_iff.mp hclause⟩
  · rintro ⟨hne, rfl⟩
    exact ⟨step, Text.after?_append _ _, by simp [hne]⟩

theorem laterClauses?_eq_some_iff {s condition step : Text} (hline : '\n' ∉ s) :
    laterClauses? s = some (condition, step) ↔
      condition ≠ [] ∧ step ≠ [] ∧ s = "; ".toList ++ (condition ++ "; ".toList ++ step) ∧
        ∀ other last, last ≠ [] → s = "; ".toList ++ (other ++ "; ".toList ++ last) →
          other.length ≤ condition.length := by
  simp only [laterClauses?, Option.bind_eq_bind, Option.bind_eq_some_iff, Text.after?_eq_some_iff,
    Text.stretch?_eq_some_iff, lastClause?_eq_some_iff, List.append_assoc]
  constructor
  · rintro ⟨t, rfl, hcondition, -, rest, rfl, ⟨hstep, rfl⟩, hlongest⟩
    refine ⟨hcondition, hstep, rfl, ?_⟩
    intro other last hlast hother
    have hcut := List.append_cancel_left hother
    refine hlongest other _ last hcut (fun hmem => hline ?_) ⟨hlast, rfl⟩
    exact List.mem_append_right _ (hcut ▸ List.mem_append_left _ hmem)
  · rintro ⟨hcondition, hstep, rfl, hlongest⟩
    refine ⟨_, rfl, hcondition, fun hmem => hline ?_, _, rfl, ⟨hstep, rfl⟩, ?_⟩
    · exact List.mem_append_right _ (List.mem_append_left _ hmem)
    · rintro longer - last hlonger - ⟨hlast, rfl⟩
      exact hlongest longer last hlast (by rw [hlonger])

theorem exists_laterClauses? {condition step : Text} (hcondition : condition ≠ []) (hstep : step ≠ [])
    (hline : '\n' ∉ condition) :
    ∃ found, laterClauses? ("; ".toList ++ (condition ++ "; ".toList ++ step)) = some found := by
  have hend := lastClause?_eq_some_iff.mpr ⟨hstep, rfl⟩
  obtain ⟨stretch, last, hread, -⟩ := Text.exists_stretch? hcondition hline hend
  refine ⟨(stretch, last), ?_⟩
  rw [laterClauses?, Text.after?_append, List.append_assoc]
  exact hread

/-- The first of three clauses is as long as it can be, and then the second is. -/
theorem clauses?_eq_some_iff {s init condition step : Text} (hline : '\n' ∉ s) :
    clauses? s = some (init, condition, step) ↔
      (Clauses.mk init condition step).AreGreedy ∧ s = (Clauses.mk init condition step).text := by
  have hparts {front later : Text} (hs : s = front ++ later) : '\n' ∉ front ∧ '\n' ∉ later := by
    rw [hs, List.mem_append, not_or] at hline
    exact hline
  rw [clauses?, Text.stretch?_eq_some_iff]
  constructor
  · rintro ⟨hinit, -, later, hs, hlater, hlongest⟩
    obtain ⟨hcondition, hstep, rfl, hlongestCondition⟩ :=
      (laterClauses?_eq_some_iff (hparts hs).2).mp hlater
    refine ⟨⟨⟨hinit, hcondition, hstep⟩, ?_, ?_⟩, hs⟩
    · intro other hother htext
      have hcut := hs.trans htext.symm
      have hotherCondition : '\n' ∉ other.condition := fun hmem => (hparts hcut).2 (by simp [hmem])
      obtain ⟨found, hfound⟩ := exists_laterClauses? hother.condition hother.step hotherCondition
      exact hlongest other.init _ found hcut (hparts hcut).1 hfound
    · intro other hother htext hsame
      rw [Clauses.text, hsame] at htext
      exact hlongestCondition other.condition other.step hother.step (List.append_cancel_left htext).symm
  · rintro ⟨hgreedy, hs⟩
    refine ⟨hgreedy.init, (hparts hs).1, _, hs, ?_, ?_⟩
    · refine (laterClauses?_eq_some_iff (hparts hs).2).mpr ⟨hgreedy.condition, hgreedy.step, rfl, ?_⟩
      intro other last hlast hcut
      refine Text.length_le_of_ne_nil fun hother => ?_
      exact hgreedy.longest_condition ⟨init, other, last⟩ ⟨hgreedy.init, hother, hlast⟩
        (congrArg (init ++ ·) hcut.symm) rfl
    · rintro longer later ⟨other, last⟩ hlonger - hlater
      refine Text.length_le_of_ne_nil fun hne => ?_
      obtain ⟨hother, hlast, rfl, -⟩ := (laterClauses?_eq_some_iff (hparts hlonger).2).mp hlater
      exact hgreedy.longest_init ⟨longer, other, last⟩ ⟨hne, hother, hlast⟩ (hlonger.symm.trans hs)

/-- Every text with three clauses can be cut greedily. -/
theorem Clauses.AreFull.exists_areGreedy {clauses : Clauses} (h : clauses.AreFull)
    (hline : '\n' ∉ clauses.text) : ∃ greedy : Clauses, greedy.AreGreedy ∧ clauses.text = greedy.text := by
  have hinit : '\n' ∉ clauses.init := fun hmem => hline (List.mem_append_left _ hmem)
  have hcondition : '\n' ∉ clauses.condition := fun hmem => hline (by simp [Clauses.text, hmem])
  obtain ⟨found, hfound⟩ := exists_laterClauses? h.condition h.step hcondition
  obtain ⟨init, ⟨condition, step⟩, hread, -⟩ := Text.exists_stretch? h.init hinit hfound
  exact ⟨⟨init, condition, step⟩, (clauses?_eq_some_iff hline).mp hread⟩

theorem clauseLoop_reads : Reads clauseLoop ClauseLoop := by
  intro line hline written rest
  constructor
  · intro h
    obtain ⟨t, hlead, h⟩ := Option.bind_eq_some_iff.mp h
    obtain ⟨⟨clauses, after⟩, hopen, h⟩ := Option.bind_eq_some_iff.mp h
    obtain ⟨⟨init, condition, step⟩, hclauses, h⟩ := Option.bind_eq_some_iff.mp h
    cases h
    have ht := hline.of_suffix (Text.suffix_of_after? hlead)
    obtain ⟨hne, rfl, rfl⟩ := (untilOpening?_eq_some_iff ht).mp hopen
    have honeLine : '\n' ∉ clauses := fun hmem => ht.oneLine (List.mem_append_left _ hmem)
    obtain ⟨hgreedy, rfl⟩ := (clauses?_eq_some_iff honeLine).mp hclauses
    obtain rfl := Text.after?_eq_some_iff.mp hlead
    exact ⟨rfl, _, (List.append_assoc ..).symm, .mk hgreedy⟩
  · rintro ⟨rfl, s, rfl, hform⟩
    cases hform with
    | @mk clauses hgreedy =>
        rw [List.append_assoc] at hline ⊢
        have ht := hline.of_suffix (List.suffix_append _ (clauses.text ++ opening))
        have hne : clauses.text ≠ [] := by simp [Clauses.text]
        have hopen := (untilOpening?_eq_some_iff ht).mpr ⟨hne, rfl, rfl⟩
        have honeLine : '\n' ∉ clauses.text := fun hmem => ht.oneLine (List.mem_append_left _ hmem)
        have hclauses := (clauses?_eq_some_iff honeLine).mpr ⟨hgreedy, rfl⟩
        simp only [clauseLoop, Option.bind_eq_bind, Text.after?_append, Option.bind_some, hopen,
          hclauses, pure]

theorem forall₂_reads : List.Forall₂ Reads rules forms :=
  .cons conditional_reads (.cons indexedLoop_reads (.cons rangeLoop_reads (.cons clauseLoop_reads .nil)))

/-! ## The line as a whole -/

section

variable {rule : Rule} {form : Text → Text → Prop} {s : Text}

theorem Reads.exists_of_read (h : Reads rule form) (hline : OpensLast (s ++ opening))
    {earlier later : Text} {found : Text × Text} (hsplit : s ++ opening = earlier ++ later)
    (hread : rule later = some found) : ∃ rest written, s = earlier ++ rest ∧ form rest written := by
  obtain ⟨-, rest, rfl, hform⟩ := (h later (hline.of_suffix ⟨earlier, hsplit.symm⟩) _ _).mp hread
  rw [← List.append_assoc] at hsplit
  exact ⟨rest, found.1, List.append_cancel_right hsplit, hform⟩

theorem Reads.applyAll_of_not_stands (h : Reads rule form) (hline : OpensLast (s ++ opening))
    (hnot : ¬ Stands form s) : rule.applyAll (s ++ opening) = s ++ opening := by
  refine Rule.applyAll_of_forall_ne_some ?_
  intro earlier later found hsplit hread
  obtain ⟨rest, written, hs, hform⟩ := h.exists_of_read hline hsplit hread
  exact hnot ⟨earlier, rest, written, hs, hform⟩

theorem Reads.applyAll_of_isFirst (h : Reads rule form) {before rest written : Text}
    (hline : OpensLast (before ++ rest ++ opening))
    (hfirst : Text.IsFirst (fun _ rest => ∃ written, form rest written) before rest)
    (hform : form rest written) : rule.applyAll (before ++ rest ++ opening) = before ++ written := by
  have hread : rule (rest ++ opening) = some (written, []) :=
    (h _ (hline.of_suffix ⟨before, (List.append_assoc ..).symm⟩) _ _).mpr ⟨rfl, rest, rfl, hform⟩
  have hplace : Text.IsFirst (fun _ later => ∃ found, rule later = some found) before
      (rest ++ opening) := by
    refine ⟨⟨_, hread⟩, ?_⟩
    rintro earlier later hsplit ⟨found, hfound⟩
    rw [← List.append_assoc] at hsplit
    obtain ⟨other, text, hs, hother⟩ := h.exists_of_read hline hsplit hfound
    exact hfirst.least earlier other hs ⟨text, hother⟩
  have hne : rest ++ opening ≠ [] := by simp [opening]
  rw [List.append_assoc, Rule.applyAll_of_isFirst hplace hread ⟨_, hne, (List.append_nil _).symm⟩,
    Rule.applyAll_nil, List.append_nil]

end

theorem brace_not_mem_of_form {form : Text → Text → Prop} (hform : form ∈ forms) {s written : Text}
    (h : form s written) (hs : '{' ∉ s) : '{' ∉ written := by
  simp only [forms, List.mem_cons, List.not_mem_nil, or_false] at hform
  rcases hform with rfl | rfl | rfl | rfl
  · cases h
    simpa using hs
  · cases h
    simpa using hs
  · cases h
    simpa using hs
  · cases h
    simpa [Clauses.text] using hs

/-- Once a form has decided, no brace is left for later rules. -/
theorem foldl_of_decides {s written : Text} (hbrace : '{' ∉ s) (hline : '\n' ∉ s)
    {someRules : List Rule} {someForms : List (Text → Text → Prop)}
    (hreads : List.Forall₂ Reads someRules someForms) (hrules : someRules ⊆ rules)
    (hforms : someForms ⊆ forms) (h : Decides s someForms written) :
    someRules.foldl (fun line rule => rule.applyAll line) (s ++ opening) = written := by
  have hopens := opensLast_append_opening hbrace hline
  induction hreads with
  | nil =>
      cases h
      rfl
  | @cons rule form _ _ hrule _ ih =>
      obtain ⟨-, hlaterRules⟩ := List.cons_subset.mp hrules
      obtain ⟨hmem, hlaterForms⟩ := List.cons_subset.mp hforms
      rw [List.foldl_cons]
      cases h with
      | @here _ _ before rest written hs hfirst hform =>
          subst hs
          rw [List.mem_append, not_or] at hbrace
          rw [hrule.applyAll_of_isFirst hopens hfirst hform, foldl_eq_self hlaterRules]
          rw [List.mem_append, not_or]
          exact ⟨hbrace.1, brace_not_mem_of_form hmem hform hbrace.2⟩
      | next hnot h =>
          rw [hrule.applyAll_of_not_stands hopens hnot]
          exact ih hlaterRules hlaterForms h

theorem convert_opening_iff {s written : Text} (hbrace : '{' ∉ s) (hline : '\n' ∉ s) :
    convert (s ++ opening) = written ↔ Decides s forms written := by
  have hdecided {other : Text} (h : Decides s forms other) : convert (s ++ opening) = other :=
    foldl_of_decides hbrace hline forall₂_reads (List.Subset.refl _) (List.Subset.refl _) h
  refine ⟨?_, hdecided⟩
  rintro rfl
  obtain ⟨other, hother⟩ := exists_decides s forms
  rwa [hdecided hother]

/-- A condition is written as it stands, with a colon for the opening. -/
theorem Decides.eq_of_stands {s written : Text} {later : List (Text → Text → Prop)}
    (h : Decides s (Conditional :: later) written) (hstands : Stands Conditional s) :
    written = s ++ ":".toList := by
  cases h with
  | here hs hfirst hform =>
      cases hform
      rw [hs, List.append_assoc, List.append_assoc, List.append_assoc]
  | next hnot h => exact absurd hstands hnot

/-- The first form that stands before the opening decides, at its first place. So nothing is read as a
loop if a condition can be read anywhere, even in the name of a variable or in a clause that ends on
`if`. Three clauses make a loop however they are cut, and it is written for the greedy cut. -/
theorem convert_opening {s : Text} (hbrace : '{' ∉ s) (hline : '\n' ∉ s) :
    (∀ written, convert (s ++ opening) = written ↔ Decides s forms written) ∧
    (∀ before rest, s = before ++ "if ".toList ++ rest → rest ≠ [] →
      convert (s ++ opening) = s ++ ":".toList) ∧
    ∀ (before : Text) (clauses : Clauses), s = before ++ ("for ".toList ++ clauses.text) →
      clauses.AreFull → ∃ written, ClauseLoop ("for ".toList ++ clauses.text) written := by
  refine ⟨fun written => convert_opening_iff hbrace hline, ?_, ?_⟩
  · intro before rest hs hne
    have hstands : Stands Conditional s := ⟨before, _, _, by rw [hs, List.append_assoc], .mk hne⟩
    exact ((convert_opening_iff hbrace hline).mp rfl).eq_of_stands hstands
  · intro before clauses hs hfull
    have hclauses : '\n' ∉ clauses.text := by
      intro hmem
      exact hline (hs ▸ List.mem_append_right _ (List.mem_append_right _ hmem))
    obtain ⟨greedy, hgreedy, htext⟩ := hfull.exists_areGreedy hclauses
    rw [htext]
    exact ⟨_, .mk hgreedy⟩

theorem convert_opening_notif :
    '{' ∉ "for _, notif := range xs".toList ∧ '\n' ∉ "for _, notif := range xs".toList ∧
    Stands IndexedLoop "for _, notif := range xs".toList ∧
    convert ("for _, notif := range xs".toList ++ opening) = "for _, notif := range xs:".toList := by
  have hbrace : '{' ∉ "for _, notif := range xs".toList := by decide
  have hline : '\n' ∉ "for _, notif := range xs".toList := by decide
  have hloop : Stands IndexedLoop "for _, notif := range xs".toList :=
    ⟨[], _, _, rfl, @IndexedLoop.mk "_".toList "notif".toList "xs".toList (by decide) (by decide) (by simp)⟩
  exact ⟨hbrace, hline, hloop,
    (convert_opening hbrace hline).2.1 "for _, not".toList ":= range xs".toList rfl (by simp)⟩

example : convert "for a; b; c; d \x7b".toList = "for a; b in range(c, d):".toList := by
  decide +kernel

end Control

end Linewise
