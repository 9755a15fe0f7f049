import Linewise.Proofs.Docstring.Span

/-!
Docstrings in one forward pass. The pass keeps the comment lines that may still become a docstring
and decides about them at the next line that is no comment. Main statement: scanning backwards from
every definition and splicing afterwards gives the same lines.
-/
namespace Linewise

namespace Docstring

/-! ## The forward pass -/

/-- Whether a line holds a comment and nothing else. -/
def startsWithMarker (line : Text) : Bool :=
  line.trim.head? == some '#'

/-- A comment line as a line of a docstring. -/
def docLine (line : Text) : Text :=
  "    ".toList ++ Text.trim (line.trim.drop 1)

def quotes : Text := "    \"\"\"".toList

/-- A definition line, with the comment lines that wait for it as its docstring. -/
def documented (pending : Lines) (definition : Text) : Lines :=
  match pending with
  | [] => [definition]
  | _ :: _ => [definition, quotes] ++ pending.map docLine ++ [quotes]

/-- Goes over the lines once, with the comment lines `pending` held back. -/
def forward : Lines → Lines → Lines
  | pending, [] => pending
  | pending, line :: lines =>
    if startsWithMarker line then forward (pending ++ [line]) lines
    else if Definition.isDefinition line then documented pending line ++ forward [] lines
    else pending ++ [line] ++ forward [] lines

end Docstring

/-! ## Comment lines -/

namespace Comment

open Docstring (startsWithMarker)

theorem body?_eq (line : Text) :
    body? line = if startsWithMarker line then some (Text.trim (line.trim.drop 1)) else none := by
  unfold body? startsWithMarker
  cases line.trim with
  | nil => rfl
  | cons c s =>
      by_cases hc : c = '#'
      · subst hc
        have h : Text.after? ('#' :: s) targetMarker = some s := Text.after?_eq_some_iff.mpr rfl
        simp [h]
      · have h : Text.after? (c :: s) targetMarker = none := by
          rw [Option.eq_none_iff_forall_ne_some]
          intro rest hrest
          exact hc (List.cons.inj (Text.after?_eq_some_iff.mp hrest)).1
        simp [h, hc]

theorem isComment_eq (line : Text) : isComment line = startsWithMarker line := by
  rw [isComment, body?_eq]
  cases startsWithMarker line <;> rfl

theorem isComment_of_isDefinition {line : Text} (h : Definition.isDefinition line = true) :
    isComment line = false := by
  obtain ⟨s, hs, -⟩ := (Option.any_eq_true _ _).mp h
  obtain ⟨rest, hrest, -⟩ := Option.bind_eq_some_iff.mp hs
  have hline : line = 'f' :: 'n' :: ' ' :: rest := Text.after?_eq_some_iff.mp hrest
  -- No white space stands before the keyword, so the trimmed line begins with it too.
  have htrim : line.trim <+: line := by
    have hskip : line.skipSpaces = line := by
      rw [hline, Text.skipSpaces, List.dropWhile_cons_of_neg (by decide)]
    rw [Text.trim, hskip]
    exact List.rdropWhile_prefix isSpace line
  rw [isComment_eq, startsWithMarker]
  cases ht : line.trim with
  | nil => rfl
  | cons c s =>
      rw [ht, hline, List.cons_prefix_cons] at htrim
      rw [htrim.1]
      rfl

theorem isDefinition_of_isComment {line : Text} (h : isComment line = true) :
    Definition.isDefinition line = false := by
  cases hd : Definition.isDefinition line with
  | false => rfl
  | true => rw [isComment_of_isDefinition hd] at h; cases h

end Comment

namespace Docstring

/-! ## The splice of one block -/

theorem body_eq_map {block : Lines} (number : Nat)
    (h : ∀ line ∈ block, Comment.isComment line = true) : body number block = .ok (block.map docLine) := by
  induction block generalizing number with
  | nil => rfl
  | cons line block ih =>
      have hline : startsWithMarker line = true := by
        rw [← Comment.isComment_eq]
        exact h line (by simp)
      have hblock := ih (number + 1) fun l hl => h l (by simp [hl])
      simp only [body, Comment.body?_eq, hline, ↓reduceIte, hblock]
      rfl

theorem ofSpan_block {before block rest : Lines}
    (h : ∀ line ∈ block, Comment.isComment line = true) :
    ofSpan (before ++ block ++ rest) ⟨before.length, (before ++ block).length⟩ =
      .ok (quotes :: block.map docLine ++ [quotes]) := by
  have hblock : (before ++ block ++ rest).extract before.length (before ++ block).length = block := by
    simp [List.extract_eq_take_drop]
  simp only [ofSpan, hblock, body_eq_map _ h]
  rfl

theorem spliceFrom_of_isEmpty {span : Span} (lines : Lines) (stop cursor : Nat) (spans : List Span)
    (h : span.isEmpty = true) :
    spliceFrom lines stop cursor (span :: spans) = spliceFrom lines stop cursor spans := by
  rw [spliceFrom, if_pos h]

theorem spliceFrom_of_bounds {lines : Lines} {cursor : Nat} {span : Span} {definition : Text}
    (stop : Nat) (spans : List Span) (hne : span.isEmpty = false)
    (hdefinition : lines[span.header]? = some definition)
    (hbounds : cursor ≤ span.start ∧ span.start ≤ span.header) :
    (spliceFrom lines stop cursor (span :: spans)).outcome = ofSpan lines span >>= fun docstring =>
      (spliceFrom lines stop (span.header + 1) spans).outcome >>= fun later =>
        .ok (lines.extract cursor span.start ++ definition :: docstring ++ later) := by
  simp only [spliceFrom, hne, Bool.false_eq_true, ↓reduceIte, hdefinition, if_pos hbounds,
    Logged.outcome_bind, Logged.outcome_lift, Logged.outcome_record, Logged.outcome_pure,
    Outcome.ok_bind]

theorem spliceFrom_block {before block rest : Lines} {definition : Text} {cursor : Nat}
    (stop : Nat) (spans : List Span) (hcursor : cursor ≤ before.length) (hne : block ≠ [])
    (hblock : ∀ line ∈ block, Comment.isComment line = true) :
    (spliceFrom (before ++ block ++ definition :: rest) stop cursor
      (⟨before.length, (before ++ block).length⟩ :: spans)).outcome =
    (spliceFrom (before ++ block ++ definition :: rest) stop ((before ++ block).length + 1)
      spans).outcome >>= fun later =>
        .ok (before.drop cursor ++ documented block definition ++ later) := by
  have hcopied : (before ++ block ++ definition :: rest).extract cursor before.length =
      before.drop cursor := by
    rw [List.append_assoc, List.extract_eq_take_drop, List.drop_append_of_le_length hcursor,
      List.take_left' (by simp)]
  have hdocumented : documented block definition =
      definition :: (quotes :: block.map docLine ++ [quotes]) := by
    cases block with
    | nil => exact absurd rfl hne
    | cons line block => rfl
  have hheader : (before ++ block ++ definition :: rest)[(before ++ block).length]? =
      some definition := by simp
  rw [spliceFrom_of_bounds stop spans (by simpa [Span.isEmpty] using hne) hheader
    ⟨hcursor, by simp⟩, ofSpan_block hblock, Outcome.ok_bind, hcopied, hdocumented]

/-! ## The splice as a whole -/

/-- The comment lines `pending` are all that a scan from the next definition would find. The cursor
may lag behind them, and then the lines in between are still to be written. -/
theorem spliceFrom_following (before pending rest : Lines) {cursor : Nat}
    (hbefore : before.rdropWhile Comment.isComment = before)
    (hpending : ∀ line ∈ pending, Comment.isComment line = true) (hcursor : cursor ≤ before.length) :
    (spliceFrom (before ++ pending ++ rest) (before ++ pending ++ rest).length cursor
      (Span.following (before ++ pending) rest)).outcome =
      .ok (before.drop cursor ++ forward pending rest) := by
  induction rest generalizing before pending cursor with
  | nil =>
      have hcopied : (before ++ pending).extract cursor (before ++ pending).length =
          before.drop cursor ++ pending := by
        rw [List.extract_eq_take_drop, List.take_of_length_le (by simp),
          List.drop_append_of_le_length hcursor]
      simp only [List.append_nil, Span.following, spliceFrom, Logged.outcome_pure, hcopied, forward]
  | cons line rest ih =>
      have hnext : before ++ pending ++ line :: rest = before ++ pending ++ [line] ++ rest := by simp
      cases hcomment : Comment.isComment line with
      | true =>
          have hmarker : startsWithMarker line = true := by rw [← Comment.isComment_eq, hcomment]
          have hdefinition := Comment.isDefinition_of_isComment hcomment
          have hlater := ih before (pending ++ [line]) hbefore
            (by simpa [or_imp, forall_and, hcomment] using hpending) hcursor
          rw [← List.append_assoc] at hlater
          simp only [Span.following, hdefinition, Bool.false_eq_true, ↓reduceIte, forward, hmarker]
          rw [hnext, hlater]
      | false =>
          have hmarker : startsWithMarker line = false := by rw [← Comment.isComment_eq, hcomment]
          have hlast : (before ++ pending ++ [line]).rdropWhile Comment.isComment =
              before ++ pending ++ [line] :=
            List.rdropWhile_concat_neg _ _ _ (by simp [hcomment])
          have hlater (c : Nat) (hc : c ≤ (before ++ pending ++ [line]).length) :=
            ih (before ++ pending ++ [line]) [] hlast (by simp) hc
          simp only [List.append_nil] at hlater
          -- Where no docstring is written, the cursor stays and the line is copied later.
          have hcopied := hlater cursor (by simp; omega)
          have hdrop : (before ++ pending ++ [line]).drop cursor =
              before.drop cursor ++ pending ++ [line] := by
            rw [List.append_assoc, List.drop_append_of_le_length hcursor, List.append_assoc]
          rw [hdrop] at hcopied
          cases hdefinition : Definition.isDefinition line with
          | false =>
              simp only [Span.following, hdefinition, Bool.false_eq_true, ↓reduceIte, forward,
                hmarker]
              rw [hnext, hcopied]
              simp
          | true =>
              have hscan : (before ++ pending).rdropWhile Comment.isComment = before := by
                rw [Span.rdropWhile_append_block _ hpending, hbefore]
              simp only [Span.following, hdefinition, Bool.false_eq_true, ↓reduceIte, forward,
                hmarker, hscan]
              cases pending with
              | nil =>
                  rw [spliceFrom_of_isEmpty _ _ _ _ (by simp [Span.isEmpty]), hnext, hcopied]
                  simp [documented]
              | cons comment pending =>
                  rw [spliceFrom_block _ _ hcursor (by simp) hpending, hnext]
                  have hdone := hlater ((before ++ comment :: pending).length + 1)
                    (by simp [Nat.add_assoc])
                  rw [List.drop_of_length_le (by simp [Nat.add_assoc]), List.nil_append] at hdone
                  rw [hdone, Outcome.ok_bind, List.append_assoc]

theorem splice_following (lines : Lines) :
    (splice true lines (Span.following [] lines)).outcome = .ok (forward [] lines) :=
  spliceFrom_following [] [] lines rfl (by simp) (Nat.le_refl 0)

theorem promote_outcome (keepFinalLine : Bool) (lines : Lines) :
    (promote keepFinalLine lines).outcome =
      (splice keepFinalLine lines (Span.following [] lines)).outcome := by
  simp only [promote, Span.collect_eq_following, Logged.outcome_bind, Logged.outcome_lift,
    Outcome.ok_bind]

/-- Two stages, one of them backwards, do what one forward pass does. -/
theorem promote_eq_forward (lines : Lines) :
    (promote true lines).outcome = .ok (forward [] lines) := by
  rw [promote_outcome, splice_following]

/-! ## Lines that end a block -/

/-- Nothing moves across a line that is neither a comment nor a definition. -/
theorem forward_append_cons {line : Text} (pending lines later : Lines)
    (hmarker : startsWithMarker line = false) (hdefinition : Definition.isDefinition line = false) :
    forward pending (lines ++ line :: later) = forward pending lines ++ line :: forward [] later := by
  induction lines generalizing pending with
  | nil => simp [forward, hmarker, hdefinition]
  | cons first lines ih =>
      rw [List.cons_append, forward, forward]
      split
      · exact ih (pending ++ [first])
      · split
        · rw [ih [], List.append_assoc]
        · rw [ih [], List.append_assoc (pending ++ [first])]

theorem forward_ne_nil {pending lines : Lines} (h : pending ++ lines ≠ []) :
    forward pending lines ≠ [] := by
  induction lines generalizing pending with
  | nil => simpa [forward] using h
  | cons line lines ih =>
      rw [forward]
      split
      · exact ih (by simp)
      · split
        · cases pending <;> simp [documented]
        · simp

end Docstring

end Linewise
