import Linewise.Control
import Linewise.Declaration
import Linewise.Proofs.Docstring.FinalLine
import Linewise.Proofs.Header.Written

/-!
What becomes of definition lines once they are written. A keyword of the source is followed by a
blank, and in a settled text no keyword is. Main statement: later passes find the definition lines
and leave them as they are.
-/
namespace Linewise

/-! ## The words that constructs begin with -/

theorem Control.beginsWith_of_mem_rules {rule : Rule} (h : rule ∈ rules) :
    rule.BeginsWith "if ".toList ∨ rule.BeginsWith "for ".toList := by
  simp only [rules, List.mem_cons, List.not_mem_nil, or_false] at h
  rcases h with rfl | rfl | rfl | rfl
  · exact .inl (Rule.beginsWith_after? _ _)
  · exact .inr (Rule.beginsWith_after? _ _)
  · exact .inr (Rule.beginsWith_after? _ _)
  · exact .inr (Rule.beginsWith_after? _ _)

theorem Declaration.typed_beginsWith : typed.BeginsWith "var ".toList :=
  Rule.beginsWith_after? _ _

namespace Header

/-! ## Nothing can be read in a settled text -/

theorem Settled.after?_eq_none {s t : Text} (hs : Settled s) (ht : t <:+ s) (lead : Text)
    (c d : Char) (hc : isWord c = true) (hn : c ≠ 'n') (hd : isSpace d = true) :
    t.after? (lead ++ [c, d]) = none := by
  rw [Option.eq_none_iff_forall_ne_some]
  intro rest hrest
  have hsuffix : c :: d :: rest <:+ t := by
    rw [Text.after?_eq_some_iff.mp hrest, List.append_assoc]
    exact List.suffix_append lead (c :: d :: rest)
  exact hn (hs c d rest (hsuffix.trans ht) hc hd).1

theorem Settled.applyAll_eq_self {s : Text} (hs : Settled s) {rule : Rule} (lead : Text) (c : Char)
    (hrule : rule.BeginsWith (lead ++ [c, ' '])) (hc : isWord c = true) (hn : c ≠ 'n') :
    rule.applyAll s = s :=
  Rule.applyAll_eq_self fun t ht => hrule t (hs.after?_eq_none ht lead c ' ' hc hn rfl)

theorem Settled.find?_eq_none {s : Text} (hs : Settled s) : find? s = none := by
  have hkeyword (t : Text) (ht : t <:+ s) : (t.after? keyword).bind Text.afterSpaces? = none := by
    rw [Option.bind_eq_none_iff]
    intro rest hrest
    cases rest with
    | nil => rfl
    | cons d rest =>
        cases hd : isSpace d with
        | false => simp [Text.afterSpaces?, hd]
        | true =>
            have hsuffix : 'c' :: d :: rest <:+ t := by
              rw [Text.after?_eq_some_iff.mp hrest]
              exact List.suffix_append "fun".toList ('c' :: d :: rest)
            have hn := (hs 'c' d rest (hsuffix.trans ht) rfl hd).1
            exact absurd hn (by decide)
  have hmethod : Text.leftmost? method? s = none := by
    rw [Text.leftmost?_eq_none_iff]
    intro t ht
    simp only [method?, Option.bind_eq_bind, ← Option.bind_assoc, hkeyword t ht, Option.bind_none]
  have hfunction : Text.leftmost? function? s = none := by
    rw [Text.leftmost?_eq_none_iff]
    intro t ht
    simp only [function?, Option.bind_eq_bind, ← Option.bind_assoc, hkeyword t ht, Option.bind_none]
  simp only [find?, hmethod, hfunction]

theorem Settled.control_convert {s : Text} (hs : Settled s) : Control.convert s = s := by
  refine Rule.foldl_applyAll_eq_self ?_
  intro rule hrule
  rcases Control.beginsWith_of_mem_rules hrule with hif | hfor
  · exact hs.applyAll_eq_self ['i'] 'f' hif rfl (by decide)
  · exact hs.applyAll_eq_self ['f', 'o'] 'r' hfor rfl (by decide)

theorem Settled.short_eq_none {s t : Text} (hs : Settled s) (ht : t <:+ s) :
    Declaration.short t = none := by
  rw [Declaration.short, Option.bind_eq_bind, Option.bind_eq_none_iff]
  rintro ⟨word, rest⟩ hword
  have hrest : Declaration.value? rest = none := by
    rw [Declaration.value?, Option.bind_eq_bind, Option.bind_eq_none_iff]
    intro value hvalue
    -- The one blank that follows a word is itself followed by a word, not by the assignment.
    have hassign : rest = ' ' :: ':' :: '=' :: ' ' :: value := Text.after?_eq_some_iff.mp hvalue
    obtain ⟨hne, hchars⟩ := Text.isWord_of_word? hword
    have hsuffix : word.getLast hne :: ' ' :: ':' :: '=' :: ' ' :: value <:+ t := by
      rw [Text.append_of_word? hword, hassign]
      nth_rewrite 2 [← List.dropLast_concat_getLast hne]
      rw [List.append_assoc]
      exact List.suffix_append _ _
    have hcolon := (hs _ _ _ (hsuffix.trans ht) (hchars _ (List.getLast_mem hne)) rfl).2
    cases hcolon
  simp [hrest]

theorem Settled.declaration_convert {s : Text} (hs : Settled s) : Declaration.convert s = s := by
  have htyped := hs.applyAll_eq_self ['v', 'a'] 'r' Declaration.typed_beginsWith rfl (by decide)
  have hshort : Declaration.short.applyAll s = s :=
    Rule.applyAll_eq_self fun t ht => hs.short_eq_none ht
  rw [Declaration.convert_eq, htyped, hshort]

/-! ## Lines that were converted -/

theorem convertLine_eq_some {number : Nat} {line definition : Text}
    (h : (convertLine number line).outcome = .ok (some definition)) :
    Definition.isDefinition definition = true ∧ Settled definition := by
  cases hfind : find? line with
  | none =>
      rw [convertLine_of_none number hfind] at h
      cases h
  | some header =>
      rw [convertLine_of_some number hfind] at h
      obtain ⟨written, hconvert, h⟩ := Outcome.bind_eq_ok_iff.mp h
      obtain ⟨parameters, hread, hwritten⟩ := Outcome.bind_eq_ok_iff.mp hconvert
      cases h
      cases hwritten
      have hheader := find?_readable hfind
      exact ⟨Definition.isDefinition_definition hheader hread, settled_definition hheader hread⟩

theorem convertLine_eq_none_iff {number : Nat} {line : Text} :
    (convertLine number line).outcome = .ok none ↔ find? line = none := by
  constructor
  · intro h
    cases hfind : find? line with
    | none => rfl
    | some header =>
        rw [convertLine_of_some number hfind] at h
        obtain ⟨written, -, h⟩ := Outcome.bind_eq_ok_iff.mp h
        cases h
  · exact convertLine_of_none number

theorem Settled.convertLine_eq_none {s : Text} (hs : Settled s) (number : Nat) :
    (convertLine number s).outcome = .ok none :=
  convertLine_of_none number hs.find?_eq_none

theorem convertLine_getD {number : Nat} {line : Text} {definition : Option Text}
    (h : (convertLine number line).outcome = .ok definition) (other : Nat) :
    (convertLine other (definition.getD line)).outcome = .ok none := by
  cases definition with
  | none => exact convertLine_of_none other (convertLine_eq_none_iff.mp h)
  | some definition => exact (convertLine_eq_some h).2.convertLine_eq_none other

theorem convertFrom_convertFrom {number : Nat} {lines written : Lines}
    (h : (convertFrom number lines).outcome = .ok written) (other : Nat) :
    (convertFrom other written).outcome = .ok written := by
  induction lines generalizing number other written with
  | nil =>
      cases h
      rfl
  | cons line lines ih =>
      obtain ⟨definition, rest, hline, hrest, rfl⟩ := convertFrom_cons_eq_ok h
      rw [convertFrom_cons, convertLine_getD hline other, Outcome.ok_bind, ih hrest (other + 1)]
      rfl

theorem getElem?_of_convertFrom {number index : Nat} {lines written : Lines} {line : Text}
    {definition : Option Text} (h : (convertFrom number lines).outcome = .ok written)
    (hline : lines[index]? = some line)
    (hconvert : (convertLine (number + index) line).outcome = .ok definition) :
    written[index]? = some (definition.getD line) := by
  induction lines generalizing number index written with
  | nil => cases hline
  | cons head lines ih =>
      obtain ⟨first, rest, hfirst, hrest, rfl⟩ := convertFrom_cons_eq_ok h
      cases index with
      | zero =>
          obtain rfl : head = line := by simpa using hline
          obtain rfl : first = definition := Except.ok.inj (hfirst.symm.trans hconvert)
          rfl
      | succ index =>
          have hnumber : number + (index + 1) = number + 1 + index := by omega
          rw [hnumber] at hconvert
          rw [List.getElem?_cons_succ] at hline ⊢
          exact ih hrest hline hconvert

/-- A definition line that was written is recognised as one, holds no header any more, and is left
alone by the rules for control structures and declarations. So the pass over the headers does nothing
the second time, the docstring pass finds a span for every line that it wrote and keeps all of them in
order, except for one without a docstring that is dropped as the final line. -/
theorem written_definitions_stand :
    (∀ number line definition, (convertLine number line).outcome = .ok (some definition) →
      Definition.isDefinition definition = true ∧
      (∀ other, (convertLine other definition).outcome = .ok none) ∧
      Control.convert definition = definition ∧ Declaration.convert definition = definition) ∧
    (∀ lines written, (convertLines lines).outcome = .ok written →
      (convertLines written).outcome = .ok written ∧
      (∀ index line definition, lines[index]? = some line →
        (convertLine (index + 1) line).outcome = .ok (some definition) →
        written[index]? = some definition ∧
        ∃ spans, Span.collect written = .ok spans ∧ index ∈ spans.map Span.header) ∧
      ∀ keepFinalLine, ∃ promoted,
        (Docstring.promote keepFinalLine written).outcome = .ok promoted ∧
        ((keepFinalLine = true ∨ Docstring.endsDocumented written = true ∨
              written.getLast?.any Definition.isDefinition = false) ∧
            promoted.filter Definition.isDefinition = written.filter Definition.isDefinition ∨
          keepFinalLine = false ∧ Docstring.endsDocumented written = false ∧
            ∃ init last, written = init ++ [last] ∧ Definition.isDefinition last = true ∧
              promoted.filter Definition.isDefinition = init.filter Definition.isDefinition)) := by
  constructor
  · intro number line definition h
    obtain ⟨hdefinition, hsettled⟩ := convertLine_eq_some h
    exact ⟨hdefinition, hsettled.convertLine_eq_none, hsettled.control_convert,
      hsettled.declaration_convert⟩
  · intro lines written h
    refine ⟨convertFrom_convertFrom h 1, ?_, fun keepFinalLine => Docstring.promote_filter _ _⟩
    intro index line definition hline hconvert
    rw [Nat.add_comm] at hconvert
    have hwritten : written[index]? = some definition := getElem?_of_convertFrom h hline hconvert
    refine ⟨hwritten, Span.following [] written, Span.collect_eq_following written, ?_⟩
    rw [Span.map_header_following]
    exact Span.mem_headers_iff.mpr ⟨definition, hwritten, (convertLine_eq_some hconvert).1⟩

theorem written_definitions_stand_push :
    ∃ line definition, line = "func (s *Stack) Push(if:= func, for\x7b var) bool \x7b".toList ∧
      (convertLine 1 line).outcome = .ok (some definition) ∧
      Definition.isDefinition definition = true ∧
      (∀ other, (convertLine other definition).outcome = .ok none) ∧
      Control.convert definition = definition ∧ Declaration.convert definition = definition ∧
      (convertLines [line]).outcome = .ok [definition] ∧
      (convertLines [definition]).outcome = .ok [definition] := by
  have hline : (convertLine 1 "func (s *Stack) Push(if:= func, for\x7b var) bool \x7b".toList).outcome =
      .ok (some "fn Push(s, if:=: func, for\x7b: var) -> bool:".toList) := by decide +kernel
  have hlines : (convertLines ["func (s *Stack) Push(if:= func, for\x7b var) bool \x7b".toList]).outcome =
      .ok ["fn Push(s, if:=: func, for\x7b: var) -> bool:".toList] := by decide +kernel
  obtain ⟨hdefinition, hagain, hcontrol, hdeclaration⟩ := written_definitions_stand.1 1 _ _ hline
  exact ⟨_, _, rfl, hline, hdefinition, hagain, hcontrol, hdeclaration, hlines,
    (written_definitions_stand.2 _ _ hlines).1⟩

end Header

end Linewise
