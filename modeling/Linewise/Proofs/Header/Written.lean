import Linewise.Header.Convert
import Linewise.Proofs.Header.Fault
import Linewise.Proofs.Text.Words
import Mathlib.Data.List.Chain

/-!
The definition lines that headers are written as. Whatever a parameter is called, white space stands
only after punctuation, apart from the one blank after `fn`; and such a line is recognised again.
-/
namespace Linewise

/-! ## What a reader finds -/

namespace Header

/-- What is known about the pieces of a header that was read. -/
structure Readable (header : Header) : Prop where
  receiver : ∀ receiver ∈ header.receiver, receiver.name.IsWord
  name : header.name.IsWord
  params : ∀ c ∈ header.params, inParameters c = true
  result : ∀ type ∈ header.result, type.IsWord

theorem Readable.isWord_of_mem_receiver {header : Header} (h : header.Readable) {name : Text}
    (hname : name ∈ (header.receiver.map Receiver.name).toList.filter (!·.isEmpty)) : name.IsWord := by
  have hsome := Option.mem_toList.mp (List.mem_filter.mp hname).1
  obtain ⟨receiver, hreceiver, rfl⟩ := Option.map_eq_some_iff.mp hsome
  exact h.receiver receiver hreceiver

theorem signature?_readable {receiver : Option Receiver} {s : Text} {header : Header}
    (hreceiver : ∀ r ∈ receiver, r.name.IsWord) (h : signature? receiver s = some header) :
    header.Readable := by
  obtain ⟨⟨name, s⟩, hname, h⟩ := Option.bind_eq_some_iff.mp h
  obtain ⟨s, -, h⟩ := Option.bind_eq_some_iff.mp h
  obtain ⟨⟨params, s⟩, hparams, h⟩ := Option.bind_eq_some_iff.mp h
  obtain ⟨rest, -, hparams⟩ := Option.bind_eq_some_iff.mp hparams
  cases h
  cases hparams
  refine ⟨hreceiver, Text.isWord_of_word? hname, ?_, ?_⟩
  · intro c hc
    exact List.mem_takeWhile_imp hc
  · intro type htype
    obtain ⟨⟨word, after⟩, hword, rfl⟩ := Option.map_eq_some_iff.mp htype
    exact Text.isWord_of_word? hword

theorem function?_readable {s : Text} {header : Header} (h : function? s = some header) :
    header.Readable := by
  obtain ⟨s, -, h⟩ := Option.bind_eq_some_iff.mp h
  obtain ⟨s, -, h⟩ := Option.bind_eq_some_iff.mp h
  exact signature?_readable (by simp) h

theorem method?_readable {s : Text} {header : Header} (h : method? s = some header) :
    header.Readable := by
  obtain ⟨s, -, h⟩ := Option.bind_eq_some_iff.mp h
  obtain ⟨s, -, h⟩ := Option.bind_eq_some_iff.mp h
  obtain ⟨⟨receiver, s⟩, hreceiver, h⟩ := Option.bind_eq_some_iff.mp h
  obtain ⟨s, -, h⟩ := Option.bind_eq_some_iff.mp h
  refine signature?_readable ?_ h
  obtain ⟨s, -, hreceiver⟩ := Option.bind_eq_some_iff.mp hreceiver
  obtain ⟨⟨name, s⟩, hname, hreceiver⟩ := Option.bind_eq_some_iff.mp hreceiver
  obtain ⟨s, -, hreceiver⟩ := Option.bind_eq_some_iff.mp hreceiver
  obtain ⟨s, -, hreceiver⟩ := Option.bind_eq_some_iff.mp hreceiver
  obtain ⟨⟨type, s⟩, -, hreceiver⟩ := Option.bind_eq_some_iff.mp hreceiver
  obtain ⟨s, -, hreceiver⟩ := Option.bind_eq_some_iff.mp hreceiver
  cases hreceiver
  intro r hr
  cases hr
  exact Text.isWord_of_word? hname

theorem find?_readable {line : Text} {header : Header} (h : find? line = some header) :
    header.Readable := by
  obtain ⟨t, -, hread | hread⟩ := exists_of_find? h
  · exact method?_readable hread
  · exact function?_readable hread

end Header

namespace Parameter

theorem ofEntry_eq_ok {number : Nat} {entry : Text} {parameter : Parameter}
    (h : ofEntry number entry = .ok parameter) : entry.tokens = [parameter.name, parameter.type] := by
  unfold ofEntry ofEntry? at h
  split at h
  · rename_i found hfound
    split at hfound
    · rename_i htokens
      cases hfound
      cases h
      exact htokens
    · cases hfound
  · cases h

theorem readAll_chars {number : Nat} {params : Text} {parameters : List Parameter}
    (h : readAll number params = .ok parameters) : ∀ parameter ∈ parameters,
      (∀ c ∈ parameter.name, isSpace c = false ∧ c ∈ params) ∧
        ∀ c ∈ parameter.type, isSpace c = false ∧ c ∈ params := by
  intro parameter hmem
  unfold readAll at h
  split at h
  · cases h
    cases hmem
  · obtain ⟨entry, hentry, hok⟩ := Outcome.exists_of_mem_mapM h hmem
    have hpair := ofEntry_eq_ok hok
    have htoken {token : Text} (htoken : token ∈ entry.tokens) :
        ∀ c ∈ token, isSpace c = false ∧ c ∈ params := by
      intro c hc
      have hchar := Text.mem_of_mem_tokens htoken c hc
      exact ⟨hchar.1, (Text.mem_of_mem_splitOn hentry c hchar.2).2⟩
    exact ⟨htoken (by simp [hpair]), htoken (by simp [hpair])⟩

end Parameter

/-! ## Tidy texts -/

/-- One line in which white space never follows a word character. -/
structure Tidy (s : Text) : Prop where
  spaced : s.IsChain fun c d => isSpace d = true → isWord c = false
  oneLine : '\n' ∉ s

namespace Tidy

theorem append {s t : Text} (hs : Tidy s) (ht : Tidy t)
    (h : s.getLast?.any isWord = false ∨ t.head?.any isSpace = false) : Tidy (s ++ t) := by
  refine ⟨List.isChain_append.mpr ⟨hs.spaced, ht.spaced, ?_⟩, ?_⟩
  · intro c hc d hd hspace
    rw [Option.mem_def] at hc hd
    rcases h with h | h
    · rwa [hc] at h
    · rw [hd, Option.any_some, hspace] at h
      cases h
  · simp [hs.oneLine, ht.oneLine]

theorem of_not_isSpace {s : Text} (h : ∀ c ∈ s, isSpace c = false) : Tidy s := by
  constructor
  · induction s with
    | nil => exact List.isChain_nil
    | cons c s ih =>
        refine List.isChain_cons.mpr ⟨?_, ih fun d hd => h d (List.mem_cons_of_mem c hd)⟩
        intro d hd hspace
        rw [h d (List.mem_cons_of_mem c (List.mem_of_mem_head? hd))] at hspace
        cases hspace
  · intro hmem
    have hspace := h '\n' hmem
    exact absurd hspace (by decide)

theorem of_isWord {w : Text} (h : w.IsWord) : Tidy w :=
  of_not_isSpace fun c hc => isSpace_of_isWord (h.chars c hc)

theorem nil : Tidy [] :=
  ⟨List.isChain_nil, List.not_mem_nil⟩

theorem cons {s : Text} (hs : Tidy s) (c : Char) (hc : isWord c = false) (hline : c ≠ '\n') :
    Tidy (c :: s) := by
  refine ⟨List.isChain_cons.mpr ⟨fun _ _ _ => hc, hs.spaced⟩, ?_⟩
  simp [Ne.symm hline, hs.oneLine]

theorem append_cons {c : Char} {s t : Text} (hs : Tidy s) (ht : Tidy (c :: t))
    (hc : isSpace c = false) : Tidy (s ++ c :: t) :=
  hs.append ht (.inr (by simpa using hc))

theorem blank : Tidy [' '] :=
  nil.cons ' ' rfl (by decide)

theorem comma : Tidy ", ".toList :=
  blank.cons ',' rfl (by decide)

theorem colon : Tidy ": ".toList :=
  blank.cons ':' rfl (by decide)

theorem arrow : Tidy " -> ".toList :=
  ((blank.cons '>' rfl (by decide)).cons '-' rfl (by decide)).cons ' ' rfl (by decide)

theorem intercalate {pieces : List Text} (h : ∀ piece ∈ pieces, Tidy piece) :
    Tidy (", ".toList.intercalate pieces) := by
  induction pieces with
  | nil => exact nil
  | cons piece pieces ih =>
      have hpiece := h piece List.mem_cons_self
      have hpieces := ih fun other hother => h other (List.mem_cons_of_mem piece hother)
      cases pieces with
      | nil =>
          rw [List.intercalate_singleton]
          exact hpiece
      | cons next pieces =>
          rw [List.intercalate_cons_cons]
          have hcomma : Tidy (piece ++ ", ".toList) := hpiece.append comma (.inr rfl)
          exact hcomma.append hpieces (.inl (by rw [List.getLast?_append]; rfl))

end Tidy

/-! ## The line as it is written -/

namespace Header

theorem definition_eq (header : Header) (parameters : List Parameter) :
    header.definition parameters = 'f' :: 'n' :: ' ' :: (header.name ++ '(' ::
      (", ".toList.intercalate (header.arguments parameters) ++ ')' :: (header.returns ++ [':']))) := by
  delta definition
  simp

theorem tidy_annotated {parameter : Parameter} (hname : ∀ c ∈ parameter.name, isSpace c = false)
    (htype : ∀ c ∈ parameter.type, isSpace c = false) : Tidy parameter.annotated := by
  have hcolon : Tidy (parameter.name ++ ": ".toList) :=
    (Tidy.of_not_isSpace hname).append Tidy.colon (.inr rfl)
  exact hcolon.append (Tidy.of_not_isSpace htype) (.inl (by rw [List.getLast?_append]; rfl))

theorem tidy_arguments {header : Header} {number : Nat} {parameters : List Parameter}
    (hheader : header.Readable) (hread : Parameter.readAll number header.params = .ok parameters) :
    ∀ argument ∈ header.arguments parameters, Tidy argument := by
  intro argument hargument
  rcases List.mem_append.mp hargument with hreceiver | hparameter
  · exact Tidy.of_isWord (hheader.isWord_of_mem_receiver hreceiver)
  · obtain ⟨parameter, hmem, rfl⟩ := List.mem_map.mp hparameter
    have hchars := Parameter.readAll_chars hread parameter hmem
    exact tidy_annotated (fun c hc => (hchars.1 c hc).1) (fun c hc => (hchars.2 c hc).1)

theorem tidy_returns {header : Header} (h : header.Readable) : Tidy (header.returns ++ [':']) := by
  have hcolon : Tidy [':'] := Tidy.nil.cons ':' rfl (by decide)
  refine Tidy.append_cons ?_ hcolon rfl
  cases hresult : header.result with
  | none =>
      simp only [returns, hresult]
      exact Tidy.nil
  | some type =>
      simp only [returns, hresult]
      exact Tidy.arrow.append (Tidy.of_isWord (h.result type hresult)) (.inl rfl)

/-- White space comes after punctuation, except that an `n` may stand before it and a word after. -/
def Settled (s : Text) : Prop :=
  ∀ c d rest, c :: d :: rest <:+ s → isWord c = true → isSpace d = true →
    c = 'n' ∧ rest.head?.any isWord = true

theorem settled_of_tidy {body : Text} (htidy : Tidy body) (hhead : body.head?.any isWord = true) :
    Settled ('f' :: 'n' :: ' ' :: body) := by
  -- The first three characters one by one, then the pairs of the tidy rest.
  intro c d rest hsuffix hc hd
  rcases List.suffix_cons_iff.mp hsuffix with heq | hsuffix
  · obtain ⟨-, h⟩ := List.cons.inj heq
    obtain ⟨rfl, -⟩ := List.cons.inj h
    exact absurd hd (by decide)
  · rcases List.suffix_cons_iff.mp hsuffix with heq | hsuffix
    · obtain ⟨rfl, h⟩ := List.cons.inj heq
      obtain ⟨-, rfl⟩ := List.cons.inj h
      exact ⟨rfl, hhead⟩
    · rcases List.suffix_cons_iff.mp hsuffix with heq | hsuffix
      · obtain ⟨rfl, -⟩ := List.cons.inj heq
        exact absurd hc (by decide)
      · have hpair := List.isChain_cons_cons.mp (htidy.spaced.suffix hsuffix)
        rw [hpair.1 hd] at hc
        cases hc

theorem settled_definition {header : Header} {number : Nat} {parameters : List Parameter}
    (hheader : header.Readable) (hread : Parameter.readAll number header.params = .ok parameters) :
    Settled (header.definition parameters) := by
  rw [definition_eq]
  apply settled_of_tidy
  · have hending : Tidy (')' :: (header.returns ++ [':'])) :=
      (tidy_returns hheader).cons ')' rfl (by decide)
    have harguments := Tidy.intercalate (tidy_arguments hheader hread)
    have hopen := (harguments.append_cons hending rfl).cons '(' rfl (by decide)
    exact (Tidy.of_isWord hheader.name).append_cons hopen rfl
  · cases hname : header.name with
    | nil => exact absurd hname hheader.name.nonempty
    | cons c name => simpa using hheader.name.chars c (by simp [hname])

end Header

/-! ## Such a line is recognised -/

namespace Definition

theorem isEnding_returns {header : Header} (h : header.Readable) :
    isEnding (header.returns ++ [':']) = true := by
  cases hresult : header.result with
  | none => simp [Header.returns, hresult, isEnding]
  | some type =>
      have hafter : Text.after? (" -> ".toList ++ type ++ [':']) " -> ".toList =
          some (type ++ [':']) := Text.after?_eq_some_iff.mpr (by simp)
      have hword := (h.result type hresult).word?_append ':' [] rfl
      simp only [Header.returns, hresult, isEnding, hafter, Option.bind_eq_bind, Option.bind_some,
        hword, beq_self_eq_true, Bool.or_true]

theorem closes_append {s t : Text} (hline : '\n' ∉ s) (h : closes t = true) :
    closes (s ++ t) = true := by
  induction s with
  | nil => exact h
  | cons c s ih =>
      obtain ⟨hc, hs⟩ := List.ne_and_not_mem_of_not_mem_cons hline
      simp [closes, Ne.symm hc, ih hs]

theorem isDefinition_definition {header : Header} {number : Nat} {parameters : List Parameter}
    (hheader : header.Readable) (hread : Parameter.readAll number header.params = .ok parameters) :
    isDefinition (header.definition parameters) = true := by
  have hcloses : closes (", ".toList.intercalate (header.arguments parameters) ++
      ')' :: (header.returns ++ [':'])) = true := by
    apply closes_append (Tidy.intercalate (Header.tidy_arguments hheader hread)).oneLine
    simp [closes, isEnding_returns hheader]
  have hword := hheader.name.word?_append '(' (", ".toList.intercalate (header.arguments parameters) ++
    ')' :: (header.returns ++ [':'])) rfl
  have hopening : opening? (header.definition parameters) =
      some (", ".toList.intercalate (header.arguments parameters) ++
        ')' :: (header.returns ++ [':'])) := by
    rw [Header.definition_eq, opening?]
    have hfn (s : Text) : Text.after? ('f' :: 'n' :: ' ' :: s) "fn ".toList = some s :=
      Text.after?_eq_some_iff.mpr rfl
    have hparen (s : Text) : Text.after? ('(' :: s) ['('] = some s :=
      Text.after?_eq_some_iff.mpr rfl
    simp only [hfn, Option.bind_eq_bind, Option.bind_some, hword, hparen]
  rw [isDefinition, hopening]
  exact hcloses

end Definition

end Linewise
