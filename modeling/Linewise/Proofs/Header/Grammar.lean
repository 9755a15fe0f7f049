import Linewise.Header.Reader
import Linewise.Proofs.Text.Search
import Linewise.Proofs.Text.Words

/-!
The grammar of headers, and what the search for a header finds. Each piece of a header ends where a
character of another kind stands, so no text can be read in two ways. Main statement: the search finds
the leftmost method header and, where no method header stands anywhere in the line, the leftmost
function header.
-/
namespace Linewise

namespace Header

/-! ## The grammar -/

/-- The result that stands in what follows a parameter list: all of the word behind the white space. -/
inductive ResultAt : Text → Option Text → Prop
  | word {blanks word rest : Text} : (∀ c ∈ blanks, isSpace c = true) → word.IsWord →
      rest.head?.any isWord = false → ResultAt (blanks ++ word ++ rest) (some word)
  | none {blanks rest : Text} : (∀ c ∈ blanks, isSpace c = true) →
      rest.head?.any isSpace = false → rest.head?.any isWord = false →
      ResultAt (blanks ++ rest) none

/-- The text begins with the name, the parameters and the result of the header. -/
def IsSignature (header : Header) (s : Text) : Prop :=
  header.name.IsWord ∧ ')' ∉ header.params ∧ '\n' ∉ header.params ∧
    ∃ rest, ResultAt rest header.result ∧
      s = header.name ++ ['('] ++ header.params ++ [')'] ++ rest

/-- The text begins with the header of a function. -/
def IsFunction (header : Header) (s : Text) : Prop :=
  header.receiver = none ∧ ∃ blank signature : Text, blank.IsBlank ∧ header.IsSignature signature ∧
    s = keyword ++ blank ++ signature

/-- The text begins with the header of a method. -/
def IsMethod (header : Header) (s : Text) : Prop :=
  ∃ receiver : Receiver, header.receiver = some receiver ∧
    receiver.name.IsWord ∧ receiver.type.IsWord ∧
    ∃ first second third signature : Text, first.IsBlank ∧ second.IsBlank ∧ third.IsBlank ∧
      header.IsSignature signature ∧
      s = keyword ++ first ++ ['('] ++ receiver.name ++ second ++ ['*'] ++ receiver.type ++ [')'] ++
        third ++ signature

/-- Whether a header of the given kind stands somewhere in the line. -/
def Holds (kind : Header → Text → Prop) (line : Text) : Prop :=
  ∃ before rest header, line = before ++ rest ∧ kind header rest

/-- The header is the leftmost of its kind in the line. -/
def IsLeftmost (kind : Header → Text → Prop) (line : Text) (header : Header) : Prop :=
  ∃ before rest, line = before ++ rest ∧ kind header rest ∧
    ∀ earlier later other, line = earlier ++ later → kind other later →
      before.length ≤ earlier.length

/-! ## Readers -/

theorem resultAt_iff {s : Text} {result : Option Text} :
    s.skipSpaces.word?.map Prod.fst = result ↔ ResultAt s result := by
  constructor
  · rintro rfl
    have hs : s = s.takeWhile isSpace ++ s.skipSpaces := List.takeWhile_append_dropWhile.symm
    have hblanks : ∀ c ∈ s.takeWhile isSpace, isSpace c = true := fun _ => List.mem_takeWhile_imp
    cases hword : s.skipSpaces.word? with
    | none =>
        rw [hs]
        exact .none hblanks (Text.head?_dropWhile isSpace s) (Text.word?_eq_none_iff.mp hword)
    | some found =>
        obtain ⟨word, rest⟩ := found
        obtain ⟨hchars, happend, hrest⟩ := Text.word?_eq_some_iff_append.mp hword
        rw [hs, happend, ← List.append_assoc]
        exact .word hblanks hchars hrest
  · intro h
    cases h with
    | @word blanks word rest hblanks hword hrest =>
        have hskip : Text.skipSpaces (blanks ++ word ++ rest) = word ++ rest := by
          rw [List.append_assoc]
          exact Text.dropWhile_append_of_head? hblanks (hword.head?_append rest)
        rw [hskip, Text.word?_eq_some_iff_append.mpr ⟨hword, rfl, hrest⟩]
        rfl
    | @none blanks rest hblanks hspace hrest =>
        have hskip : Text.skipSpaces (blanks ++ rest) = rest :=
          Text.dropWhile_append_of_head? hblanks hspace
        rw [hskip, Text.word?_eq_none_iff.mpr hrest]
        rfl

theorem inParameters_iff {c : Char} : inParameters c = true ↔ c ≠ ')' ∧ c ≠ '\n' := by
  simp [inParameters]

theorem parameters?_eq_some_iff {s params rest : Text} :
    parameters? s = some (params, rest) ↔
      ')' ∉ params ∧ '\n' ∉ params ∧ s = params ++ [')'] ++ rest := by
  constructor
  · intro h
    obtain ⟨after, hafter, h⟩ := Option.bind_eq_some_iff.mp h
    cases h
    have hchars (c : Char) (hc : c ∈ s.takeWhile inParameters) : c ≠ ')' ∧ c ≠ '\n' :=
      inParameters_iff.mp (List.mem_takeWhile_imp hc)
    refine ⟨fun hc => (hchars _ hc).1 rfl, fun hc => (hchars _ hc).2 rfl, ?_⟩
    rw [List.append_assoc, ← Text.after?_eq_some_iff.mp hafter, List.takeWhile_append_dropWhile]
  · rintro ⟨hclose, hline, rfl⟩
    have hchars : ∀ c ∈ params, inParameters c = true := by
      intro c hc
      exact inParameters_iff.mpr ⟨fun h => hclose (h ▸ hc), fun h => hline (h ▸ hc)⟩
    have hstop : (')' :: rest).head?.any inParameters = false := rfl
    rw [parameters?, List.append_assoc, List.singleton_append,
      Text.takeWhile_append_of_head? hchars hstop, Text.dropWhile_append_of_head? hchars hstop,
      Text.after?_eq_some_iff.mpr List.singleton_append.symm]
    rfl

theorem signature?_eq_some_iff {receiver : Option Receiver} {s : Text} {header : Header} :
    signature? receiver s = some header ↔ header.receiver = receiver ∧ header.IsSignature s := by
  constructor
  · intro h
    obtain ⟨⟨name, afterName⟩, hname, h⟩ := Option.bind_eq_some_iff.mp h
    obtain ⟨inside, hinside, h⟩ := Option.bind_eq_some_iff.mp h
    obtain ⟨⟨params, rest⟩, hparams, h⟩ := Option.bind_eq_some_iff.mp h
    cases h
    obtain ⟨hword, rfl, -⟩ := Text.word?_eq_some_iff_append.mp hname
    obtain ⟨hclose, hline, rfl⟩ := parameters?_eq_some_iff.mp hparams
    obtain rfl := Text.after?_eq_some_iff.mp hinside
    exact ⟨rfl, hword, hclose, hline, rest, resultAt_iff.mp rfl, by simp only [List.append_assoc]⟩
  · rintro ⟨rfl, hword, hclose, hline, rest, hresult, rfl⟩
    have hname : Text.word? (header.name ++ ['('] ++ header.params ++ [')'] ++ rest) =
        some (header.name, ['('] ++ (header.params ++ [')'] ++ rest)) :=
      Text.word?_eq_some_iff_append.mpr ⟨hword, by simp only [List.append_assoc], rfl⟩
    have hinside := Text.after?_eq_some_iff.mpr (Eq.refl (['('] ++ (header.params ++ [')'] ++ rest)))
    have hparams := parameters?_eq_some_iff.mpr ⟨hclose, hline, Eq.refl (header.params ++ [')'] ++ rest)⟩
    simp only [signature?, Option.bind_eq_bind, hname, Option.bind_some, hinside, hparams,
      resultAt_iff.mpr hresult, pure]

theorem IsSignature.head?_isSpace {header : Header} {s : Text} (h : header.IsSignature s) :
    s.head?.any isSpace = false := by
  obtain ⟨hname, -, -, rest, -, rfl⟩ := h
  simp only [List.append_assoc]
  exact hname.head?_append _

theorem receiver?_eq_some_iff {s rest : Text} {receiver : Receiver} :
    receiver? s = some (receiver, rest) ↔ receiver.name.IsWord ∧ receiver.type.IsWord ∧
      ∃ blank : Text, blank.IsBlank ∧
        s = ['('] ++ receiver.name ++ blank ++ ['*'] ++ receiver.type ++ [')'] ++ rest := by
  constructor
  · intro h
    obtain ⟨inside, hinside, h⟩ := Option.bind_eq_some_iff.mp h
    obtain ⟨⟨name, afterName⟩, hname, h⟩ := Option.bind_eq_some_iff.mp h
    obtain ⟨pointer, hpointer, h⟩ := Option.bind_eq_some_iff.mp h
    obtain ⟨target, htarget, h⟩ := Option.bind_eq_some_iff.mp h
    obtain ⟨⟨type, afterType⟩, htype, h⟩ := Option.bind_eq_some_iff.mp h
    obtain ⟨outside, houtside, h⟩ := Option.bind_eq_some_iff.mp h
    cases h
    obtain ⟨hnameWord, rfl, -⟩ := Text.word?_eq_some_iff_append.mp hname
    obtain ⟨blank, hblank, rfl, -⟩ := Text.afterSpaces?_eq_some_iff.mp hpointer
    obtain ⟨htypeWord, rfl, -⟩ := Text.word?_eq_some_iff_append.mp htype
    obtain rfl := Text.after?_eq_some_iff.mp hinside
    obtain rfl := Text.after?_eq_some_iff.mp htarget
    obtain rfl := Text.after?_eq_some_iff.mp houtside
    exact ⟨hnameWord, htypeWord, blank, hblank, by simp only [List.append_assoc]⟩
  · rintro ⟨hnameWord, htypeWord, blank, hblank, rfl⟩
    obtain ⟨name, type⟩ := receiver
    have htype : Text.word? (type ++ ([')'] ++ rest)) = some (type, [')'] ++ rest) :=
      Text.word?_eq_some_iff_append.mpr ⟨htypeWord, rfl, rfl⟩
    have hpointer : Text.afterSpaces? (blank ++ (['*'] ++ (type ++ ([')'] ++ rest)))) =
        some (['*'] ++ (type ++ ([')'] ++ rest))) :=
      Text.afterSpaces?_eq_some_iff.mpr ⟨blank, hblank, rfl, rfl⟩
    have hname : Text.word? (name ++ (blank ++ (['*'] ++ (type ++ ([')'] ++ rest))))) =
        some (name, blank ++ (['*'] ++ (type ++ ([')'] ++ rest)))) :=
      Text.word?_eq_some_iff_append.mpr ⟨hnameWord, rfl, hblank.head?_append _⟩
    have hafter (c : Char) (t : Text) : Text.after? ([c] ++ t) [c] = some t :=
      Text.after?_eq_some_iff.mpr rfl
    simp only [receiver?, List.append_assoc, Option.bind_eq_bind, hafter, Option.bind_some, hname,
      hpointer, htype, pure]

theorem function?_eq_some_iff {s : Text} {header : Header} :
    function? s = some header ↔ header.IsFunction s := by
  constructor
  · intro h
    obtain ⟨afterKeyword, hkeyword, h⟩ := Option.bind_eq_some_iff.mp h
    obtain ⟨signature, hsignature, h⟩ := Option.bind_eq_some_iff.mp h
    obtain ⟨hreceiver, hsigned⟩ := signature?_eq_some_iff.mp h
    obtain ⟨blank, hblank, rfl, -⟩ := Text.afterSpaces?_eq_some_iff.mp hsignature
    obtain rfl := Text.after?_eq_some_iff.mp hkeyword
    exact ⟨hreceiver, blank, signature, hblank, hsigned, by simp only [List.append_assoc]⟩
  · rintro ⟨hreceiver, blank, signature, hblank, h, rfl⟩
    have hkeyword : Text.after? (keyword ++ blank ++ signature) keyword = some (blank ++ signature) :=
      Text.after?_eq_some_iff.mpr (by simp only [List.append_assoc])
    have hspaces : Text.afterSpaces? (blank ++ signature) = some signature :=
      Text.afterSpaces?_eq_some_iff.mpr ⟨blank, hblank, rfl, h.head?_isSpace⟩
    simp only [function?, Option.bind_eq_bind, hkeyword, Option.bind_some, hspaces,
      signature?_eq_some_iff.mpr ⟨hreceiver, h⟩]

theorem method?_eq_some_iff {s : Text} {header : Header} :
    method? s = some header ↔ header.IsMethod s := by
  constructor
  · intro h
    obtain ⟨afterKeyword, hkeyword, h⟩ := Option.bind_eq_some_iff.mp h
    obtain ⟨start, hstart, h⟩ := Option.bind_eq_some_iff.mp h
    obtain ⟨⟨receiver, afterReceiver⟩, hreceiver, h⟩ := Option.bind_eq_some_iff.mp h
    obtain ⟨signature, hsignature, h⟩ := Option.bind_eq_some_iff.mp h
    obtain ⟨hsome, hsigned⟩ := signature?_eq_some_iff.mp h
    obtain ⟨third, hthird, rfl, -⟩ := Text.afterSpaces?_eq_some_iff.mp hsignature
    obtain ⟨hname, htype, second, hsecond, rfl⟩ := receiver?_eq_some_iff.mp hreceiver
    obtain ⟨first, hfirst, rfl, -⟩ := Text.afterSpaces?_eq_some_iff.mp hstart
    obtain rfl := Text.after?_eq_some_iff.mp hkeyword
    exact ⟨receiver, hsome, hname, htype, first, second, third, signature, hfirst, hsecond, hthird,
      hsigned, by simp only [List.append_assoc]⟩
  · rintro ⟨receiver, hsome, hname, htype, first, second, third, signature, hfirst, hsecond, hthird, h,
      rfl⟩
    have hsignature : Text.afterSpaces? (third ++ signature) = some signature :=
      Text.afterSpaces?_eq_some_iff.mpr ⟨third, hthird, rfl, h.head?_isSpace⟩
    have hreceiver := receiver?_eq_some_iff.mpr ⟨hname, htype, second, hsecond,
      Eq.refl (['('] ++ receiver.name ++ second ++ ['*'] ++ receiver.type ++ [')'] ++
        (third ++ signature))⟩
    simp only [List.append_assoc] at hreceiver
    have hstart := Text.afterSpaces?_eq_some_iff.mpr ⟨first, hfirst, Eq.refl (first ++ (['('] ++
      (receiver.name ++ (second ++ (['*'] ++ (receiver.type ++ ([')'] ++ (third ++ signature)))))))), rfl⟩
    have hkeyword (t : Text) : Text.after? (keyword ++ t) keyword = some t :=
      Text.after?_eq_some_iff.mpr rfl
    simp only [method?, List.append_assoc, Option.bind_eq_bind, hkeyword, Option.bind_some, hstart,
      hreceiver, hsignature, signature?_eq_some_iff.mpr ⟨hsome, h⟩]

/-! ## The search -/

section

variable {read : Text → Option Header} {kind : Header → Text → Prop}
  (hread : ∀ s header, read s = some header ↔ kind header s) {line : Text}

include hread

theorem leftmost?_eq_some_iff {header : Header} :
    Text.leftmost? read line = some header ↔ IsLeftmost kind line header := by
  simp only [Text.leftmost?_eq_some_iff, IsLeftmost, hread, Option.eq_none_iff_forall_ne_some, ne_eq]
  constructor
  · rintro ⟨before, rest, hline, hkind, hfirst⟩
    refine ⟨before, rest, hline, hkind, ?_⟩
    intro earlier later other hsplit hother
    by_contra hlength
    exact hfirst earlier later hsplit (Nat.lt_of_not_le hlength) other hother
  · rintro ⟨before, rest, hline, hkind, hfirst⟩
    refine ⟨before, rest, hline, hkind, ?_⟩
    intro earlier later hsplit hlength other hother
    exact Nat.not_le_of_lt hlength (hfirst earlier later other hsplit hother)

theorem leftmost?_eq_none_iff : Text.leftmost? read line = none ↔ ¬ Holds kind line := by
  rw [Text.leftmost?_eq_none_iff]
  simp only [Option.eq_none_iff_forall_ne_some, ne_eq, hread]
  constructor
  · rintro hnone ⟨before, rest, header, hline, hkind⟩
    exact hnone rest ⟨before, hline.symm⟩ header hkind
  · rintro hnone rest ⟨before, hline⟩ header hkind
    exact hnone ⟨before, rest, header, hline.symm, hkind⟩

end

theorem IsLeftmost.holds {kind : Header → Text → Prop} {line : Text} {header : Header}
    (h : IsLeftmost kind line header) : Holds kind line := by
  obtain ⟨before, rest, hline, hkind, -⟩ := h
  exact ⟨before, rest, header, hline, hkind⟩

theorem find?_eq_some_iff {line : Text} {header : Header} :
    find? line = some header ↔ IsLeftmost IsMethod line header ∨
      ¬ Holds IsMethod line ∧ IsLeftmost IsFunction line header := by
  unfold find?
  split
  · rename_i found hfound
    have hholds := ((leftmost?_eq_some_iff @method?_eq_some_iff).mp hfound).holds
    rw [← hfound, leftmost?_eq_some_iff @method?_eq_some_iff]
    simp [hholds]
  · rename_i hnone
    have hnot := (leftmost?_eq_none_iff @method?_eq_some_iff).mp hnone
    have hmethod : ¬ IsLeftmost IsMethod line header := fun h => hnot h.holds
    rw [leftmost?_eq_some_iff @function?_eq_some_iff]
    simp [hnot, hmethod]

theorem find?_eq_none_iff {line : Text} :
    find? line = none ↔ ¬ Holds IsMethod line ∧ ¬ Holds IsFunction line := by
  rw [← leftmost?_eq_none_iff @method?_eq_some_iff, ← leftmost?_eq_none_iff @function?_eq_some_iff]
  unfold find?
  split <;> rename_i h <;> simp [h]

theorem IsLeftmost.receiver_ne_none {line : Text} {header : Header}
    (h : IsLeftmost IsMethod line header) : header.receiver ≠ none := by
  obtain ⟨-, -, -, ⟨receiver, hreceiver, -⟩, -⟩ := h
  simp [hreceiver]

theorem IsLeftmost.receiver_eq_none {line : Text} {header : Header}
    (h : IsLeftmost IsFunction line header) : header.receiver = none := by
  obtain ⟨-, -, -, ⟨hreceiver, -⟩, -⟩ := h
  exact hreceiver

/-- The search accepts exactly the grammar. A method header anywhere in the line goes before every
function header, and of the headers of one kind the leftmost is found, with the fields that the
grammar gives it. -/
theorem find?_accepts_grammar (line : Text) :
    (∀ header, find? line = some header ↔ IsLeftmost IsMethod line header ∨
      ¬ Holds IsMethod line ∧ IsLeftmost IsFunction line header) ∧
    ((∃ header, find? line = some header ∧ header.receiver ≠ none) ↔ Holds IsMethod line) ∧
    ((∃ header, find? line = some header ∧ header.receiver = none) ↔
      ¬ Holds IsMethod line ∧ Holds IsFunction line) ∧
    (find? line = none ↔ ¬ Holds IsMethod line ∧ ¬ Holds IsFunction line) := by
  refine ⟨fun _ => find?_eq_some_iff, ⟨?_, ?_⟩, ⟨?_, ?_⟩, find?_eq_none_iff⟩
  · rintro ⟨header, hfind, hreceiver⟩
    rcases find?_eq_some_iff.mp hfind with hmethod | ⟨-, hfunction⟩
    · exact hmethod.holds
    · exact absurd hfunction.receiver_eq_none hreceiver
  · intro hholds
    cases hfind : find? line with
    | none => exact absurd hholds (find?_eq_none_iff.mp hfind).1
    | some header =>
        rcases find?_eq_some_iff.mp hfind with hmethod | ⟨hnot, -⟩
        · exact ⟨header, rfl, hmethod.receiver_ne_none⟩
        · exact absurd hholds hnot
  · rintro ⟨header, hfind, hreceiver⟩
    rcases find?_eq_some_iff.mp hfind with hmethod | ⟨hnot, hfunction⟩
    · exact absurd hreceiver hmethod.receiver_ne_none
    · exact ⟨hnot, hfunction.holds⟩
  · rintro ⟨hnot, hholds⟩
    cases hfind : find? line with
    | none => exact absurd hholds (find?_eq_none_iff.mp hfind).2
    | some header =>
        rcases find?_eq_some_iff.mp hfind with hmethod | ⟨-, hfunction⟩
        · exact absurd hmethod.holds hnot
        · exact ⟨header, rfl, hfunction.receiver_eq_none⟩

example : find? "func f(func (s *Stack) Pop(n int)\tbool \x7b".toList =
    some ⟨some ⟨"s".toList, "Stack".toList⟩, "Pop".toList, "n int".toList, some "bool".toList⟩ := by
  decide +kernel

end Header

end Linewise
