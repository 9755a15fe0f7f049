import Linewise.Proofs.Header.Written
import Linewise.Proofs.Text.Marks

/-! Slashes and braces in definition lines. They come from the parameters, each of which is written with
punctuation around it. -/
namespace Linewise

/-! ## Where parameters stand -/

namespace Header

theorem signature?_params {receiver : Option Receiver} {s : Text} {header : Header}
    (h : signature? receiver s = some header) : header.params <:+: s := by
  obtain ⟨⟨name, afterName⟩, hname, h⟩ := Option.bind_eq_some_iff.mp h
  obtain ⟨inside, hinside, h⟩ := Option.bind_eq_some_iff.mp h
  obtain ⟨⟨params, afterParams⟩, hparams, h⟩ := Option.bind_eq_some_iff.mp h
  obtain ⟨rest, -, hparams⟩ := Option.bind_eq_some_iff.mp hparams
  cases h
  cases hparams
  have hsuffix : inside <:+ s := (Text.suffix_of_after? hinside).trans (Text.suffix_of_word? hname)
  exact (List.takeWhile_prefix inParameters).isInfix.trans hsuffix.isInfix

/-- Where the parameters of a header stand: `inside` is what follows the keyword and white space. -/
def HasParamsAfter (s : Text) (header : Header) : Prop :=
  ∃ afterKeyword inside, s.after? keyword = some afterKeyword ∧
    afterKeyword.afterSpaces? = some inside ∧ header.params <:+: inside

theorem function?_params {s : Text} {header : Header} (h : function? s = some header) :
    HasParamsAfter s header := by
  obtain ⟨afterKeyword, hkeyword, h⟩ := Option.bind_eq_some_iff.mp h
  obtain ⟨inside, hinside, h⟩ := Option.bind_eq_some_iff.mp h
  exact ⟨afterKeyword, inside, hkeyword, hinside, signature?_params h⟩

theorem receiver?_suffix {s rest : Text} {receiver : Receiver}
    (h : receiver? s = some (receiver, rest)) : rest <:+ s := by
  obtain ⟨inside, hinside, h⟩ := Option.bind_eq_some_iff.mp h
  obtain ⟨⟨name, afterName⟩, hname, h⟩ := Option.bind_eq_some_iff.mp h
  obtain ⟨pointer, hpointer, h⟩ := Option.bind_eq_some_iff.mp h
  obtain ⟨target, htarget, h⟩ := Option.bind_eq_some_iff.mp h
  obtain ⟨⟨type, afterType⟩, htype, h⟩ := Option.bind_eq_some_iff.mp h
  obtain ⟨outside, houtside, h⟩ := Option.bind_eq_some_iff.mp h
  cases h
  calc rest <:+ afterType := Text.suffix_of_after? houtside
    _ <:+ target := Text.suffix_of_word? htype
    _ <:+ pointer := Text.suffix_of_after? htarget
    _ <:+ afterName := Text.suffix_of_afterSpaces? hpointer
    _ <:+ inside := Text.suffix_of_word? hname
    _ <:+ s := Text.suffix_of_after? hinside

theorem method?_params {s : Text} {header : Header} (h : method? s = some header) :
    HasParamsAfter s header := by
  obtain ⟨afterKeyword, hkeyword, h⟩ := Option.bind_eq_some_iff.mp h
  obtain ⟨inside, hinside, h⟩ := Option.bind_eq_some_iff.mp h
  obtain ⟨⟨receiver, afterReceiver⟩, hreceiver, h⟩ := Option.bind_eq_some_iff.mp h
  obtain ⟨start, hstart, h⟩ := Option.bind_eq_some_iff.mp h
  have hsuffix : start <:+ inside :=
    (Text.suffix_of_afterSpaces? hstart).trans (receiver?_suffix hreceiver)
  exact ⟨afterKeyword, inside, hkeyword, hinside, (signature?_params h).trans hsuffix.isInfix⟩

theorem exists_params_of_find? {line : Text} {header : Header} (h : find? line = some header) :
    ∃ t, t <:+ line ∧ HasParamsAfter t header := by
  obtain ⟨t, ht, hread | hread⟩ := exists_of_find? h
  · exact ⟨t, ht, method?_params hread⟩
  · exact ⟨t, ht, function?_params hread⟩

theorem find?_params {line : Text} {header : Header} (h : find? line = some header) :
    header.params <:+: line := by
  obtain ⟨t, ht, afterKeyword, inside, hkeyword, hinside, hparams⟩ := exists_params_of_find? h
  have hsuffix : inside <:+ line :=
    calc inside <:+ afterKeyword := Text.suffix_of_afterSpaces? hinside
      _ <:+ t := Text.suffix_of_after? hkeyword
      _ <:+ line := ht
  exact hparams.trans hsuffix.isInfix

end Header

theorem Parameter.readAll_isInfix {number : Nat} {params : Text} {parameters : List Parameter}
    (h : readAll number params = .ok parameters) :
    ∀ parameter ∈ parameters, parameter.name <:+: params ∧ parameter.type <:+: params := by
  intro parameter hmem
  unfold readAll at h
  split at h
  · cases h
    cases hmem
  · obtain ⟨entry, hentry, hok⟩ := Outcome.exists_of_mem_mapM h hmem
    have hpair := ofEntry_eq_ok hok
    rw [List.splitOn_eq_splitOnP] at hentry
    have htoken {token : Text} (htoken : token ∈ entry.tokens) : token <:+: params :=
      (Text.infix_of_mem_tokens htoken).trans (Text.infix_of_mem_splitOnP hentry)
    exact ⟨htoken (by simp [hpair]), htoken (by simp [hpair])⟩

/-! ## The line as it is written -/

namespace Header

open Text (MarksFrom)

theorem arguments_marksFrom {header : Header} {number : Nat} {parameters : List Parameter}
    (hheader : header.Readable) (hread : Parameter.readAll number header.params = .ok parameters) :
    ∀ argument ∈ header.arguments parameters, MarksFrom argument header.params := by
  intro argument hargument
  rcases List.mem_append.mp hargument with hreceiver | hparameter
  · exact MarksFrom.of_isWord (hheader.isWord_of_mem_receiver hreceiver)
  · obtain ⟨parameter, hmem, rfl⟩ := List.mem_map.mp hparameter
    obtain ⟨hname, htype⟩ := Parameter.readAll_isInfix hread parameter hmem
    exact (MarksFrom.of_isInfix hname).join ": ".toList (by decide) (.of_isInfix htype)

theorem returns_marksFrom {header : Header} (h : header.Readable) (origin : Text) :
    MarksFrom header.returns origin := by
  cases hresult : header.result with
  | none =>
      simp only [returns, hresult]
      exact MarksFrom.of_isInfix List.nil_infix
  | some type =>
      simp only [returns, hresult]
      exact MarksFrom.divider_append (by decide) (.of_isWord (h.result type hresult))

theorem definition_marksFrom {header : Header} {number : Nat} {parameters : List Parameter}
    (hheader : header.Readable) (hread : Parameter.readAll number header.params = .ok parameters) :
    MarksFrom (header.definition parameters) header.params := by
  have hname : MarksFrom ("fn ".toList ++ header.name) header.params :=
    .divider_append (by decide) (.of_isWord hheader.name)
  have harguments := MarksFrom.intercalate ", ".toList (by decide)
    (arguments_marksFrom hheader hread)
  have hopen := hname.join "(".toList (by decide) harguments
  have hclose := hopen.join ")".toList (by decide) (returns_marksFrom hheader header.params)
  exact hclose.append_divider (by decide)

theorem convertLine_marksFrom {number : Nat} {line definition : Text}
    (h : (convertLine number line).outcome = .ok (some definition)) : MarksFrom definition line := by
  cases hfind : find? line with
  | none =>
      rw [convertLine_of_none number hfind] at h
      cases h
  | some header =>
      rw [convertLine_of_some number hfind] at h
      obtain ⟨written, hconvert, h⟩ := Outcome.bind_eq_ok_iff.mp h
      obtain ⟨parameters, hread, hwritten⟩ := Outcome.bind_eq_ok_iff.mp hconvert
      cases h
      cases hwritten
      exact (definition_marksFrom (find?_readable hfind) hread).trans (.of_isInfix (find?_params hfind))

end Header

end Linewise
