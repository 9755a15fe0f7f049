import Linewise.Proofs.Header.Marks
import Linewise.Proofs.Text.Weight
import Mathlib.Algebra.Order.BigOperators.Group.List
import Mathlib.Algebra.Order.Group.Nat

/-! Definition lines are lighter than the lines of their headers. Of what weighs anything, a definition
line keeps what stands in the parameters and one blank after a word, and the blank after the keyword of
the header weighs more than that. -/
namespace Linewise

open Text (weight weightAfter)

/-! ## Parameters -/

namespace Parameter

/-- What the name and the type of a parameter weigh. -/
def weight (parameter : Parameter) : Nat :=
  parameter.name.weight + parameter.type.weight

theorem weightAfter_annotated (before : Char) (parameter : Parameter) :
    parameter.annotated.weightAfter before =
      parameter.name.weightAfter before + parameter.type.weight := by
  have hannotated : parameter.annotated = parameter.name ++ ':' :: ' ' :: parameter.type := by
    simp [annotated]
  rw [hannotated, Text.weightAfter_append_colon]

theorem weight_ofEntry_le {number : Nat} {entry : Text} {parameter : Parameter}
    (h : ofEntry number entry = .ok parameter) : parameter.weight ≤ entry.weight := by
  have hsum : (entry.tokens.map Text.weight).sum ≤ ((entry.splitOnP isSpace).map Text.weight).sum :=
    (List.filter_sublist.map Text.weight).sum_le_sum fun _ _ => Nat.zero_le _
  rw [ofEntry_eq_ok h] at hsum
  have hpieces := Text.weight_pieces_le isSpace entry
  simp only [List.map_cons, List.map_nil, List.sum_cons, List.sum_nil] at hsum
  simp only [weight]
  omega

theorem weight_mapM_le {number : Nat} {entries : List Text} {parameters : List Parameter}
    (h : entries.mapM (ofEntry number) = .ok parameters) :
    (parameters.map weight).sum ≤ (entries.map Text.weight).sum := by
  induction entries generalizing parameters with
  | nil =>
      cases h
      exact Nat.le_refl 0
  | cons entry entries ih =>
      rw [List.mapM_cons] at h
      obtain ⟨first, hfirst, h⟩ := Outcome.bind_eq_ok_iff.mp h
      obtain ⟨later, hlater, h⟩ := Outcome.bind_eq_ok_iff.mp h
      cases h
      have hentry := weight_ofEntry_le hfirst
      have hentries := ih hlater
      simp only [List.map_cons, List.sum_cons]
      omega

theorem weight_readAll_le {number : Nat} {params : Text} {parameters : List Parameter}
    (h : readAll number params = .ok parameters) :
    (parameters.map weight).sum ≤ params.weight := by
  unfold readAll at h
  split at h
  · cases h
    exact Nat.zero_le _
  · have hentries := weight_mapM_le h
    rw [List.splitOn_eq_splitOnP] at hentries
    exact hentries.trans (Text.weight_pieces_le _ params)

end Parameter

/-! ## The line as it is written -/

theorem Text.weight_intercalate (pieces : List Text) :
    weight (", ".toList.intercalate pieces) = (pieces.map weight).sum := by
  induction pieces with
  | nil => rfl
  | cons piece pieces ih =>
      cases pieces with
      | nil => simp
      | cons next pieces =>
          have hcomma : ", ".toList.intercalate (piece :: next :: pieces) =
              piece ++ ',' :: ' ' :: ", ".toList.intercalate (next :: pieces) := by
            rw [List.intercalate_cons_cons, List.append_assoc]
            rfl
          rw [hcomma, weight, weightAfter_append_cons _ _ ',' _ rfl, weight_blank, ih, List.map_cons,
            List.map_cons, List.sum_cons]
          rfl

namespace Header

theorem weight_arguments {header : Header} (hheader : header.Readable) (parameters : List Parameter) :
    ((header.arguments parameters).map weight).sum = (parameters.map Parameter.weight).sum := by
  have hreceiver : (((header.receiver.map Receiver.name).toList.filter (!·.isEmpty)).map weight).sum =
      0 := by
    apply List.sum_eq_zero
    intro n hn
    obtain ⟨name, hname, rfl⟩ := List.mem_map.mp hn
    exact Text.weightAfter_of_isWord _ (hheader.isWord_of_mem_receiver hname).chars
  have hparameter : weight ∘ Parameter.annotated = Parameter.weight := by
    funext parameter
    exact Parameter.weightAfter_annotated '\n' parameter
  simp only [arguments, List.map_append, List.sum_append, List.map_map, hreceiver, hparameter,
    Nat.zero_add]

theorem weight_returns {header : Header} (h : header.Readable) :
    weight (header.returns ++ [':']) = 0 := by
  cases hresult : header.result with
  | none =>
      simp only [returns, hresult]
      rfl
  | some type =>
      have htype : type.weightAfter ' ' = 0 :=
        Text.weightAfter_of_isWord ' ' (h.result type hresult).chars
      have hcolon (last : Char) : weightAfter last [':'] = 0 :=
        Text.weightAfter_cons_of_dense last [] rfl rfl (by decide)
      have hreturns : header.returns ++ [':'] = " -> ".toList ++ (type ++ [':']) := by
        simp only [returns, hresult, List.append_assoc]
      have harrow : weightAfter '\n' " -> ".toList = 0 := rfl
      have hlast : " -> ".toList.getLastD '\n' = ' ' := rfl
      rw [hreturns, weight, Text.weightAfter_append, harrow, hlast, Text.weightAfter_append, htype,
        hcolon]

theorem weightAfter_definition {header : Header} (hheader : header.Readable)
    (parameters : List Parameter) (before : Char) :
    (header.definition parameters).weightAfter before = 1 + (parameters.map Parameter.weight).sum := by
  have hname : header.name.weightAfter ' ' = 0 := Text.weightAfter_of_isWord ' ' hheader.name.chars
  have harguments := (Text.weight_intercalate (header.arguments parameters)).trans
    (weight_arguments hheader parameters)
  have hblank : charWeight ' ' + pairWeight 'n' ' ' = 1 := rfl
  rw [definition_eq, Text.weightAfter_cons_of_dense _ _ rfl rfl (by decide),
    Text.weightAfter_cons_of_dense _ _ rfl rfl (by decide), weightAfter, hblank,
    Text.weightAfter_append_cons _ _ '(' _ rfl, hname, weight,
    Text.weightAfter_append_cons _ _ ')' _ rfl, weight_returns hheader]
  rw [weight] at harguments
  omega

/-! ## The line of the header -/

theorem two_le_of_isSpace {c : Char} (h : isSpace c = true) : 2 ≤ charWeight c + pairWeight 'c' c := by
  by_cases hfeed : c = '\n'
  · subst hfeed
    exact Nat.le_refl 2
  · have hword : isWord 'c' = true := rfl
    simp [pairWeight, h, hword, hfeed]

theorem weight_hasParamsAfter {s : Text} {header : Header} (h : HasParamsAfter s header) :
    header.params.weight + 2 ≤ s.weight := by
  obtain ⟨afterKeyword, inside, hkeyword, hinside, hparams⟩ := h
  have hs : s = keyword ++ afterKeyword := Text.after?_eq_some_iff.mp hkeyword
  cases afterKeyword with
  | nil => cases hinside
  | cons d rest =>
      rw [Text.afterSpaces?] at hinside
      split at hinside
      · rename_i hspace
        cases hinside
        have hpart : header.params.weight ≤ weight rest :=
          Text.weight_le_of_isInfix (hparams.trans (List.dropWhile_suffix isSpace).isInfix)
        have hrest := Text.weight_le_weightAfter d rest
        have hblank := two_le_of_isSpace hspace
        have hwhole : weight ('c' :: d :: rest) ≤ weight s := by
          rw [hs]
          exact Text.weight_le_of_isInfix (List.suffix_append "fun".toList ('c' :: d :: rest)).isInfix
        simp only [weight, weightAfter] at hpart hrest hwhole ⊢
        omega
      · cases hinside

theorem convertLine_lighter {number : Nat} {line definition : Text}
    (h : (convertLine number line).outcome = .ok (some definition)) (before : Char) :
    definition.weightAfter before < line.weightAfter before := by
  cases hfind : find? line with
  | none =>
      rw [convertLine_of_none number hfind] at h
      cases h
  | some header =>
      rw [convertLine_of_some number hfind] at h
      obtain ⟨written, hconvert, h⟩ := Outcome.bind_eq_ok_iff.mp h
      obtain ⟨parameters, hread, hwritten⟩ := Outcome.bind_eq_ok_iff.mp hconvert
      cases h
      cases hwritten
      obtain ⟨t, ht, hparams⟩ := exists_params_of_find? hfind
      calc (header.definition parameters).weightAfter before
          = 1 + (parameters.map Parameter.weight).sum :=
            weightAfter_definition (find?_readable hfind) parameters before
        _ ≤ 1 + header.params.weight := Nat.add_le_add_left (Parameter.weight_readAll_le hread) 1
        _ < header.params.weight + 2 := by omega
        _ ≤ weight t := weight_hasParamsAfter hparams
        _ ≤ line.weight := Text.weight_le_of_isInfix ht.isInfix
        _ ≤ line.weightAfter before := Text.weight_le_weightAfter before line

end Header

end Linewise
