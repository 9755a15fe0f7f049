import Linewise.Proofs.Header.Written
import Linewise.Proofs.Text.Tokens
import Mathlib.Data.List.Forall2

/-!
The grammar of parameter lists: entries between commas, each a name and a type with white space
between them. Main statement: a list is read exactly if it follows the grammar, and otherwise its
leftmost bad entry is reported; so what is written as a parameter list is read back.
-/
namespace Linewise

theorem Outcome.mapM_eq_ok_iff {α β : Type} {f : α → Except Fault β} {as : List α} {bs : List β} :
    as.mapM f = .ok bs ↔ List.Forall₂ (fun a b => f a = .ok b) as bs := by
  induction as generalizing bs with
  | nil => simp [pure, Except.pure, eq_comm]
  | cons a as ih =>
      rw [List.mapM_cons, Outcome.bind_eq_ok_iff, List.forall₂_cons_left_iff]
      simp only [Outcome.bind_eq_ok_iff, ih, pure, Except.pure, Except.ok.injEq, exists_and_left]
      exact ⟨fun ⟨b, hb, later, hlater, h⟩ => ⟨b, hb, later, hlater, h.symm⟩,
        fun ⟨b, hb, later, hlater, h⟩ => ⟨b, hb, later, hlater, h.symm⟩⟩

namespace Parameter

/-! ## The grammar -/

/-- A text that can be a name or a type. -/
structure IsItem (s : Text) : Prop extends s.IsToken where
  noComma : ',' ∉ s

/-- A parameter whose name and type can be told apart again. -/
structure IsPlain (parameter : Parameter) : Prop where
  name : IsItem parameter.name
  type : IsItem parameter.type

instance (parameter : Parameter) : Decidable parameter.IsPlain :=
  decidable_of_iff (parameter.name.IsToken ∧ ',' ∉ parameter.name ∧ parameter.type.IsToken ∧
      ',' ∉ parameter.type)
    ⟨fun h => ⟨⟨h.1, h.2.1⟩, ⟨h.2.2.1, h.2.2.2⟩⟩,
      fun h => ⟨h.name.toIsToken, h.name.noComma, h.type.toIsToken, h.type.noComma⟩⟩

/-- The entry holds the parameter's name and type, with white space between them and perhaps around
them. -/
def IsEntry (entry : Text) (parameter : Parameter) : Prop :=
  parameter.IsPlain ∧ ∃ before between after : Text, (∀ c ∈ before, isSpace c = true) ∧
    between.IsBlank ∧ (∀ c ∈ after, isSpace c = true) ∧
      entry = before ++ parameter.name ++ between ++ parameter.type ++ after

/-- The entries are all that stands between the commas of the text. -/
def AreEntries (params : Text) (entries : List Text) : Prop :=
  params = [','].intercalate entries ∧ entries.length = params.count ',' + 1

/-- A parameter list: nothing at all, or one entry for each parameter. -/
inductive IsListing : Text → List Parameter → Prop
  | empty : IsListing [] []
  | entries {params : Text} {entries : List Text} {parameters : List Parameter} :
      AreEntries params entries → List.Forall₂ IsEntry entries parameters → IsListing params parameters

/-- The leftmost entry that holds no parameter. -/
def IsFirstBad (params entry : Text) : Prop :=
  ∃ before after, AreEntries params (before ++ entry :: after) ∧
    (∀ earlier ∈ before, ∃ parameter, IsEntry earlier parameter) ∧
    ∀ parameter, ¬ IsEntry entry parameter

/-- The parameter as the source declares it. -/
def declared (parameter : Parameter) : Text :=
  parameter.name ++ " ".toList ++ parameter.type

def declareAll (parameters : List Parameter) : Text :=
  ", ".toList.intercalate (parameters.map declared)

/-! ## Entries -/

theorem ofEntry_eq_ok_iff_tokens {number : Nat} {entry : Text} {parameter : Parameter} :
    ofEntry number entry = .ok parameter ↔ entry.tokens = [parameter.name, parameter.type] := by
  refine ⟨ofEntry_eq_ok, fun h => ?_⟩
  simp only [ofEntry, ofEntry?, h]

theorem tokens_eq_pair_iff {entry name type : Text} :
    entry.tokens = [name, type] ↔ name.IsToken ∧ type.IsToken ∧ ∃ before between after : Text,
      (∀ c ∈ before, isSpace c = true) ∧ between.IsBlank ∧ (∀ c ∈ after, isSpace c = true) ∧
        entry = before ++ name ++ between ++ type ++ after := by
  constructor
  · intro h
    obtain ⟨before, rest, hbefore, hname, hrest, hlater, rfl⟩ := Text.exists_of_tokens_eq_cons h
    obtain ⟨between, after, hbetween, htype, -, hend, rfl⟩ := Text.exists_of_tokens_eq_cons hlater
    refine ⟨hname, htype, before, between, after, hbefore, ⟨?_, hbetween⟩,
      Text.tokens_eq_nil_iff.mp hend, by simp only [List.append_assoc]⟩
    -- The type would go on where the name ends.
    intro hnil
    obtain ⟨c, type, rfl⟩ := List.exists_cons_of_ne_nil htype.nonempty
    rw [hnil] at hrest
    have hc := htype.chars c List.mem_cons_self
    simp [hc] at hrest
  · intro h
    obtain ⟨hname, htype, before, between, after, hbefore, hbetween, hafter, rfl⟩ := h
    have hend : after.head?.all isSpace = true := by
      cases after with
      | nil => rfl
      | cons c after => exact hafter c List.mem_cons_self
    simp only [List.append_assoc]
    rw [Text.tokens_spaces_append hbefore, hbetween.tokens_append, hname.tokens_eq,
      htype.tokens_append hend, Text.tokens_of_spaces hafter]
    rfl

theorem isEntry_iff (number : Nat) {entry : Text} {parameter : Parameter} :
    IsEntry entry parameter ↔ ',' ∉ entry ∧ ofEntry number entry = .ok parameter := by
  have hspaces {s : Text} (h : ∀ c ∈ s, isSpace c = true) : ',' ∉ s := by
    intro hmem
    exact absurd (h ',' hmem) (by decide)
  rw [ofEntry_eq_ok_iff_tokens, tokens_eq_pair_iff]
  constructor
  · intro h
    obtain ⟨⟨hname, htype⟩, before, between, after, hbefore, hbetween, hafter, rfl⟩ := h
    refine ⟨?_, hname.toIsToken, htype.toIsToken, before, between, after, hbefore, hbetween, hafter, rfl⟩
    simp [hname.noComma, htype.noComma, hspaces hbefore, hspaces hbetween.chars, hspaces hafter]
  · intro h
    obtain ⟨hcomma, hname, htype, before, between, after, hbefore, hbetween, hafter, rfl⟩ := h
    simp only [List.mem_append, not_or] at hcomma
    exact ⟨⟨⟨hname, hcomma.1.1.1.2⟩, ⟨htype, hcomma.1.2⟩⟩, before, between, after, hbefore, hbetween,
      hafter, rfl⟩

theorem isPair_iff {entry : Text} (h : ',' ∉ entry) :
    IsPair entry ↔ ∃ parameter, IsEntry entry parameter := by
  simp only [isEntry_iff 0, h, not_false_eq_true, true_and, ofEntry_eq_ok_iff]

/-! ## Lists -/

theorem areEntries_iff {params : Text} {entries : List Text} :
    AreEntries params entries ↔ params.splitOn ',' = entries :=
  Text.splitOn_eq_iff.symm

theorem AreEntries.noComma {params : Text} {entries : List Text} (h : AreEntries params entries) :
    ∀ entry ∈ entries, ',' ∉ entry := by
  intro entry hentry hmem
  rw [← areEntries_iff.mp h] at hentry
  exact (Text.mem_of_mem_splitOn hentry ',' hmem).1 rfl

theorem isListing_nil_iff {parameters : List Parameter} : IsListing [] parameters ↔ parameters = [] := by
  constructor
  · intro h
    cases h with
    | empty => rfl
    | entries hentries hall =>
        rw [areEntries_iff] at hentries
        subst hentries
        obtain ⟨parameter, later, hentry, -, -⟩ := List.forall₂_cons_left_iff.mp hall
        have htokens := ofEntry_eq_ok ((isEntry_iff 0).mp hentry).2
        cases htokens
  · intro h
    rw [h]
    exact .empty

theorem readAll_eq_ok_iff {number : Nat} {params : Text} {parameters : List Parameter} :
    readAll number params = .ok parameters ↔ IsListing params parameters := by
  cases hparams : params with
  | nil =>
      rw [isListing_nil_iff]
      simp [readAll, eq_comm]
  | cons c s =>
      have hread : readAll number (c :: s) = ((c :: s).splitOn ',').mapM (ofEntry number) := rfl
      have hcut : AreEntries (c :: s) ((c :: s).splitOn ',') := areEntries_iff.mpr rfl
      have hall : List.Forall₂ IsEntry ((c :: s).splitOn ',') parameters ↔
          List.Forall₂ (fun entry parameter => ofEntry number entry = .ok parameter)
            ((c :: s).splitOn ',') parameters := by
        have hentry : IsEntry = fun entry parameter =>
            ',' ∉ entry ∧ ofEntry number entry = .ok parameter := by
          funext entry parameter
          exact propext (isEntry_iff number)
        rw [hentry, List.forall₂_and_left]
        exact and_iff_right hcut.noComma
      rw [hread, Outcome.mapM_eq_ok_iff, ← hall]
      constructor
      · exact .entries hcut
      · intro h
        cases h with
        | entries hentries h => exact areEntries_iff.mp hentries ▸ h

theorem exists_isFirstBad {number : Nat} {params : Text} {fault : Fault}
    (h : readAll number params = .error fault) :
    ∃ entry, IsFirstBad params entry ∧ fault = .malformedParameter number entry.trim := by
  obtain ⟨entry, ⟨-, before, after, hsplit, hbefore, hentry⟩, hfault⟩ := readAll_eq_error_iff.mp h
  have hcut : AreEntries params (before ++ entry :: after) := areEntries_iff.mpr hsplit
  refine ⟨entry, ⟨before, after, hcut, ?_, ?_⟩, hfault⟩
  · intro earlier hearlier
    exact (isPair_iff (hcut.noComma earlier (by simp [hearlier]))).mp (hbefore earlier hearlier)
  · intro parameter hparameter
    exact hentry ((isPair_iff (hcut.noComma entry (by simp))).mpr ⟨parameter, hparameter⟩)

/-! ## Lists that are written -/

theorem isListing_of_entries {entries : List Text} {parameters : List Parameter} (hne : entries ≠ [])
    (h : List.Forall₂ IsEntry entries parameters) :
    IsListing ([','].intercalate entries) parameters := by
  have hcomma : ∀ entry ∈ entries, ',' ∉ entry :=
    ((List.forall₂_and_left _ _).mp (h.imp fun _ _ => (isEntry_iff 0).mp)).1
  exact .entries (areEntries_iff.mpr (List.splitOn_intercalate ',' hcomma hne)) h

theorem isEntry_declared {parameter : Parameter} (h : parameter.IsPlain) (blanks : Text)
    (hblanks : ∀ c ∈ blanks, isSpace c = true) : IsEntry (blanks ++ parameter.declared) parameter := by
  refine ⟨h, blanks, " ".toList, [], hblanks, Text.isBlank_blank, by simp, ?_⟩
  simp [declared]

theorem isListing_declareAll {parameters : List Parameter}
    (h : ∀ parameter ∈ parameters, parameter.IsPlain) : IsListing (declareAll parameters) parameters := by
  cases parameters with
  | nil => exact .empty
  | cons parameter parameters =>
      rw [declareAll, List.map_cons, Text.intercalate_comma]
      refine isListing_of_entries (by simp) (.cons ?_ ?_)
      · exact isEntry_declared (h parameter List.mem_cons_self) [] (by simp)
      · rw [List.map_map, List.forall₂_map_left_iff, List.forall₂_same]
        intro other hother
        exact isEntry_declared (h other (List.mem_cons_of_mem parameter hother)) " ".toList
          Text.isBlank_blank.chars

theorem not_mem_declareAll {c : Char} {parameters : List Parameter} (hcomma : c ≠ ',') (hblank : c ≠ ' ')
    (h : ∀ parameter ∈ parameters, c ∉ parameter.name ∧ c ∉ parameter.type) :
    c ∉ declareAll parameters := by
  apply Text.not_mem_intercalate
  · simp [hcomma, hblank]
  · intro piece hpiece
    obtain ⟨parameter, hparameter, rfl⟩ := List.mem_map.mp hpiece
    simp [declared, h parameter hparameter, hblank]

/-- A parameter list is read exactly if it follows the grammar, as the parameters of its entries in
order, and otherwise its leftmost bad entry is reported on the given line. So parameters are read back
from their entries whatever white space those hold, and from the list that declares them. -/
theorem readAll_accepts_grammar (number : Nat) :
    (∀ params parameters, readAll number params = .ok parameters ↔ IsListing params parameters) ∧
    (∀ params, (∀ parameters, ¬ IsListing params parameters) → ∃ entry, IsFirstBad params entry ∧
      readAll number params = .error (.malformedParameter number entry.trim)) ∧
    (∀ entries parameters, entries ≠ [] → List.Forall₂ IsEntry entries parameters →
      readAll number ([','].intercalate entries) = .ok parameters) ∧
    ∀ parameters : List Parameter, (∀ parameter ∈ parameters, parameter.IsPlain) →
      readAll number (declareAll parameters) = .ok parameters := by
  refine ⟨fun params parameters => readAll_eq_ok_iff, ?_, ?_, ?_⟩
  · intro params hnone
    cases hread : readAll number params with
    | ok parameters => exact absurd (readAll_eq_ok_iff.mp hread) (hnone parameters)
    | error fault =>
        obtain ⟨entry, hentry, rfl⟩ := exists_isFirstBad hread
        exact ⟨entry, hentry, rfl⟩
  · intro entries parameters hne hall
    exact readAll_eq_ok_iff.mpr (isListing_of_entries hne hall)
  · intro parameters hplain
    exact readAll_eq_ok_iff.mpr (isListing_declareAll hplain)

theorem readAll_accepts_grammar_spaced :
    readAll 7 "\u3000a\u00a0[]int\t,b *f(:".toList =
      .ok [⟨"a".toList, "[]int".toList⟩, ⟨"b".toList, "*f(:".toList⟩] ∧
    (∃ entry, IsFirstBad "a int, b ,c".toList entry ∧ entry.trim = "b".toList ∧
      readAll 7 "a int, b ,c".toList = .error (.malformedParameter 7 entry.trim)) ∧
    readAll 7 "a []int, b *f(:".toList =
      .ok [⟨"a".toList, "[]int".toList⟩, ⟨"b".toList, "*f(:".toList⟩] := by
  have hplain : ∀ parameter ∈ [(⟨"a".toList, "[]int".toList⟩ : Parameter), ⟨"b".toList, "*f(:".toList⟩],
      parameter.IsPlain := by decide
  refine ⟨?_, ?_, (readAll_accepts_grammar 7).2.2.2 _ hplain⟩
  · exact (readAll_accepts_grammar 7).2.2.1 ["\u3000a\u00a0[]int\t".toList, "b *f(:".toList] _ (by simp)
      (.cons ⟨hplain _ (by simp), "\u3000".toList, "\u00a0".toList, "\t".toList,
          List.all_eq_true.mp rfl, ⟨by simp, List.all_eq_true.mp rfl⟩, List.all_eq_true.mp rfl, rfl⟩
        (.cons ⟨hplain _ (by simp), [], " ".toList, [], by simp, Text.isBlank_blank, by simp, rfl⟩ .nil))
  · have hread : readAll 7 "a int, b ,c".toList = .error (.malformedParameter 7 "b".toList) := by decide
    obtain ⟨entry, hentry, hfault⟩ := (readAll_accepts_grammar 7).2.1 "a int, b ,c".toList (by
      intro parameters hlisting
      rw [((readAll_accepts_grammar 7).1 _ _).mpr hlisting] at hread
      cases hread)
    have htrim : entry.trim = "b".toList := by
      rw [hread] at hfault
      simpa using hfault.symm
    exact ⟨entry, hentry, htrim, hfault⟩

end Parameter

end Linewise
