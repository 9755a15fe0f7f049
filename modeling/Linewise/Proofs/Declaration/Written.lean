import Linewise.Declaration
import Linewise.Proofs.Text.Places
import Linewise.Proofs.Text.Words

/-!
What becomes of the declarations on a line. Typed declarations get a colon after their names, all of
them from left to right. Of the short declarations only the first is rewritten, since its value goes on
to the end of the line. Main statement: the line is read in these two steps and in no other way, and
keeps its characters but for the colon of one short declaration.
-/
namespace Linewise

namespace Declaration

/-! ## Typed declarations -/

/-- The text begins with a typed declaration. -/
def IsTyped (s : Text) : Prop :=
  ∃ name type rest : Text, name.IsWord ∧ type.IsWord ∧
    s = "var ".toList ++ name ++ " ".toList ++ type ++ rest

/-- The text with a colon after the name of every typed declaration. Each is the leftmost one in what
follows the declaration before it, and its type is all of a word. -/
inductive Annotated : Text → Text → Prop
  | none {s : Text} : (∀ before rest, s = before ++ rest → ¬ IsTyped rest) → Annotated s s
  | next {before name type rest written : Text} : name.IsWord → type.IsWord →
      rest.head?.any isWord = false →
      Text.IsFirst (fun _ s => IsTyped s) before ("var ".toList ++ name ++ " ".toList ++ type ++ rest) →
      Annotated rest written →
      Annotated (before ++ ("var ".toList ++ name ++ " ".toList ++ type ++ rest))
        (before ++ ("var ".toList ++ name ++ ": ".toList ++ type ++ written))

theorem typed_eq_some_iff {s written rest : Text} :
    typed s = some (written, rest) ↔ ∃ name type : Text, name.IsWord ∧ type.IsWord ∧
      rest.head?.any isWord = false ∧ s = "var ".toList ++ name ++ " ".toList ++ type ++ rest ∧
        written = "var ".toList ++ name ++ ": ".toList ++ type := by
  constructor
  · intro h
    obtain ⟨t, hlead, h⟩ := Option.bind_eq_some_iff.mp h
    obtain ⟨⟨name, afterName⟩, hname, h⟩ := Option.bind_eq_some_iff.mp h
    obtain ⟨second, hsecond, h⟩ := Option.bind_eq_some_iff.mp h
    obtain ⟨⟨type, after⟩, htype, h⟩ := Option.bind_eq_some_iff.mp h
    cases h
    obtain ⟨hnameWord, rfl, -⟩ := Text.word?_eq_some_iff_append.mp hname
    obtain ⟨htypeWord, rfl, hrest⟩ := Text.word?_eq_some_iff_append.mp htype
    obtain rfl := Text.after?_eq_some_iff.mp hlead
    obtain rfl := Text.after?_eq_some_iff.mp hsecond
    exact ⟨name, type, hnameWord, htypeWord, hrest, by simp only [List.append_assoc], rfl⟩
  · rintro ⟨name, type, hname, htype, hrest, rfl, rfl⟩
    have hblank (s : Text) : (" ".toList ++ s).head?.any isWord = false := rfl
    simp only [typed, List.append_assoc, Option.bind_eq_bind, Text.after?_append, Option.bind_some,
      hname.word?_of_head? (hblank _), htype.word?_of_head? hrest, pure]

theorem exists_typed_iff {s : Text} : (∃ found, typed s = some found) ↔ IsTyped s := by
  constructor
  · rintro ⟨⟨written, rest⟩, h⟩
    obtain ⟨name, type, hname, htype, -, hs, -⟩ := typed_eq_some_iff.mp h
    exact ⟨name, type, rest, hname, htype, hs⟩
  · rintro ⟨name, type, rest, hname, htype, rfl⟩
    -- The type goes on with what follows it, as far as that is a word.
    have hword : (type ++ rest.takeWhile isWord).IsWord := by
      refine ⟨by simp [htype.nonempty], ?_⟩
      intro c hc
      rcases List.mem_append.mp hc with hc | hc
      · exact htype.chars c hc
      · exact List.mem_takeWhile_imp hc
    refine ⟨(_, rest.dropWhile isWord), typed_eq_some_iff.mpr ⟨name, _, hname, hword,
      Text.head?_dropWhile isWord rest, ?_, rfl⟩⟩
    rw [List.append_assoc _ (type ++ _), List.append_assoc type, List.takeWhile_append_dropWhile,
      List.append_assoc]

theorem applyAll_of_annotated {s written : Text} (h : Annotated s written) :
    typed.applyAll s = written := by
  induction h with
  | none hnone =>
      refine Rule.applyAll_of_forall_ne_some ?_
      intro before rest found hs hfound
      exact hnone before rest hs (exists_typed_iff.mp ⟨found, hfound⟩)
  | @next before name type rest written hname htype hrest hfirst _ ih =>
      have hread := typed_eq_some_iff.mpr ⟨name, type, hname, htype, hrest, rfl, rfl⟩
      simp only [← exists_typed_iff] at hfirst
      rw [Rule.applyAll_of_isFirst hfirst hread ⟨_, by simp, rfl⟩, ih]

theorem exists_annotated (s : Text) : ∃ written, Annotated s written := by
  induction hlength : s.length using Nat.strongRecOn generalizing s with
  | ind n ih =>
      by_cases hnone : ∀ before rest, s = before ++ rest → ¬ IsTyped rest
      · exact ⟨s, .none hnone⟩
      · simp only [not_forall, not_not] at hnone
        obtain ⟨before, rest, rfl, htyped⟩ := hnone
        obtain ⟨first, later, hsplit, hfirst⟩ :=
          Text.exists_isFirst (fun _ s => IsTyped s) before rest htyped
        obtain ⟨⟨found, after⟩, hread⟩ := exists_typed_iff.mpr hfirst.holds
        obtain ⟨name, type, hname, htype, hafter, rfl, -⟩ := typed_eq_some_iff.mp hread
        rw [hsplit] at hlength ⊢
        obtain ⟨written, hwritten⟩ := ih after.length (by simp at hlength; omega) after rfl
        exact ⟨_, .next hname htype hafter hfirst hwritten⟩

theorem annotated_iff {s written : Text} : Annotated s written ↔ written = typed.applyAll s := by
  constructor
  · intro h
    exact (applyAll_of_annotated h).symm
  · rintro rfl
    obtain ⟨written, h⟩ := exists_annotated s
    rwa [applyAll_of_annotated h]

theorem Annotated.sublist {s written : Text} (h : Annotated s written) : s.Sublist written := by
  induction h with
  | none => exact List.Sublist.refl _
  | @next before name type rest written _ _ _ _ _ ih =>
      have hblank : " ".toList.Sublist ": ".toList := List.sublist_cons_self ':' [' ']
      exact (List.Sublist.refl before).append
        ((((List.Sublist.refl _).append hblank).append (List.Sublist.refl type)).append ih)

theorem Annotated.oneLine {s written : Text} (h : Annotated s written) (hline : '\n' ∉ s) :
    '\n' ∉ written := by
  induction h with
  | none => exact hline
  | next _ _ _ _ _ ih =>
      simp only [List.mem_append, not_or] at hline ⊢
      obtain ⟨hbefore, ⟨⟨⟨hvar, hname⟩, -⟩, htype⟩, hrest⟩ := hline
      exact ⟨hbefore, ⟨⟨⟨hvar, hname⟩, by decide⟩, htype⟩, ih hrest⟩

/-! ## Short declarations -/

/-- The place of an assignment that declares: a word ends right before it, and something follows it. -/
def IsAssigned (before rest : Text) : Prop :=
  before.getLast?.any isWord = true ∧ ∃ value, value ≠ [] ∧ rest = " := ".toList ++ value

/-- The text with its first short declaration written in full. The name is all of the word before the
assignment, and the value is all that follows it. -/
inductive Declared : Text → Text → Prop
  | none {s : Text} : (∀ before rest, s = before ++ rest → ¬ IsAssigned before rest) → Declared s s
  | first {before name value : Text} : name.IsWord → before.getLast?.any isWord = false →
      Text.IsFirst IsAssigned (before ++ name) (" := ".toList ++ value) →
      Declared (before ++ name ++ (" := ".toList ++ value))
        (before ++ ("var ".toList ++ name ++ " = ".toList ++ value))

theorem value?_eq_some_iff {s value rest : Text} (hline : '\n' ∉ s) :
    value? s = some (value, rest) ↔ value ≠ [] ∧ rest = [] ∧ s = " := ".toList ++ value := by
  have hfirstLine {t : Text} (ht : s = " := ".toList ++ t) : t.firstLine = t := by
    refine List.takeWhile_eq_self_iff.mpr fun c hc => ?_
    rw [ht] at hline
    simpa using ne_of_mem_of_not_mem (List.mem_append_right _ hc) hline
  rw [value?, Option.bind_eq_bind, Option.bind_eq_some_iff]
  constructor
  · rintro ⟨t, ht, h⟩
    have hs := Text.after?_eq_some_iff.mp ht
    dsimp only at h
    rw [hfirstLine hs] at h
    split at h
    · cases h
    · rename_i hne
      cases h
      exact ⟨by simpa using hne, List.drop_length, hs⟩
  · rintro ⟨hne, rfl, rfl⟩
    refine ⟨value, Text.after?_append _ _, ?_⟩
    rw [hfirstLine rfl]
    simp [hne]

theorem short_eq_some_iff {s written rest : Text} (hline : '\n' ∉ s) :
    short s = some (written, rest) ↔ rest = [] ∧ ∃ name value : Text, name.IsWord ∧ value ≠ [] ∧
      s = name ++ (" := ".toList ++ value) ∧ written = "var ".toList ++ name ++ " = ".toList ++ value := by
  constructor
  · intro h
    obtain ⟨⟨name, afterName⟩, hname, h⟩ := Option.bind_eq_some_iff.mp h
    obtain ⟨⟨value, after⟩, hvalue, h⟩ := Option.bind_eq_some_iff.mp h
    cases h
    obtain ⟨hword, rfl, -⟩ := Text.word?_eq_some_iff_append.mp hname
    have hafter : '\n' ∉ afterName := fun hmem => hline (List.mem_append_right name hmem)
    obtain ⟨hne, rfl, rfl⟩ := (value?_eq_some_iff hafter).mp hvalue
    exact ⟨rfl, name, value, hword, hne, rfl, rfl⟩
  · rintro ⟨rfl, name, value, hname, hne, rfl, rfl⟩
    have hafter : '\n' ∉ " := ".toList ++ value := fun hmem => hline (List.mem_append_right name hmem)
    have hvalue := (value?_eq_some_iff hafter).mpr ⟨hne, rfl, rfl⟩
    have hassign : (" := ".toList ++ value).head?.any isWord = false := rfl
    simp only [short, Option.bind_eq_bind, hname.word?_of_head? hassign, Option.bind_some, hvalue, pure]

theorem isAssigned_of_short {s earlier later : Text} {found : Text × Text} (hline : '\n' ∉ s)
    (hs : s = earlier ++ later) (h : short later = some found) :
    ∃ name rest : Text, name.IsWord ∧ later = name ++ rest ∧ IsAssigned (earlier ++ name) rest := by
  have hlater : '\n' ∉ later := fun hmem => hline (hs ▸ List.mem_append_right earlier hmem)
  obtain ⟨-, name, value, hname, hne, rfl, -⟩ := (short_eq_some_iff hlater).mp h
  exact ⟨name, _, hname, rfl, hname.getLast?_append earlier, value, hne, rfl⟩

theorem applyAll_of_declared {s written : Text} (hline : '\n' ∉ s) (h : Declared s written) :
    short.applyAll s = written := by
  cases h with
  | none hnone =>
      refine Rule.applyAll_of_forall_ne_some ?_
      intro earlier later found hs hfound
      obtain ⟨name, rest, -, rfl, hassigned⟩ := isAssigned_of_short hline hs hfound
      exact hnone (earlier ++ name) rest (by rw [hs, List.append_assoc]) hassigned
  | @first before name value hname hbefore hfirst =>
      obtain ⟨-, other, hvalue, hother⟩ := hfirst.holds
      obtain rfl := List.append_cancel_left hother
      rw [List.append_assoc] at hline ⊢
      have hlater : '\n' ∉ name ++ (" := ".toList ++ value) :=
        fun hmem => hline (List.mem_append_right before hmem)
      have hread := (short_eq_some_iff hlater).mpr ⟨rfl, name, value, hname, hvalue, rfl, rfl⟩
      have hplace : Text.IsFirst (fun _ later => ∃ found, short later = some found) before
          (name ++ (" := ".toList ++ value)) := by
        refine ⟨⟨_, hread⟩, ?_⟩
        rintro earlier later hs ⟨found, hfound⟩
        obtain ⟨word, rest, hword, rfl, hassigned⟩ := isAssigned_of_short hline hs hfound
        have hle := hfirst.least (earlier ++ word) rest (by rw [List.append_assoc, List.append_assoc, hs])
          hassigned
        by_contra hlt
        rw [List.length_append] at hle
        rw [hword.getLast?_of_across hs (Nat.lt_of_not_le hlt) (Nat.le_of_add_right_le hle)] at hbefore
        cases hbefore
      rw [Rule.applyAll_of_isFirst hplace hread ⟨_, by simp, (List.append_nil _).symm⟩,
        Rule.applyAll_nil, List.append_nil]

theorem exists_declared (s : Text) : ∃ written, Declared s written := by
  by_cases hnone : ∀ before rest, s = before ++ rest → ¬ IsAssigned before rest
  · exact ⟨s, .none hnone⟩
  · simp only [not_forall, not_not] at hnone
    obtain ⟨before, rest, rfl, hassigned⟩ := hnone
    obtain ⟨first, later, hsplit, hfirst⟩ := Text.exists_isFirst IsAssigned before rest hassigned
    obtain ⟨hword, value, -, rfl⟩ := hfirst.holds
    obtain ⟨front, name, rfl, hname, hfront⟩ := Text.exists_last_word hword
    rw [hsplit]
    exact ⟨_, .first hname hfront hfirst⟩

theorem declared_iff {s written : Text} (hline : '\n' ∉ s) :
    short.applyAll s = written ↔ Declared s written := by
  refine ⟨?_, applyAll_of_declared hline⟩
  rintro rfl
  obtain ⟨written, h⟩ := exists_declared s
  rwa [applyAll_of_declared hline h]

/-- Of a text that lost nothing before, only the colon of the short declaration is lost. -/
theorem Declared.exists_kept {s annotated written : Text} (hs : s.Sublist annotated)
    (h : Declared annotated written) :
    ∃ left lost right, s = left ++ lost ++ right ∧ lost.Sublist [':'] ∧
      (left ++ right).Sublist written := by
  cases h with
  | none => exact ⟨s, [], [], by simp, List.nil_sublist _, by simpa using hs⟩
  | @first before name value _ _ _ =>
      have hcolon : before ++ name ++ (" := ".toList ++ value) =
          before ++ name ++ " ".toList ++ [':'] ++ ("= ".toList ++ value) := by
        simp
      rw [hcolon] at hs
      obtain ⟨front, right, rfl, hfront, hright⟩ := List.sublist_append_iff.mp hs
      obtain ⟨left, lost, rfl, hleft, hlost⟩ := List.sublist_append_iff.mp hfront
      refine ⟨left, lost, right, rfl, hlost, (hleft.append hright).trans ?_⟩
      have hvar : (before ++ name).Sublist (before ++ ("var ".toList ++ name)) :=
        (List.Sublist.refl before).append (List.sublist_append_right _ _)
      have hrest := hvar.append (List.Sublist.refl (" = ".toList ++ value))
      simpa using hrest

/-- A line is annotated in one way only, and then its first short declaration is written in full if there
is one. Of the characters of the line at most a colon is lost, and the others stay in order. -/
theorem convert_declares_first {line : Text} (hline : '\n' ∉ line) :
    ∃ annotated, (∀ written, Annotated line written ↔ written = annotated) ∧
      (∀ written, convert line = written ↔ Declared annotated written) ∧
      ∃ left lost right, line = left ++ lost ++ right ∧ lost.Sublist [':'] ∧
        (left ++ right).Sublist (convert line) := by
  obtain ⟨annotated, hannotated⟩ := exists_annotated line
  have happly := applyAll_of_annotated hannotated
  have hconvert (written : Text) : convert line = written ↔ Declared annotated written := by
    rw [convert_eq, happly, declared_iff (hannotated.oneLine hline)]
  refine ⟨annotated, ?_, hconvert, ?_⟩
  · intro written
    rw [annotated_iff, happly]
  · exact Declared.exists_kept hannotated.sublist ((hconvert _).mp rfl)

theorem convert_declares_first_both :
    '\n' ∉ "myvar é int, var b T; 名 := x := y".toList ∧
    Annotated "myvar é int, var b T; 名 := x := y".toList "myvar é: int, var b: T; 名 := x := y".toList ∧
    Declared "myvar é: int, var b: T; 名 := x := y".toList
      "myvar é: int, var b: T; var 名 = x := y".toList ∧
    convert "myvar é int, var b T; 名 := x := y".toList =
      "myvar é: int, var b: T; var 名 = x := y".toList := by
  have hline : '\n' ∉ "myvar é int, var b T; 名 := x := y".toList := by decide
  have hannotated : Annotated "myvar é int, var b T; 名 := x := y".toList
      "myvar é: int, var b: T; 名 := x := y".toList :=
    annotated_iff.mpr (by decide +kernel)
  have hconvert : convert "myvar é int, var b T; 名 := x := y".toList =
      "myvar é: int, var b: T; var 名 = x := y".toList := by
    decide +kernel
  obtain ⟨annotated, hunique, hdeclared, -⟩ := convert_declares_first hline
  rw [← (hunique _).mp hannotated] at hdeclared
  exact ⟨hline, hannotated, (hdeclared _).mp hconvert, hconvert⟩

end Declaration

end Linewise
