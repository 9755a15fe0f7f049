import Linewise.Proofs.Path.Components

/-! Where the output goes by default. Main statement: the output of a path is another path, in its
characters and in its components. -/
namespace Linewise

namespace Path

variable {front stem trail : Text}

theorem splitName_eq_some_iff {name stem extension : Text} :
    splitName name = (stem, some extension) ↔
      name = stem ++ '.' :: extension ∧ stem ≠ [] ∧ '.' ∉ extension := by
  constructor
  · intro h
    rw [splitName] at h
    split at h
    · rename_i c d rest hdrop
      obtain ⟨rfl, hextension⟩ := Prod.mk.inj h
      obtain rfl := Option.some.inj hextension
      have hdot : c = '.' := by
        have hhead := Text.head?_dropWhile (fun c => decide (c ≠ '.')) name.reverse
        rw [hdrop] at hhead
        simpa using hhead
      refine ⟨?_, by simp, ?_⟩
      · have hcut := @List.takeWhile_append_dropWhile _ (fun c => decide (c ≠ '.')) name.reverse
        rw [hdrop, hdot] at hcut
        refine List.reverse_inj.mp (hcut.symm.trans ?_)
        simp
      · intro hmem
        simpa using List.mem_takeWhile_imp (List.mem_reverse.mp hmem)
    · cases h
  · rintro ⟨rfl, hstem, hextension⟩
    have hchars : ∀ c ∈ extension.reverse, decide (c ≠ '.') = true := by
      intro c hc
      simpa using ne_of_mem_of_not_mem (List.mem_reverse.mp hc) hextension
    have hback : (stem ++ '.' :: extension).reverse = extension.reverse ++ '.' :: stem.reverse := by
      simp
    have hdot : ('.' :: stem.reverse).head?.any (fun c => decide (c ≠ '.')) = false := rfl
    obtain ⟨c, rest, hrest⟩ := List.exists_cons_of_ne_nil (List.reverse_ne_nil_iff.mpr hstem)
    rw [splitName, hback, Text.takeWhile_append_of_head? hchars hdot,
      Text.dropWhile_append_of_head? hchars hdot, List.reverse_reverse, hrest]
    simp only [← hrest, List.reverse_reverse]

/-- A name that an extension ends. -/
structure IsExtended (stem extension : Text) : Prop where
  isName : IsName (stem ++ '.' :: extension)
  stem_ne_nil : stem ≠ []
  dot_notMem : '.' ∉ extension

theorem IsExtended.stem_notMem {extension : Text} (h : IsExtended stem extension) : '/' ∉ stem := by
  intro hmem
  exact h.isName.separator_notMem (List.mem_append_left _ hmem)

theorem extension?_eq_some_iff {path extension : Text} :
    extension? path = some extension ↔
      ∃ front stem trail, IsFront front ∧ IsExtended stem extension ∧ IsTrail trail ∧
        path = front ++ (stem ++ '.' :: extension) ++ trail := by
  rw [extension?, Option.bind_eq_bind, Option.bind_eq_some_iff]
  constructor
  · rintro ⟨⟨front, name⟩, hfile, hextension⟩
    obtain ⟨hfront, hname, trail, htrail, rfl⟩ := fileName?_eq_some_iff.mp hfile
    cases hsplit : splitName name with
    | mk stem found =>
        simp only [hsplit] at hextension
        rw [hextension] at hsplit
        obtain ⟨rfl, hstem, hdot⟩ := splitName_eq_some_iff.mp hsplit
        exact ⟨front, stem, trail, hfront, ⟨hname, hstem, hdot⟩, htrail, rfl⟩
  · rintro ⟨front, stem, trail, hfront, ⟨hname, hstem, hdot⟩, htrail, rfl⟩
    refine ⟨(front, _), fileName?_eq_some_iff.mpr ⟨hfront, hname, trail, htrail, rfl⟩, ?_⟩
    simp only [splitName_eq_some_iff.mpr ⟨rfl, hstem, hdot⟩]

/-- A name with the extension of the target. -/
def targetName (stem : Text) : Text := stem ++ '.' :: targetExtension

theorem targetName_ne (stem : Text) : targetName stem ≠ stem := by
  simp [targetName]

theorem isName_targetName (h : '/' ∉ stem) : IsName (targetName stem) := by
  have hlength : (targetName stem).length = stem.length + 5 := by simp [targetName, targetExtension]
  refine ⟨?_, ?_, ?_, ?_⟩
  · intro heq
    simp [heq] at hlength
  · intro heq
    simp [heq] at hlength
  · intro heq
    simp [heq] at hlength
  · simp [targetName, targetExtension, h]

theorem withTarget_of_extended {extension : Text} (hfront : IsFront front)
    (h : IsExtended stem extension) (htrail : IsTrail trail) :
    withTarget (front ++ (stem ++ '.' :: extension) ++ trail) = front ++ targetName stem := by
  have hname := fileName?_eq_some_iff.mpr ⟨hfront, h.isName, trail, htrail, rfl⟩
  have hsplit := splitName_eq_some_iff.mpr ⟨rfl, h.stem_ne_nil, h.dot_notMem⟩
  rw [withTarget, hname]
  simp only [hsplit, targetName, List.append_assoc]
  rfl

/-! ## The default output -/

theorem take_length_sub_two (path : Text) :
    path.take (path.length - sourceExtension.length) = path.dropLast.dropLast := by
  have hlength : sourceExtension.length = 2 := rfl
  rw [List.dropLast_eq_take, List.dropLast_eq_take, List.length_take, List.take_take, hlength]
  congr 1
  omega

/-- A path on `..` has no file name. -/
theorem withTarget_append_up (hfront : IsFront front) :
    withTarget (front ++ ['.', '.']) = front ++ ['.', '.'] := by
  have hback : dropTrail (front ++ ['.', '.']).reverse = ['.', '.'].reverse ++ front.reverse := by
    rw [List.reverse_append]
    rfl
  obtain ⟨htake, -⟩ := cut_append_name hfront (by decide : '/' ∉ ['.', '.'])
  rw [withTarget, fileName?, hback, htake]
  rfl

theorem IsExtended.replace {extension other : Text} (h : IsExtended stem extension)
    (hdot : '.' ∉ other) (hseparator : '/' ∉ other) (hup : stem = ['.'] → other ≠ []) :
    IsExtended stem other := by
  obtain ⟨c, rest, rfl⟩ := List.exists_cons_of_ne_nil h.stem_ne_nil
  refine ⟨⟨by simp, by simp, ?_, ?_⟩, h.stem_ne_nil, hdot⟩
  · intro heq
    cases rest with
    | nil =>
        obtain ⟨rfl, hother⟩ : c = '.' ∧ other = [] := by simpa using heq
        exact hup rfl hother
    | cons d rest => simp at heq
  · intro hmem
    rcases List.mem_append.mp hmem with hmem | hmem
    · exact h.stem_notMem hmem
    · exact hseparator (List.mem_of_ne_of_mem (by decide) hmem)

theorem outputFor_of_source (hfront : IsFront front) (h : IsExtended stem sourceExtension)
    (htrail : IsTrail trail) :
    outputFor (front ++ (stem ++ '.' :: sourceExtension) ++ trail) =
      if trail = [] ∧ stem = ['.'] then front ++ ['.', '.'] else front ++ targetName stem := by
  have hextension := extension?_eq_some_iff.mpr ⟨front, stem, trail, hfront, h, htrail, rfl⟩
  rw [outputFor, if_pos hextension, take_length_sub_two]
  -- The two characters that are lost are those of the extension, one of them and the trail, or the
  -- end of the trail. Only in the first case can what remains be no name.
  cases trail using List.reverseRecOn with
  | nil =>
      have hcut : (front ++ (stem ++ '.' :: sourceExtension) ++ []).dropLast.dropLast =
          front ++ (stem ++ ['.']) ++ [] := by
        simp [sourceExtension, List.dropLast_append_of_ne_nil, List.dropLast_cons_of_ne_nil]
      by_cases hstem : stem = ['.']
      · rw [if_pos ⟨rfl, hstem⟩, hcut, hstem, List.append_nil]
        exact withTarget_append_up hfront
      · have hempty : IsExtended stem [] := h.replace (by simp) (by simp) (absurd · hstem)
        rw [if_neg (fun heq => hstem heq.2), hcut, withTarget_of_extended hfront hempty .nil]
  | append_singleton trail c =>
      rw [if_neg (by simp), ← List.append_assoc, List.dropLast_concat]
      cases trail using List.reverseRecOn with
      | nil =>
          have hcut : (front ++ (stem ++ '.' :: sourceExtension) ++ []).dropLast =
              front ++ (stem ++ '.' :: ['g']) ++ [] := by
            simp [sourceExtension, List.dropLast_append_of_ne_nil, List.dropLast_cons_of_ne_nil]
          have hg : IsExtended stem ['g'] := h.replace (by decide) (by decide) (by simp)
          rw [hcut, withTarget_of_extended hfront hg .nil]
      | append_singleton trail d =>
          have hrest : IsTrail trail := by simpa using htrail.dropLast.dropLast
          rw [← List.append_assoc, List.dropLast_concat, withTarget_of_extended hfront h hrest]

example : outputFor "a/..go/.".toList = "a/..mojo".toList ∧ outputFor "a/..go".toList = "a/..".toList := by
  decide +kernel

theorem outputFor_of_other {path : Text} (h : extension? path ≠ some sourceExtension) :
    outputFor path = targetName path := by
  rw [outputFor, if_neg h, targetName, List.append_assoc]
  rfl

theorem eq_of_component? {leading : Bool} {text name : Text}
    (h : component? leading text = some (.name name)) : text = name := by
  unfold component? at h
  split at h
  · cases h
  · split at h <;> cases h
  · cases h
  · cases h
    rfl

theorem components_outputFor_ne (path : Text) : components (outputFor path) ≠ components path := by
  by_cases hextension : extension? path = some sourceExtension
  · obtain ⟨front, stem, trail, hfront, h, htrail, rfl⟩ := extension?_eq_some_iff.mp hextension
    rw [outputFor_of_source hfront h htrail, components_of_name hfront h.isName htrail]
    split
    · rw [components_append hfront (by decide)]
      simp [component?]
    · rw [components_append_name hfront (isName_targetName h.stem_notMem)]
      simp [targetName, targetExtension, sourceExtension]
  · obtain ⟨front, text, hfront, htext, rfl⟩ := exists_isFront_append path
    have houtput : targetName (front ++ text) = front ++ targetName text := List.append_assoc ..
    rw [outputFor_of_other hextension, houtput,
      components_append_name hfront (isName_targetName htext), components_append hfront htext]
    intro heq
    have hcomponent := List.append_cancel_left heq
    have htarget : component? front.isEmpty text = some (.name (targetName text)) := by
      cases h : component? front.isEmpty text <;> simp_all
    exact targetName_ne text (eq_of_component? htarget).symm

/-- Whether two texts, put after the same path, go apart there. One of them may be `.` or `..`. -/
structure Diverge (text other : Text) : Prop where
  text_notMem : '/' ∉ text
  text_ne_nil : text ≠ []
  other_notMem : '/' ∉ other
  other_ne_nil : other ≠ []
  ne : other ≠ text
  isName : IsName text ∨ IsName other

/-- A path that ends in a text other than `.` has its output next to it, or on the way up if the text
is `..go`. -/
theorem exists_outputFor_append {text : Text} (hfront : IsFront front) (htext : '/' ∉ text)
    (hne : text ≠ []) (hhere : text ≠ ['.']) :
    ∃ other, outputFor (front ++ text) = front ++ other ∧ Diverge text other := by
  by_cases hextension : extension? (front ++ text) = some sourceExtension
  · obtain ⟨front', stem, trail, hfront', h, htrail, hpath⟩ := extension?_eq_some_iff.mp hextension
    obtain ⟨rfl, rfl, rfl⟩ : trail = [] ∧ front = front' ∧ text = stem ++ '.' :: sourceExtension :=
      eq_of_append_trail hfront hfront' htext hne hhere h.isName.separator_notMem htrail hpath
    have houtput := outputFor_of_source hfront h .nil
    rw [List.append_nil] at houtput
    rw [houtput]
    split
    · rename_i hup
      refine ⟨['.', '.'], rfl, htext, hne, by decide, by decide, ?_, .inl h.isName⟩
      rw [hup.2]
      decide
    · have hname := isName_targetName h.stem_notMem
      refine ⟨targetName stem, rfl, htext, hne, hname.separator_notMem, hname.ne_nil, ?_,
        .inl h.isName⟩
      simp [targetName, targetExtension, sourceExtension]
  · have hname := isName_targetName htext
    refine ⟨targetName text, ?_, htext, hne, hname.separator_notMem, hname.ne_nil,
      targetName_ne text, .inr hname⟩
    rw [outputFor_of_other hextension]
    exact List.append_assoc ..

end Path

end Linewise
