import Linewise.Proofs.Path.Output

/-! The output as the sibling of its input. The last component of a path is a name exactly if the path
ends in that name, up to a trail. Main statement: the output of a path on the source's extension differs
from it in the last component alone, and there in the extension, unless the path ends on `..go`. -/
namespace Linewise

namespace Path

/-! ## The last component -/

theorem component?_eq_none_iff {leading : Bool} {text : Text} :
    component? leading text = none ↔ text = [] ∨ text = ['.'] ∧ leading = false := by
  unfold component?
  split <;> simp_all

theorem isName_of_component? {leading : Bool} {text name : Text} (htext : '/' ∉ text)
    (h : component? leading text = some (.name name)) : text = name ∧ IsName name := by
  obtain rfl := eq_of_component? h
  refine ⟨rfl, ?_, ?_, ?_, htext⟩
  · rintro rfl
    cases h
  · rintro rfl
    cases leading <;> cases h
  · rintro rfl
    cases h

/-- A path on a name as its last component ends in that name, up to a trail. -/
theorem exists_of_getLast? {path name : Text} (h : (components path).getLast? = some (.name name)) :
    ∃ front trail, IsFront front ∧ IsName name ∧ IsTrail trail ∧ path = front ++ name ++ trail := by
  induction hlength : path.length using Nat.strong_induction_on generalizing path with
  | h length ih =>
      obtain ⟨front, text, hfront, htext, rfl⟩ := exists_isFront_append path
      rw [components_append hfront htext] at h
      cases hcomponent : component? front.isEmpty text with
      | some last =>
          rw [hcomponent, Option.toList_some, List.getLast?_concat] at h
          cases h
          obtain ⟨rfl, hname⟩ := isName_of_component? htext hcomponent
          exact ⟨front, [], hfront, hname, .nil, (List.append_nil _).symm⟩
      | none =>
          rw [hcomponent, Option.toList_none, List.append_nil] at h
          rcases hfront with rfl | ⟨path, rfl⟩
          · cases h
          · -- What stands after the last separator is no component, so it belongs to the trail.
            have hne : path ≠ [] := by
              rintro rfl
              cases h
            rw [components_append_separator hne] at h
            have hshort : path.length < length := by
              rw [← hlength]
              simp
            obtain ⟨front, trail, hfront, hname, htrail, rfl⟩ := ih path.length hshort h rfl
            refine ⟨front, trail ++ '/' :: text, hfront, hname, ?_, by simp⟩
            rcases component?_eq_none_iff.mp hcomponent with rfl | ⟨rfl, -⟩
            · exact .separator htrail
            · exact .here htrail

theorem getLast?_components_iff {path name : Text} :
    (components path).getLast? = some (.name name) ↔
      ∃ front trail, IsFront front ∧ IsName name ∧ IsTrail trail ∧ path = front ++ name ++ trail := by
  constructor
  · exact exists_of_getLast?
  · rintro ⟨front, trail, hfront, hname, htrail, rfl⟩
    rw [components_of_name hfront hname htrail, List.getLast?_concat]

/-- Whether the last component of a path is a name on the source's extension. -/
def HasStem (path stem : Text) : Prop :=
  stem ≠ [] ∧ (components path).getLast? = some (.name (stem ++ ".go".toList))

theorem hasStem_iff {path stem : Text} :
    HasStem path stem ↔
      ∃ front trail, IsFront front ∧ IsExtended stem sourceExtension ∧ IsTrail trail ∧
        path = front ++ (stem ++ '.' :: sourceExtension) ++ trail := by
  rw [HasStem, getLast?_components_iff]
  constructor
  · rintro ⟨hstem, front, trail, hfront, hname, htrail, hpath⟩
    exact ⟨front, trail, hfront, ⟨hname, hstem, by decide⟩, htrail, hpath⟩
  · rintro ⟨front, trail, hfront, h, htrail, hpath⟩
    exact ⟨h.stem_ne_nil, front, trail, hfront, h.isName, htrail, hpath⟩

theorem extension?_eq_source_iff {path : Text} :
    extension? path = some sourceExtension ↔ ∃ stem, HasStem path stem := by
  rw [extension?_eq_some_iff, exists_comm]
  simp only [hasStem_iff]

/-! ## The output -/

/-- Whether a path ends on a text that follows a separator or the start. -/
def EndsOn (path text : Text) : Prop :=
  ∃ front, IsFront front ∧ path = front ++ text

theorem endsOn_up_iff {front stem trail : Text} (hfront : IsFront front)
    (h : IsExtended stem sourceExtension) (htrail : IsTrail trail) :
    EndsOn (front ++ (stem ++ '.' :: sourceExtension) ++ trail) "..go".toList ↔
      trail = [] ∧ stem = ['.'] := by
  constructor
  · rintro ⟨front', hfront', hpath⟩
    obtain ⟨hnil, -, hname⟩ := eq_of_append_trail hfront' hfront (by decide) (by decide) (by decide)
      h.isName.separator_notMem htrail hpath.symm
    have hstem : ['.'] ++ '.' :: sourceExtension = stem ++ '.' :: sourceExtension := hname
    exact ⟨hnil, (List.append_cancel_right hstem).symm⟩
  · rintro ⟨rfl, rfl⟩
    exact ⟨front, hfront, List.append_nil _⟩

/-- Without its extension, `..go` is the way up. -/
theorem outputFor_of_endsOn_up {path : Text} (h : EndsOn path "..go".toList) :
    path = outputFor path ++ "go".toList ∧
      components (outputFor path) = (components path).dropLast ++ [.up] := by
  obtain ⟨front, hfront, rfl⟩ := h
  have hname : IsName "..go".toList := ⟨by decide, by decide, by decide, by decide⟩
  have hextended : IsExtended ['.'] sourceExtension := ⟨hname, by decide, by decide⟩
  have houtput : outputFor (front ++ "..go".toList) = front ++ ['.', '.'] := by
    have hsource := outputFor_of_source hfront hextended .nil
    rw [if_pos ⟨rfl, rfl⟩, List.append_nil] at hsource
    exact hsource
  rw [houtput, components_append_name hfront hname, List.dropLast_concat,
    components_append hfront (by decide), List.append_assoc]
  exact ⟨rfl, rfl⟩

theorem components_outputFor {path stem : Text} (hstem : HasStem path stem)
    (hup : ¬ EndsOn path "..go".toList) :
    components (outputFor path) = (components path).dropLast ++ [.name (targetName stem)] := by
  obtain ⟨front, trail, hfront, h, htrail, rfl⟩ := hasStem_iff.mp hstem
  rw [endsOn_up_iff hfront h htrail] at hup
  rw [outputFor_of_source hfront h htrail, if_neg hup, components_of_name hfront h.isName htrail,
    List.dropLast_concat, components_append_name hfront (isName_targetName h.stem_notMem)]

/-- A path has the source's extension if its last component is a name on that extension, whatever
trail follows. Its output then has the same components, but for the target's extension on the last one.
The one exception is a path that ends on `..go`, which loses its last two characters. The output of any
other path is that path, continued by the target's extension. -/
theorem outputFor_sibling (path : Text) :
    (extension? path = some sourceExtension ↔ ∃ stem, HasStem path stem) ∧
      (∀ stem, HasStem path stem →
        (components (outputFor path) = (components path).dropLast ++ [.name (stem ++ ".mojo".toList)] ↔
          ¬ EndsOn path "..go".toList)) ∧
      (EndsOn path "..go".toList →
        path = outputFor path ++ "go".toList ∧
          components (outputFor path) = (components path).dropLast ++ [.up]) ∧
      (extension? path ≠ some sourceExtension → outputFor path = path ++ ".mojo".toList) := by
  refine ⟨extension?_eq_source_iff, ?_, outputFor_of_endsOn_up, outputFor_of_other⟩
  intro stem hstem
  constructor
  · intro hname hup
    rw [(outputFor_of_endsOn_up hup).2] at hname
    have hlast := List.append_cancel_left hname
    cases hlast
  · exact components_outputFor hstem

theorem outputFor_sibling_dots :
    ∃ path, path = "./p//..tar.go/./".toList ∧ HasStem path "..tar".toList ∧
      ¬ EndsOn path "..go".toList ∧
      components (outputFor path) = [.here, .name "p".toList, .name "..tar.mojo".toList] ∧
      EndsOn "/p/..go".toList "..go".toList ∧ outputFor "/p/..go".toList = "/p/..".toList ∧
      extension? ".go".toList = none ∧ outputFor ".go".toList = ".go.mojo".toList := by
  have hstem : HasStem "./p//..tar.go/./".toList "..tar".toList := ⟨by decide, by decide +kernel⟩
  have hcomponents : components "./p//..tar.go/./".toList =
      [.here, .name "p".toList, .name "..tar.go".toList] := by decide +kernel
  have hup : ¬ EndsOn "./p//..tar.go/./".toList "..go".toList := by
    rintro ⟨front, -, hpath⟩
    have hlast := congrArg List.getLast? hpath
    simp at hlast
  have hends : EndsOn "/p/..go".toList "..go".toList :=
    ⟨"/p/".toList, .inr ⟨"/p".toList, rfl⟩, rfl⟩
  have hextension : extension? ".go".toList = none := by decide +kernel
  have hsibling := ((outputFor_sibling "./p//..tar.go/./".toList).2.1 _ hstem).mpr hup
  rw [hcomponents] at hsibling
  have hcut := ((outputFor_sibling "/p/..go".toList).2.2.1 hends).1
  have hother := (outputFor_sibling ".go".toList).2.2.2 (by rw [hextension]; exact nofun)
  have hsame : outputFor "/p/..go".toList ++ "go".toList = "/p/..".toList ++ "go".toList := hcut.symm
  exact ⟨_, rfl, hstem, hup, hsibling, hends, List.append_cancel_right hsame, hextension, hother⟩

end Path

end Linewise
