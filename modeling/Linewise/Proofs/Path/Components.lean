import Linewise.Path
import Linewise.Proofs.Text.Words

/-! The components of paths, and where a path ends. Main statement: a path has a file name exactly if it
ends in one, with nothing after it but separators and `.` components. -/
namespace Linewise

namespace Path

/-! ## Components -/

inductive Component where
  | root
  /-- A `.` on which the path begins. Any other `.` is no component. -/
  | here
  | up
  | name (text : Text)
deriving DecidableEq

/-- The component that a text between separators stands for, if any. -/
def component? (leading : Bool) : Text → Option Component
  | [] => none
  | ['.'] => if leading then some .here else none
  | ['.', '.'] => some .up
  | text => some (.name text)

/-- The component before the first separator. -/
def firstComponent? : Text → Option Component
  | [] => some .root
  | text => component? true text

def components (path : Text) : List Component :=
  match path.splitOn '/' with
  | [] => []
  | [text] => (component? true text).toList
  | first :: later => (firstComponent? first).toList ++ later.filterMap (component? false)

/-- Whether a text is the name of a file or directory, that is, a component of its own in every path. -/
structure IsName (name : Text) : Prop where
  ne_nil : name ≠ []
  ne_here : name ≠ ['.']
  ne_up : name ≠ ['.', '.']
  separator_notMem : '/' ∉ name

/-- Whether a path can be continued by a component. -/
def IsFront (front : Text) : Prop :=
  front = [] ∨ ∃ path, front = path ++ ['/']

theorem IsName.component? {name : Text} (h : IsName name) (leading : Bool) :
    component? leading name = some (.name name) := by
  unfold Path.component?
  split
  · exact absurd rfl h.ne_nil
  · exact absurd rfl h.ne_here
  · exact absurd rfl h.ne_up
  · rfl

theorem firstComponent?_of_ne_nil {text : Text} (h : text ≠ []) :
    firstComponent? text = component? true text := by
  cases text with
  | nil => exact absurd rfl h
  | cons c text => rfl

theorem components_of_splitOn {path first : Text} {later : List Text}
    (h : path.splitOn '/' = first :: later) (hlater : later ≠ []) :
    components path = (firstComponent? first).toList ++ later.filterMap (component? false) := by
  rw [components, h]
  cases later with
  | nil => exact absurd rfl hlater
  | cons second later => rfl

theorem components_of_separator_notMem {text : Text} (h : '/' ∉ text) :
    components text = (component? true text).toList := by
  rw [components, List.splitOn_eq_singleton h]

theorem components_append_of_splitOn {path first text : Text} {later : List Text}
    (h : path.splitOn '/' = first :: later) (htext : '/' ∉ text) :
    components (path ++ '/' :: text) =
      (firstComponent? first).toList ++ later.filterMap (component? false) ++
        (component? false text).toList := by
  have hsplit : (path ++ '/' :: text).splitOn '/' = first :: (later ++ [text]) := by
    rw [List.splitOn_append_cons_self, h, List.splitOn_eq_singleton htext]
    rfl
  rw [components_of_splitOn hsplit (by simp), List.filterMap_append, List.filterMap_cons,
    List.append_assoc]
  cases component? false text <;> rfl

theorem components_append {front text : Text} (hfront : IsFront front) (htext : '/' ∉ text) :
    components (front ++ text) = components front ++ (component? front.isEmpty text).toList := by
  rcases hfront with rfl | ⟨path, rfl⟩
  · rw [List.nil_append, components_of_separator_notMem htext]
    rfl
  · obtain ⟨first, later, hsplit⟩ := List.exists_cons_of_ne_nil (List.splitOn_ne_nil '/' path)
    have hempty : (path ++ ['/']).isEmpty = false := by simp
    rw [List.append_assoc, List.singleton_append, components_append_of_splitOn hsplit htext,
      components_append_of_splitOn hsplit List.not_mem_nil, hempty]
    simp [component?]

theorem components_append_name {front name : Text} (hfront : IsFront front) (hname : IsName name) :
    components (front ++ name) = components front ++ [.name name] := by
  rw [components_append hfront hname.separator_notMem, hname.component?]
  rfl

theorem components_append_separator {path : Text} (h : path ≠ []) :
    components (path ++ ['/']) = components path := by
  obtain ⟨first, later, hsplit⟩ := List.exists_cons_of_ne_nil (List.splitOn_ne_nil '/' path)
  rw [components_append_of_splitOn hsplit List.not_mem_nil]
  cases later with
  | nil =>
      have hfirst : first = path := by
        have hjoin := @List.intercalate_splitOn _ path _ _ '/'
        rw [hsplit] at hjoin
        simpa using hjoin
      rw [firstComponent?_of_ne_nil (hfirst ▸ h), components, hsplit]
      simp [component?]
  | cons second later =>
      rw [components_of_splitOn hsplit (by simp)]
      simp [component?]

/-! ## The end of a path -/

/-- Whether a text consists of separators and `.` components, each after a separator. -/
inductive IsTrail : Text → Prop
  | nil : IsTrail []
  | separator {trail : Text} : IsTrail trail → IsTrail (trail ++ ['/'])
  | here {trail : Text} : IsTrail trail → IsTrail (trail ++ ['/', '.'])

theorem IsTrail.dropLast {trail : Text} (h : IsTrail trail) : IsTrail trail.dropLast := by
  cases h with
  | nil => exact .nil
  | separator h =>
      rw [List.dropLast_concat]
      exact h
  | @here trail h =>
      rw [List.append_cons, List.dropLast_concat]
      exact .separator h

theorem components_append_trail {path trail : Text} (hpath : path ≠ []) (h : IsTrail trail) :
    components (path ++ trail) = components path := by
  induction h with
  | nil => rw [List.append_nil]
  | @separator trail _ ih =>
      have hne : path ++ trail ≠ [] := List.append_ne_nil_of_left_ne_nil hpath trail
      rw [← List.append_assoc, components_append_separator hne, ih]
  | @here trail _ ih =>
      have hne : path ++ trail ≠ [] := List.append_ne_nil_of_left_ne_nil hpath trail
      have hfront : IsFront (path ++ trail ++ ['/']) := .inr ⟨_, rfl⟩
      rw [← List.append_assoc, List.append_cons, components_append hfront (by decide),
        components_append_separator hne, ih]
      simp [component?]

theorem components_of_name {front name trail : Text} (hfront : IsFront front) (hname : IsName name)
    (htrail : IsTrail trail) : components (front ++ name ++ trail) = components front ++ [.name name] := by
  have hne : front ++ name ≠ [] := List.append_ne_nil_of_right_ne_nil front hname.ne_nil
  rw [components_append_trail hne htrail, components_append_name hfront hname]

theorem exists_trail_of_dropTrail (back : Text) :
    ∃ trail, IsTrail trail ∧ back = trail.reverse ++ dropTrail back := by
  fun_induction dropTrail back with
  | case1 back ih =>
      obtain ⟨trail, htrail, hback⟩ := ih
      refine ⟨_, .separator htrail, ?_⟩
      rw [List.reverse_concat, List.cons_append, ← hback]
  | case2 back ih =>
      obtain ⟨trail, htrail, hback⟩ := ih
      refine ⟨_, .here htrail, ?_⟩
      rw [List.reverse_append, List.append_assoc, ← hback]
      rfl
  | case3 back => exact ⟨[], .nil, rfl⟩

theorem dropTrail_append {trail : Text} (h : IsTrail trail) (back : Text) :
    dropTrail (trail.reverse ++ back) = dropTrail back := by
  induction h with
  | nil => rfl
  | separator _ ih => simpa [dropTrail] using ih
  | here _ ih => simpa [dropTrail] using ih

/-! ## File names -/

theorem isFront_iff {front : Text} :
    IsFront front ↔ front.reverse.head?.any (fun c => decide (c ≠ '/')) = false := by
  cases front using List.reverseRecOn with
  | nil => simp [IsFront]
  | append_singleton path c =>
      rw [IsFront, List.reverse_concat]
      constructor
      · rintro (h | ⟨front, h⟩)
        · exact absurd h (by simp)
        · obtain ⟨-, rfl⟩ := List.append_singleton_inj.mp h
          rfl
      · intro h
        obtain rfl : c = '/' := by simpa using h
        exact .inr ⟨path, rfl⟩

/-- A path that is written backwards is cut at its last separator. -/
theorem cut_back (back : Text) :
    IsFront (back.dropWhile (· ≠ '/')).reverse ∧ '/' ∉ (back.takeWhile (· ≠ '/')).reverse ∧
      (back.dropWhile (· ≠ '/')).reverse ++ (back.takeWhile (· ≠ '/')).reverse = back.reverse := by
  refine ⟨?_, ?_, ?_⟩
  · rw [isFront_iff, List.reverse_reverse]
    exact Text.head?_dropWhile _ _
  · intro hmem
    simpa using List.mem_takeWhile_imp (List.mem_reverse.mp hmem)
  · rw [← List.reverse_append, List.takeWhile_append_dropWhile]

theorem cut_append_name {front name : Text} (hfront : IsFront front) (hname : '/' ∉ name) :
    (name.reverse ++ front.reverse).takeWhile (· ≠ '/') = name.reverse ∧
      (name.reverse ++ front.reverse).dropWhile (· ≠ '/') = front.reverse := by
  have hchars : ∀ c ∈ name.reverse, decide (c ≠ '/') = true := by
    intro c hc
    simpa using ne_of_mem_of_not_mem (List.mem_reverse.mp hc) hname
  have hrest := isFront_iff.mp hfront
  exact ⟨Text.takeWhile_append_of_head? hchars hrest, Text.dropWhile_append_of_head? hchars hrest⟩

theorem append_inj_of_isFront {front front' text text' : Text} (hfront : IsFront front)
    (hfront' : IsFront front') (htext : '/' ∉ text) (htext' : '/' ∉ text')
    (h : front ++ text = front' ++ text') : front = front' ∧ text = text' := by
  obtain ⟨htake, hdrop⟩ := cut_append_name hfront htext
  obtain ⟨htake', hdrop'⟩ := cut_append_name hfront' htext'
  rw [← List.reverse_append, h, List.reverse_append] at htake hdrop
  exact ⟨List.reverse_inj.mp (hdrop.symm.trans hdrop'), List.reverse_inj.mp (htake.symm.trans htake')⟩

/-- A text other than `.` at the end of a path leaves no room for a trail. -/
theorem eq_of_append_trail {front front' text name trail : Text} (hfront : IsFront front)
    (hfront' : IsFront front') (htext : '/' ∉ text) (hne : text ≠ []) (hhere : text ≠ ['.'])
    (hname : '/' ∉ name) (htrail : IsTrail trail) (h : front ++ text = front' ++ name ++ trail) :
    trail = [] ∧ front = front' ∧ text = name := by
  cases htrail with
  | nil =>
      rw [List.append_nil] at h
      exact ⟨rfl, append_inj_of_isFront hfront hfront' htext hname h⟩
  | separator _ =>
      rw [← List.append_assoc, ← List.append_nil (_ ++ ['/'])] at h
      exact absurd (append_inj_of_isFront hfront (.inr ⟨_, rfl⟩) htext (by simp) h).2 hne
  | here _ =>
      rw [← List.append_assoc, List.append_cons] at h
      exact absurd (append_inj_of_isFront hfront (.inr ⟨_, rfl⟩) htext (by simp) h).2 hhere

theorem exists_isFront_append (path : Text) :
    ∃ front text, IsFront front ∧ '/' ∉ text ∧ path = front ++ text := by
  obtain ⟨hfront, htext, hcut⟩ := cut_back path.reverse
  rw [List.reverse_reverse] at hcut
  exact ⟨_, _, hfront, htext, hcut.symm⟩

theorem IsName.dropTrail_append {name : Text} (h : IsName name) (back : Text) :
    dropTrail (name.reverse ++ back) = name.reverse ++ back := by
  obtain ⟨c, rest, hname⟩ := List.exists_cons_of_ne_nil (List.reverse_ne_nil_iff.mpr h.ne_nil)
  have hmem : ∀ d ∈ c :: rest, d ≠ '/' := by
    intro d hd
    rw [← hname, List.mem_reverse] at hd
    exact ne_of_mem_of_not_mem hd h.separator_notMem
  have hhere : c :: rest ≠ ['.'] := by
    rw [← hname]
    exact fun heq => h.ne_here (List.reverse_eq_iff.mp heq)
  rw [hname]
  unfold dropTrail
  split
  · rename_i heq
    exact absurd (List.cons.inj heq).1 (hmem c List.mem_cons_self)
  · rename_i heq
    obtain ⟨rfl, hrest⟩ := List.cons.inj heq
    cases rest with
    | nil => exact absurd rfl hhere
    | cons d rest => exact absurd (List.cons.inj hrest).1 (hmem d (by simp))
  · rfl

theorem fileName?_eq_some_iff {path front name : Text} :
    fileName? path = some (front, name) ↔
      IsFront front ∧ IsName name ∧ ∃ trail, IsTrail trail ∧ path = front ++ name ++ trail := by
  constructor
  · intro h
    obtain ⟨trail, htrail, hback⟩ := exists_trail_of_dropTrail path.reverse
    rw [fileName?] at h
    split at h
    · cases h
    · cases h
    · cases h
    · rename_i hne hhere hup
      obtain ⟨rfl, rfl⟩ := Prod.mk.inj (Option.some.inj h)
      obtain ⟨hfront, hname, hcut⟩ := cut_back (dropTrail path.reverse)
      refine ⟨hfront, ⟨hne, hhere, hup, hname⟩, trail, htrail, ?_⟩
      rw [hcut, ← List.reverse_inj, List.reverse_append, List.reverse_reverse]
      exact hback
  · rintro ⟨hfront, hname, trail, htrail, rfl⟩
    have hback : dropTrail (front ++ name ++ trail).reverse = name.reverse ++ front.reverse := by
      rw [List.reverse_append, List.reverse_append, dropTrail_append htrail, hname.dropTrail_append]
    obtain ⟨htake, hdrop⟩ := cut_append_name hfront hname.separator_notMem
    rw [fileName?, hback, htake, hdrop, List.reverse_reverse, List.reverse_reverse]
    split
    · exact absurd rfl hname.ne_nil
    · exact absurd rfl hname.ne_here
    · exact absurd rfl hname.ne_up
    · rfl

end Path

end Linewise
