import Linewise.Files.Tree
import Linewise.Proofs.Outcome

/-! Where paths lead in a tree, and what reading and writing do there. Main statements: a file that can
be read is the one that its path leads to, and a file that is written is the only entry that changes. -/
namespace Linewise

namespace FileTree

variable {tree : FileTree} {path : Text} {content : ByteArray}

/-! ## Entries -/

theorem lookup_filter (entries : List (Place × Entry)) {place other : Place} (h : other ≠ place) :
    (entries.filter (·.1 != place)).lookup other = entries.lookup other := by
  induction entries with
  | nil => rfl
  | cons entry entries ih =>
      obtain ⟨at', entry⟩ := entry
      by_cases hat : at' = place
      · have hother : (other == at') = false := by simpa [hat] using h
        rw [List.filter_cons_of_neg (by simp [hat]), ih, List.lookup_cons, hother]
      · rw [List.filter_cons_of_pos (by simpa using hat), List.lookup_cons, List.lookup_cons, ih]

theorem entry?_put_of_ne (tree : FileTree) (entry : Entry) {place other : Place}
    (h : other ≠ place) : entry? (tree.put place entry) other = tree.entry? other := by
  have hother : (other == place) = false := by simpa using h
  rw [put, entry?, entry?, List.lookup_cons, hother]
  simp only [lookup_filter _ h]

theorem ne_nil_of_entry? {place : Place} (h : tree.entry? place ≠ some .directory) : place ≠ [] := by
  rintro rfl
  exact h rfl

theorem entry?_put_self (entry : Entry) {place : Place} (h : tree.entry? place ≠ some .directory) :
    entry? (tree.put place entry) place = some entry := by
  have hne := ne_nil_of_entry? h
  rw [put, entry?, if_neg (by simpa using hne), List.lookup_cons, beq_self_eq_true]

/-! ## Paths -/

theorem walk_append (tree : FileTree) (here : Place) (first second : List Text) :
    tree.walk here (first ++ second) =
      tree.walk here first >>= fun there => tree.walk there second := by
  induction first generalizing here with
  | nil => rfl
  | cons name first ih =>
      rw [List.cons_append, walk, walk]
      cases tree.step here name with
      | error problem => rfl
      | ok there => exact ih there

/-- The place that a path leads to, whether or not something is there. -/
def place (tree : FileTree) (path : Text) : Except FileProblem Place := do
  let here ← tree.start path
  tree.walk here (names path)

/-- A step succeeds only in a directory, and `.` stays there. -/
theorem step_dot {here there : Place} (h : tree.step here ['.'] = .ok there) :
    there = here ∧ tree.entry? here = some .directory := by
  unfold step at h
  split at h
  · rename_i hentry
    rw [if_pos rfl] at h
    cases h
    exact ⟨rfl, hentry⟩
  · cases h
  · cases h

/-- A path with `.` at its end leads to a directory. -/
theorem entry?_of_walk_dot {here place : Place} {names : List Text}
    (h : tree.walk here (names ++ [['.']]) = .ok place) : tree.entry? place = some .directory := by
  rw [walk_append] at h
  obtain ⟨there, -, h⟩ := Outcome.bind_eq_ok_iff.mp h
  obtain ⟨last, hstep, h⟩ := Outcome.bind_eq_ok_iff.mp h
  cases h
  obtain ⟨rfl, hentry⟩ := step_dot hstep
  exact hentry

/-- The names that reading and writing follow: those of the path or, if it ends in a separator, some
that lead to a directory. -/
theorem place_of_walk {here place : Place} {others : List Text} (hstart : tree.start path = .ok here)
    (h : tree.walk here (if endsInSeparator path then others ++ [['.']] else names path) = .ok place)
    (hentry : tree.entry? place ≠ some .directory) : tree.place path = .ok place := by
  split at h
  · exact absurd (entry?_of_walk_dot h) hentry
  · rw [FileTree.place, hstart]
    exact h

/-- A step depends on the directories alone, so no file that is written leads it elsewhere. -/
theorem step_put (content : ByteArray) {place : Place} (h : tree.entry? place ≠ some .directory)
    (here : Place) (name : Text) :
    ((tree.put place (.file content)).step here name).toOption = (tree.step here name).toOption := by
  by_cases hhere : here = place
  · subst hhere
    have hstep : (tree.step here name).toOption = none := by
      unfold step
      split
      · exact absurd ‹_› h
      · rfl
      · rfl
    rw [hstep, step, entry?_put_self _ h]
    rfl
  · rw [step, step, entry?_put_of_ne tree _ hhere]

theorem walk_put (content : ByteArray) {place : Place} (h : tree.entry? place ≠ some .directory)
    (here : Place) (names : List Text) :
    ((tree.put place (.file content)).walk here names).toOption =
      (tree.walk here names).toOption := by
  induction names generalizing here with
  | nil => rfl
  | cons name names ih =>
      rw [walk, walk, Outcome.toOption_bind, Outcome.toOption_bind, step_put content h]
      simp only [ih]

theorem place_put (content : ByteArray) {place : Place} (h : tree.entry? place ≠ some .directory)
    (path : Text) :
    ((tree.put place (.file content)).place path).toOption = (tree.place path).toOption := by
  have hstart : (tree.put place (.file content)).start path = tree.start path := rfl
  rw [FileTree.place, FileTree.place, hstart, Outcome.toOption_bind, Outcome.toOption_bind]
  simp only [walk_put content h]

/-! ## Operations -/

theorem read_eq_ok_iff :
    tree.read path = .ok content ↔
      endsInSeparator path = false ∧
        ∃ place, tree.place path = .ok place ∧ tree.entry? place = some (.file content) := by
  constructor
  · intro h
    obtain ⟨here, hstart, h⟩ := Outcome.bind_eq_ok_iff.mp h
    obtain ⟨place, hwalk, h⟩ := Outcome.bind_eq_ok_iff.mp h
    split at h
    · rename_i hentry
      cases h
      refine ⟨?_, place, place_of_walk hstart hwalk (by simp [hentry]), hentry⟩
      cases hends : endsInSeparator path with
      | false => rfl
      | true =>
          rw [hends, if_pos rfl] at hwalk
          rw [entry?_of_walk_dot hwalk] at hentry
          cases hentry
    · cases h
    · cases h
  · rintro ⟨hends, place, hplace, hentry⟩
    obtain ⟨here, hstart, hwalk⟩ := Outcome.bind_eq_ok_iff.mp hplace
    rw [read, hstart, Outcome.ok_bind, hends]
    simp only [Bool.false_eq_true, if_false, hwalk, Outcome.ok_bind, hentry]

theorem write_eq_ok {written : FileTree} (h : tree.write path content = .ok written) :
    ∃ place, tree.place path = .ok place ∧ tree.entry? place ≠ some .directory ∧
      written = tree.put place (.file content) := by
  obtain ⟨here, hstart, h⟩ := Outcome.bind_eq_ok_iff.mp h
  obtain ⟨place, hwalk, h⟩ := Outcome.bind_eq_ok_iff.mp h
  split at h
  · cases h
  · rename_i hentry
    cases h
    exact ⟨place, place_of_walk hstart hwalk hentry, hentry, rfl⟩

end FileTree

end Linewise
