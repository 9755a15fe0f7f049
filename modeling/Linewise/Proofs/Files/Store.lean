import Linewise.Files.Convert
import Linewise.Proofs.Files.Tree

/-! What a conversion relies on when it reads and writes files. Reading changes nothing, and writing
replaces one file as a whole or changes nothing. Main statement: trees of files are such a store. -/
namespace Linewise

namespace FileStore

theorem run_bind {σ α β : Type} (x : StateM σ α) (f : α → StateM σ β) (state : σ) :
    (x >>= f).run state = (f (x.run state).1).run (x.run state).2 := rfl

variable {σ : Type} [FileStore (StateM σ)]

/-- What reading a path gives in a state, and the state after it. -/
def readIn (state : σ) (path : Text) : Except FileProblem ByteArray × σ :=
  (FileStore.read path : StateM σ (Except FileProblem ByteArray)).run state

/-- What writing a path gives in a state, and the state after it. -/
def writeIn (state : σ) (path : Text) (content : ByteArray) : Except FileProblem Unit × σ :=
  (FileStore.write path content : StateM σ (Except FileProblem Unit)).run state

end FileStore

/-- A store whose files have locations. Several paths may lead to one location, and a path may lead to
one where nothing is yet. No file that is written makes a path lead elsewhere. -/
class LawfulFileStore (σ : Type) [FileStore (StateM σ)] where
  Location : Type
  location? : σ → Text → Option Location
  entryAt? : σ → Location → Option Entry
  read_state (state : σ) (path : Text) : (FileStore.readIn state path).2 = state
  read_ok {state : σ} {path : Text} {content : ByteArray} :
    (FileStore.readIn state path).1 = .ok content →
      ∃ location, location? state path = some location ∧
        entryAt? state location = some (.file content)
  write_error {state : σ} {path : Text} {content : ByteArray} {problem : FileProblem} :
    (FileStore.writeIn state path content).1 = .error problem →
      (FileStore.writeIn state path content).2 = state
  write_ok {state : σ} {path : Text} {content : ByteArray} :
    (FileStore.writeIn state path content).1 = .ok () →
      ∃ location, location? state path = some location ∧
        entryAt? (FileStore.writeIn state path content).2 location = some (.file content) ∧
        ∀ other, other ≠ location →
          entryAt? (FileStore.writeIn state path content).2 other = entryAt? state other
  write_location {state : σ} {path : Text} {content : ByteArray} :
    (FileStore.writeIn state path content).1 = .ok () →
      ∀ other, location? (FileStore.writeIn state path content).2 other = location? state other

namespace FileTree

theorem writeIn_eq (tree : FileTree) (path : Text) (content : ByteArray) :
    FileStore.writeIn tree path content =
      match tree.write path content with
      | .ok written => (.ok (), written)
      | .error problem => (.error problem, tree) := by
  cases h : tree.write path content <;> simp [FileStore.writeIn, FileStore.write, h] <;> rfl

instance : LawfulFileStore FileTree where
  Location := Place
  location? tree path := (tree.place path).toOption
  entryAt? := entry?
  read_state _ _ := rfl
  read_ok h := by
    obtain ⟨-, place, hplace, hentry⟩ := read_eq_ok_iff.mp h
    exact ⟨place, by rw [hplace]; rfl, hentry⟩
  write_error {tree path content problem} h := by
    rw [writeIn_eq] at h ⊢
    split at h
    · cases h
    · rfl
  write_ok {tree path content} h := by
    rw [writeIn_eq] at h ⊢
    split at h
    · rename_i written hwrite
      obtain ⟨place, hplace, hentry, rfl⟩ := write_eq_ok hwrite
      refine ⟨place, by rw [hplace]; rfl, ?_, ?_⟩
      · exact entry?_put_self (.file content) hentry
      · intro other hother
        exact entry?_put_of_ne tree (.file content) hother
    · cases h
  write_location {tree path content} h := by
    rw [writeIn_eq] at h ⊢
    split at h
    · rename_i written hwrite
      obtain ⟨place, -, hentry, rfl⟩ := write_eq_ok hwrite
      exact place_put content hentry
    · cases h

end FileTree

end Linewise
