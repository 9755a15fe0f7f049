import Linewise.Convert
import Linewise.Files.Tree

/-! The conversion of one file into another. -/
namespace Linewise

/-- Where files are kept, as far as a conversion needs it. -/
class FileStore (m : Type → Type) where
  read : Text → m (Except FileProblem ByteArray)
  write : Text → ByteArray → m (Except FileProblem Unit)

instance : FileStore (StateM FileTree) where
  read path := do
    return (← get).read path
  write path content := do
    match (← get).write path content with
    | .ok tree =>
      set tree
      return .ok ()
    | .error problem => return .error problem

/-- The source in a file's content, which must be UTF-8. -/
def decode? (content : ByteArray) : Option Text :=
  (String.fromUTF8? content).map String.toList

def encode (text : Text) : ByteArray :=
  (String.ofList text).toUTF8

theorem decode?_encode (text : Text) : decode? (encode text) = some text := by
  have hvalid : String.fromUTF8? (encode text) = some (String.ofList text) := by
    rw [String.fromUTF8?, encode, String.toUTF8_eq_toByteArray, dif_pos (String.ofList text).isValidUTF8]
    rfl
  rw [decode?, hvalid, Option.map_some, String.toList_ofList]

/-- A text has one content, and a content holds at most one text. -/
theorem decode?_eq_some_iff {content : ByteArray} {text : Text} :
    decode? content = some text ↔ content = encode text := by
  constructor
  · intro h
    obtain ⟨string, hstring, rfl⟩ := Option.map_eq_some_iff.mp h
    rw [String.fromUTF8?] at hstring
    split at hstring
    · cases hstring
      rw [encode, String.ofList_toList]
      rfl
    · cases hstring
  · rintro rfl
    exact decode?_encode text

/-- The content of a text is made of the bytes of its characters. -/
theorem encode_bytes (text : Text) :
    (encode text).data.toList = text.flatMap String.utf8EncodeChar := by
  rw [encode, String.toUTF8_eq_toByteArray, String.toByteArray_ofList, List.utf8Encode,
    List.toList_data_toByteArray]

/-- Converts what was read from the file `path`. -/
def convertContent (options : Options) (path : Text) (content : ByteArray) : Logged Text := do
  let some source := decode? content | Logged.fail (.file path .notText)
  Logged.record (.fileRead content.size path)
  convert options source

/-- Reads `input`, converts it and writes `output`. Nothing is written unless both other steps
succeed. -/
def convertFile {m : Type → Type} [Monad m] [FileStore m] (options : Options)
    (input output : Text) : m (Logged Unit) := do
  match ← FileStore.read input with
  | .error problem => return Logged.fail (.file input problem)
  | .ok content =>
    let converted := convertContent options input content
    match converted.outcome with
    | .error fault => return ⟨converted.events, .error fault⟩
    | .ok text =>
      match ← FileStore.write output (encode text) with
      | .error problem => return ⟨converted.events, .error (.file output problem)⟩
      | .ok () => return ⟨converted.events, .ok ()⟩

end Linewise
