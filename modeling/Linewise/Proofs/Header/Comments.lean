import Linewise.Proofs.Comment.Pieces
import Linewise.Proofs.Header.Written

/-!
Headers and comment markers. Outside its parameters a header holds no slash, and parameters are cut at
commas and white space. Main statement: lines whose markers are converted first have the same
definition lines, with their markers converted, and the same fault, with those of the bad entry
converted.
-/
namespace Linewise

/-! ## Other texts in the parameters -/

def Header.mapParams (f : Text → Text) (header : Header) : Header :=
  { header with params := f header.params }

def Parameter.mapTexts (f : Text → Text) (parameter : Parameter) : Parameter :=
  ⟨f parameter.name, f parameter.type⟩

/-- The same fault, told of another entry. -/
def Fault.mapEntry (f : Text → Text) : Fault → Fault
  | .malformedParameter line entry => .malformedParameter line (f entry)
  | fault => fault

namespace Header

/-! ## Readers -/

/-- A reader in two steps, each of which reads the same from another text. -/
theorem bind_eq_map {α β : Type} {x y : Option α} {next : α → Option β} {f : α → α} {g : β → β}
    (hfirst : y = x.map f) (hnext : ∀ a, next (f a) = (next a).map g) :
    y >>= next = (x >>= next).map g := by
  subst hfirst
  cases x with
  | none => rfl
  | some a => exact hnext a

theorem parameters?_convert (s : Text) :
    parameters? (Comment.convert s) = (parameters? s).map fun (params, rest) =>
      (Comment.convert params, Comment.convert rest) := by
  rw [parameters?, parameters?, Comment.dropWhile_convert rfl, Comment.takeWhile_convert rfl,
    Comment.after?_convert (by decide) (by decide)]
  cases Text.after? (s.dropWhile inParameters) [')'] <;> rfl

theorem result_convert (s : Text) :
    (Comment.convert s).skipSpaces.word?.map Prod.fst = s.skipSpaces.word?.map Prod.fst := by
  rw [Text.skipSpaces, Comment.dropWhile_convert rfl, Comment.word?_convert, Option.map_map]
  rfl

theorem signature?_convert (receiver : Option Receiver) (s : Text) :
    signature? receiver (Comment.convert s) =
      (signature? receiver s).map (mapParams Comment.convert) := by
  refine bind_eq_map (Comment.word?_convert s) ?_
  rintro ⟨name, afterName⟩
  refine bind_eq_map (Comment.after?_convert (by decide) (by decide) afterName) ?_
  intro inside
  refine bind_eq_map (parameters?_convert inside) ?_
  rintro ⟨params, rest⟩
  simp only [result_convert]
  rfl

theorem receiver?_convert (s : Text) :
    receiver? (Comment.convert s) = (receiver? s).map fun (receiver, rest) =>
      (receiver, Comment.convert rest) := by
  refine bind_eq_map (Comment.after?_convert (by decide) (by decide) s) ?_
  intro inside
  refine bind_eq_map (Comment.word?_convert inside) ?_
  rintro ⟨name, afterName⟩
  refine bind_eq_map (Comment.afterSpaces?_convert afterName) ?_
  intro pointer
  refine bind_eq_map (Comment.after?_convert (by decide) (by decide) pointer) ?_
  intro target
  refine bind_eq_map (Comment.word?_convert target) ?_
  rintro ⟨type, afterType⟩
  refine bind_eq_map (Comment.after?_convert (by decide) (by decide) afterType) ?_
  intro outside
  rfl

theorem function?_convert (s : Text) :
    function? (Comment.convert s) = (function? s).map (mapParams Comment.convert) := by
  refine bind_eq_map (Comment.after?_convert (by decide) (by decide) s) ?_
  intro afterKeyword
  refine bind_eq_map (Comment.afterSpaces?_convert afterKeyword) ?_
  intro start
  exact signature?_convert none start

theorem method?_convert (s : Text) :
    method? (Comment.convert s) = (method? s).map (mapParams Comment.convert) := by
  refine bind_eq_map (Comment.after?_convert (by decide) (by decide) s) ?_
  intro afterKeyword
  refine bind_eq_map (Comment.afterSpaces?_convert afterKeyword) ?_
  intro start
  refine bind_eq_map (receiver?_convert start) ?_
  rintro ⟨receiver, afterReceiver⟩
  refine bind_eq_map (Comment.afterSpaces?_convert afterReceiver) ?_
  intro signature
  exact signature?_convert (some receiver) signature

theorem find?_convert (line : Text) :
    find? (Comment.convert line) = (find? line).map (mapParams Comment.convert) := by
  have hmethod := Text.leftmost?_convert method?_convert (fun _ => rfl) line
  have hfunction := Text.leftmost?_convert function?_convert (fun _ => rfl) line
  rw [find?, find?, hmethod, hfunction]
  cases Text.leftmost? method? line <;> rfl

end Header

/-! ## Parameters -/

namespace Parameter

theorem ofEntry_convert (number : Nat) (entry : Text) :
    ofEntry number (Comment.convert entry) =
      ((ofEntry number entry).map (mapTexts Comment.convert)).mapError
        (Fault.mapEntry Comment.convert) := by
  unfold ofEntry ofEntry?
  rw [Comment.tokens_convert, Comment.trim_convert]
  rcases entry.tokens with _ | ⟨name, _ | ⟨type, _ | ⟨third, tokens⟩⟩⟩ <;> rfl

theorem readAll_convert (number : Nat) (params : Text) :
    readAll number (Comment.convert params) =
      ((readAll number params).map (List.map (mapTexts Comment.convert))).mapError
        (Fault.mapEntry Comment.convert) := by
  have hentry : ofEntry number ∘ Comment.convert = fun entry =>
      ((ofEntry number entry).map (mapTexts Comment.convert)).mapError
        (Fault.mapEntry Comment.convert) :=
    funext (ofEntry_convert number)
  rw [readAll, readAll, Comment.isEmpty_convert]
  split
  · rfl
  · rw [List.splitOn_eq_splitOnP, List.splitOn_eq_splitOnP, Comment.splitOnP_convert rfl rfl,
      List.mapM_map, hentry, Outcome.mapM_mapError, Outcome.mapM_map]

end Parameter

namespace Header

/-! ## The line as it is written -/

theorem annotated_convert (parameter : Parameter) :
    (parameter.mapTexts Comment.convert).annotated = Comment.convert parameter.annotated := by
  have hcolon : '/' ∉ ": ".toList := by decide
  rw [Parameter.annotated, Parameter.annotated, List.append_assoc, List.append_assoc,
    Comment.convert_append _ (by simp), Comment.convert_append_of_not_mem _ hcolon]
  rfl

theorem arguments_convert {header : Header} (h : header.Readable) (parameters : List Parameter) :
    (header.mapParams Comment.convert).arguments (parameters.map (Parameter.mapTexts Comment.convert)) =
      (header.arguments parameters).map Comment.convert := by
  have hreceiver : ((header.receiver.map Receiver.name).toList.filter (!·.isEmpty)).map
      Comment.convert = (header.receiver.map Receiver.name).toList.filter (!·.isEmpty) := by
    refine (List.map_congr_left ?_).trans (List.map_id _)
    intro name hname
    exact Comment.convert_of_not_mem ((h.isWord_of_mem_receiver hname).not_mem rfl)
  have hparameters : Parameter.annotated ∘ Parameter.mapTexts Comment.convert =
      Comment.convert ∘ Parameter.annotated :=
    funext annotated_convert
  simp only [arguments, List.map_append, List.map_map, hreceiver, hparameters, mapParams]

theorem returns_convert {header : Header} (h : header.Readable) :
    Comment.convert (header.returns ++ [':']) = header.returns ++ [':'] := by
  apply Comment.convert_of_not_mem
  cases hresult : header.result with
  | none => simp [returns, hresult]
  | some type => simp [returns, hresult, (h.result type hresult).not_mem (c := '/') rfl]

theorem definition_convert {header : Header} (h : header.Readable) (parameters : List Parameter) :
    (header.mapParams Comment.convert).definition
        (parameters.map (Parameter.mapTexts Comment.convert)) =
      Comment.convert (header.definition parameters) := by
  have hstart : '/' ∉ 'f' :: 'n' :: ' ' :: (header.name ++ ['(']) := by
    simp [h.name.not_mem (c := '/') rfl]
  have hend := (Comment.convert_cons_of_ne (header.returns ++ [':']) (by decide : ')' ≠ '/')).trans
    (congrArg _ (returns_convert h))
  have hdefinition (other : Header) (arguments : List Parameter) :
      other.definition arguments = ('f' :: 'n' :: ' ' :: (other.name ++ ['('])) ++
        (", ".toList.intercalate (other.arguments arguments) ++ ')' :: (other.returns ++ [':'])) := by
    rw [definition_eq]
    simp
  rw [hdefinition, hdefinition, Comment.convert_append_of_not_mem _ hstart,
    Comment.convert_append _ (by simp), Comment.convert_intercalate, hend, arguments_convert h]
  rfl

/-! ## Lines -/

theorem convertLine_convert (number : Nat) (line : Text) :
    (convertLine number (Comment.convert line)).outcome =
      ((convertLine number line).outcome.map (Option.map Comment.convert)).mapError
        (Fault.mapEntry Comment.convert) := by
  have hfind := find?_convert line
  cases h : find? line with
  | none =>
      rw [h] at hfind
      rw [convertLine_of_none number hfind, convertLine_of_none number h]
      rfl
  | some header =>
      rw [h] at hfind
      rw [convertLine_of_some number hfind, convertLine_of_some number h, Header.convert, Header.convert]
      have hread := Parameter.readAll_convert number header.params
      change Parameter.readAll number (mapParams Comment.convert header).params = _ at hread
      rw [hread]
      cases Parameter.readAll number header.params with
      | error fault => rfl
      | ok parameters =>
          have hdefinition := definition_convert (find?_readable h) parameters
          change Except.ok (some _) = Except.ok (some _)
          rw [hdefinition]

theorem convertFrom_convert (number : Nat) (lines : Lines) :
    (convertFrom number (lines.map Comment.convert)).outcome =
      ((convertFrom number lines).outcome.map (List.map Comment.convert)).mapError
        (Fault.mapEntry Comment.convert) := by
  induction lines generalizing number with
  | nil => rfl
  | cons line lines ih =>
      rw [List.map_cons, convertFrom_cons, convertFrom_cons, convertLine_convert, ih]
      cases (convertLine number line).outcome with
      | error fault => rfl
      | ok definition =>
          cases (convertFrom (number + 1) lines).outcome with
          | error fault => rfl
          | ok rest => cases definition <;> rfl

end Header

end Linewise
