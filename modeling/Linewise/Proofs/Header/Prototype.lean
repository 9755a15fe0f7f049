import Linewise.Proofs.Header.Grammar
import Linewise.Proofs.Header.Parameters

/-!
Prototypes: what a header tells about a function, apart from its layout. Main statement: the header of
a prototype, laid out in the usual way, becomes the definition line of that prototype, whatever its
parameters are called.
-/
namespace Linewise

/-- What a header tells about a function. -/
structure Prototype where
  receiver : Option Receiver
  name : Text
  parameters : List Parameter
  result : Option Text
  receiver_isWord : ∀ r ∈ receiver, r.name.IsWord ∧ r.type.IsWord
  name_isWord : name.IsWord
  parameters_isPlain : ∀ p ∈ parameters, p.IsPlain ∧ ')' ∉ p.name ∧ ')' ∉ p.type
  result_isWord : ∀ type ∈ result, type.IsWord

namespace Prototype

/-! ## The two languages -/

def receiverSource (prototype : Prototype) : Text :=
  match prototype.receiver with
  | some receiver => "(".toList ++ receiver.name ++ " *".toList ++ receiver.type ++ ") ".toList
  | none => []

def resultSource (prototype : Prototype) : Text :=
  match prototype.result with
  | some type => " ".toList ++ type
  | none => []

def opening (opens : Bool) : Text :=
  if opens then " \x7b".toList else []

def signatureSource (prototype : Prototype) : Text :=
  prototype.name ++ "(".toList ++ Parameter.declareAll prototype.parameters ++ ")".toList ++
    prototype.resultSource

/-- The header in the usual layout, with or without the brace that opens the body. -/
def source (prototype : Prototype) (opens : Bool) : Text :=
  "func ".toList ++ prototype.receiverSource ++ prototype.signatureSource ++ opening opens

/-- The receiver's name, with a comma after it where a parameter follows. -/
def receiverTarget (prototype : Prototype) : Text :=
  match prototype.receiver, prototype.parameters with
  | none, _ => []
  | some receiver, [] => receiver.name
  | some receiver, _ :: _ => receiver.name ++ ", ".toList

def resultTarget (prototype : Prototype) : Text :=
  match prototype.result with
  | some type => " -> ".toList ++ type
  | none => []

/-- The definition line. -/
def target (prototype : Prototype) : Text :=
  "fn ".toList ++ prototype.name ++ "(".toList ++ prototype.receiverTarget ++
    ", ".toList.intercalate (prototype.parameters.map fun p => p.name ++ ": ".toList ++ p.type) ++
    ")".toList ++ prototype.resultTarget ++ ":".toList

/-! ## The header is found -/

theorem source_eq (prototype : Prototype) (opens : Bool) : prototype.source opens =
    Header.keyword ++ " ".toList ++
      (prototype.receiverSource ++ (prototype.signatureSource ++ opening opens)) := by
  delta source
  simp [Header.keyword]

/-- The header that stands in the source. -/
def header (prototype : Prototype) : Header where
  receiver := prototype.receiver
  name := prototype.name
  params := Parameter.declareAll prototype.parameters
  result := prototype.result

theorem not_mem_params (prototype : Prototype) :
    ')' ∉ prototype.header.params ∧ '\n' ∉ prototype.header.params := by
  constructor
  · apply Parameter.not_mem_declareAll (by decide) (by decide)
    intro p hp
    exact (prototype.parameters_isPlain p hp).2
  · apply Parameter.not_mem_declareAll (by decide) (by decide)
    intro p hp
    have hplain := (prototype.parameters_isPlain p hp).1
    exact ⟨hplain.name.toIsToken.not_mem rfl, hplain.type.toIsToken.not_mem rfl⟩

theorem resultAt_source (prototype : Prototype) (opens : Bool) :
    Header.ResultAt (prototype.resultSource ++ opening opens) prototype.header.result := by
  have hblank := Text.isBlank_blank.chars
  cases hresult : prototype.result with
  | none =>
      simp only [resultSource, header, hresult, List.nil_append]
      cases opens with
      | false => exact @Header.ResultAt.none [] [] (by simp) rfl rfl
      | true => exact @Header.ResultAt.none " ".toList "\x7b".toList hblank rfl rfl
  | some type =>
      simp only [resultSource, header, hresult]
      refine .word hblank (prototype.result_isWord type hresult) ?_
      cases opens <;> rfl

theorem isSignature_source (prototype : Prototype) (opens : Bool) :
    prototype.header.IsSignature (prototype.signatureSource ++ opening opens) := by
  refine ⟨prototype.name_isWord, prototype.not_mem_params.1, prototype.not_mem_params.2,
    prototype.resultSource ++ opening opens, prototype.resultAt_source opens, ?_⟩
  delta signatureSource
  simp only [List.append_assoc]
  rfl

theorem isFunction_source {prototype : Prototype} (h : prototype.receiver = none) (opens : Bool) :
    prototype.header.IsFunction (prototype.source opens) := by
  refine ⟨h, " ".toList, _, Text.isBlank_blank, prototype.isSignature_source opens, ?_⟩
  rw [source_eq, receiverSource, h, List.nil_append]

theorem isMethod_source {prototype : Prototype} {receiver : Receiver}
    (h : prototype.receiver = some receiver) (opens : Bool) :
    prototype.header.IsMethod (prototype.source opens) := by
  obtain ⟨hname, htype⟩ := prototype.receiver_isWord receiver h
  refine ⟨receiver, h, hname, htype, " ".toList, " ".toList, " ".toList, _, Text.isBlank_blank,
    Text.isBlank_blank, Text.isBlank_blank, prototype.isSignature_source opens, ?_⟩
  rw [source_eq, receiverSource, h]
  simp

end Prototype

namespace Header

theorem IsFunction.head? {header : Header} {s : Text} (h : header.IsFunction s) :
    s.head? = some 'f' := by
  obtain ⟨-, blank, signature, -, -, rfl⟩ := h
  rfl

theorem IsMethod.head? {header : Header} {s : Text} (h : header.IsMethod s) :
    s.head? = some 'f' := by
  obtain ⟨receiver, -, -, -, first, second, third, signature, -, -, -, -, rfl⟩ := h
  rfl

/-- No header begins in white space. -/
theorem isLeftmost_of_indent {kind : Header → Text → Prop} {indent s : Text} {header : Header}
    (hkind : ∀ other t, kind other t → t.head? = some 'f')
    (hindent : ∀ c ∈ indent, isSpace c = true) (h : kind header s) :
    IsLeftmost kind (indent ++ s) header := by
  refine ⟨indent, s, rfl, h, ?_⟩
  intro earlier later other hsplit hother
  rcases List.append_eq_append_iff.mp hsplit with ⟨between, rfl, -⟩ | ⟨between, rfl, rfl⟩
  · simp
  · cases between with
    | nil => simp
    | cons c between =>
        have hc : c = 'f' := by simpa using hkind other _ hother
        have hspace := hindent c (by simp)
        rw [hc] at hspace
        exact absurd hspace (by decide)

/-- A method has two pairs of parentheses. -/
theorem IsMethod.two_le_count {header : Header} {s : Text} (h : header.IsMethod s) :
    2 ≤ s.count ')' := by
  obtain ⟨receiver, -, -, -, first, second, third, signature, -, -, -, hsignature, rfl⟩ := h
  obtain ⟨-, -, -, rest, -, rfl⟩ := hsignature
  simp only [List.count_append, List.count_singleton_self]
  omega

end Header

namespace Prototype

theorem count_source {prototype : Prototype} (h : prototype.receiver = none) (opens : Bool) :
    (prototype.source opens).count ')' = 1 := by
  have hname : prototype.name.count ')' = 0 :=
    List.count_eq_zero.mpr (prototype.name_isWord.not_mem rfl)
  have hparams : (Parameter.declareAll prototype.parameters).count ')' = 0 :=
    List.count_eq_zero.mpr prototype.not_mem_params.1
  have hresult : prototype.resultSource.count ')' = 0 := by
    cases htype : prototype.result with
    | none => simp [resultSource, htype]
    | some type =>
        have hword : type.count ')' = 0 :=
          List.count_eq_zero.mpr ((prototype.result_isWord type htype).not_mem rfl)
        simp [resultSource, htype, hword]
  have hopening : (opening opens).count ')' = 0 := by cases opens <;> rfl
  rw [source_eq, receiverSource, h]
  delta signatureSource
  simp [List.count_append, hname, hparams, hresult, hopening, Header.keyword]

theorem find?_source (prototype : Prototype) (opens : Bool) {indent : Text}
    (hindent : ∀ c ∈ indent, isSpace c = true) :
    Header.find? (indent ++ prototype.source opens) = some prototype.header := by
  rw [Header.find?_eq_some_iff]
  cases hreceiver : prototype.receiver with
  | some receiver =>
      exact .inl (Header.isLeftmost_of_indent (fun _ _ h => h.head?) hindent
        (isMethod_source hreceiver opens))
  | none =>
      refine .inr ⟨?_, Header.isLeftmost_of_indent (fun _ _ h => h.head?) hindent
        (isFunction_source hreceiver opens)⟩
      intro hholds
      obtain ⟨before, rest, other, hsplit, hmethod⟩ := hholds
      have hnone : indent.count ')' = 0 :=
        List.count_eq_zero.mpr fun hmem => absurd (hindent ')' hmem) (by decide)
      have hcount := congrArg (List.count ')') hsplit
      rw [List.count_append, List.count_append, hnone, count_source hreceiver] at hcount
      have htwo := hmethod.two_le_count
      omega

/-! ## The definition is written -/

/-- What stands between the parentheses of the definition line. -/
def arguments (prototype : Prototype) : List Text :=
  (prototype.receiver.map Receiver.name).toList ++ prototype.parameters.map Parameter.annotated

theorem intercalate_arguments (prototype : Prototype) : ", ".toList.intercalate prototype.arguments =
    prototype.receiverTarget ++ ", ".toList.intercalate
      (prototype.parameters.map fun p => p.name ++ ": ".toList ++ p.type) := by
  have hannotated : (fun p : Parameter => p.name ++ ": ".toList ++ p.type) = Parameter.annotated := rfl
  rw [arguments, hannotated]
  cases hreceiver : prototype.receiver with
  | none => simp [receiverTarget, hreceiver]
  | some receiver =>
      cases hparameters : prototype.parameters with
      | nil => simp [receiverTarget, hreceiver, hparameters, List.intercalate_singleton]
      | cons p parameters => simp [receiverTarget, hreceiver, hparameters, List.intercalate_cons_cons]

theorem target_eq (prototype : Prototype) : prototype.target = 'f' :: 'n' :: ' ' :: (prototype.name ++
    '(' :: (", ".toList.intercalate prototype.arguments ++ ')' :: (prototype.resultTarget ++ [':']))) := by
  rw [intercalate_arguments]
  delta target
  simp

/-- A definition line shows nothing but the prototype. -/
theorem definition_eq_target (prototype : Prototype) {header : Header}
    (hreceiver : header.receiver = prototype.receiver) (hname : header.name = prototype.name)
    (hresult : header.result = prototype.result) :
    header.definition prototype.parameters = prototype.target := by
  have harguments : header.arguments prototype.parameters = prototype.arguments := by
    rw [Header.arguments, arguments, hreceiver]
    cases hr : prototype.receiver with
    | none => rfl
    | some receiver => simp [(prototype.receiver_isWord receiver hr).1.nonempty]
  have hreturns : header.returns = prototype.resultTarget := by
    cases hr : prototype.result <;> simp [Header.returns, resultTarget, hresult, hr]
  rw [Header.definition_eq, target_eq, harguments, hreturns, hname]

end Prototype

namespace Header

/-- The header of a prototype is converted into its definition line, and nothing is reported. -/
theorem convertLine_source (number : Nat) (prototype : Prototype) (opens : Bool) {indent : Text}
    (hindent : ∀ c ∈ indent, isSpace c = true) :
    convertLine number (indent ++ prototype.source opens) = pure (some prototype.target) := by
  have hfind := prototype.find?_source opens hindent
  have hread : Parameter.readAll number prototype.header.params = .ok prototype.parameters :=
    Parameter.readAll_eq_ok_iff.mpr
      (Parameter.isListing_declareAll fun p hp => (prototype.parameters_isPlain p hp).1)
  have hconvert : prototype.header.convert number = .ok prototype.target := by
    rw [convert, hread, Outcome.ok_bind, prototype.definition_eq_target rfl rfl rfl]
    rfl
  simp only [convertLine, mentions_of_find? hfind, ↓reduceIte, hfind, hconvert]
  rfl

theorem convertLine_source_method : ∃ prototype : Prototype,
    "\t".toList ++ prototype.source true =
      "\tfunc (s *Stack) Push(func *(:, \x7b f(s) bool \x7b".toList ∧
    prototype.target = "fn Push(s, func: *(:, \x7b: f(s) -> bool:".toList ∧
    convertLine 3 ("\t".toList ++ prototype.source true) = pure (some prototype.target) := by
  exact ⟨{ receiver := some ⟨"s".toList, "Stack".toList⟩
           name := "Push".toList
           parameters := [⟨"func".toList, "*(:".toList⟩, ⟨"\x7b".toList, "f(s".toList⟩]
           result := some "bool".toList
           receiver_isWord := by decide
           name_isWord := by decide
           parameters_isPlain := by decide
           result_isWord := by decide },
    by decide, by decide, convertLine_source 3 _ true (List.all_eq_true.mp rfl)⟩

end Header

end Linewise
