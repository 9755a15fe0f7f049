import Linewise.Proofs.Docstring.Block
import Linewise.Proofs.Pass.Finish

/-!
Docstrings from source to output. The passes after the docstrings know nothing of them and go over their
lines as over any other. Main statement: a block of comment lines above a definition comes out as a
docstring below it, line by line, and a text stays as it is exactly if it holds no brace and no
declaration.
-/
namespace Linewise

/-- The text of a comment line, without one marker and the white space around it. -/
def Comment.text (line : Text) : Text :=
  Text.trim (line.trim.drop 1)

/-! ## Lines that are finished -/

namespace Pass

theorem finish_docLine (comment : Text) :
    finish (Docstring.docLine comment) = "    ".toList ++ finish (Comment.text comment) :=
  finish_indented (by simp) (Comment.text comment)

theorem finish_quotes : finish Docstring.quotes = Docstring.quotes := by
  decide +kernel

theorem map_finish_documented {block : Lines} (definition : Text) (hne : block ≠ []) :
    (Docstring.documented block definition).map finish =
      finish definition :: Docstring.quotes ::
        block.map (fun comment => "    ".toList ++ finish (Comment.text comment)) ++
          [Docstring.quotes] := by
  obtain ⟨first, block, rfl⟩ := List.exists_cons_of_ne_nil hne
  have hdoc : finish ∘ Docstring.docLine = fun comment => "    ".toList ++ finish (Comment.text comment) :=
    funext finish_docLine
  rw [Docstring.documented, List.map_append, List.map_append, List.map_map, hdoc, List.map_cons,
    List.map_singleton, finish_quotes]
  rfl

end Pass

/-! ## Definitions that are written -/

theorem Header.exists_of_getElem?_convertFrom {number index : Nat} {lines written : Lines}
    {definition : Text} (h : (convertFrom number lines).outcome = .ok written)
    (hwritten : written[index]? = some definition) :
    lines[index]? = some definition ∨
      ∃ line, (convertLine (number + index) line).outcome = .ok (some definition) := by
  induction lines generalizing number index written with
  | nil =>
      cases h
      cases hwritten
  | cons line lines ih =>
      obtain ⟨first, rest, hfirst, hrest, rfl⟩ := convertFrom_cons_eq_ok h
      cases index with
      | zero =>
          obtain rfl : first.getD line = definition := by simpa using hwritten
          cases first with
          | none => exact .inl rfl
          | some definition => exact .inr ⟨line, hfirst⟩
      | succ index =>
          have hnumber : number + (index + 1) = number + 1 + index := by omega
          rw [hnumber]
          exact ih hrest hwritten

/-- Where the pass over the headers has changed a line, only braces are taken from it later on. -/
theorem Pass.finish_entered {source : Text} {entered : Lines} {index : Nat} {definition : Text}
    (h : (Header.convertLines (headerLines source)).outcome = .ok entered)
    (hentered : entered[index]? = some definition)
    (hchanged : (headerLines source)[index]? ≠ some definition) :
    finish definition = Braces.remove definition := by
  rcases Header.exists_of_getElem?_convertFrom h hentered with hsame | ⟨line, hline⟩
  · exact absurd hsame hchanged
  · exact finish_of_settled (Header.convertLine_eq_some hline).2

/-! ## Whole sources -/

/-- A definition with a block of comment lines above it comes out with a docstring of as many lines. If
a header was written as the definition, it loses its braces and nothing else. A line of the docstring has
the text of its comment exactly if that text holds no brace and no declaration. -/
theorem convert_documented {options : Options} {source : Text} {before block after : Lines}
    {definition : Text}
    (h : (Pass.run options [.comments, .functionDefinitions] (Lines.ofText source)).outcome =
      .ok (before ++ block ++ definition :: after))
    (hblock : Docstring.IsBlock before block definition) :
    (∃ left right, (convert options source).outcome = .ok (Lines.toText (left ++
      (Pass.finish definition :: Docstring.quotes ::
        block.map (fun comment => "    ".toList ++ Pass.finish (Comment.text comment)) ++
          [Docstring.quotes]) ++ right))) ∧
    ((headerLines source)[(before ++ block).length]? ≠ some definition →
      Pass.finish definition = Braces.remove definition) ∧
    ∀ comment ∈ block, Pass.finish (Comment.text comment) = Comment.text comment ↔
      '{' ∉ Comment.text comment ∧ '}' ∉ Comment.text comment ∧
        Declaration.Free (Comment.text comment) := by
  rw [Pass.run_definitions] at h
  refine ⟨?_, ?_, fun comment _ => Pass.finish_eq_self_iff⟩
  · refine ⟨(Docstring.forward [] before).map Pass.finish,
      (Docstring.promoted options.keepFinalLine after).map Pass.finish, ?_⟩
    rw [convert_outcome, headerLines, h, Outcome.ok_bind, Pass.written, hblock.promoted_eq,
      List.map_append, List.map_append, Pass.map_finish_documented definition hblock.nonempty]
  · exact Pass.finish_entered h (by simp)

/-- Of three comment lines, two hold something that later passes rewrite. -/
theorem convert_documented_total :
    (Pass.run { keepFinalLine := false } [.comments, .functionDefinitions]
      (Lines.ofText ("// total := a + b\n//\tof \x7ba, b\x7d\n// and no more\n".toList ++
        "func Sum(a int, b []\x7bint\x7d) int \x7b\n\x7d\n".toList))).outcome =
      .ok (["# total := a + b".toList, "#\tof \x7ba, b\x7d".toList, "# and no more".toList,
        "fn Sum(a: int, b: []\x7bint\x7d) -> int:".toList, "\x7d".toList, []]) ∧
    (∃ left right, (convert { keepFinalLine := false }
      ("// total := a + b\n//\tof \x7ba, b\x7d\n// and no more\n".toList ++
        "func Sum(a int, b []\x7bint\x7d) int \x7b\n\x7d\n".toList)).outcome =
      .ok (Lines.toText (left ++ ["fn Sum(a: int, b: []int) -> int:".toList, "    \"\"\"".toList,
        "    var total = a + b".toList, "    of a, b".toList, "    and no more".toList,
        "    \"\"\"".toList] ++ right))) ∧
    Declaration.Free "and no more".toList := by
  have h : (Pass.run { keepFinalLine := false } [.comments, .functionDefinitions]
      (Lines.ofText ("// total := a + b\n//\tof \x7ba, b\x7d\n// and no more\n".toList ++
        "func Sum(a int, b []\x7bint\x7d) int \x7b\n\x7d\n".toList))).outcome =
      .ok (["# total := a + b".toList, "#\tof \x7ba, b\x7d".toList, "# and no more".toList,
        "fn Sum(a: int, b: []\x7bint\x7d) -> int:".toList, "\x7d".toList, []]) := by
    decide +kernel
  have hblock : Docstring.IsBlock [] ["# total := a + b".toList, "#\tof \x7ba, b\x7d".toList,
      "# and no more".toList] "fn Sum(a: int, b: []\x7bint\x7d) -> int:".toList :=
    ⟨by simp, by decide +kernel, rfl, by decide +kernel⟩
  obtain ⟨⟨left, right, houtput⟩, hdefinition, htexts⟩ := convert_documented h hblock
  refine ⟨h, ⟨left, right, ?_⟩, ?_⟩
  · rw [hdefinition (by decide +kernel)] at houtput
    have hlines : Braces.remove "fn Sum(a: int, b: []\x7bint\x7d) -> int:".toList ::
        Docstring.quotes :: ["# total := a + b".toList, "#\tof \x7ba, b\x7d".toList,
          "# and no more".toList].map
            (fun comment => "    ".toList ++ Pass.finish (Comment.text comment)) ++
          [Docstring.quotes] =
        ["fn Sum(a: int, b: []int) -> int:".toList, "    \"\"\"".toList,
          "    var total = a + b".toList, "    of a, b".toList, "    and no more".toList,
          "    \"\"\"".toList] := by
      decide +kernel
    rwa [hlines] at houtput
  · have hkept := (htexts "# and no more".toList (by simp)).mp (by decide +kernel)
    have htext : Comment.text "# and no more".toList = "and no more".toList := by decide +kernel
    exact htext ▸ hkept.2.2

/-- What is written in a comment, or as a definition in the source itself, need not come out as it is:
neither the docstring below a definition nor the definition itself is always found in the output. -/
theorem convert_rewrites_documentation :
    (¬ ∀ (options : Options) (source output : Text) (before block after : Lines) (definition : Text),
      (convert options source).outcome = .ok output →
      (Pass.run options [.comments, .functionDefinitions] (Lines.ofText source)).outcome =
        .ok (before ++ block ++ definition :: after) →
      Docstring.IsBlock before block definition →
      ∃ left right, output = Lines.toText (left ++ (Braces.remove definition :: Docstring.quotes ::
        block.map Docstring.docLine ++ [Docstring.quotes]) ++ right)) ∧
    ¬ ∀ (options : Options) (source output : Text) (before block after : Lines) (definition : Text),
      (convert options source).outcome = .ok output →
      (Pass.run options [.comments, .functionDefinitions] (Lines.ofText source)).outcome =
        .ok (before ++ block ++ definition :: after) →
      Docstring.IsBlock before block definition →
      ∃ left right, output = Lines.toText (left ++ Braces.remove definition :: right) := by
  have houtput : (convert { keepFinalLine := false }
      ("// total := a + b\n// over \x7ba, b\x7d\nfunc Sum(a int, b int) int \x7b\n\x7d\n".toList ++
        "// last of n\nfn last(n := 1):\n".toList)).outcome =
      .ok ("fn Sum(a: int, b: int) -> int:\n    \"\"\"\n    var total = a + b\n".toList ++
        "    over a, b\n    \"\"\"\n\nfn last(var n = 1):\n    \"\"\"\n".toList ++
        "    last of n\n    \"\"\"".toList) := by
    decide +kernel
  have hentered : (Pass.run { keepFinalLine := false } [.comments, .functionDefinitions] (Lines.ofText
      ("// total := a + b\n// over \x7ba, b\x7d\nfunc Sum(a int, b int) int \x7b\n\x7d\n".toList ++
        "// last of n\nfn last(n := 1):\n".toList))).outcome =
      .ok ["# total := a + b".toList, "# over \x7ba, b\x7d".toList,
        "fn Sum(a: int, b: int) -> int:".toList, "\x7d".toList, "# last of n".toList,
        "fn last(n := 1):".toList, []] := by
    decide +kernel
  have hsum : Docstring.IsBlock [] ["# total := a + b".toList, "# over \x7ba, b\x7d".toList]
      "fn Sum(a: int, b: int) -> int:".toList :=
    ⟨by simp, by decide +kernel, rfl, by decide +kernel⟩
  have hlast : Docstring.IsBlock ["# total := a + b".toList, "# over \x7ba, b\x7d".toList,
      "fn Sum(a: int, b: int) -> int:".toList, "\x7d".toList] ["# last of n".toList]
      "fn last(n := 1):".toList :=
    ⟨by simp, by decide +kernel, rfl, by decide +kernel⟩
  constructor
  · intro hclaim
    obtain ⟨left, right, h⟩ := hclaim _ _ _ [] _ _ _ houtput hentered hsum
    have hline : Docstring.docLine "# total := a + b".toList <:+: _ :=
      h ▸ Lines.isInfix_toText_of_mem
        (List.mem_append_left right (List.mem_append_right left (by simp only [List.map_cons,
          List.cons_append, List.mem_cons, true_or, or_true])))
    exact absurd hline (by decide +kernel)
  · intro hclaim
    obtain ⟨left, right, h⟩ := hclaim _ _ _ _ ["# last of n".toList] [[]] _ houtput hentered hlast
    have hline : Braces.remove "fn last(n := 1):".toList <:+: _ :=
      h ▸ Lines.isInfix_toText_of_mem (List.mem_append_right left List.mem_cons_self)
    exact absurd hline (by decide +kernel)

end Linewise
