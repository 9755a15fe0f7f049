import Linewise.Command.Run
import Linewise.Proofs.Files.Convert
import Linewise.Proofs.Path.Output

/-!
The input of a command line that names no output. Paths that go the same way up to their last name lead
to different places, and the default output differs from the input in its last name. Main statement:
such a command line never changes its input.
-/
namespace Linewise

open Linewise.Path (IsFront IsName Diverge)

namespace FileTree

variable {tree : FileTree} {front text : Text} {place : Place}

/-! ## Paths with the same front -/

theorem names_append (hfront : IsFront front) (htext : '/' ∉ text) (hne : text ≠ []) :
    names (front ++ text) = names front ++ [text] := by
  rcases hfront with rfl | ⟨path, rfl⟩
  · rw [List.nil_append, names, List.splitOn_eq_singleton htext]
    simp [names, hne]
  · rw [names, names, List.append_assoc, List.singleton_append, List.splitOn_append_cons_self,
      List.splitOn_append_cons_self, List.splitOn_eq_singleton htext]
    simp [hne]

/-- Where the walk along a path begins. -/
def base (tree : FileTree) (path : Text) : Place :=
  if path.head? = some '/' then [] else tree.current

theorem eq_base_of_start {path : Text} {here : Place} (h : tree.start path = .ok here) :
    here = tree.base path := by
  unfold start at h
  split at h
  · cases h
  · split at h
    · cases h
    · split at h
      · cases h
      · cases h
        rfl
      · rename_i hroot
        cases h
        rw [base, if_neg]
        intro hhead
        obtain ⟨rest, rfl⟩ := List.head?_eq_some_iff.mp hhead
        exact hroot rest rfl

theorem base_append (hfront : IsFront front) (htext : '/' ∉ text) :
    tree.base (front ++ text) = tree.base front := by
  rcases hfront with rfl | ⟨path, rfl⟩
  · have hhead : text.head? ≠ some '/' := fun hhead => htext (List.mem_of_head? hhead)
    rw [List.nil_append, base, base, if_neg hhead, if_neg (by simp)]
  · cases path <;> rfl

theorem exists_step_of_place (hfront : IsFront front) (htext : '/' ∉ text) (hne : text ≠ [])
    (h : tree.place (front ++ text) = .ok place) :
    ∃ directory, tree.walk (tree.base front) (names front) = .ok directory ∧
      tree.step directory text = .ok place := by
  obtain ⟨here, hstart, hwalk⟩ := Outcome.bind_eq_ok_iff.mp h
  obtain rfl := eq_base_of_start hstart
  rw [names_append hfront htext hne, base_append hfront htext, walk_append] at hwalk
  obtain ⟨directory, hdirectory, hlast⟩ := Outcome.bind_eq_ok_iff.mp hwalk
  obtain ⟨there, hstep, hthere⟩ := Outcome.bind_eq_ok_iff.mp hlast
  cases hthere
  exact ⟨directory, hdirectory, hstep⟩

theorem step_eq_ok {here there : Place} (h : tree.step here text = .ok there) :
    there = here ∨ there = here.dropLast ∨ there = here ++ [text] := by
  unfold step at h
  split at h
  · split at h
    · cases h
      exact .inl rfl
    · split at h
      · cases h
        exact .inr (.inl rfl)
      · split at h
        · cases h
        · cases h
          exact .inr (.inr rfl)
  · cases h
  · cases h

theorem step_name {here there : Place} (hname : IsName text) (h : tree.step here text = .ok there) :
    there = here ++ [text] := by
  unfold step at h
  split at h
  · rw [if_neg hname.ne_here, if_neg hname.ne_up] at h
    split at h
    · cases h
    · cases h
      rfl
  · cases h
  · cases h

theorem step_ne {other : Text} {here there elsewhere : Place} (hname : IsName text)
    (hne : other ≠ text) (h : tree.step here text = .ok there)
    (hother : tree.step here other = .ok elsewhere) : elsewhere ≠ there := by
  obtain rfl := step_name hname h
  rcases step_eq_ok hother with rfl | rfl | rfl
  · simp
  · intro heq
    have hlength := congrArg List.length heq
    rw [List.length_dropLast, List.length_append, List.length_singleton] at hlength
    omega
  · simpa using hne

theorem place_ne {other : Text} {elsewhere : Place} (hfront : IsFront front)
    (hdiverge : Diverge text other) (h : tree.place (front ++ text) = .ok place)
    (helsewhere : tree.place (front ++ other) = .ok elsewhere) : elsewhere ≠ place := by
  obtain ⟨directory, hwalk, hstep⟩ :=
    exists_step_of_place hfront hdiverge.text_notMem hdiverge.text_ne_nil h
  obtain ⟨directory', hwalk', hstep'⟩ :=
    exists_step_of_place hfront hdiverge.other_notMem hdiverge.other_ne_nil helsewhere
  obtain rfl := Except.ok.inj (hwalk.symm.trans hwalk')
  rcases hdiverge.isName with hname | hname
  · exact step_ne hname hdiverge.ne hstep hstep'
  · exact (step_ne hname hdiverge.ne.symm hstep' hstep).symm

/-! ## The default output -/

/-- A file that can be read has a path that ends in a text other than `.`. -/
theorem exists_append_of_read {path : Text} {content : ByteArray} (h : tree.read path = .ok content) :
    ∃ front text, IsFront front ∧ '/' ∉ text ∧ text ≠ [] ∧ text ≠ ['.'] ∧ path = front ++ text := by
  obtain ⟨hends, place, hplace, hentry⟩ := read_eq_ok_iff.mp h
  obtain ⟨front, text, hfront, htext, rfl⟩ := Path.exists_isFront_append path
  have hne : text ≠ [] := by
    rintro rfl
    rw [List.append_nil] at hends hplace
    rcases hfront with rfl | ⟨path, rfl⟩
    · cases hplace
    · simp [endsInSeparator] at hends
  refine ⟨front, text, hfront, htext, hne, ?_, rfl⟩
  rintro rfl
  obtain ⟨directory, -, hstep⟩ := exists_step_of_place hfront htext hne hplace
  obtain ⟨rfl, hdirectory⟩ := step_dot hstep
  rw [hdirectory] at hentry
  cases hentry

/-- The default output of a file that can be read is another file, or none. -/
theorem place_outputFor_ne {path : Text} {content : ByteArray} {output : Place}
    (hread : tree.read path = .ok content) (h : tree.place path = .ok place)
    (houtput : tree.place (Path.outputFor path) = .ok output) : output ≠ place := by
  obtain ⟨front, text, hfront, htext, hne, hhere, rfl⟩ := exists_append_of_read hread
  obtain ⟨other, hpath, hdiverge⟩ := Path.exists_outputFor_append hfront htext hne hhere
  rw [hpath] at houtput
  exact place_ne hfront hdiverge h houtput

theorem read_put {path : Text} {content written : ByteArray} {output : Place}
    (houtput : tree.entry? output ≠ some .directory) (hread : tree.read path = .ok content)
    (hne : ∀ place, tree.place path = .ok place → output ≠ place) :
    (tree.put output (.file written)).read path = .ok content := by
  obtain ⟨hends, place, hplace, hentry⟩ := read_eq_ok_iff.mp hread
  have hput := place_put written houtput path
  rw [hplace] at hput
  refine read_eq_ok_iff.mpr ⟨hends, place, ?_, ?_⟩
  · cases h : (tree.put output (.file written)).place path with
    | error problem =>
        rw [h] at hput
        cases hput
    | ok found =>
        rw [h] at hput
        rw [Option.some.inj hput]
  · rw [entry?_put_of_ne tree _ (hne place hplace).symm]
    exact hentry

end FileTree

/-- A conversion into the default output keeps what its input path leads to. -/
theorem Conversion.runIn_keeps_input (options : Options) (input : Text) (tree : FileTree) :
    let after := (Conversion.runIn ⟨options, input, Path.outputFor input⟩ tree).2
    after.read input = tree.read input ∧
      ∀ place, tree.place input = .ok place → after.entry? place = tree.entry? place := by
  have hends := Conversion.runIn_ends ⟨options, input, Path.outputFor input⟩ tree
  generalize (Conversion.runIn ⟨options, input, Path.outputFor input⟩ tree).1.outcome = outcome,
    (Conversion.runIn ⟨options, input, Path.outputFor input⟩ tree).2 = after at hends
  cases hends with
  | @done content source text hread _ _ hwrite =>
      replace hread : tree.read input = .ok content := hread
      rw [FileTree.writeIn_eq] at hwrite ⊢
      split at hwrite
      · rename_i written hwritten
        obtain ⟨output, houtput, hentry, rfl⟩ := FileTree.write_eq_ok hwritten
        have hne : ∀ place, tree.place input = .ok place → output ≠ place :=
          fun place hplace => FileTree.place_outputFor_ne hread hplace houtput
        refine ⟨(FileTree.read_put hentry hread hne).trans hread.symm, ?_⟩
        intro place hplace
        exact FileTree.entry?_put_of_ne tree _ (hne place hplace).symm
      · cases hwrite
  | _ => exact ⟨rfl, fun _ _ => rfl⟩

namespace Command

/-! ## Command lines -/

/-- The conversion that the arguments ask for. -/
def conversion (input : Text) (arguments : Arguments) : Conversion where
  options := ⟨arguments.keepFinalLine⟩
  input := input
  output := arguments.output.getD (Path.outputFor input)

theorem run_convert {σ : Type} [FileStore (StateM σ)] {arguments : List Text} {input : Text}
    {asked : Arguments} (h : Request.ofArguments? arguments = some (.convert input asked))
    (threshold : Option Threshold) (state : σ) :
    let result := (run threshold arguments : StateM σ Exit).run state
    result.2 = ((conversion input asked).runIn state).2 ∧
      (result.1.code = 0 ↔ ((conversion input asked).runIn state).1.outcome = .ok ()) := by
  rw [run, h]
  simp only [convertInput]
  rw [FileStore.run_bind]
  have hrun : (convertFile ⟨asked.keepFinalLine⟩ input (asked.output.getD (Path.outputFor input)) :
      StateM σ (Logged Unit)).run state = (conversion input asked).runIn state := rfl
  rw [hrun]
  cases ((conversion input asked).runIn state).1.outcome with
  | error fault => exact ⟨rfl, ⟨fun h => absurd h (by decide : (1 : UInt32) ≠ 0), nofun⟩⟩
  | ok _ => exact ⟨rfl, ⟨fun _ => rfl, fun _ => rfl⟩⟩

/-- Every path but the empty one can be given as the input. -/
theorem ofArguments?_input {input : Text} (h : input ≠ []) :
    Request.ofArguments? [['-', '-'], input] = some (.convert input { input := some input }) := by
  have hinput : ({} : Arguments).setInput? input = some { input := some input } := by
    simp [Arguments.setInput?, h]
  rw [Request.ofArguments?, Arguments.read?.eq_def]
  simp only [if_true, Arguments.readPaths?, hinput, Option.bind_eq_bind, Option.bind_some]
  rfl

/-- The default output differs from the input, in its characters and in its components. A command line
that names no output converts its input into that one, and whatever comes of it, the input path leads to
the same content as before. -/
theorem run_keeps_input (input : Text) :
    Path.outputFor input ≠ input ∧
    Path.components (Path.outputFor input) ≠ Path.components input ∧
    (input ≠ [] →
      Request.ofArguments? [['-', '-'], input] = some (.convert input { input := some input })) ∧
    ∀ (tree : FileTree) (threshold : Option Threshold) (arguments : List Text) (asked : Arguments),
      Request.ofArguments? arguments = some (.convert input asked) → asked.output = none →
        let result := (run threshold arguments : StateM FileTree Exit).run tree
        let converted := Conversion.runIn ⟨⟨asked.keepFinalLine⟩, input, Path.outputFor input⟩ tree
        result.2 = converted.2 ∧ (result.1.code = 0 ↔ converted.1.outcome = .ok ()) ∧
        result.2.read input = tree.read input ∧
        ∀ place, tree.place input = .ok place → FileTree.entry? result.2 place = tree.entry? place := by
  have hcomponents := Path.components_outputFor_ne input
  refine ⟨fun heq => hcomponents (congrArg Path.components heq), hcomponents, ofArguments?_input, ?_⟩
  intro tree threshold arguments asked h houtput
  have hconversion : conversion input asked = ⟨⟨asked.keepFinalLine⟩, input, Path.outputFor input⟩ := by
    rw [conversion, houtput]
    rfl
  obtain ⟨hstate, hcode⟩ := run_convert h threshold tree
  rw [hconversion] at hstate hcode
  obtain ⟨hread, hentry⟩ := Conversion.runIn_keeps_input ⟨asked.keepFinalLine⟩ input tree
  rw [← hstate] at hread hentry
  exact ⟨hstate, hcode, hread, hentry⟩

/-- An input whose path goes into a directory and back, with a separator too many. -/
theorem run_keeps_input_detour :
    let input := "d/..//a.go".toList
    let content := encode "x := 1\n\n".toList
    let tree := (FileTree.fresh.put ["work".toList, "d".toList] .directory).put
      ["work".toList, "a.go".toList] (.file content)
    let result := (run none [input] : StateM FileTree Exit).run tree
    result.1.code = 0 ∧ Path.outputFor input = "d/..//a.mojo".toList ∧
      result.2.read input = .ok content := by
  intro input content tree result
  have h : Request.ofArguments? [input] = some (.convert input { input := some input }) := by
    decide +kernel
  have hread : tree.read input = .ok content := rfl
  obtain ⟨-, -, -, hrun⟩ := run_keeps_input input
  obtain ⟨-, hcode, hkept, -⟩ := hrun tree none [input] _ h rfl
  exact ⟨hcode.mpr (by decide +kernel), by decide +kernel, hkept.trans hread⟩

end Command

end Linewise
