import Linewise.Proofs.Convert.Fault
import Linewise.Proofs.Files.Store

/-!
Conversions of files in a store. Each ends in one of five ways, and only the last changes anything.
Main statement: a conversion that fails changes nothing and one that succeeds changes the output file
alone, so that a run of conversions changes only the outputs of those that succeed.
-/
namespace Linewise

open LawfulFileStore (Location location? entryAt?)

theorem exists_malformedParameter_of_convert {options : Options} {source : Text} {fault : Fault}
    (h : (convert options source).outcome = .error fault) :
    ∃ line entry, fault = .malformedParameter line entry := by
  rw [convert_eq_error_iff, Header.convertLines, Header.convertFrom_eq_error_iff] at h
  obtain ⟨index, line, entry, -, -, hfault⟩ := h
  exact ⟨1 + index, entry.trim, hfault⟩

theorem convertContent_of_none {options : Options} {path : Text} {content : ByteArray}
    (h : decode? content = none) :
    (convertContent options path content).outcome = .error (.file path .notText) := by
  rw [convertContent, h]
  rfl

theorem convertContent_of_some {options : Options} {path : Text} {content : ByteArray}
    {source : Text} (h : decode? content = some source) :
    (convertContent options path content).outcome = (convert options source).outcome := by
  rw [convertContent, h]
  simp only [Logged.outcome_bind, Logged.outcome_record, Outcome.ok_bind]

/-- A file that is to be converted, and the file that the result goes to. -/
structure Conversion where
  options : Options
  input : Text
  output : Text

namespace Conversion

variable {σ : Type} [FileStore (StateM σ)]

/-- What a conversion gives in a state, and the state after it. -/
def runIn (conversion : Conversion) (state : σ) : Logged Unit × σ :=
  (convertFile conversion.options conversion.input conversion.output :
    StateM σ (Logged Unit)).run state

/-- The state after conversions that are run one after another, whether or not they succeed. -/
def stateAfter (conversions : List Conversion) (state : σ) : σ :=
  conversions.foldl (fun state conversion => (conversion.runIn state).2) state

theorem stateAfter_cons (conversion : Conversion) (conversions : List Conversion) (state : σ) :
    stateAfter (conversion :: conversions) state =
      stateAfter conversions (conversion.runIn state).2 := rfl

/-! ## One conversion -/

/-- The ways in which a conversion can end, each with its outcome and the state after it. -/
inductive Ends (conversion : Conversion) (state : σ) : Except Fault Unit → σ → Prop
  | unreadable {problem : FileProblem} :
      (FileStore.readIn state conversion.input).1 = .error problem →
      Ends conversion state (.error (.file conversion.input problem)) state
  | notText {content : ByteArray} :
      (FileStore.readIn state conversion.input).1 = .ok content →
      decode? content = none →
      Ends conversion state (.error (.file conversion.input .notText)) state
  | malformed {content : ByteArray} {source : Text} {line : Nat} {entry : Text} :
      (FileStore.readIn state conversion.input).1 = .ok content →
      decode? content = some source →
      (convert conversion.options source).outcome = .error (.malformedParameter line entry) →
      Ends conversion state (.error (.malformedParameter line entry)) state
  | unwritable {content : ByteArray} {source text : Text} {problem : FileProblem} :
      (FileStore.readIn state conversion.input).1 = .ok content →
      decode? content = some source →
      (convert conversion.options source).outcome = .ok text →
      (FileStore.writeIn state conversion.output (encode text)).1 = .error problem →
      Ends conversion state (.error (.file conversion.output problem)) state
  | done {content : ByteArray} {source text : Text} :
      (FileStore.readIn state conversion.input).1 = .ok content →
      decode? content = some source →
      (convert conversion.options source).outcome = .ok text →
      (FileStore.writeIn state conversion.output (encode text)).1 = .ok () →
      Ends conversion state (.ok ())
        (FileStore.writeIn state conversion.output (encode text)).2

theorem runIn_eq (conversion : Conversion) (state : σ) :
    conversion.runIn state =
      match FileStore.readIn state conversion.input with
      | (.error problem, read) => (Logged.fail (.file conversion.input problem), read)
      | (.ok content, read) =>
        let converted := convertContent conversion.options conversion.input content
        match converted.outcome with
        | .error fault => (⟨converted.events, .error fault⟩, read)
        | .ok text =>
          match FileStore.writeIn read conversion.output (encode text) with
          | (.error problem, after) =>
            (⟨converted.events, .error (.file conversion.output problem)⟩, after)
          | (.ok (), after) => (⟨converted.events, .ok ()⟩, after) := by
  rw [runIn, convertFile, FileStore.run_bind, ← FileStore.readIn]
  obtain ⟨result, read⟩ := FileStore.readIn state conversion.input
  cases result with
  | error problem => rfl
  | ok content =>
      dsimp only
      cases (convertContent conversion.options conversion.input content).outcome with
      | error fault => rfl
      | ok text =>
          dsimp only
          rw [FileStore.run_bind, ← FileStore.writeIn]
          obtain ⟨written, after⟩ := FileStore.writeIn read conversion.output (encode text)
          cases written <;> rfl

variable [LawfulFileStore σ]

theorem runIn_ends (conversion : Conversion) (state : σ) :
    Ends conversion state (conversion.runIn state).1.outcome (conversion.runIn state).2 := by
  have hstate := LawfulFileStore.read_state state conversion.input
  rw [runIn_eq]
  cases hread : FileStore.readIn state conversion.input with
  | mk result read =>
      obtain rfl : read = state := by rw [hread] at hstate; exact hstate
      cases result with
      | error problem => exact .unreadable (by rw [hread])
      | ok content =>
          have hcontent : (FileStore.readIn read conversion.input).1 = .ok content := by rw [hread]
          cases hsource : decode? content with
          | none =>
              simp only [convertContent_of_none hsource]
              exact .notText hcontent hsource
          | some source =>
              simp only [convertContent_of_some hsource]
              cases hconvert : (convert conversion.options source).outcome with
              | error fault =>
                  obtain ⟨line, entry, rfl⟩ := exists_malformedParameter_of_convert hconvert
                  exact .malformed hcontent hsource hconvert
              | ok text =>
                  have herror := @LawfulFileStore.write_error σ _ _ read conversion.output (encode text)
                  have hdone := @Ends.done σ _ conversion read content source text
                  dsimp only
                  cases hwrite : FileStore.writeIn read conversion.output (encode text) with
                  | mk written after =>
                      rw [hwrite] at herror hdone
                      cases written with
                      | error problem =>
                          obtain rfl : after = read := herror rfl
                          exact .unwritable hcontent hsource hconvert (by rw [hwrite])
                      | ok _ => exact hdone hcontent hsource hconvert rfl

/-- The conversion leaves `text` at `location`, made from what its input held before it. The input may
stand at the same location. -/
structure Writes (conversion : Conversion) (state : σ) (location : Location σ) (text : Text) :
    Prop where
  input : ∃ origin content source, location? state conversion.input = some origin ∧
    entryAt? state origin = some (.file content) ∧ decode? content = some source ∧
    (convert conversion.options source).outcome = .ok text
  output : location? state conversion.output = some location
  written : ∃ content, entryAt? (conversion.runIn state).2 location = some (.file content) ∧
    decode? content = some text
  others : ∀ other, other ≠ location →
    entryAt? (conversion.runIn state).2 other = entryAt? state other

theorem exists_writes {conversion : Conversion} {state : σ}
    (h : (conversion.runIn state).1.outcome = .ok ()) :
    ∃ location text, Writes conversion state location text := by
  have hends := runIn_ends conversion state
  rw [h] at hends
  generalize hafter : (conversion.runIn state).2 = after at hends
  cases hends with
  | done hread hsource hconvert hwrite =>
      obtain ⟨origin, horigin, hcontent⟩ := LawfulFileStore.read_ok hread
      obtain ⟨location, hlocation, hwritten, hothers⟩ := LawfulFileStore.write_ok hwrite
      rw [← hafter] at hwritten hothers
      exact ⟨location, _, ⟨origin, _, _, horigin, hcontent, hsource, hconvert⟩, hlocation,
        ⟨_, hwritten, decode?_encode _⟩, hothers⟩

theorem runIn_of_error {conversion : Conversion} {state : σ} {fault : Fault}
    (h : (conversion.runIn state).1.outcome = .error fault) : (conversion.runIn state).2 = state := by
  have hends := runIn_ends conversion state
  rw [h] at hends
  generalize (conversion.runIn state).2 = after at hends
  cases hends <;> rfl

theorem location?_runIn (conversion : Conversion) (state : σ) (path : Text) :
    location? (conversion.runIn state).2 path = location? state path := by
  have hends := runIn_ends conversion state
  generalize (conversion.runIn state).1.outcome = outcome, (conversion.runIn state).2 = after at hends
  cases hends with
  | done _ _ _ hwrite => exact LawfulFileStore.write_location hwrite path
  | _ => rfl

/-! ## Many conversions -/

theorem location?_stateAfter (conversions : List Conversion) (state : σ) (path : Text) :
    location? (stateAfter conversions state) path = location? state path := by
  induction conversions generalizing state with
  | nil => rfl
  | cons conversion conversions ih => rw [stateAfter_cons, ih, location?_runIn]

/-- A run changes an entry only by a conversion that succeeds and whose output is there. -/
theorem exists_of_stateAfter_ne {conversions : List Conversion} {state : σ} {location : Location σ}
    (h : entryAt? (stateAfter conversions state) location ≠ entryAt? state location) :
    ∃ before conversion after, conversions = before ++ conversion :: after ∧
      (conversion.runIn (stateAfter before state)).1.outcome = .ok () ∧
      location? state conversion.output = some location := by
  induction conversions generalizing state with
  | nil => exact absurd rfl h
  | cons first rest ih =>
      rw [stateAfter_cons] at h
      by_cases hfirst : entryAt? (first.runIn state).2 location = entryAt? state location
      · rw [← hfirst] at h
        obtain ⟨before, conversion, after, rfl, hok, houtput⟩ := ih h
        rw [location?_runIn] at houtput
        exact ⟨first :: before, conversion, after, rfl, hok, houtput⟩
      · cases houtcome : (first.runIn state).1.outcome with
        | error fault =>
            rw [runIn_of_error houtcome] at hfirst
            exact absurd rfl hfirst
        | ok _ =>
            obtain ⟨target, text, hwrites⟩ := exists_writes houtcome
            obtain rfl : location = target := by
              by_contra hne
              exact hfirst (hwrites.others location hne)
            exact ⟨[], first, rest, rfl, houtcome, hwrites.output⟩

/-- A file holds a text as the bytes of its characters. A conversion fails for one of four reasons and
then changes nothing, or it leaves at its output the conversion of what its input held before, and
changes nothing else. So a run of conversions changes only the outputs of those that succeed. -/
theorem runIn_all_or_nothing :
    (∀ (content : ByteArray) (text : Text), decode? content = some text ↔ content = encode text) ∧
    (∀ text : Text, (encode text).data.toList = text.flatMap String.utf8EncodeChar) ∧
    (∀ (conversion : Conversion) (state : σ) (fault : Fault),
      (conversion.runIn state).1.outcome = .error fault →
        (conversion.runIn state).2 = state ∧
        ((∃ problem, (FileStore.readIn state conversion.input).1 = .error problem ∧
            fault = .file conversion.input problem) ∨
          ∃ content, (FileStore.readIn state conversion.input).1 = .ok content ∧
            ((decode? content = none ∧ fault = .file conversion.input .notText) ∨
              ∃ source, decode? content = some source ∧
                ((∃ line entry, fault = .malformedParameter line entry ∧
                    (convert conversion.options source).outcome = .error fault) ∨
                  ∃ text problem, (convert conversion.options source).outcome = .ok text ∧
                    (FileStore.writeIn state conversion.output (encode text)).1 = .error problem ∧
                    fault = .file conversion.output problem)))) ∧
    (∀ (conversion : Conversion) (state : σ), (conversion.runIn state).1.outcome = .ok () →
      ∃ location text, Writes conversion state location text) ∧
    (∀ (conversions : List Conversion) (state : σ) (path : Text),
      location? (stateAfter conversions state) path = location? state path) ∧
    ∀ (conversions : List Conversion) (state : σ) (location : Location σ),
      entryAt? (stateAfter conversions state) location ≠ entryAt? state location →
        ∃ before conversion after, conversions = before ++ conversion :: after ∧
          (conversion.runIn (stateAfter before state)).1.outcome = .ok () ∧
          location? state conversion.output = some location := by
  refine ⟨fun _ _ => decode?_eq_some_iff, encode_bytes, ?_, fun _ _ => exists_writes,
    location?_stateAfter, fun _ _ _ => exists_of_stateAfter_ne⟩
  intro conversion state fault h
  refine ⟨runIn_of_error h, ?_⟩
  have hends := runIn_ends conversion state
  rw [h] at hends
  generalize (conversion.runIn state).2 = after at hends
  cases hends with
  | unreadable hread => exact .inl ⟨_, hread, rfl⟩
  | notText hread hsource => exact .inr ⟨_, hread, .inl ⟨hsource, rfl⟩⟩
  | malformed hread hsource hconvert =>
      exact .inr ⟨_, hread, .inr ⟨_, hsource, .inl ⟨_, _, rfl, hconvert⟩⟩⟩
  | unwritable hread hsource hconvert hwrite =>
      exact .inr ⟨_, hread, .inr ⟨_, hsource, .inr ⟨_, _, hconvert, hwrite, rfl⟩⟩⟩

/-- A file that is converted in place, under another path, and one that is converted into a new file
after a conversion that fails. -/
theorem runIn_all_or_nothing_in_place :
    let source := ["work".toList, "a.go".toList]
    let target := ["work".toList, "a.mojo".toList]
    let original := "// é\nfunc f(a int) \x7b\n\x7d\n".toList
    let text := "fn f(a: int):\n    \"\"\"\n    é\n    \"\"\"\n".toList
    let tree := FileTree.fresh.put source (.file (encode original))
    let failing : Conversion := ⟨{}, "a.go/b.go".toList, "a.go".toList⟩
    let inPlace : Conversion := ⟨{}, "a.go".toList, ".//a.go".toList⟩
    let intoNew : Conversion := ⟨{}, "a.go".toList, "a.mojo".toList⟩
    ((failing.runIn tree).1.outcome = .error (.file failing.input .notDirectory) ∧
      (failing.runIn tree).2 = tree) ∧
    ((inPlace.runIn tree).1.outcome = .ok () ∧ Writes inPlace tree source text ∧
      FileTree.entry? (inPlace.runIn tree).2 source = some (.file (encode text))) ∧
    FileTree.entry? (stateAfter [failing, intoNew] tree) target ≠ tree.entry? target ∧
    ∃ before conversion after, [failing, intoNew] = before ++ conversion :: after ∧
      (conversion.runIn (stateAfter before tree)).1.outcome = .ok () ∧
      (tree.place conversion.output).toOption = some target := by
  intro source target original text tree failing inPlace intoNew
  obtain ⟨hcodec, -, hfails, hwrites, -, hchanges⟩ := @runIn_all_or_nothing FileTree _ _
  have hfailing : (failing.runIn tree).1.outcome = .error (.file failing.input .notDirectory) := by
    decide +kernel
  have hinPlace : (inPlace.runIn tree).1.outcome = .ok () := by decide +kernel
  have hwritten : Writes inPlace tree source text := by
    obtain ⟨location, other, hother⟩ := hwrites inPlace tree hinPlace
    have hlocation : (tree.place inPlace.output).toOption = some source := by decide +kernel
    obtain rfl : source = location := Option.some.inj (hlocation.symm.trans hother.output)
    obtain ⟨origin, content, read, horigin, hcontent, hread, hconvert⟩ := hother.input
    have hsame : (tree.place inPlace.input).toOption = some source := by decide +kernel
    obtain rfl : source = origin := Option.some.inj (hsame.symm.trans horigin)
    -- The file was made from one text, so that is the text which is read from it.
    cases hcontent
    have hsource : decode? (encode original) = some original := (hcodec _ _).mpr rfl
    obtain rfl : original = read := Option.some.inj (hsource.symm.trans hread)
    have htext : (convert inPlace.options original).outcome = .ok text := by decide +kernel
    obtain rfl : text = other := Except.ok.inj (htext.symm.trans hconvert)
    exact hother
  obtain ⟨content, hentry, hcontent⟩ := hwritten.written
  have hchanged : FileTree.entry? (stateAfter [failing, intoNew] tree) target ≠
      tree.entry? target := by
    have hbefore : tree.entry? target = none := by decide +kernel
    rw [hbefore]
    decide +kernel
  refine ⟨⟨hfailing, (hfails failing tree _ hfailing).1⟩, ⟨hinPlace, hwritten, ?_⟩, hchanged,
    hchanges [failing, intoNew] tree target hchanged⟩
  rw [← (hcodec content text).mp hcontent]
  exact hentry

end Conversion

end Linewise
