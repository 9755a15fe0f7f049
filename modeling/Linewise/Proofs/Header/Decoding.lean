import Linewise.Proofs.Header.Prototype

/-!
Definition lines can be read in one way only. Nothing is quoted in them, so this rests on what the
pieces of a prototype cannot hold: a name ends at the first parenthesis, the arguments at the next
closing one, each argument at a comma and the name of a parameter at a blank. Main statement: two
headers with the same definition line have the same prototype, up to the type of the receiver.
-/
namespace Linewise

/-! ## Separators -/

theorem Text.append_cons_inj {c : Char} {s t rest other : Text} (hs : c ∉ s) (ht : c ∉ t)
    (h : s ++ c :: rest = t ++ c :: other) : s = t ∧ rest = other := by
  induction s generalizing t with
  | nil =>
      cases t with
      | nil => exact ⟨rfl, (List.cons.inj h).2⟩
      | cons d t => exact absurd (List.cons.inj h).1 (List.ne_of_not_mem_cons ht)
  | cons d s ih =>
      cases t with
      | nil => exact absurd (List.cons.inj h).1.symm (List.ne_of_not_mem_cons hs)
      | cons e t =>
          obtain ⟨hhead, htail⟩ := List.cons.inj h
          obtain ⟨hst, hrest⟩ := ih (List.not_mem_of_not_mem_cons hs) (List.not_mem_of_not_mem_cons ht) htail
          exact ⟨by rw [hhead, hst], hrest⟩

/-- A piece of a list whose pieces stand between commas. -/
structure Text.IsPiece (s : Text) : Prop where
  nonempty : s ≠ []
  noComma : ',' ∉ s

theorem Text.splitOn_commas {piece : Text} {pieces : List Text}
    (h : ∀ other ∈ piece :: pieces, ',' ∉ other) :
    (", ".toList.intercalate (piece :: pieces)).splitOn ',' = piece :: pieces.map (' ' :: ·) := by
  rw [intercalate_comma]
  refine List.splitOn_intercalate ',' ?_ (by simp)
  simpa using h

theorem Text.intercalate_inj {pieces others : List Text} (hpieces : ∀ piece ∈ pieces, piece.IsPiece)
    (hothers : ∀ other ∈ others, other.IsPiece)
    (h : ", ".toList.intercalate pieces = ", ".toList.intercalate others) : pieces = others := by
  have hne {piece : Text} {later : List Text} (hpiece : piece.IsPiece) :
      ", ".toList.intercalate (piece :: later) ≠ [] := by
    cases later <;> simp [List.intercalate_singleton, List.intercalate_cons_cons, hpiece.nonempty]
  cases pieces with
  | nil =>
      cases others with
      | nil => rfl
      | cons other others => exact absurd h.symm (hne (hothers other List.mem_cons_self))
  | cons piece pieces =>
      cases others with
      | nil => exact absurd h (hne (hpieces piece List.mem_cons_self))
      | cons other others =>
          have hsplit := congrArg (List.splitOn ',') h
          rw [splitOn_commas fun p hp => (hpieces p hp).noComma,
            splitOn_commas fun p hp => (hothers p hp).noComma] at hsplit
          obtain ⟨hfirst, hlater⟩ := List.cons.inj hsplit
          rw [hfirst, List.map_injective_iff.mpr (List.cons_injective (a := ' ')) hlater]

/-! ## Parameters -/

namespace Parameter

theorem annotated_eq (parameter : Parameter) :
    parameter.annotated = parameter.name ++ [':'] ++ ' ' :: parameter.type := by
  simp [annotated]

theorem IsPlain.isPiece_annotated {parameter : Parameter} (h : parameter.IsPlain) :
    parameter.annotated.IsPiece := by
  refine ⟨by simp [annotated], ?_⟩
  simp [annotated, h.name.noComma, h.type.noComma]

theorem IsPlain.annotated_inj {parameter other : Parameter} (h : parameter.IsPlain)
    (hother : other.IsPlain) (heq : parameter.annotated = other.annotated) : parameter = other := by
  have hname {p : Parameter} (hp : p.IsPlain) : ' ' ∉ p.name ++ [':'] := by
    simpa using hp.name.toIsToken.not_mem (c := ' ') rfl
  rw [annotated_eq, annotated_eq] at heq
  obtain ⟨hnames, htypes⟩ := Text.append_cons_inj (hname h) (hname hother) heq
  cases parameter
  cases other
  simp_all

theorem map_annotated_inj {parameters others : List Parameter} (h : ∀ p ∈ parameters, p.IsPlain)
    (hothers : ∀ p ∈ others, p.IsPlain)
    (heq : parameters.map annotated = others.map annotated) : parameters = others := by
  induction parameters generalizing others with
  | nil => simpa [eq_comm] using heq
  | cons p parameters ih =>
      cases others with
      | nil => simp at heq
      | cons q others =>
          obtain ⟨hhead, htail⟩ := List.cons.inj heq
          have hpq := (h p List.mem_cons_self).annotated_inj (hothers q List.mem_cons_self) hhead
          have hlater := ih (fun r hr => h r (List.mem_cons_of_mem p hr))
            (fun r hr => hothers r (List.mem_cons_of_mem q hr)) htail
          rw [hpq, hlater]

end Parameter

/-! ## Prototypes -/

namespace Prototype

theorem isPiece_of_mem_arguments {prototype : Prototype} {argument : Text}
    (h : argument ∈ prototype.arguments) : argument.IsPiece ∧ ')' ∉ argument := by
  rcases List.mem_append.mp h with hreceiver | hparameter
  · obtain ⟨receiver, hr, rfl⟩ := Option.map_eq_some_iff.mp (Option.mem_toList.mp hreceiver)
    have hword := (prototype.receiver_isWord receiver hr).1
    exact ⟨⟨hword.nonempty, hword.not_mem rfl⟩, hword.not_mem rfl⟩
  · obtain ⟨p, hp, rfl⟩ := List.mem_map.mp hparameter
    obtain ⟨hplain, hname, htype⟩ := prototype.parameters_isPlain p hp
    refine ⟨hplain.isPiece_annotated, ?_⟩
    simp [Parameter.annotated, hname, htype]

/-- The name of a receiver stands alone, and a parameter has a blank in it. -/
theorem receiver_ne_annotated {prototype : Prototype} {receiver : Receiver}
    (h : prototype.receiver = some receiver) (p : Parameter) : receiver.name ≠ p.annotated := by
  intro heq
  have hblank : ' ' ∉ receiver.name := (prototype.receiver_isWord receiver h).1.not_mem rfl
  rw [heq] at hblank
  exact hblank (by simp [Parameter.annotated])

theorem arguments_ne {p q : Prototype} {receiver : Receiver} (hp : p.receiver = none)
    (hq : q.receiver = some receiver) : p.arguments ≠ q.arguments := by
  intro h
  rw [arguments, arguments, hp, hq] at h
  cases hparameters : p.parameters with
  | nil => simp [hparameters] at h
  | cons r parameters =>
      rw [hparameters] at h
      exact receiver_ne_annotated hq r (List.cons.inj h).1.symm

theorem arguments_inj {p q : Prototype} (h : p.arguments = q.arguments) :
    p.receiver.map Receiver.name = q.receiver.map Receiver.name ∧ p.parameters = q.parameters := by
  have hinj := Parameter.map_annotated_inj (fun r hr => (p.parameters_isPlain r hr).1)
    (fun r hr => (q.parameters_isPlain r hr).1)
  cases hp : p.receiver with
  | none =>
      cases hq : q.receiver with
      | none => exact ⟨rfl, hinj (by simpa [arguments, hp, hq] using h)⟩
      | some receiver => exact absurd h (arguments_ne hp hq)
  | some receiver =>
      cases hq : q.receiver with
      | none => exact absurd h.symm (arguments_ne hq hp)
      | some other =>
          rw [arguments, arguments, hp, hq] at h
          obtain ⟨hname, hlater⟩ := List.cons.inj h
          exact ⟨congrArg some hname, hinj hlater⟩

theorem resultTarget_inj {p q : Prototype} (h : p.resultTarget ++ [':'] = q.resultTarget ++ [':']) :
    p.result = q.result := by
  have h := List.append_cancel_right h
  cases hp : p.result with
  | none =>
      cases hq : q.result with
      | none => rfl
      | some type => simp [resultTarget, hp, hq] at h
  | some type =>
      cases hq : q.result with
      | none => simp [resultTarget, hp, hq] at h
      | some other => simpa [resultTarget, hp, hq] using h

/-- A definition line tells the prototype, apart from the type of the receiver. -/
theorem target_inj {p q : Prototype} (h : p.target = q.target) :
    p.receiver.map Receiver.name = q.receiver.map Receiver.name ∧ p.name = q.name ∧
      p.parameters = q.parameters ∧ p.result = q.result := by
  have hclosed (r : Prototype) : ')' ∉ ", ".toList.intercalate r.arguments :=
    Text.not_mem_intercalate (by decide) fun _ hmem => (isPiece_of_mem_arguments hmem).2
  rw [target_eq, target_eq] at h
  simp only [List.cons.injEq, true_and] at h
  obtain ⟨hname, h⟩ := Text.append_cons_inj (p.name_isWord.not_mem rfl) (q.name_isWord.not_mem rfl) h
  obtain ⟨harguments, hresult⟩ := Text.append_cons_inj (hclosed p) (hclosed q) h
  obtain ⟨hreceiver, hparameters⟩ := arguments_inj (Text.intercalate_inj
    (fun _ hmem => (isPiece_of_mem_arguments hmem).1)
    (fun _ hmem => (isPiece_of_mem_arguments hmem).1) harguments)
  exact ⟨hreceiver, hname, hparameters, resultTarget_inj hresult⟩

end Prototype

/-! ## Headers that were read -/

theorem Parameter.IsListing.isPlain {params : Text} {parameters : List Parameter}
    (h : IsListing params parameters) : ∀ parameter ∈ parameters, parameter.IsPlain := by
  cases h with
  | empty => simp
  | entries hentries hall =>
      clear hentries
      induction hall with
      | nil => simp
      | cons hentry hlater ih => simpa using ⟨hentry.1, ih⟩

namespace Header

theorem receiver_isWord_of_find? {line : Text} {header : Header} (h : find? line = some header) :
    ∀ receiver ∈ header.receiver, receiver.name.IsWord ∧ receiver.type.IsWord := by
  intro receiver hreceiver
  rw [Option.mem_def] at hreceiver
  rcases find?_eq_some_iff.mp h with ⟨before, rest, -, hmethod, -⟩ | ⟨-, hfunction⟩
  · obtain ⟨found, hfound, hname, htype, -⟩ := hmethod
    obtain rfl : found = receiver := Option.some.inj (hfound.symm.trans hreceiver)
    exact ⟨hname, htype⟩
  · rw [hfunction.receiver_eq_none] at hreceiver
    cases hreceiver

theorem exists_prototype {line : Text} {header : Header} {number : Nat} {parameters : List Parameter}
    (hfind : find? line = some header)
    (hread : Parameter.readAll number header.params = .ok parameters) :
    ∃ prototype : Prototype, prototype.receiver = header.receiver ∧ prototype.name = header.name ∧
      prototype.parameters = parameters ∧ prototype.result = header.result := by
  have hreadable := find?_readable hfind
  have hclosed : ')' ∉ header.params := fun hmem => (inParameters_iff.mp (hreadable.params _ hmem)).1 rfl
  have hparameters : ∀ p ∈ parameters, p.IsPlain ∧ ')' ∉ p.name ∧ ')' ∉ p.type := by
    intro p hp
    obtain ⟨hname, htype⟩ := Parameter.readAll_chars hread p hp
    exact ⟨(Parameter.readAll_eq_ok_iff.mp hread).isPlain p hp,
      fun hmem => hclosed (hname _ hmem).2, fun hmem => hclosed (htype _ hmem).2⟩
  exact ⟨⟨header.receiver, header.name, parameters, header.result, receiver_isWord_of_find? hfind,
    hreadable.name, hparameters, hreadable.result⟩, rfl, rfl, rfl, rfl⟩

theorem exists_prototype_of_convert {line definition : Text} {header : Header} {number : Nat}
    (hfind : find? line = some header) (hconvert : header.convert number = .ok definition) :
    ∃ prototype : Prototype, prototype.receiver = header.receiver ∧ prototype.name = header.name ∧
      Parameter.readAll number header.params = .ok prototype.parameters ∧
      prototype.result = header.result ∧ definition = prototype.target := by
  obtain ⟨parameters, hread, hdefinition⟩ := Outcome.bind_eq_ok_iff.mp hconvert
  obtain ⟨prototype, hreceiver, hname, rfl, hresult⟩ := exists_prototype hfind hread
  cases hdefinition
  exact ⟨prototype, hreceiver, hname, hread, hresult,
    prototype.definition_eq_target hreceiver.symm hname.symm hresult.symm⟩

/-- Two headers that are written as the same definition line agree in the name of the receiver or in
having none, in the name, in the parameters as they are read, and in the result or in having none. -/
theorem convert_determines_prototype {line line' definition : Text} {header header' : Header}
    {number number' : Nat} (hfind : find? line = some header) (hfind' : find? line' = some header')
    (hconvert : header.convert number = .ok definition)
    (hconvert' : header'.convert number' = .ok definition) :
    header.receiver.map Receiver.name = header'.receiver.map Receiver.name ∧
    header.name = header'.name ∧
    (∃ parameters, Parameter.readAll number header.params = .ok parameters ∧
      Parameter.readAll number' header'.params = .ok parameters) ∧
    header.result = header'.result := by
  obtain ⟨p, hreceiver, hname, hread, hresult, htarget⟩ := exists_prototype_of_convert hfind hconvert
  obtain ⟨q, hreceiver', hname', hread', hresult', htarget'⟩ :=
    exists_prototype_of_convert hfind' hconvert'
  obtain ⟨hreceivers, hnames, hparameters, hresults⟩ :=
    Prototype.target_inj (htarget.symm.trans htarget')
  rw [hreceiver, hreceiver'] at hreceivers
  rw [← hparameters] at hread'
  exact ⟨hreceivers, hname.symm.trans (hnames.trans hname'), ⟨p.parameters, hread, hread'⟩,
    hresult.symm.trans (hresults.trans hresult')⟩

theorem convert_determines_prototype_respaced : ∃ header header' : Header,
    find? "func (s *Stack) Push(v: ->, w [](:) bool \x7b".toList = some header ∧
    find? "x func\t(s *List)  Push( v: -> ,w\t[](:\t)bool".toList = some header' ∧
    header ≠ header' ∧ header.receiver.map Receiver.name = header'.receiver.map Receiver.name ∧
    header.name = header'.name ∧
    (∃ parameters, Parameter.readAll 1 header.params = .ok parameters ∧
      Parameter.readAll 2 header'.params = .ok parameters) ∧
    header.result = header'.result := by
  have hfind : find? "func (s *Stack) Push(v: ->, w [](:) bool \x7b".toList =
      some ⟨some ⟨"s".toList, "Stack".toList⟩, "Push".toList, "v: ->, w [](:".toList,
        some "bool".toList⟩ := by decide +kernel
  have hfind' : find? "x func\t(s *List)  Push( v: -> ,w\t[](:\t)bool".toList =
      some ⟨some ⟨"s".toList, "List".toList⟩, "Push".toList, " v: -> ,w\t[](:\t".toList,
        some "bool".toList⟩ := by decide +kernel
  have hconvert : convert ⟨some ⟨"s".toList, "Stack".toList⟩, "Push".toList, "v: ->, w [](:".toList,
      some "bool".toList⟩ 1 = .ok "fn Push(s, v:: ->, w: [](:) -> bool:".toList := by decide +kernel
  have hconvert' : convert ⟨some ⟨"s".toList, "List".toList⟩, "Push".toList, " v: -> ,w\t[](:\t".toList,
      some "bool".toList⟩ 2 = .ok "fn Push(s, v:: ->, w: [](:) -> bool:".toList := by decide +kernel
  exact ⟨_, _, hfind, hfind', by decide,
    convert_determines_prototype hfind hfind' hconvert hconvert'⟩

end Header

end Linewise
