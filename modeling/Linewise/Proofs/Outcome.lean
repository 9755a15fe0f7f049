import Linewise.Logged

/-! Outcomes: what is left of a computation when its events are forgotten. -/
namespace Linewise

variable {α β : Type}

/-! ## Results and faults in sequence -/

namespace Outcome

@[simp] theorem ok_bind {ε : Type} (a : α) (f : α → Except ε β) : (Except.ok a >>= f) = f a := rfl

@[simp] theorem error_bind {ε : Type} (fault : ε) (f : α → Except ε β) :
    (Except.error fault >>= f) = .error fault := rfl

theorem bind_eq_ok_iff {ε : Type} {x : Except ε α} {f : α → Except ε β} {b : β} :
    x >>= f = .ok b ↔ ∃ a, x = .ok a ∧ f a = .ok b := by
  cases x <;> simp

theorem toOption_bind {ε : Type} (x : Except ε α) (f : α → Except ε β) :
    (x >>= f).toOption = x.toOption.bind fun a => (f a).toOption := by
  cases x <;> rfl

theorem bind_eq_error_iff {x : Except Fault α} {f : α → Except Fault β} {fault : Fault} :
    x >>= f = .error fault ↔ x = .error fault ∨ ∃ a, x = .ok a ∧ f a = .error fault := by
  cases x <;> simp

theorem mapM_eq_error_iff {f : α → Except Fault β} {as : List α} {fault : Fault} :
    as.mapM f = .error fault ↔ ∃ before a after, as = before ++ a :: after ∧
      (∀ b ∈ before, ∃ r, f b = .ok r) ∧ f a = .error fault := by
  induction as with
  | nil => simp [pure, Except.pure]
  | cons a as ih =>
      rw [List.mapM_cons, bind_eq_error_iff]
      constructor
      · rintro (hf | ⟨r, hr, hrest⟩)
        · exact ⟨[], a, as, rfl, by simp, hf⟩
        · have hm : as.mapM f = .error fault := by
            rcases bind_eq_error_iff.mp hrest with hm | ⟨rs, -, h⟩
            · exact hm
            · cases h
          obtain ⟨before, b, after, rfl, hb, hf⟩ := ih.mp hm
          refine ⟨a :: before, b, after, rfl, ?_, hf⟩
          intro c hc
          rcases List.mem_cons.mp hc with rfl | hc
          · exact ⟨r, hr⟩
          · exact hb c hc
      · rintro ⟨before, b, after, he, hb, hf⟩
        cases before with
        | nil =>
            obtain ⟨rfl, rfl⟩ := List.cons.inj he
            exact .inl hf
        | cons c before =>
            obtain ⟨rfl, rfl⟩ := List.cons.inj he
            obtain ⟨r, hr⟩ := hb a (by simp)
            have hm := ih.mpr ⟨before, b, after, rfl, fun d hd => hb d (by simp [hd]), hf⟩
            exact .inr ⟨r, hr, by rw [hm]; rfl⟩

theorem exists_of_mem_mapM {f : α → Except Fault β} {as : List α} {bs : List β} {b : β}
    (h : as.mapM f = .ok bs) (hb : b ∈ bs) : ∃ a ∈ as, f a = .ok b := by
  induction as generalizing bs with
  | nil =>
      cases h
      cases hb
  | cons a as ih =>
      rw [List.mapM_cons] at h
      obtain ⟨first, hfirst, h⟩ := bind_eq_ok_iff.mp h
      obtain ⟨later, hlater, h⟩ := bind_eq_ok_iff.mp h
      cases h
      rcases List.mem_cons.mp hb with rfl | hb
      · exact ⟨a, List.mem_cons_self, hfirst⟩
      · obtain ⟨x, hx, hok⟩ := ih hlater hb
        exact ⟨x, List.mem_cons_of_mem a hx, hok⟩

/-! ## Results that are written differently -/

theorem mapM_map {γ : Type} (g : β → γ) (f : α → Except Fault β) (as : List α) :
    as.mapM (fun a => (f a).map g) = (as.mapM f).map (List.map g) := by
  induction as with
  | nil => rfl
  | cons a as ih =>
      rw [List.mapM_cons, List.mapM_cons, ih]
      cases f a with
      | error fault => rfl
      | ok b => cases as.mapM f <;> rfl

/-! ## Faults that are told differently -/

@[simp] theorem mapError_ok (tell : Fault → Fault) (a : α) :
    (Except.ok a : Except Fault α).mapError tell = .ok a := rfl

@[simp] theorem mapError_error (tell : Fault → Fault) (fault : Fault) :
    (Except.error fault : Except Fault α).mapError tell = .error (tell fault) := rfl

theorem mapError_bind (tell : Fault → Fault) (x : Except Fault α) (f : α → Except Fault β) :
    (x >>= f).mapError tell = x.mapError tell >>= fun a => (f a).mapError tell := by
  cases x <;> rfl

theorem mapM_mapError (tell : Fault → Fault) (f : α → Except Fault β) (as : List α) :
    as.mapM (fun a => (f a).mapError tell) = (as.mapM f).mapError tell := by
  induction as with
  | nil => rfl
  | cons a as ih =>
      rw [List.mapM_cons, List.mapM_cons, mapError_bind, ih]
      simp only [mapError_bind]
      rfl

end Outcome

/-! ## Logged computations -/

namespace Logged

@[simp] theorem outcome_pure (a : α) : (pure a : Logged α).outcome = .ok a := rfl

@[simp] theorem outcome_record (event : Event) : (record event).outcome = .ok () := rfl

@[simp] theorem outcome_fail (fault : Fault) : (fail fault : Logged α).outcome = .error fault := rfl

@[simp] theorem outcome_lift (x : Except Fault α) : (liftM x : Logged α).outcome = x := rfl

@[simp] theorem outcome_bind (x : Logged α) (f : α → Logged β) :
    (x >>= f).outcome = x.outcome >>= fun a => (f a).outcome := by
  cases h : x.outcome with
  | error fault => rw [bind_of_error h]; rfl
  | ok a => rw [bind_of_ok h]; rfl

end Logged

end Linewise
