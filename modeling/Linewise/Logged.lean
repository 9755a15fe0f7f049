import Linewise.Event
import Linewise.Fault

/-! Computations that report events and may fail. What was reported before a fault is kept. -/
namespace Linewise

structure Logged (α : Type) where
  events : List Event
  outcome : Except Fault α

namespace Logged

variable {α β : Type}

def record (event : Event) : Logged Unit :=
  ⟨[event], .ok ()⟩

def fail (fault : Fault) : Logged α :=
  ⟨[], .error fault⟩

def ofExcept (outcome : Except Fault α) : Logged α :=
  ⟨[], outcome⟩

instance : Monad Logged where
  pure a := ⟨[], .ok a⟩
  bind x f :=
    match x.outcome with
    | .error fault => ⟨x.events, .error fault⟩
    | .ok a =>
      let y := f a
      ⟨x.events ++ y.events, y.outcome⟩

theorem bind_of_ok {x : Logged α} {a : α} (h : x.outcome = .ok a) (f : α → Logged β) :
    x >>= f = ⟨x.events ++ (f a).events, (f a).outcome⟩ := by
  simp only [bind, h]

theorem bind_of_error {x : Logged α} {fault : Fault} (h : x.outcome = .error fault)
    (f : α → Logged β) : x >>= f = ⟨x.events, .error fault⟩ := by
  simp only [bind, h]

instance : MonadLift (Except Fault) Logged where
  monadLift := ofExcept

end Logged

end Linewise
