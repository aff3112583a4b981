import ComputerNetworks.Core.Memory

/-!
# Runs with more fuel

A loop whose number of rounds is bounded by a number either reaches the bound or
goes as it would with any higher one. So the bound says nothing about a run that
has ended.
-/

namespace ComputerNetworks.Exec

variable {Site α β : Type}

/-- The run with more fuel goes like the one with less, unless that has run out. -/
def Settles (less more : Exec Site α) : Prop := less = .error .outOfFuel ∨ more = less

namespace Settles

variable {less more : Exec Site α}

theorem refl (run : Exec Site α) : Settles run run := Or.inr rfl

theorem out_of_fuel (run : Exec Site α) : Settles (.error .outOfFuel) run := Or.inl rfl

/-- A run that has ended stays as it is. -/
theorem ok {a : α} (h : less.Settles more) (hless : less = .ok a) : more = .ok a := by
  subst hless
  exact h.resolve_left nofun

/-- A run in two parts settles if both do. -/
theorem bind {f g : α → Exec Site β} (h : less.Settles more) (hnext : ∀ a, (f a).Settles (g a)) :
    (less >>= f).Settles (more >>= g) := by
  rcases h with rfl | rfl
  · exact out_of_fuel _
  · cases more with
    | error fault => exact refl _
    | ok a => exact hnext a

/-- So does one in two branches. -/
theorem ite {p : Prop} [Decidable p] {less' more' : Exec Site α} (h : less.Settles more)
    (h' : less'.Settles more') : (if p then less else less').Settles
      (if p then more else more') := by
  split
  · exact h
  · exact h'

end Settles

end ComputerNetworks.Exec
