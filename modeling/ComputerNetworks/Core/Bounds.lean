import ComputerNetworks.Core.CString

/-!
# Accesses inside their blocks, and loops that end

A computation stays inside when it does not end in an access outside a block;
another fault, such as a failed assertion, ends it too but reads nothing. It
ends when it does not reach the bound of a loop. The rule for a bind goes through
a computation step by step, and for each access there is the exact condition
under which it stays inside.
-/

namespace ComputerNetworks

variable {Site α β : Type}

namespace Exec

/-- No access outside a block is reached. -/
def Inside (run : Exec Site α) : Prop := run ≠ .error .outOfBounds

@[simp] theorem inside_ok (a : α) : Inside (.ok a : Exec Site α) := nofun

@[simp] theorem inside_assertion (site : Site) :
    Inside (.error (.assertion site) : Exec Site α) := nofun

@[simp] theorem not_inside : ¬Inside (.error .outOfBounds : Exec Site α) := fun h => h rfl

/-- A bind avoids a fault when its first part does, and its second on what that returns. -/
theorem bind_ne_error {run : Exec Site α} {next : α → Exec Site β} {fault : Fault Site} :
    run >>= next ≠ .error fault ↔
      run ≠ .error fault ∧ ∀ a, run = .ok a → next a ≠ .error fault := by
  cases run with
  | error fault' =>
    have hbind : (Except.error fault' >>= next : Exec Site β) = .error fault' := rfl
    rw [hbind, Ne, Ne, Except.error.injEq, Except.error.injEq]
    refine (and_iff_left fun a h => ?_).symm
    cases h
  | ok a =>
    rw [ok_bind]
    constructor
    · intro h
      refine ⟨fun hfault => ?_, fun b hb => ?_⟩
      · cases hfault
      · cases hb
        exact h
    · exact fun h => h.2 a rfl

/-- A bind stays inside when its first part does, and its second on what that returns. -/
theorem inside_bind {run : Exec Site α} {next : α → Exec Site β} :
    Inside (run >>= next) ↔ Inside run ∧ ∀ a, run = .ok a → Inside (next a) := bind_ne_error

/-- A pure step behind a call cannot leave a block. -/
theorem inside_bind_pure {run : Exec Site α} {f : α → β} :
    Inside (run >>= fun a => pure (f a)) ↔ Inside run :=
  inside_bind.trans (and_iff_left fun a _ => inside_ok (f a))

/-- Two calls stay inside if the first does, and the second wherever the first returns. -/
theorem Inside.bind {run : Exec Site α} {next : α → Exec Site β} (hrun : Inside run)
    (hnext : ∀ a, run = .ok a → Inside (next a)) : Inside (run >>= next) :=
  inside_bind.2 ⟨hrun, hnext⟩

/-- Renaming the assertions does not change what a call reads. -/
theorem inside_within {Site' : Type} {f : Site → Site'} {run : Exec Site α} :
    Inside (run.within f) ↔ Inside run := by
  cases run with
  | error fault => cases fault <;> simp [Inside, Fault.map]
  | ok a => simp

/-- The bound of no loop is reached. -/
def Ends (run : Exec Site α) : Prop := run ≠ .error .outOfFuel

@[simp] theorem ends_ok (a : α) : Ends (.ok a : Exec Site α) := nofun

/-- Two calls come to an end if each of them does. -/
theorem Ends.bind {run : Exec Site α} {next : α → Exec Site β} (hrun : Ends run)
    (hnext : ∀ a, Ends (next a)) : Ends (run >>= next) :=
  bind_ne_error.2 ⟨hrun, fun a _ => hnext a⟩

/-- Renaming the assertions does not keep a call from ending. -/
theorem Ends.within {Site' : Type} {f : Site → Site'} {run : Exec Site α} (h : Ends run) :
    Ends (run.within f) := by
  cases run with
  | error fault => cases fault <;> simp_all [Ends, Fault.map]
  | ok a => simp

end Exec

open Exec

/-- An assertion reads nothing. -/
@[simp] theorem inside_assert (cond : Prop) [Decidable cond] (site : Site) :
    Inside (assert cond site) := by
  unfold assert
  split
  · exact inside_ok ()
  · exact inside_assertion site

/-- A read stays inside exactly if its range does. -/
@[simp] theorem inside_readAt {b : List UInt8} {off n : Nat} :
    Inside (readAt b off n : Exec Site (List UInt8)) ↔ off + n ≤ b.length := by
  unfold readAt
  split
  · next h => exact iff_of_true (inside_ok _) h
  · next h => exact iff_of_false not_inside h

/-- A copy stays inside exactly if its target does. -/
@[simp] theorem inside_memcpyAt {b src : List UInt8} {off : Nat} :
    Inside (memcpyAt b off src : Exec Site (List UInt8)) ↔ off + src.length ≤ b.length := by
  unfold memcpyAt
  split
  · next h => exact iff_of_true (inside_ok _) h
  · next h => exact iff_of_false not_inside h

/-- A string is read inside its block exactly if a NUL comes before the end. -/
@[simp] theorem inside_cstr {b : List UInt8} {p : Nat} :
    Inside (cstr b p : Exec Site (List UInt8)) ↔ 0 ∈ b.drop p := by
  unfold cstr
  split
  · next h => exact iff_of_true (inside_ok _) h
  · next h => exact iff_of_false not_inside h

/-- A branch ends if both sides do. -/
theorem ends_ite {cond : Prop} [Decidable cond] {run run' : Exec Site α} (h : Ends run)
    (h' : Ends run') : Ends (if cond then run else run') := by
  split
  · exact h
  · exact h'

/-- An assertion comes to an end. -/
theorem ends_assert (cond : Prop) [Decidable cond] (site : Site) : Ends (assert cond site) :=
  ends_ite (ends_ok ()) nofun

/-- A read comes to an end. -/
theorem ends_readAt (b : List UInt8) (off n : Nat) :
    Ends (readAt b off n : Exec Site (List UInt8)) :=
  ends_ite (ends_ok _) nofun

/-- A copy comes to an end. -/
theorem ends_memcpyAt (b : List UInt8) (off : Nat) (src : List UInt8) :
    Ends (memcpyAt b off src : Exec Site (List UInt8)) :=
  ends_ite (ends_ok _) nofun

/-- Reading a string comes to an end. -/
theorem ends_cstr (b : List UInt8) (p : Nat) : Ends (cstr b p : Exec Site (List UInt8)) :=
  ends_ite (ends_ok _) nofun

/-- A bounded copy of a string comes to an end. -/
theorem ends_strncpy (dst src : List UInt8) (n : Nat) :
    Ends (strncpy dst src n : Exec Site (List UInt8)) :=
  ends_ite (ends_memcpyAt _ _ _) (ends_ite (ends_memcpyAt _ _ _) nofun)

end ComputerNetworks
