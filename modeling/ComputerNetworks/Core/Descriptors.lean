import Mathlib.Data.List.Basic

/-!
# Tables of descriptors

A process names its open files by small numbers. A file that is opened takes the
lowest number that is free, and a number that is closed names nothing until it is
taken again.
-/

namespace ComputerNetworks

/-- What each number of a process names. -/
abbrev Descriptors (File : Type) := List (Option File)

namespace Descriptors

variable {File : Type}

/-- The file that a number names. -/
def file? (t : Descriptors File) (fd : Int) : Option File :=
  if 0 ≤ fd then (t[fd.toNat]?).join else none

/-- The lowest number that is free. -/
def lowest (t : Descriptors File) : Nat := t.findIdx Option.isNone

/-- A new file takes that number. -/
def install (t : Descriptors File) (f : File) : Int × Descriptors File :=
  (t.lowest, if t.lowest < t.length then t.set t.lowest (some f) else t ++ [some f])

/-- `close` of a number. -/
def close (t : Descriptors File) (fd : Int) : Descriptors File :=
  if 0 ≤ fd then t.set fd.toNat none else t

/-- Some number names the file. -/
def Names (t : Descriptors File) (f : File) : Prop := ∃ fd, t.file? fd = some f

/-- No file is open under a negative descriptor. -/
theorem file?_of_neg (t : Descriptors File) {fd : Int} (h : fd < 0) : t.file? fd = none :=
  if_neg (Int.not_le.2 h)

/-- A descriptor is a position in the table. -/
theorem file?_natCast (t : Descriptors File) (n : Nat) : t.file? n = (t[n]?).join := by
  rw [file?, if_pos (Int.natCast_nonneg n), Int.toNat_natCast]

@[simp] theorem file?_nil (fd : Int) : file? ([] : Descriptors File) fd = none := by
  rw [file?, List.getElem?_nil]
  exact ite_self none

/-- There is always a free descriptor. -/
theorem lowest_le_length (t : Descriptors File) : t.lowest ≤ t.length := List.findIdx_le_length

/-- The number that a new file takes names nothing before. -/
theorem file?_lowest (t : Descriptors File) : t.file? t.lowest = none := by
  rw [file?_natCast]
  rcases Nat.lt_or_ge t.lowest t.length with h | h
  · have hnone := List.findIdx_getElem (p := Option.isNone) (w := h)
    rw [List.getElem?_eq_getElem h]
    exact Option.isNone_iff_eq_none.1 hnone
  · rw [List.getElem?_eq_none h]
    rfl

/-- Opening a file changes what its number names and nothing else. -/
theorem file?_install (t : Descriptors File) (f : File) (fd : Int) :
    (t.install f).2.file? fd = if fd = (t.install f).1 then some f else t.file? fd := by
  rcases Int.lt_or_le fd 0 with hneg | hpos
  · have hne : fd ≠ (t.install f).1 := by
      rw [install]
      omega
    rw [if_neg hne, file?_of_neg _ hneg, file?_of_neg _ hneg]
  · obtain ⟨n, rfl⟩ := Int.eq_ofNat_of_zero_le hpos
    have hle := t.lowest_le_length
    simp only [install, file?_natCast, Int.natCast_inj]
    split
    · next h =>
      rw [List.getElem?_set]
      grind
    · next h =>
      rw [List.getElem?_append]
      grind

/-- `close` frees one descriptor and no other. -/
theorem file?_close (t : Descriptors File) (fd fd' : Int) :
    (t.close fd).file? fd' = if fd' = fd then none else t.file? fd' := by
  rcases Int.lt_or_le fd' 0 with hneg | hpos
  · rw [file?_of_neg _ hneg, file?_of_neg _ hneg, ite_self]
  · obtain ⟨n, rfl⟩ := Int.eq_ofNat_of_zero_le hpos
    rw [close]
    split
    · next h =>
      obtain ⟨m, rfl⟩ := Int.eq_ofNat_of_zero_le h
      simp only [file?_natCast, Int.toNat_natCast, List.getElem?_set, Int.natCast_inj]
      grind
    · next h => rw [if_neg (by omega)]

/-- A file is open under the descriptor it was given. -/
theorem file?_install_self (t : Descriptors File) (f : File) :
    (t.install f).2.file? (t.install f).1 = some f := by
  rw [file?_install, if_pos rfl]

theorem file?_install_fst (t : Descriptors File) (f : File) : t.file? (t.install f).1 = none :=
  t.file?_lowest

end Descriptors

end ComputerNetworks
