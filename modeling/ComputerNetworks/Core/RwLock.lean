import Mathlib.Data.List.Basic

/-!
# Readers-writer locks

A lock is held by any number of readers or by one writer; the two never meet, by
construction. An attempt that must wait returns no lock.
-/

namespace ComputerNetworks

/-- A lock, with the threads that hold it. -/
inductive RwLock (θ : Type) where
  | shared (readers : List θ)
  | exclusive (writer : θ)
  deriving DecidableEq, Repr

namespace RwLock

variable {θ : Type}

/-- `pthread_rwlock_rdlock`, where it need not wait. -/
def rdlock : RwLock θ → θ → Option (RwLock θ)
  | shared readers, t => some (shared (t :: readers))
  | exclusive _, _ => none

/-- `pthread_rwlock_wrlock`, where it need not wait. -/
def wrlock : RwLock θ → θ → Option (RwLock θ)
  | shared [], t => some (exclusive t)
  | shared (_ :: _), _ => none
  | exclusive _, _ => none

/-- `pthread_rwlock_unlock` by a thread that holds the lock. -/
def unlock [DecidableEq θ] : RwLock θ → θ → RwLock θ
  | shared readers, t => shared (readers.erase t)
  | exclusive _, _ => shared []

/-- The thread is one of the readers. -/
def Reads (l : RwLock θ) (t : θ) : Prop :=
  ∃ readers, l = shared readers ∧ t ∈ readers

/-- A thread does not read under a writer. -/
theorem not_reads_exclusive (w t : θ) : ¬(exclusive w).Reads t := by
  rintro ⟨readers, hl, -⟩
  cases hl

/-- A new reader joins the others. -/
theorem Reads.rdlock {l l' : RwLock θ} {t u : θ} (h : l.Reads u) (hl : l.rdlock t = some l') :
    l'.Reads u := by
  obtain ⟨readers, rfl, hu⟩ := h
  cases hl
  exact ⟨_, rfl, List.mem_cons_of_mem _ hu⟩

/-- A thread that was granted the lock reads. -/
theorem reads_of_rdlock {l l' : RwLock θ} {t : θ} (hl : l.rdlock t = some l') : l'.Reads t := by
  cases l with
  | shared readers =>
    cases hl
    exact ⟨_, rfl, List.mem_cons_self⟩
  | exclusive w => cases hl

/-- A reader that leaves takes no other along. -/
theorem Reads.unlock [DecidableEq θ] {l : RwLock θ} {t u : θ} (h : l.Reads u) (hne : u ≠ t) :
    (l.unlock t).Reads u := by
  obtain ⟨readers, rfl, hu⟩ := h
  exact ⟨_, rfl, (List.mem_erase_of_ne hne).2 hu⟩

/-- A writer gets the lock only from nobody. -/
theorem wrlock_eq_some {l l' : RwLock θ} {t : θ} (hl : l.wrlock t = some l') :
    l = shared [] ∧ l' = exclusive t := by
  cases l with
  | shared readers =>
    cases readers with
    | nil =>
      cases hl
      exact ⟨rfl, rfl⟩
    | cons u readers => cases hl
  | exclusive w => cases hl

end RwLock

end ComputerNetworks
