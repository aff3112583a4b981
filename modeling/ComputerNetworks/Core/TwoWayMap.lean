import Mathlib.Data.List.Nodup
import Mathlib.Logic.Function.Basic

/-!
# Dictionaries kept in both directions

Two dictionaries, from keys to values and back, into which pairs are entered
together. Nothing is taken out: a pair that reuses a key or a value leaves the
entry of its old partner behind. While each batch of pairs takes keys and values
away from each other as pairs, and only then, the dictionaries stay inverse.
-/

namespace ComputerNetworks

/-- A dictionary and the one of the other direction, as the functions of their entries. -/
structure TwoWayMap (K V : Type) where
  forward : K → Option V
  backward : V → Option K

namespace TwoWayMap

variable {K V : Type}

/-- The dictionaries are inverse to each other. -/
def Inverse (m : TwoWayMap K V) : Prop := ∀ k v, m.forward k = some v ↔ m.backward v = some k

/-- A batch has the key of an old pair exactly when it has its value. -/
def Agrees (m : TwoWayMap K V) (pairs : List (K × V)) : Prop :=
  ∀ k v, m.forward k = some v → (k ∈ pairs.map Prod.fst ↔ v ∈ pairs.map Prod.snd)

/-- The other direction. -/
def swap (m : TwoWayMap K V) : TwoWayMap V K := ⟨m.backward, m.forward⟩

/-- The keys of swapped pairs are the values. -/
theorem map_fst_swap (pairs : List (K × V)) :
    (pairs.map Prod.swap).map Prod.fst = pairs.map Prod.snd := by
  rw [List.map_map]
  rfl

/-- A key belongs to a pair. -/
theorem exists_of_mem_keys {pairs : List (K × V)} {k : K} (h : k ∈ pairs.map Prod.fst) :
    ∃ v, (k, v) ∈ pairs := by
  obtain ⟨⟨_, v⟩, hmem, rfl⟩ := List.mem_map.1 h
  exact ⟨v, hmem⟩

/-- A value belongs to a pair. -/
theorem exists_of_mem_values {pairs : List (K × V)} {v : V} (h : v ∈ pairs.map Prod.snd) :
    ∃ k, (k, v) ∈ pairs := by
  obtain ⟨⟨k, _⟩, hmem, rfl⟩ := List.mem_map.1 h
  exact ⟨k, hmem⟩

variable [DecidableEq K] [DecidableEq V]

/-- Enter a pair. -/
def assign (m : TwoWayMap K V) (k : K) (v : V) : TwoWayMap K V :=
  ⟨Function.update m.forward k (some v), Function.update m.backward v (some k)⟩

/-- Enter the pairs of a batch. -/
def assignAll (m : TwoWayMap K V) (pairs : List (K × V)) : TwoWayMap K V :=
  pairs.foldl (fun m pair => m.assign pair.1 pair.2) m

theorem assignAll_cons (m : TwoWayMap K V) (pair : K × V) (pairs : List (K × V)) :
    m.assignAll (pair :: pairs) = (m.assign pair.1 pair.2).assignAll pairs := rfl

/-- The other direction enters the swapped pairs. -/
theorem swap_assignAll (m : TwoWayMap K V) (pairs : List (K × V)) :
    (m.assignAll pairs).swap = m.swap.assignAll (pairs.map Prod.swap) := by
  induction pairs generalizing m with
  | nil => rfl
  | cons pair pairs ih => exact ih (m.assign pair.1 pair.2)

variable {m : TwoWayMap K V} {pairs : List (K × V)} {k : K} {v : V}

/-- A key that the batch does not have keeps its entry. -/
theorem forward_of_not_mem (h : k ∉ pairs.map Prod.fst) : (m.assignAll pairs).forward k =
    m.forward k := by
  induction pairs generalizing m with
  | nil => rfl
  | cons pair pairs ih =>
    rw [List.map_cons, List.mem_cons, not_or] at h
    rw [assignAll_cons, ih h.2]
    exact Function.update_of_ne h.1 _ _

/-- A key of the batch gets its value. -/
theorem forward_of_mem (hkeys : (pairs.map Prod.fst).Nodup) (h : (k, v) ∈ pairs) :
    (m.assignAll pairs).forward k = some v := by
  induction pairs generalizing m with
  | nil => exact absurd h List.not_mem_nil
  | cons pair pairs ih =>
    rw [List.map_cons, List.nodup_cons] at hkeys
    rw [assignAll_cons]
    rcases List.mem_cons.1 h with rfl | hmem
    · rw [forward_of_not_mem hkeys.1]
      exact Function.update_self _ _ _
    · exact ih hkeys.2 hmem

/-- A value that is not entered keeps its key. -/
theorem backward_of_not_mem (h : v ∉ pairs.map Prod.snd) :
    (m.assignAll pairs).backward v = m.backward v := by
  have hswap := congrArg (fun n => n.forward v) (swap_assignAll m pairs)
  exact hswap.trans (forward_of_not_mem (by rwa [map_fst_swap]))

/-- A value that is entered once has its new key. -/
theorem backward_of_mem (hvalues : (pairs.map Prod.snd).Nodup) (h : (k, v) ∈ pairs) :
    (m.assignAll pairs).backward v = some k := by
  have hswap := congrArg (fun n => n.forward v) (swap_assignAll m pairs)
  exact hswap.trans (forward_of_mem (by rwa [map_fst_swap])
    (List.mem_map.2 ⟨(k, v), h, rfl⟩))

/-- A batch of different keys and different values keeps the dictionaries inverse exactly when it
agrees with them. -/
theorem inverse_assignAll_iff (hm : m.Inverse) (hkeys : (pairs.map Prod.fst).Nodup)
    (hvalues : (pairs.map Prod.snd).Nodup) : (m.assignAll pairs).Inverse ↔ m.Agrees pairs := by
  constructor
  · intro hinv k v hkv
    constructor
    · intro hk
      by_contra hv
      -- the value keeps the key, which has a new value
      obtain ⟨v', hmem⟩ := exists_of_mem_keys hk
      have hback := (backward_of_not_mem (m := m) hv).trans ((hm k v).1 hkv)
      have hforward := (hinv k v).2 hback
      rw [forward_of_mem hkeys hmem] at hforward
      cases hforward
      exact hv (List.mem_map.2 ⟨_, hmem, rfl⟩)
    · intro hv
      by_contra hk
      obtain ⟨k', hmem⟩ := exists_of_mem_values hv
      have hforward := (forward_of_not_mem (m := m) hk).trans hkv
      have hback := (hinv k v).1 hforward
      rw [backward_of_mem hvalues hmem] at hback
      cases hback
      exact hk (List.mem_map.2 ⟨_, hmem, rfl⟩)
  · intro hagree k v
    by_cases hk : k ∈ pairs.map Prod.fst
    · obtain ⟨v', hmem⟩ := exists_of_mem_keys hk
      rw [forward_of_mem hkeys hmem]
      constructor
      · intro h
        cases h
        exact backward_of_mem hvalues hmem
      · intro hback
        by_cases hv : v ∈ pairs.map Prod.snd
        · obtain ⟨k', hmem'⟩ := exists_of_mem_values hv
          rw [backward_of_mem hvalues hmem'] at hback
          cases hback
          rw [← forward_of_mem (m := m) hkeys hmem, forward_of_mem hkeys hmem']
        · rw [backward_of_not_mem hv] at hback
          exact absurd ((hagree k v ((hm k v).2 hback)).1 hk) hv
    · rw [forward_of_not_mem hk]
      by_cases hv : v ∈ pairs.map Prod.snd
      · obtain ⟨k', hmem'⟩ := exists_of_mem_values hv
        rw [backward_of_mem hvalues hmem']
        constructor
        · intro hforward
          exact absurd ((hagree k v hforward).2 hv) hk
        · intro h
          cases h
          exact absurd (List.mem_map.2 ⟨_, hmem', rfl⟩) hk
      · rw [backward_of_not_mem hv]
        exact hm k v

end TwoWayMap

end ComputerNetworks
