import Mathlib.Data.List.Nodup
import Mathlib.Logic.Function.Basic

/-!
# Maps in buckets

A family of association lists, one for each value of a hash function, stands for
a map when every entry is in the bucket of its key and no bucket has a key twice.
Each lemma here is a change of one bucket, and says which map results: the keys
of the other entries, of that bucket too, keep their values.
-/

namespace ComputerNetworks.HashedLists

variable {κ ν ι : Type}

/-- Every entry is in its own bucket, under a key that is there once. -/
structure Hashed (hash : κ → ι) (buckets : ι → List (κ × ν)) : Prop where
  own : ∀ i, ∀ e ∈ buckets i, hash e.1 = i
  nodup : ∀ i, ((buckets i).map Prod.fst).Nodup

theorem hashed_empty (hash : κ → ι) : Hashed hash fun _ => ([] : List (κ × ν)) :=
  ⟨nofun, fun _ => List.nodup_nil⟩

/-- Before the occurrence of a key in its bucket and behind it are other keys. -/
theorem Hashed.notMem {hash : κ → ι} {buckets : ι → List (κ × ν)} (h : Hashed hash buckets)
    {key : κ} {value : ν} {front rest : List (κ × ν)}
    (hbucket : buckets (hash key) = front ++ (key, value) :: rest) :
    ∀ e ∈ front ++ rest, e.1 ≠ key := by
  have hnodup := h.nodup (hash key)
  rw [hbucket, List.map_append, List.map_cons] at hnodup
  have hmid := (List.nodup_cons.1 (List.nodup_middle.1 hnodup)).1
  rw [← List.map_append] at hmid
  exact fun e he hkey => hmid (List.mem_map.2 ⟨e, he, hkey⟩)

variable [DecidableEq κ]

/-- The map the buckets stand for. -/
def toMap (hash : κ → ι) (buckets : ι → List (κ × ν)) (key : κ) : Option ν :=
  (buckets (hash key)).lookup key

/-- Nothing is found exactly if no entry has the key. -/
theorem lookup_eq_none {entries : List (κ × ν)} {key : κ} :
    entries.lookup key = none ↔ ∀ e ∈ entries, e.1 ≠ key := by
  simp only [List.lookup_eq_none_iff, bne_iff_ne, ne_comm]

/-- The value under the first occurrence of a key. -/
theorem lookup_append_cons {front rest : List (κ × ν)} {key : κ} (value : ν)
    (hfront : ∀ e ∈ front, e.1 ≠ key) (k : κ) :
    (front ++ (key, value) :: rest).lookup k =
      if k = key then some value else (front ++ rest).lookup k := by
  rw [List.lookup_append, List.lookup_append, List.lookup_cons]
  by_cases hk : k = key
  · subst hk
    rw [lookup_eq_none.2 hfront, if_pos rfl, beq_self_eq_true]
    rfl
  · rw [if_neg hk, beq_false_of_ne hk]

/-- An entry of its bucket is what the map has under its key. -/
theorem Hashed.toMap_eq_some {hash : κ → ι} {buckets : ι → List (κ × ν)}
    (h : Hashed hash buckets) {key : κ} {value : ν} {front rest : List (κ × ν)}
    (hbucket : buckets (hash key) = front ++ (key, value) :: rest) :
    toMap hash buckets key = some value := by
  rw [toMap, hbucket, lookup_append_cons value
    fun e he => h.notMem hbucket e (List.mem_append_left _ he), if_pos rfl]

namespace Hashed

variable [DecidableEq ι] {hash : κ → ι} {buckets : ι → List (κ × ν)} {key : κ}

/-- A bucket in which one key has changed. -/
theorem change (h : Hashed hash buckets) {entries : List (κ × ν)} (value : Option ν)
    (hown : ∀ e ∈ entries, hash e.1 = hash key) (hnodup : (entries.map Prod.fst).Nodup)
    (hlookup : ∀ k, entries.lookup k =
      if k = key then value else (buckets (hash key)).lookup k) :
    Hashed hash (Function.update buckets (hash key) entries) ∧
      toMap hash (Function.update buckets (hash key) entries) =
        Function.update (toMap hash buckets) key value := by
  refine ⟨⟨fun i => ?_, fun i => ?_⟩, funext fun k => ?_⟩
  · by_cases hi : i = hash key
    · rw [hi, Function.update_self]
      exact hown
    · rw [Function.update_of_ne hi]
      exact h.own i
  · by_cases hi : i = hash key
    · rw [hi, Function.update_self]
      exact hnodup
    · rw [Function.update_of_ne hi]
      exact h.nodup i
  · unfold toMap
    by_cases hk : k = key
    · rw [hk, Function.update_self, Function.update_self, hlookup, if_pos rfl]
    · rw [Function.update_of_ne hk]
      by_cases hi : hash k = hash key
      · rw [hi, Function.update_self, hlookup, if_neg hk]
      · rw [Function.update_of_ne hi]

/-- An absent key is put in front of its bucket. -/
theorem put (h : Hashed hash buckets) (habsent : toMap hash buckets key = none) (value : ν) :
    Hashed hash (Function.update buckets (hash key) ((key, value) :: buckets (hash key))) ∧
      toMap hash (Function.update buckets (hash key) ((key, value) :: buckets (hash key))) =
        Function.update (toMap hash buckets) key (some value) := by
  have hnew := lookup_eq_none.1 habsent
  refine h.change _ (List.forall_mem_cons.2 ⟨rfl, h.own _⟩) (List.nodup_cons.2 ⟨?_, h.nodup _⟩) ?_
  · intro hmem
    obtain ⟨e, he, hkey⟩ := List.mem_map.1 hmem
    exact hnew e he hkey
  · exact lookup_append_cons value (List.forall_mem_nil _)

section Occurs

variable {front rest : List (κ × ν)} {value : ν}

/-- The value of a key that is present is replaced. -/
theorem set (h : Hashed hash buckets)
    (hbucket : buckets (hash key) = front ++ (key, value) :: rest) (value' : ν) :
    Hashed hash (Function.update buckets (hash key) (front ++ (key, value') :: rest)) ∧
      toMap hash (Function.update buckets (hash key) (front ++ (key, value') :: rest)) =
        Function.update (toMap hash buckets) key (some value') := by
  have hfront : ∀ e ∈ front, e.1 ≠ key := fun e he =>
    h.notMem hbucket e (List.mem_append_left _ he)
  have hown := h.own (hash key)
  have hnodup := h.nodup (hash key)
  rw [hbucket] at hown hnodup
  refine h.change _ ?_ ?_ fun k => ?_
  · rw [List.forall_mem_append, List.forall_mem_cons] at hown ⊢
    exact hown
  · rw [List.map_append, List.map_cons] at hnodup ⊢
    exact hnodup
  · rw [hbucket, lookup_append_cons value' hfront, lookup_append_cons value hfront]
    split <;> rfl

/-- A key that is present is taken out. -/
theorem erase (h : Hashed hash buckets)
    (hbucket : buckets (hash key) = front ++ (key, value) :: rest) :
    Hashed hash (Function.update buckets (hash key) (front ++ rest)) ∧
      toMap hash (Function.update buckets (hash key) (front ++ rest)) =
        Function.update (toMap hash buckets) key none := by
  have hothers := h.notMem hbucket
  have hfront : ∀ e ∈ front, e.1 ≠ key := fun e he => hothers e (List.mem_append_left _ he)
  have hown := h.own (hash key)
  have hnodup := h.nodup (hash key)
  rw [hbucket] at hown hnodup
  refine h.change _ ?_ ?_ fun k => ?_
  · rw [List.forall_mem_append, List.forall_mem_cons] at hown
    exact List.forall_mem_append.2 ⟨hown.1, hown.2.2⟩
  · rw [List.map_append, List.map_cons] at hnodup
    rw [List.map_append]
    exact (List.nodup_cons.1 (List.nodup_middle.1 hnodup)).2
  · rw [hbucket, lookup_append_cons value hfront]
    split
    · next hk => rw [hk, lookup_eq_none.2 hothers]
    · rfl

end Occurs

end Hashed

end ComputerNetworks.HashedLists
