import Mathlib.Data.List.Basic
import Mathlib.Data.List.Induction
import Mathlib.Data.List.Nodup

/-!
# Ordered last-write-wins maps

A sequence of writes of values under keys leaves, for each key, its last write,
and lists the keys by the time of that write. `write` is the operation on the
list of live entries and `keepLast` what a whole sequence of writes leaves. With
erasures in between, `standing` lists the writes whose key no later edit names.
-/

namespace ComputerNetworks.LastWrite

variable {κ ν : Type}

/-- A change of the map. -/
inductive Edit (κ ν : Type) where
  | write (key : κ) (value : ν)
  | erase (key : κ)
  deriving DecidableEq, Repr

namespace Edit

/-- The key an edit names. -/
def key : Edit κ ν → κ
  | .write k _ => k
  | .erase k => k

/-- The value it leaves under the key. -/
def value : Edit κ ν → Option ν
  | .write _ v => some v
  | .erase _ => none

/-- The entry it leaves. -/
def entry (e : Edit κ ν) : Option (κ × ν) := e.value.map fun v => (e.key, v)

theorem key_of_mem_entry {e : Edit κ ν} {x : κ × ν} (h : x ∈ e.entry.toList) : x.1 = e.key := by
  obtain ⟨v, -, rfl⟩ := Option.map_eq_some_iff.1 (Option.mem_toList.1 h)
  rfl

end Edit

variable [DecidableEq κ]

/-- One write: an older entry of the key goes and the new one is listed last. -/
def write (live : List (κ × ν)) (e : κ × ν) : List (κ × ν) :=
  live.filter (fun x => x.1 ≠ e.1) ++ [e]

/-- What a sequence of writes leaves: each key's last write, in order. -/
def keepLast : List (κ × ν) → List (κ × ν)
  | [] => []
  | e :: ws => if e.1 ∈ ws.map Prod.fst then keepLast ws else e :: keepLast ws

/-- No key is lost. -/
@[simp] theorem mem_keys_keepLast {k : κ} {ws : List (κ × ν)} :
    k ∈ (keepLast ws).map Prod.fst ↔ k ∈ ws.map Prod.fst := by
  induction ws with
  | nil => simp [keepLast]
  | cons e ws ih =>
    by_cases he : e.1 ∈ ws.map Prod.fst
    · rw [keepLast, if_pos he, ih, List.map_cons, List.mem_cons]
      exact ⟨Or.inr, fun h => h.elim (fun hk => hk ▸ he) id⟩
    · rw [keepLast, if_neg he, List.map_cons, List.map_cons, List.mem_cons, List.mem_cons, ih]

/-- Nothing is kept that was not written. -/
theorem keepLast_subset (ws : List (κ × ν)) : keepLast ws ⊆ ws := by
  induction ws with
  | nil => simp [keepLast]
  | cons e ws ih =>
    by_cases he : e.1 ∈ ws.map Prod.fst
    · rw [keepLast, if_pos he]
      exact List.subset_cons_of_subset e ih
    · rw [keepLast, if_neg he]
      exact List.cons_subset_cons e ih

/-- At most all writes are kept. -/
theorem length_keepLast_le (ws : List (κ × ν)) : (keepLast ws).length ≤ ws.length := by
  induction ws with
  | nil => simp [keepLast]
  | cons e ws ih =>
    by_cases he : e.1 ∈ ws.map Prod.fst
    · rw [keepLast, if_pos he]
      exact Nat.le_succ_of_le ih
    · rw [keepLast, if_neg he]
      exact Nat.succ_le_succ ih

/-- Writes of pairwise distinct keys all stay. -/
theorem keepLast_of_nodup {ws : List (κ × ν)} (h : (ws.map Prod.fst).Nodup) :
    keepLast ws = ws := by
  induction ws with
  | nil => rfl
  | cons e ws ih =>
    rw [List.map_cons, List.nodup_cons] at h
    rw [keepLast, if_neg h.1, ih h.2]

/-- Writes whose keys are all written again later leave no trace. -/
theorem keepLast_append_of_overwritten {xs ws : List (κ × ν)}
    (h : ∀ e ∈ xs, e.1 ∈ ws.map Prod.fst) : keepLast (xs ++ ws) = keepLast ws := by
  induction xs with
  | nil => rfl
  | cons e xs ih =>
    have he : e.1 ∈ (xs ++ ws).map Prod.fst := by
      rw [List.map_append, List.mem_append]
      exact Or.inr (h e (by simp))
    rw [List.cons_append, keepLast, if_pos he, ih (fun x hx => h x (List.mem_cons_of_mem e hx))]

/-- One more write at the end of a sequence is one `write` on what the sequence left. -/
theorem keepLast_concat (ws : List (κ × ν)) (e : κ × ν) :
    keepLast (ws ++ [e]) = write (keepLast ws) e := by
  induction ws with
  | nil => simp [keepLast, write]
  | cons x ws ih =>
    by_cases hx : x.1 ∈ ws.map Prod.fst
    · have hx' : x.1 ∈ (ws ++ [e]).map Prod.fst := by
        rw [List.map_append, List.mem_append]
        exact Or.inl hx
      rw [List.cons_append, keepLast, if_pos hx', keepLast, if_pos hx, ih]
    · by_cases hxe : x.1 = e.1
      · have hx' : x.1 ∈ (ws ++ [e]).map Prod.fst := by simp [hxe]
        rw [List.cons_append, keepLast, if_pos hx', keepLast, if_neg hx, ih]
        simp [write, hxe]
      · have hx' : x.1 ∉ (ws ++ [e]).map Prod.fst := by
          rw [List.map_append, List.mem_append]
          simpa [hxe] using hx
        rw [List.cons_append, keepLast, if_neg hx', keepLast, if_neg hx, ih]
        simp [write, hxe]

/-- Two first writes of a key may differ only when the key is written again. -/
theorem keepLast_cons_eq_iff {x y : κ × ν} {xs ys : List (κ × ν)} (hxy : x.1 = y.1)
    (hkeys : xs.map Prod.fst = ys.map Prod.fst) : keepLast (x :: xs) = keepLast (y :: ys) ↔
      (x.1 ∉ xs.map Prod.fst → x = y) ∧ keepLast xs = keepLast ys := by
  rw [keepLast, keepLast, ← hxy, ← hkeys]
  by_cases hx : x.1 ∈ xs.map Prod.fst
  · rw [if_pos hx, if_pos hx]
    exact (and_iff_right fun hno => absurd hx hno).symm
  · rw [if_neg hx, if_neg hx, List.cons.injEq]
    exact and_congr_left fun _ => (imp_iff_right hx).symm

/-- Writing one entry after another computes `keepLast`. -/
theorem foldl_write (ws : List (κ × ν)) : ws.foldl write [] = keepLast ws := by
  induction ws using List.reverseRecOn with
  | nil => rfl
  | append_singleton ws e ih => rw [List.foldl_append, ih, keepLast_concat]; rfl

/-- The operation on the live entries. -/
def Edit.apply (live : List (κ × ν)) (e : Edit κ ν) : List (κ × ν) :=
  live.filter (fun x => x.1 ≠ e.key) ++ e.entry.toList

/-- The writes whose key no later edit names, in order. -/
def standing : List (Edit κ ν) → List (κ × ν)
  | [] => []
  | e :: es => if e.key ∈ es.map Edit.key then standing es else e.entry.toList ++ standing es

/-- The value the last edit of a key leaves. -/
def lastValue (k : κ) (es : List (Edit κ ν)) : Option ν :=
  (es.reverse.find? fun e => e.key = k).bind Edit.value

/-- One more edit at the end of a sequence is that edit of what the sequence left. -/
theorem standing_concat (es : List (Edit κ ν)) (e : Edit κ ν) :
    standing (es ++ [e]) = e.apply (standing es) := by
  induction es with
  | nil => simp [standing, Edit.apply]
  | cons x es ih =>
    have hkeys : x.key ∈ (es ++ [e]).map Edit.key ↔ x.key ∈ es.map Edit.key ∨ x.key = e.key := by
      simp
    rw [List.cons_append, standing, standing, ih]
    by_cases hx : x.key ∈ es.map Edit.key
    · rw [if_pos (hkeys.2 (.inl hx)), if_pos hx]
    · rw [if_neg hx, Edit.apply, Edit.apply, List.filter_append]
      by_cases hxe : x.key = e.key
      · -- the older entry of the key goes
        have hgone : x.entry.toList.filter (fun y => y.1 ≠ e.key) = [] := by
          refine List.filter_eq_nil_iff.2 fun y hy => ?_
          simpa using (Edit.key_of_mem_entry hy).trans hxe
        rw [if_pos (hkeys.2 (.inr hxe)), hgone, List.nil_append]
      · have hstays : x.entry.toList.filter (fun y => y.1 ≠ e.key) = x.entry.toList := by
          refine List.filter_eq_self.2 fun y hy => ?_
          simpa using fun h => hxe ((Edit.key_of_mem_entry hy).symm.trans h)
        rw [if_neg (fun h => (hkeys.1 h).elim hx hxe), hstays, List.append_assoc]

/-- Editing one entry after another computes `standing`. -/
theorem foldl_apply (es : List (Edit κ ν)) : es.foldl Edit.apply [] = standing es := by
  induction es using List.reverseRecOn with
  | nil => rfl
  | append_singleton es e ih => rw [List.foldl_append, ih, standing_concat]; rfl

/-- The entry of a key stands with the value its last edit leaves. -/
theorem find_standing (k : κ) (es : List (Edit κ ν)) :
    (standing es).find? (fun x => x.1 = k) = (lastValue k es).map fun v => (k, v) := by
  induction es using List.reverseRecOn with
  | nil => rfl
  | append_singleton es e ih =>
    rw [standing_concat, Edit.apply, List.find?_append, lastValue, List.reverse_append,
      List.reverse_singleton, List.singleton_append, List.find?_cons]
    by_cases hk : e.key = k
    · have hgone : ((standing es).filter fun x => x.1 ≠ e.key).find? (fun x => x.1 = k) = none := by
        refine List.find?_eq_none.2 fun x hx => ?_
        simpa [hk] using (List.mem_filter.1 hx).2
      rw [hgone, decide_eq_true hk]
      subst hk
      cases hv : e.value <;> simp [Edit.entry, hv]
    · have hrest : ((standing es).filter fun x => x.1 ≠ e.key).find? (fun x => x.1 = k) =
          (standing es).find? fun x => x.1 = k := by
        rw [List.find?_filter]
        congr 1
        funext x
        by_cases hx : x.1 = k
        · simpa [hx] using Ne.symm hk
        · simp [hx]
      have hentry : e.entry.toList.find? (fun x => x.1 = k) = none := by
        refine List.find?_eq_none.2 fun x hx => ?_
        simpa using fun h => hk ((Edit.key_of_mem_entry hx).symm.trans h)
      rw [hrest, hentry, Option.or_none, ih, decide_eq_false hk]
      rfl

end ComputerNetworks.LastWrite
