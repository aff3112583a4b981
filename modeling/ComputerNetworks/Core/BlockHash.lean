import Mathlib.Data.List.Basic
import Mathlib.Data.List.Induction

/-!
# Hashing block by block

A message is taken in an item at a time. As soon as `n` items have been collected
they are compressed into the chaining value, and collecting starts anew. Cut into
blocks of `n` items, the message then gives the same value whatever the pieces in
which it arrived, and the items behind its last whole block are still collected.
-/

namespace ComputerNetworks

variable {σ α : Type}

/-- The whole blocks of `n` items that a message starts with. -/
def blocksOf (n : Nat) (m : List α) : List (List α) :=
  (List.range (m.length / n)).map fun i => (m.drop (n * i)).take n

/-- Add an item to the chaining value and the items collected. -/
def absorbOne (n : Nat) (compress : σ → List α → σ) (s : σ × List α) (a : α) : σ × List α :=
  if s.2.length + 1 = n then (compress s.1 (s.2 ++ [a]), []) else (s.1, s.2 ++ [a])

/-- Add the items of a piece, one at a time. -/
def absorb (n : Nat) (compress : σ → List α → σ) (s : σ × List α) (piece : List α) : σ × List α :=
  piece.foldl (absorbOne n compress) s

variable {n : Nat} {compress : σ → List α → σ}

@[simp] theorem absorb_nil (s : σ × List α) : absorb n compress s [] = s := rfl

theorem absorb_cons (s : σ × List α) (a : α) (piece : List α) :
    absorb n compress s (a :: piece) = absorb n compress (absorbOne n compress s a) piece := rfl

/-- A message may be cut anywhere. -/
theorem absorb_append (s : σ × List α) (front rest : List α) :
    absorb n compress s (front ++ rest) = absorb n compress (absorb n compress s front) rest :=
  List.foldl_append

/-- As long as they do not fill a block, items are collected. -/
theorem absorb_short {s : σ × List α} {piece : List α} (h : s.2.length + piece.length < n) :
    absorb n compress s piece = (s.1, s.2 ++ piece) := by
  induction piece generalizing s with
  | nil => rw [absorb_nil, List.append_nil]
  | cons a piece ih =>
    rw [List.length_cons] at h
    have hone : absorbOne n compress s a = (s.1, s.2 ++ [a]) := if_neg (by omega)
    have hlen : (s.2 ++ [a]).length + piece.length < n := by
      rw [List.length_append, List.length_singleton]
      omega
    rw [absorb_cons, hone, ih hlen, List.append_assoc, List.singleton_append]

/-- The items that fill a block are compressed with those collected before. -/
theorem absorb_full {s : σ × List α} {piece : List α} (hne : piece ≠ [])
    (h : s.2.length + piece.length = n) :
    absorb n compress s piece = (compress s.1 (s.2 ++ piece), []) := by
  obtain ⟨front, a, rfl⟩ := (List.eq_nil_or_concat' piece).resolve_left hne
  rw [List.length_append, List.length_singleton] at h
  have hshort : absorb n compress s front = (s.1, s.2 ++ front) := absorb_short (by omega)
  have hlen : (s.2 ++ front).length + 1 = n := by
    rw [List.length_append]
    omega
  rw [absorb_append, hshort, absorb_cons, absorb_nil, absorbOne, if_pos hlen, List.append_assoc]

theorem blocksOf_short {m : List α} (h : m.length < n) : blocksOf n m = [] := by
  rw [blocksOf, Nat.div_eq_of_lt h, List.range_zero, List.map_nil]

/-- A full block comes off the front. -/
theorem blocksOf_block {m : List α} (hn : 0 < n) (h : n ≤ m.length) :
    blocksOf n m = m.take n :: blocksOf n (m.drop n) := by
  have hcount : m.length / n = (m.drop n).length / n + 1 := by
    rw [List.length_drop, Nat.div_eq_sub_div hn h]
  rw [blocksOf, hcount, List.range_succ_eq_map, List.map_cons, List.map_map, Nat.mul_zero,
    List.drop_zero, blocksOf]
  congr 1
  apply List.map_congr_left
  intro i _
  rw [Function.comp_apply, List.drop_drop, Nat.mul_succ, Nat.add_comm]

/-- A message taken in from nothing: its whole blocks are compressed in order, the rest is
collected. -/
theorem absorb_eq_blocks (hn : 0 < n) (s : σ) (m : List α) :
    absorb n compress (s, []) m =
      ((blocksOf n m).foldl compress s, m.drop (n * (m.length / n))) := by
  induction hlen : m.length using Nat.strongRecOn generalizing s m with
  | ind len ih =>
    subst hlen
    by_cases hshort : m.length < n
    · have hfew : absorb n compress (s, []) m = (s, [] ++ m) :=
        absorb_short (by rwa [List.length_nil, Nat.zero_add])
      rw [hfew, blocksOf_short hshort, Nat.div_eq_of_lt hshort, Nat.mul_zero, List.drop_zero]
      rfl
    · have hle : n ≤ m.length := Nat.le_of_not_lt hshort
      have htake : (m.take n).length = n := by rw [List.length_take, Nat.min_eq_left hle]
      have hne : m.take n ≠ [] := by
        rw [← List.length_pos_iff, htake]
        exact hn
      have hfirst : absorb n compress (s, []) (m.take n) = (compress s ([] ++ m.take n), []) :=
        absorb_full hne (by rw [List.length_nil, Nat.zero_add, htake])
      have hrest := ih (m.drop n).length (by rw [List.length_drop]; omega) (compress s (m.take n))
        (m.drop n) rfl
      have hcount : m.length / n = (m.length - n) / n + 1 := Nat.div_eq_sub_div hn hle
      rw [← List.take_append_drop n m, absorb_append, hfirst, List.nil_append, hrest,
        List.take_append_drop, blocksOf_block hn hle, List.foldl_cons, List.drop_drop,
        List.length_drop, hcount, Nat.mul_succ, Nat.add_comm]

/-- The number of items collected. -/
theorem length_absorbed (hn : 0 < n) (s : σ) (m : List α) :
    (absorb n compress (s, []) m).2.length = m.length % n := by
  have hdiv := Nat.div_add_mod m.length n
  rw [absorb_eq_blocks hn, List.length_drop]
  omega

end ComputerNetworks
