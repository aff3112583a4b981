import Mathlib.Algebra.BigOperators.Group.List.Basic
import Mathlib.Algebra.Order.BigOperators.Group.List
import Mathlib.Algebra.Order.Group.Nat
import Mathlib.Data.Nat.ModEq

/-!
# One's-complement sums of 16-bit words

Addition with end-around carry, as Internet checksums use it. A nonzero sum is
determined by its class modulo 65535, so a sum can be accumulated in a wide
register and folded at the end, and it commutes with swapping the two bytes of
every word.
-/

namespace ComputerNetworks.OnesComplement

/-- Add two words and the carry out of the high bit. -/
def add (a b : Nat) : Nat := (a + b) % 65536 + (a + b) / 65536

/-- The one's-complement sum of a list of words. -/
def sum (ws : List Nat) : Nat := ws.foldl add 0

/-- The word an exact sum stands for: zero only for zero, else its class in `1 … 65535`. -/
def reduce (n : Nat) : Nat := if n = 0 then 0 else (n - 1) % 65535 + 1

/-- Exchange the two bytes of a word. -/
def swap (w : Nat) : Nat := w % 256 * 256 + w / 256

/-- Fold a wide sum to 16 bits and add the carry of that once more. -/
def foldTwice (n : Nat) : Nat := n / 65536 + n % 65536 + (n / 65536 + n % 65536) / 65536

theorem reduce_le (n : Nat) : reduce n ≤ 65535 := by
  unfold reduce
  split <;> omega

/-- A word in the class of `n` that vanishes with `n` is the reduction of `n`. -/
theorem eq_reduce {m n : Nat} (hm : m ≤ 65535) (hzero : m = 0 ↔ n = 0)
    (hmod : m % 65535 = n % 65535) : m = reduce n := by
  unfold reduce
  split <;> omega

theorem add_reduce {n w : Nat} (hw : w ≤ 65535) : add (reduce n) w = reduce (n + w) := by
  apply eq_reduce <;> unfold add reduce <;> split <;> omega

/-- Words may be added one by one. -/
theorem foldl_add_reduce {ws : List Nat} (hws : ∀ w ∈ ws, w ≤ 65535) (n : Nat) :
    ws.foldl add (reduce n) = reduce (n + ws.sum) := by
  induction ws generalizing n with
  | nil => rfl
  | cons w ws ih =>
    rw [List.foldl_cons, add_reduce (hws w List.mem_cons_self),
      ih (fun v hv => hws v (List.mem_cons_of_mem w hv)), List.sum_cons, Nat.add_assoc]

/-- The one's-complement sum is the reduction of the exact sum. -/
theorem sum_eq_reduce {ws : List Nat} (hws : ∀ w ∈ ws, w ≤ 65535) : sum ws = reduce ws.sum := by
  have h := foldl_add_reduce hws 0
  rwa [Nat.zero_add] at h

/-- Two folds of a 31-bit sum leave no carry behind. -/
theorem foldTwice_mod {n : Nat} (hn : n < 2 ^ 31) : foldTwice n % 65536 = reduce n := by
  have hq : n / 65536 < 32768 := by omega
  have hn' : n = 65536 * (n / 65536) + n % 65536 := (Nat.div_add_mod n 65536).symm
  have hr : n % 65536 < 65536 := Nat.mod_lt n (by omega)
  unfold foldTwice
  generalize n / 65536 = q at *
  generalize n % 65536 = r at *
  -- the second fold adds a carry only when the first one left a bit above the sixteenth
  by_cases hcarry : q + r < 65536
  · rw [Nat.div_eq_of_lt hcarry, Nat.add_zero, Nat.mod_eq_of_lt hcarry]
    apply eq_reduce <;> omega
  · have hdiv : (q + r) / 65536 = 1 := by omega
    have hmod : (q + r + 1) % 65536 = q + r - 65535 := by omega
    rw [hdiv, hmod]
    apply eq_reduce <;> omega

theorem swap_le {w : Nat} (hw : w ≤ 65535) : swap w ≤ 65535 := by
  unfold swap
  omega

/-- Swapping is multiplication by 256 on classes modulo 65535. -/
theorem swap_reduce (n : Nat) : swap (reduce n) = reduce (256 * n) := by
  have hle := reduce_le n
  apply eq_reduce (swap_le hle)
  · unfold swap reduce
    split <;> omega
  · unfold swap reduce
    split <;> omega

/-- Only the residue of a sum and its being zero count. -/
theorem reduce_congr {m n : Nat} (hzero : m = 0 ↔ n = 0) (hmod : m % 65535 = n % 65535) :
    reduce m = reduce n := by
  unfold reduce
  split <;> split <;> omega

/-- Swapping the bytes of all words multiplies the sum by 256. -/
theorem sum_map_swap_mod {ws : List Nat} (hws : ∀ w ∈ ws, w ≤ 65535) :
    (ws.map swap).sum % 65535 = 256 * ws.sum % 65535 ∧ ((ws.map swap).sum = 0 ↔ ws.sum = 0) := by
  induction ws with
  | nil => exact ⟨rfl, Iff.rfl⟩
  | cons w ws ih =>
    obtain ⟨hmod, hzero⟩ := ih fun v hv => hws v (List.mem_cons_of_mem w hv)
    have hw := hws w List.mem_cons_self
    rw [List.map_cons, List.sum_cons, List.sum_cons]
    have hswap : swap w % 65535 = 256 * w % 65535 ∧ (swap w = 0 ↔ w = 0) := by
      unfold swap
      omega
    omega

/-- The sum of byte-swapped words is the byte-swapped sum. -/
theorem sum_map_swap {ws : List Nat} (hws : ∀ w ∈ ws, w ≤ 65535) :
    sum (ws.map swap) = swap (sum ws) := by
  have hswapped : ∀ w ∈ ws.map swap, w ≤ 65535 := by
    intro w hw
    obtain ⟨v, hv, rfl⟩ := List.mem_map.1 hw
    exact swap_le (hws v hv)
  obtain ⟨hmod, hzero⟩ := sum_map_swap_mod hws
  rw [sum_eq_reduce hswapped, sum_eq_reduce hws, swap_reduce]
  exact reduce_congr (by omega) hmod

/-- Complementing commutes with swapping. -/
theorem swap_complement {w : Nat} (hw : w ≤ 65535) : swap (65535 - w) = 65535 - swap w := by
  unfold swap
  omega

/-- Pairs of bytes, the first one high; an odd last byte is padded with zero. -/
def bigEndianWords : List UInt8 → List Nat
  | [] => []
  | [a] => [a.toNat * 256]
  | a :: b :: bs => (a.toNat * 256 + b.toNat) :: bigEndianWords bs

/-- Pairs of bytes, the first one low; an odd last byte is padded with zero. -/
def littleEndianWords : List UInt8 → List Nat
  | [] => []
  | [a] => [a.toNat]
  | a :: b :: bs => (a.toNat + b.toNat * 256) :: littleEndianWords bs

theorem bigEndianWords_le (bs : List UInt8) : ∀ w ∈ bigEndianWords bs, w ≤ 65535 := by
  fun_induction bigEndianWords bs with
  | case1 => exact nofun
  | case2 a =>
    have ha := a.toNat_lt
    simp only [List.mem_singleton, forall_eq]
    omega
  | case3 a b bs ih =>
    have ha := a.toNat_lt
    have hb := b.toNat_lt
    simp only [List.mem_cons, forall_eq_or_imp]
    exact ⟨by omega, ih⟩

/-- The words of the two byte orders are those of the other, swapped. -/
theorem littleEndianWords_eq_map_swap (bs : List UInt8) :
    littleEndianWords bs = (bigEndianWords bs).map swap := by
  fun_induction bigEndianWords bs with
  | case1 => rfl
  | case2 a =>
    have ha := a.toNat_lt
    have hswap : swap (a.toNat * 256) = a.toNat := by unfold swap; omega
    simp only [littleEndianWords, List.map_cons, hswap, List.map_nil]
  | case3 a b bs ih =>
    have ha := a.toNat_lt
    have hb := b.toNat_lt
    have hswap : swap (a.toNat * 256 + b.toNat) = a.toNat + b.toNat * 256 := by unfold swap; omega
    simp only [littleEndianWords, List.map_cons, hswap, ih]

/-- Reading the words in the other byte order swaps the bytes of their sum. -/
theorem sum_littleEndianWords (bs : List UInt8) :
    sum (littleEndianWords bs) = swap (sum (bigEndianWords bs)) := by
  rw [littleEndianWords_eq_map_swap, sum_map_swap (bigEndianWords_le bs)]

theorem littleEndianWords_le (bs : List UInt8) : ∀ w ∈ littleEndianWords bs, w ≤ 65535 := by
  intro w hw
  rw [littleEndianWords_eq_map_swap] at hw
  obtain ⟨v, hv, rfl⟩ := List.mem_map.1 hw
  exact swap_le (bigEndianWords_le bs v hv)

/-- Two bytes make a word, and so does an odd one at the end. -/
theorem length_bigEndianWords (bs : List UInt8) :
    (bigEndianWords bs).length = (bs.length + 1) / 2 := by
  fun_induction bigEndianWords bs with
  | case1 => rfl
  | case2 a => exact (Nat.div_self Nat.two_pos).symm
  | case3 a b bs ih =>
    simp only [List.length_cons, ih]
    omega

/-- The exact sum needs no more room than the largest words do. -/
theorem sum_le_of_words {ws : List Nat} (h : ∀ w ∈ ws, w ≤ 65535) : ws.sum ≤ 65535 * ws.length := by
  rw [Nat.mul_comm, ← Nat.nsmul_eq_mul]
  exact List.sum_le_card_nsmul ws 65535 h

/-- The sum of the words is bounded by their number. -/
theorem sum_bigEndianWords_le (bs : List UInt8) :
    (bigEndianWords bs).sum ≤ 65535 * ((bs.length + 1) / 2) := by
  rw [← length_bigEndianWords]
  exact sum_le_of_words (bigEndianWords_le bs)

/-- The same bound holds in the other byte order. -/
theorem sum_littleEndianWords_le (bs : List UInt8) :
    (littleEndianWords bs).sum ≤ 65535 * ((bs.length + 1) / 2) := by
  have hlen : (littleEndianWords bs).length = (bs.length + 1) / 2 := by
    rw [littleEndianWords_eq_map_swap, List.length_map, length_bigEndianWords]
  rw [← hlen]
  exact sum_le_of_words (littleEndianWords_le bs)

/-- Behind an even number of bytes the words start anew. -/
theorem bigEndianWords_append {as bs : List UInt8} (h : as.length % 2 = 0) :
    bigEndianWords (as ++ bs) = bigEndianWords as ++ bigEndianWords bs := by
  fun_induction bigEndianWords as with
  | case1 => rfl
  | case2 a => simp at h
  | case3 a b as ih =>
    have has : as.length % 2 = 0 := by
      simp only [List.length_cons] at h
      omega
    simp only [List.cons_append, bigEndianWords, ih has]

/-- The `k`-th little-endian word of a byte string, zero past its end. -/
def wordAt (bs : List UInt8) (k : Nat) : Nat :=
  (bs.getD (2 * k) 0).toNat + (bs.getD (2 * k + 1) 0).toNat * 256

theorem wordAt_le (bs : List UInt8) (k : Nat) : wordAt bs k ≤ 65535 := by
  have hlo := (bs.getD (2 * k) 0).toNat_lt
  have hhi := (bs.getD (2 * k + 1) 0).toNat_lt
  unfold wordAt
  omega

/-- A word gives its two bytes. -/
theorem wordAt_eq_iff {as bs : List UInt8} {k : Nat} :
    wordAt as k = wordAt bs k ↔
      as.getD (2 * k) 0 = bs.getD (2 * k) 0 ∧ as.getD (2 * k + 1) 0 = bs.getD (2 * k + 1) 0 := by
  have hlo := (as.getD (2 * k) 0).toNat_lt
  have hlo' := (bs.getD (2 * k) 0).toNat_lt
  rw [← UInt8.toNat_inj, ← UInt8.toNat_inj, wordAt, wordAt]
  omega

/-- The words by index, with an odd last byte as the last of them. -/
theorem littleEndianWords_eq_range (bs : List UInt8) :
    littleEndianWords bs = (List.range ((bs.length + 1) / 2)).map (wordAt bs) := by
  fun_induction littleEndianWords bs with
  | case1 => rfl
  | case2 a => simp [wordAt]
  | case3 a b bs ih =>
    have hlen : ((a :: b :: bs).length + 1) / 2 = (bs.length + 1) / 2 + 1 := by
      simp only [List.length_cons]
      omega
    rw [hlen, List.range_succ_eq_map, List.map_cons, List.map_map, ih]
    rfl

/-- The exact sum of the words, read by index: the whole words, then an odd last byte. -/
theorem sum_littleEndianWords_eq_range (bs : List UInt8) :
    (littleEndianWords bs).sum = ((List.range (bs.length / 2)).map (wordAt bs)).sum +
      (if bs.length % 2 = 1 then (bs.getD (bs.length - 1) 0).toNat else 0) := by
  fun_induction littleEndianWords bs with
  | case1 => rfl
  | case2 a => simp
  | case3 a b bs ih =>
    have hlen : (a :: b :: bs).length / 2 = bs.length / 2 + 1 := by
      simp only [List.length_cons]
      omega
    have hodd : (a :: b :: bs).length % 2 = bs.length % 2 := by
      simp only [List.length_cons]
      omega
    rw [hlen, hodd, List.range_succ_eq_map, List.map_cons, List.sum_cons, List.map_map,
      List.sum_cons, ih, ← Nat.add_assoc]
    congr 1
    split
    · have hpos : 0 < bs.length := by omega
      obtain ⟨c, bs, rfl⟩ := List.exists_cons_of_length_pos hpos
      simp
    · rfl

/-- The same holds in the other byte order. -/
theorem littleEndianWords_append {as bs : List UInt8} (h : as.length % 2 = 0) :
    littleEndianWords (as ++ bs) = littleEndianWords as ++ littleEndianWords bs := by
  fun_induction littleEndianWords as with
  | case1 => rfl
  | case2 a => simp at h
  | case3 a b as ih =>
    have has : as.length % 2 = 0 := by
      simp only [List.length_cons] at h
      omega
    simp only [List.cons_append, littleEndianWords, ih has]

/-- A sum changes with its one term that changes. -/
theorem sum_map_range_change {f g : Nat → Nat} {n k : Nat} (hk : k < n)
    (hsame : ∀ j, j ≠ k → f j = g j) :
    ((List.range n).map g).sum + f k = ((List.range n).map f).sum + g k := by
  induction n with
  | zero => omega
  | succ n ih =>
    simp only [List.range_succ, List.map_append, List.map_cons, List.map_nil, List.sum_append,
      List.sum_cons, List.sum_nil]
    rcases Nat.lt_or_eq_of_le (Nat.le_of_lt_succ hk) with hlt | rfl
    · have := ih hlt
      have := hsame n (by omega)
      omega
    · have hmap : (List.range k).map g = (List.range k).map f :=
        List.map_congr_left fun j hj => (hsame j (Nat.ne_of_lt (List.mem_range.1 hj))).symm
      rw [hmap]
      omega

/-- Two byte strings that differ in one word differ in their sums by that word. -/
theorem sum_littleEndianWords_change {as bs : List UInt8} (hlen : as.length = bs.length) {k : Nat}
    (hk : k < (as.length + 1) / 2) (hsame : ∀ j, j ≠ k → wordAt as j = wordAt bs j) :
    (littleEndianWords bs).sum + wordAt as k = (littleEndianWords as).sum + wordAt bs k := by
  rw [littleEndianWords_eq_range, littleEndianWords_eq_range, ← hlen]
  exact sum_map_range_change hk hsame

/-- Two positive sums are reduced to one exactly if their residues agree. -/
theorem reduce_eq_iff {m n : Nat} (hm : 0 < m) (hn : 0 < n) :
    reduce m = reduce n ↔ m % 65535 = n % 65535 := by
  unfold reduce
  rw [if_neg (Nat.ne_of_gt hm), if_neg (Nat.ne_of_gt hn)]
  omega

/-- A change of one word escapes the sum exactly if it exchanges the two zeros. -/
theorem reduce_change_iff {m n w v : Nat} (hm : 0 < m) (hn : 0 < n) (hw : w ≤ 65535)
    (hv : v ≤ 65535) (hne : w ≠ v) (hsum : n + w = m + v) :
    reduce m = reduce n ↔ (w = 0 ∧ v = 65535) ∨ (w = 65535 ∧ v = 0) := by
  rw [reduce_eq_iff hm hn]
  omega

end ComputerNetworks.OnesComplement
