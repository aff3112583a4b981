import ComputerNetworks.Core.OnesComplement
import ComputerNetworks.Router.Packet

/-!
# The checksum of a buffer

`cksum` adds big-endian words in a 32-bit register, folds the carries and stores
the complement in network order. For buffers of up to 65535 bytes the register
does not wrap, so the result is determined by the one's-complement sum, and a
buffer that holds it verifies.
-/

namespace ComputerNetworks.Router

open OnesComplement

variable {Site : Type} {b : List UInt8}

/-- The high byte of a pair counts 256-fold. -/
theorem shift8_toNat (high : UInt8) : (high.toUInt32 <<< 8).toNat = high.toNat * 256 := by
  have hhigh := high.toNat_lt
  have h8 : (8 : UInt32).toNat % 32 = 8 := rfl
  rw [UInt32.toNat_shiftLeft, UInt8.toNat_toUInt32, h8, Nat.shiftLeft_eq]
  exact Nat.mod_eq_of_lt (by omega)

/-- A pair of bytes is a big-endian number. -/
theorem pair_toNat (high low : UInt8) :
    ((high.toUInt32 <<< 8) ||| low.toUInt32).toNat = high.toNat * 256 + low.toNat := by
  have hlow := low.toNat_lt
  have hor := Nat.shiftLeft_add_eq_or_of_lt hlow high.toNat
  rw [Nat.shiftLeft_eq] at hor
  rw [UInt32.toNat_or, shift8_toNat, UInt8.toNat_toUInt32]
  exact hor.symm

theorem drop_eq_byteAt_cons {off : Nat} (h : off < b.length) :
    b.drop off = byteAt b off :: b.drop (off + 1) := by
  rw [List.drop_eq_getElem_cons h, byteAt, List.getElem?_eq_getElem h, Option.getD_some]

/-- The words of two more bytes. -/
theorem bigEndianWords_take_succ {off n : Nat} (h : off + 2 * (n + 1) ≤ b.length) :
    bigEndianWords ((b.drop off).take (2 * (n + 1))) =
      ((byteAt b off).toNat * 256 + (byteAt b (off + 1)).toNat) ::
        bigEndianWords ((b.drop (off + 2)).take (2 * n)) := by
  rw [drop_eq_byteAt_cons (by omega), drop_eq_byteAt_cons (by omega)]
  rfl

/-- The loop adds its words, without wrapping as long as the largest ones fit the register. -/
theorem sumPairs_eq {n off : Nat} {sum : UInt32} (hlen : off + 2 * n ≤ b.length)
    (hroom : sum.toNat + 65535 * n < 2 ^ 32) :
    ∃ s, (sumPairs b n off sum : Exec Site UInt32) = .ok s ∧
      s.toNat = sum.toNat + (bigEndianWords ((b.drop off).take (2 * n))).sum := by
  induction n generalizing off sum with
  | zero => exact ⟨sum, rfl, rfl⟩
  | succ n ih =>
    have hhigh := (byteAt b off).toNat_lt
    have hlow := (byteAt b (off + 1)).toNat_lt
    have hload : (load8 b off : Exec Site UInt8) = .ok (byteAt b off) := loadField_of_le (by omega)
    have hload' : (load8 b (off + 1) : Exec Site UInt8) = .ok (byteAt b (off + 1)) :=
      loadField_of_le (by omega)
    have hadd : (sum + (((byteAt b off).toUInt32 <<< 8) ||| (byteAt b (off + 1)).toUInt32)).toNat =
        sum.toNat + ((byteAt b off).toNat * 256 + (byteAt b (off + 1)).toNat) := by
      rw [UInt32.toNat_add, pair_toNat]
      exact Nat.mod_eq_of_lt (by omega)
    obtain ⟨s, hrun, hs⟩ := @ih (off + 2)
      (sum + (((byteAt b off).toUInt32 <<< 8) ||| (byteAt b (off + 1)).toUInt32)) (by omega)
      (by rw [hadd]; omega)
    refine ⟨s, ?_, ?_⟩
    · simp only [sumPairs, hload, hload', Exec.ok_bind, hrun]
    · rw [hs, hadd, bigEndianWords_take_succ hlen, List.sum_cons, Nat.add_assoc]

/-- The words of the bytes without an odd last one, and that one. -/
theorem sum_bigEndianWords_take {off len : Nat} (h : off + len ≤ b.length) :
    (bigEndianWords ((b.drop off).take len)).sum =
      (bigEndianWords ((b.drop off).take (2 * (len / 2)))).sum +
        if len % 2 = 1 then (byteAt b (off + len - 1)).toNat * 256 else 0 := by
  by_cases hodd : len % 2 = 1
  · obtain ⟨n, rfl⟩ : ∃ n, len = 2 * n + 1 := ⟨len / 2, by omega⟩
    have hn : (2 * n + 1) / 2 = n := by omega
    have hwhole : ((b.drop off).take (2 * n)).length % 2 = 0 := by
      rw [List.length_take, List.length_drop]
      omega
    have hlast : ((b.drop off)[2 * n]?).toList = [byteAt b (off + (2 * n + 1) - 1)] := by
      rw [List.getElem?_drop, byteAt, ← Nat.add_assoc, Nat.add_sub_cancel,
        List.getElem?_eq_getElem (by omega)]
      rfl
    rw [if_pos hodd, hn, List.take_add_one, hlast, bigEndianWords_append hwhole, List.sum_append,
      bigEndianWords, List.sum_singleton]
  · rw [if_neg hodd, Nat.add_zero, Nat.mul_div_cancel' (by omega)]

/-- The odd last byte is added as the high one of a word. -/
theorem sumLast_eq {off len : Nat} {sum : UInt32} (hlen : off + len ≤ b.length)
    (hroom : sum.toNat + 65280 < 2 ^ 32) :
    ∃ s, (sumLast b off len sum : Exec Site UInt32) = .ok s ∧
      s.toNat = sum.toNat +
        if len % 2 = 1 then (byteAt b (off + len - 1)).toNat * 256 else 0 := by
  unfold sumLast
  by_cases hodd : len % 2 = 1
  · have hlast := (byteAt b (off + len - 1)).toNat_lt
    have hload : (load8 b (off + len - 1) : Exec Site UInt8) = .ok (byteAt b (off + len - 1)) :=
      loadField_of_le (by omega)
    rw [if_pos hodd, if_pos hodd, hload, Exec.ok_bind]
    refine ⟨_, rfl, ?_⟩
    rw [UInt32.toNat_add, shift8_toNat]
    exact Nat.mod_eq_of_lt (by omega)
  · rw [if_neg hodd, if_neg hodd]
    exact ⟨sum, rfl, rfl⟩

/-- Fewer than 65536 bytes are summed without wrapping. -/
theorem accumulate_exact {off len : Nat} (hlen : off + len ≤ b.length) (hsmall : len ≤ 65535) :
    ∃ s s', (sumPairs b (len / 2) off 0 : Exec Site UInt32) = .ok s ∧
      (sumLast b off len s : Exec Site UInt32) = .ok s' ∧
      s'.toNat = (bigEndianWords ((b.drop off).take len)).sum := by
  have hzero : (0 : UInt32).toNat = 0 := rfl
  obtain ⟨s, hpairs, hs⟩ := @sumPairs_eq Site b (len / 2) off 0 (by omega) (by omega)
  have hle := sum_bigEndianWords_le ((b.drop off).take (2 * (len / 2)))
  rw [List.length_take] at hle
  obtain ⟨s', hlast, hs'⟩ := @sumLast_eq Site b off len s hlen (by omega)
  refine ⟨s, s', hpairs, hlast, ?_⟩
  rw [hs', hs, hzero, Nat.zero_add, sum_bigEndianWords_take hlen]

/-- A sum of 16 bits has no carry to fold. -/
theorem foldCarries_small {fuel : Nat} {sum : UInt32} (h : sum.toNat ≤ 65535) :
    (foldCarries fuel sum : Exec Site UInt32) = .ok sum := by
  have hsmall : ¬0xffff < sum := by
    rw [UInt32.lt_iff_toNat_lt]
    exact Nat.not_lt.2 h
  unfold foldCarries
  rw [if_neg hsmall]

/-- A round adds the carries to the low half. -/
theorem foldCarries_step {fuel : Nat} {sum : UInt32} (h : 65535 < sum.toNat) :
    ∃ s, (foldCarries (fuel + 1) sum : Exec Site UInt32) = foldCarries fuel s ∧
      s.toNat = sum.toNat / 65536 + sum.toNat % 65536 := by
  have hbig : 0xffff < sum := by
    rw [UInt32.lt_iff_toNat_lt]
    exact h
  have hlt := sum.toNat_lt
  have h16 : (16 : UInt32).toNat % 32 = 16 := rfl
  have hmask : (0xffff : UInt32).toNat = 2 ^ 16 - 1 := rfl
  refine ⟨(sum >>> 16) + (sum &&& 0xffff), ?_, ?_⟩
  · rw [foldCarries, if_pos hbig]
  · rw [UInt32.toNat_add, UInt32.toNat_shiftRight, UInt32.toNat_and, h16, hmask,
      Nat.and_two_pow_sub_one_eq_mod, Nat.shiftRight_eq_div_pow]
    exact Nat.mod_eq_of_lt (by omega)

/-- The loop ends, and leaves the word that the exact sum stands for. -/
theorem foldCarries_eq (sum : UInt32) :
    ∃ s, (foldCarries 4 sum : Exec Site UInt32) = .ok s ∧ s.toNat = reduce sum.toNat := by
  have hlt := sum.toNat_lt
  by_cases h : sum.toNat ≤ 65535
  · refine ⟨sum, foldCarries_small h, ?_⟩
    apply eq_reduce h Iff.rfl rfl
  · obtain ⟨s₁, hrun₁, hs₁⟩ := @foldCarries_step Site 3 sum (by omega)
    by_cases h₁ : s₁.toNat ≤ 65535
    · refine ⟨s₁, hrun₁.trans (foldCarries_small h₁), ?_⟩
      apply eq_reduce h₁ <;> omega
    · -- the carry of the first round leaves a sum of at most 131070
      obtain ⟨s₂, hrun₂, hs₂⟩ := @foldCarries_step Site 2 s₁ (by omega)
      have h₂ : s₂.toNat ≤ 65535 := by omega
      refine ⟨s₂, hrun₁.trans (hrun₂.trans (foldCarries_small h₂)), ?_⟩
      apply eq_reduce h₂ <;> omega

/-- `htons` swaps the two bytes. -/
theorem htons_toNat (v : UInt16) : (htons v).toNat = swap v.toNat := by
  have hlt := v.toNat_lt
  have h8 : (8 : UInt16).toNat % 16 = 8 := rfl
  have hhigh : (v >>> 8).toNat = v.toNat / 256 := by
    rw [UInt16.toNat_shiftRight, h8, Nat.shiftRight_eq_div_pow]
  have hlow : (v <<< 8).toNat = v.toNat % 256 * 256 := by
    rw [UInt16.toNat_shiftLeft, h8, Nat.shiftLeft_eq]
    omega
  have hor := Nat.shiftLeft_add_eq_or_of_lt (show v.toNat / 256 < 2 ^ 8 by omega) (v.toNat % 256)
  rw [Nat.shiftLeft_eq] at hor
  rw [htons, UInt16.toNat_or, hhigh, hlow]
  exact hor.symm

/-- What is stored for a sum: its complement, of whose two zeros the code never takes 0. -/
def complement (sum : Nat) : Nat := if sum = 65535 then 65535 else 65535 - sum

theorem complement_le (sum : Nat) : complement sum ≤ 65535 := by
  unfold complement
  split <;> omega

/-- The result is, in network order, the complement of the sum of the words. -/
theorem cksum_eq {off len : Nat} (hlen : off + len ≤ b.length) (hsmall : len ≤ 65535) :
    ∃ v, (cksum b off len : Exec Site UInt16) = .ok v ∧ v ≠ 0 ∧
      v.toNat = swap (complement (sum (bigEndianWords ((b.drop off).take len)))) := by
  obtain ⟨s, s', hpairs, hlast, hs'⟩ := @accumulate_exact Site b off len hlen hsmall
  obtain ⟨r, hfold, hr⟩ := @foldCarries_eq Site s'
  rw [hs', ← sum_eq_reduce (bigEndianWords_le _)] at hr
  have hle : r.toNat ≤ 65535 := by
    rw [hr, sum_eq_reduce (bigEndianWords_le _)]
    exact reduce_le _
  have hnot : (~~~r).toUInt16.toNat = 65535 - r.toNat := by
    rw [UInt32.toNat_toUInt16, UInt32.toNat_not]
    have hsize : UInt32.size = 2 ^ 32 := rfl
    omega
  have hval : (htons (~~~r).toUInt16).toNat = swap (65535 - r.toNat) := by rw [htons_toNat, hnot]
  have hzero : htons (~~~r).toUInt16 = 0 ↔ r.toNat = 65535 := by
    rw [← UInt16.toNat_inj, hval, UInt16.toNat_zero, swap]
    omega
  have hrun : (cksum b off len : Exec Site UInt16) = .ok
      (if htons (~~~r).toUInt16 = 0 then 0xffff else htons (~~~r).toUInt16) := by
    simp only [cksum, hpairs, hlast, hfold, Exec.ok_bind, Exec.pure_eq_ok]
  rw [← hr, complement]
  by_cases hfull : r.toNat = 65535
  · rw [if_pos (hzero.2 hfull)] at hrun
    refine ⟨_, hrun, by decide, ?_⟩
    rw [if_pos hfull]
    rfl
  · rw [if_neg (fun h => hfull (hzero.1 h))] at hrun
    refine ⟨_, hrun, fun h => hfull (hzero.1 h), ?_⟩
    rw [if_neg hfull, hval]

theorem swap_swap {w : Nat} (hw : w ≤ 65535) : swap (swap w) = w := by
  unfold swap
  omega

/-- A sum and its complement make up all ones. -/
theorem reduce_add_complement (n : Nat) : reduce (n + complement (reduce n)) = 65535 := by
  unfold complement reduce
  split <;> split <;> split <;> omega

/-- The words around an aligned field. -/
theorem bigEndianWords_field {pre post : List UInt8} (hpre : pre.length % 2 = 0)
    (high low : UInt8) :
    (bigEndianWords (pre ++ high :: low :: post)).sum =
      (bigEndianWords pre).sum + (high.toNat * 256 + low.toNat) + (bigEndianWords post).sum := by
  rw [bigEndianWords_append hpre, List.sum_append, bigEndianWords, List.sum_cons]
  omega

/-- Both bytes of a zero halfword are zero. -/
theorem byteAt_eq_zero_of_word16 {i : Nat} (h : word16 b i = 0) :
    byteAt b i = 0 ∧ byteAt b (i + 1) = 0 := by
  have hval := word16_toNat b i
  rw [h, UInt16.toNat_zero] at hval
  constructor
  · apply UInt8.toNat_inj.1
    rw [UInt8.toNat_zero]
    omega
  · apply UInt8.toNat_inj.1
    rw [UInt8.toNat_zero]
    omega

/-- A stored word reads in the other byte order. -/
theorem stored_word (v : UInt16) :
    v.toUInt8.toNat * 256 + (v >>> 8).toUInt8.toNat = swap v.toNat := by
  have hlt := v.toNat_lt
  have h8 : (8 : UInt16).toNat % 16 = 8 := rfl
  rw [UInt16.toNat_toUInt8, UInt16.toNat_toUInt8, UInt16.toNat_shiftRight, h8,
    Nat.shiftRight_eq_div_pow, swap]
  omega

/-- The complement, stored where zeros stood, makes the sum all ones. -/
theorem store16_complement {i : Nat} (haligned : i % 2 = 0) (hfield : i + 2 ≤ b.length)
    (hzero : word16 b i = 0) {v : UInt16}
    (hv : v.toNat = swap (complement (sum (bigEndianWords b)))) :
    ∃ b', (store16 b i v : Exec Site (List UInt8)) = .ok b' ∧ b'.length = b.length ∧
      sum (bigEndianWords b') = 65535 := by
  obtain ⟨hhigh, hlow⟩ := byteAt_eq_zero_of_word16 hzero
  have hpre : (b.take i).length % 2 = 0 := by
    rw [List.length_take, Nat.min_eq_left (by omega)]
    exact haligned
  have hsplit : b.take i ++ 0 :: 0 :: b.drop (i + 2) = b := by
    have hdrop : b.drop i = 0 :: 0 :: b.drop (i + 2) := by
      rw [drop_eq_byteAt_cons (by omega), drop_eq_byteAt_cons (by omega), hhigh, hlow]
    rw [← hdrop, List.take_append_drop]
  have hsum := @bigEndianWords_field (b.take i) (b.drop (i + 2)) hpre 0 0
  rw [hsplit] at hsum
  have hstore : (store16 b i v : Exec Site (List UInt8)) =
      .ok (b.take i ++ [v.toUInt8, (v >>> 8).toUInt8] ++ b.drop (i + 2)) := if_pos hfield
  refine ⟨_, hstore, memcpyAt_length hstore, ?_⟩
  rw [List.append_assoc, sum_eq_reduce (bigEndianWords_le _)]
  have hword : v.toUInt8.toNat * 256 + (v >>> 8).toUInt8.toNat =
      complement (reduce (bigEndianWords b).sum) := by
    rw [stored_word, hv, swap_swap (complement_le _), sum_eq_reduce (bigEndianWords_le _)]
  have hsum' : (bigEndianWords (b.take i ++
      ([v.toUInt8, (v >>> 8).toUInt8] ++ b.drop (i + 2)))).sum =
      (bigEndianWords b).sum + complement (reduce (bigEndianWords b).sum) := by
    have hfieldSum := @bigEndianWords_field (b.take i) (b.drop (i + 2)) hpre v.toUInt8
      (v >>> 8).toUInt8
    rw [hword] at hfieldSum
    rw [List.cons_append, List.cons_append, List.nil_append, hfieldSum, hsum]
    simp only [UInt8.toNat_zero]
    omega
  rw [hsum', reduce_add_complement]

/-- A buffer that holds its checksum has the checksum of all ones. -/
theorem cksum_of_verifies (hlen : b.length ≤ 65535) (hsum : sum (bigEndianWords b) = 65535) :
    (cksum b 0 b.length : Exec Site UInt16) = .ok 0xffff := by
  obtain ⟨v, hrun, -, hv⟩ := @cksum_eq Site b 0 b.length (Nat.zero_add _).le hlen
  rw [List.drop_zero, List.take_length, hsum] at hv
  have hones : v = 0xffff := UInt16.toNat_inj.1 hv
  rw [hrun, hones]

/-- For a buffer with an aligned field of zeros, the checksum is not zero, and stored in the field
it makes the sum of the words all ones, so that the checksum of the new buffer is all ones; no
addition on the way wraps, and the folding ends. -/
theorem cksum_sets {i : Nat} (hlen : b.length ≤ 65535) (haligned : i % 2 = 0)
    (hfield : i + 2 ≤ b.length) (hzero : word16 b i = 0) :
    (∃ v b', (cksum b 0 b.length : Exec Site UInt16) = .ok v ∧ v ≠ 0 ∧
      (store16 b i v : Exec Site (List UInt8)) = .ok b' ∧ b'.length = b.length ∧
      sum (bigEndianWords b') = 65535 ∧
      (cksum b' 0 b'.length : Exec Site UInt16) = .ok 0xffff) ∧
    (∀ n ≤ b.length / 2, ∃ s, (sumPairs b n 0 0 : Exec Site UInt32) = .ok s ∧
      s.toNat = (bigEndianWords (b.take (2 * n))).sum) ∧
    ∃ s s' r, (sumPairs b (b.length / 2) 0 0 : Exec Site UInt32) = .ok s ∧
      (sumLast b 0 b.length s : Exec Site UInt32) = .ok s' ∧
      s'.toNat = (bigEndianWords b).sum ∧ (foldCarries 4 s' : Exec Site UInt32) = .ok r ∧
      r.toNat = sum (bigEndianWords b) := by
  refine ⟨?_, fun n hn => ?_, ?_⟩
  · obtain ⟨v, hrun, hne, hv⟩ := @cksum_eq Site b 0 b.length (Nat.zero_add _).le hlen
    rw [List.drop_zero, List.take_length] at hv
    obtain ⟨b', hstore, hlen', hsum⟩ := @store16_complement Site b i haligned hfield hzero v hv
    exact ⟨v, b', hrun, hne, hstore, hlen', hsum, cksum_of_verifies (hlen'.trans_le hlen) hsum⟩
  · have hstart : (0 : UInt32).toNat = 0 := rfl
    obtain ⟨s, hrun, hs⟩ := @sumPairs_eq Site b n 0 0 (by omega) (by omega)
    rw [hstart, Nat.zero_add, List.drop_zero] at hs
    exact ⟨s, hrun, hs⟩
  · obtain ⟨s, s', hpairs, hlast, hs'⟩ :=
      @accumulate_exact Site b 0 b.length (Nat.zero_add _).le hlen
    obtain ⟨r, hfold, hr⟩ := @foldCarries_eq Site s'
    rw [List.drop_zero, List.take_length] at hs'
    refine ⟨s, s', r, hpairs, hlast, hs', hfold, ?_⟩
    rw [hr, hs', sum_eq_reduce (bigEndianWords_le _)]

/-- Five bytes with a field at the second word. -/
def fiveBytes : List UInt8 := [0x45, 7, 0, 0, 0xba]

theorem cksum_sets_fiveBytes :
    (∃ v b', (cksum fiveBytes 0 fiveBytes.length : Exec Empty UInt16) = .ok v ∧ v ≠ 0 ∧
      (store16 fiveBytes 2 v : Exec Empty (List UInt8)) = .ok b' ∧
      b'.length = fiveBytes.length ∧ sum (bigEndianWords b') = 65535 ∧
      (cksum b' 0 b'.length : Exec Empty UInt16) = .ok 0xffff) ∧
    (∀ n ≤ fiveBytes.length / 2, ∃ s, (sumPairs fiveBytes n 0 0 : Exec Empty UInt32) = .ok s ∧
      s.toNat = (bigEndianWords (fiveBytes.take (2 * n))).sum) ∧
    ∃ s s' r, (sumPairs fiveBytes (fiveBytes.length / 2) 0 0 : Exec Empty UInt32) = .ok s ∧
      (sumLast fiveBytes 0 fiveBytes.length s : Exec Empty UInt32) = .ok s' ∧
      s'.toNat = (bigEndianWords fiveBytes).sum ∧ (foldCarries 4 s' : Exec Empty UInt32) = .ok r ∧
      r.toNat = sum (bigEndianWords fiveBytes) :=
  cksum_sets (by decide) rfl (by decide) (by decide)

end ComputerNetworks.Router
