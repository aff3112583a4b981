import ComputerNetworks.Router.Checksum
import ComputerNetworks.Router.Sha1
import Mathlib.Tactic.FinCases

/-!
# The digest is the standard's

What the functions of `sha1.c` do to a context, in terms of the standard: a block
that is processed is compressed into the digest, an octet that is put into the block
is collected, and the padding completes the message the context stands for.
-/

namespace ComputerNetworks.Router

open SecureHash

variable {Site : Type}

@[simp] theorem and_mask (x : UInt32) : x &&& 0xFFFFFFFF = x := by
  apply UInt32.toBitVec_inj.1
  rw [UInt32.toBitVec_and]
  exact BitVec.and_allOnes

/-- The circular shift is the rotation of the standard. -/
theorem sha1CircularShift_eq {n : Nat} (hpos : 0 < n) (hlt : n < 32) (x : UInt32) :
    sha1CircularShift (UInt32.ofNat n) x = rotl n x := by
  have hn : (UInt32.ofNat n).toNat = n := UInt32.toNat_ofNat_of_lt' (hlt.trans (by decide))
  have hsub : (32 - UInt32.ofNat n).toNat = 32 - n := by
    rw [UInt32.toNat_sub_of_le _ _ (by rw [UInt32.le_iff_toNat_le, hn]; exact hlt.le), hn]
    rfl
  have hrot : (rotl n x).toNat = (x.toBitVec.rotateLeft n).toNat := rfl
  apply UInt32.toNat_inj.1
  rw [sha1CircularShift, and_mask, UInt32.toNat_or, UInt32.toNat_shiftLeft, UInt32.toNat_shiftRight,
    hn, hsub, hrot, BitVec.toNat_rotateLeft, Nat.mod_eq_of_lt hlt,
    Nat.mod_eq_of_lt (show 32 - n < 32 by omega)]
  rfl

theorem mul_or {k y : Nat} (x : Nat) (h : y < 2 ^ k) : x * 2 ^ k ||| y = x * 2 ^ k + y := by
  rw [← Nat.shiftLeft_eq, Nat.shiftLeft_add_eq_or_of_lt h]

/-- A byte is shifted within its word without loss. -/
theorem shiftOctet_toNat (b : UInt8) {k : UInt32} (h : k.toNat ≤ 24) :
    (b.toUInt32 <<< k).toNat = b.toNat * 2 ^ k.toNat := by
  have hb := b.toNat_lt
  have hpow : 2 ^ k.toNat ≤ 2 ^ 24 := Nat.pow_le_pow_right (by decide) h
  have hlt : b.toNat * 2 ^ k.toNat < 2 ^ 32 :=
    (Nat.mul_le_mul_left _ hpow).trans_lt (by omega)
  rw [UInt32.toNat_shiftLeft, UInt8.toNat_toUInt32, Nat.mod_eq_of_lt (show k.toNat < 32 by omega),
    Nat.shiftLeft_eq, Nat.mod_eq_of_lt hlt]

/-- Four octets shifted into their places are the number they stand for. -/
theorem shiftOctets (b0 b1 b2 b3 : UInt8) :
    (b0.toUInt32 <<< 24) ||| (b1.toUInt32 <<< 16) ||| (b2.toUInt32 <<< 8) ||| b3.toUInt32 =
      UInt32.ofNat (ofBigEndian [b0, b1, b2, b3]) := by
  have h0 := b0.toNat_lt
  have h1 := b1.toNat_lt
  have h2 := b2.toNat_lt
  have h3 := b3.toNat_lt
  have hval : ofBigEndian [b0, b1, b2, b3] =
      ((b0.toNat * 256 + b1.toNat) * 256 + b2.toNat) * 256 + b3.toNat := by
    simp [ofBigEndian]
  have s0 : (b0.toUInt32 <<< 24).toNat = b0.toNat * 2 ^ 24 := shiftOctet_toNat b0 (by decide)
  have s1 : (b1.toUInt32 <<< 16).toNat = b1.toNat * 2 ^ 16 := shiftOctet_toNat b1 (by decide)
  have s2 : (b2.toUInt32 <<< 8).toNat = b2.toNat * 2 ^ 8 := shiftOctet_toNat b2 (by decide)
  have or1 : b0.toNat * 2 ^ 24 ||| b1.toNat * 2 ^ 16 = (b0.toNat * 256 + b1.toNat) * 2 ^ 16 := by
    rw [mul_or _ (by omega)]
    omega
  have or2 : (b0.toNat * 256 + b1.toNat) * 2 ^ 16 ||| b2.toNat * 2 ^ 8 =
      ((b0.toNat * 256 + b1.toNat) * 256 + b2.toNat) * 2 ^ 8 := by
    rw [mul_or _ (by omega)]
    omega
  apply UInt32.toNat_inj.1
  have hlt : ofBigEndian [b0, b1, b2, b3] < 2 ^ 32 := by omega
  rw [UInt32.toNat_ofNat_of_lt' hlt, hval, UInt32.toNat_or, UInt32.toNat_or, UInt32.toNat_or, s0,
    s1, s2, UInt8.toNat_toUInt32, or1, or2, mul_or _ h3]
  rfl

/-- The word sequence is read inside its 80 words. -/
theorem readW_range {f : Nat → UInt32} {n t : Nat} (h : t < n) :
    (readW ((List.range n).map f) t : Exec Site UInt32) = .ok (f t) := by
  rw [readW, List.getElem?_map, List.getElem?_range h]
  rfl

/-- The word at an index is made of four octets. -/
theorem blockWord_eq {block : List UInt8} {t : Nat} (h : t * 4 + 4 ≤ block.length) :
    blockWord block t = UInt32.ofNat (ofBigEndian [byteAt block (t * 4), byteAt block (t * 4 + 1),
      byteAt block (t * 4 + 2), byteAt block (t * 4 + 3)]) := by
  have htake : (block.drop (4 * t)).take 4 = [byteAt block (t * 4), byteAt block (t * 4 + 1),
      byteAt block (t * 4 + 2), byteAt block (t * 4 + 3)] := by
    rw [Nat.mul_comm, drop_eq_byteAt_cons (by omega), drop_eq_byteAt_cons (by omega),
      drop_eq_byteAt_cons (by omega), drop_eq_byteAt_cons (by omega)]
    rfl
  rw [blockWord, htake]

/-- The first loop assigns the words of the block. -/
theorem firstWords_eq {block : List UInt8} (hblock : block.length = 64) {n k : Nat}
    (h : k + n ≤ 16) :
    (firstWords block n ((List.range k).map (wordSequence block)) : Exec Site (List UInt32)) =
      .ok ((List.range (k + n)).map (wordSequence block)) := by
  induction n generalizing k with
  | zero => rfl
  | succ n ih =>
    have hload : ∀ i, i < 64 → (load8 block i : Exec Site UInt8) = .ok (byteAt block i) :=
      fun i hi => loadField_of_le (by omega)
    have hword : (List.range k).map (wordSequence block) ++ [wordSequence block k] =
        (List.range (k + 1)).map (wordSequence block) := by
      rw [List.range_succ, List.map_append]
      rfl
    rw [firstWords, List.length_map, List.length_range, hload _ (by omega), hload _ (by omega),
      hload _ (by omega), hload _ (by omega)]
    simp only [Exec.ok_bind]
    rw [shiftOctets, ← blockWord_eq (by omega), ← wordSequence_low (by omega), hword,
      ih (by omega), Nat.add_right_comm, Nat.add_assoc]

/-- The second loop assigns the others. -/
theorem laterWords_eq (block : List UInt8) {n k : Nat} (h : 16 ≤ k) :
    (laterWords n ((List.range k).map (wordSequence block)) : Exec Site (List UInt32)) =
      .ok ((List.range (k + n)).map (wordSequence block)) := by
  induction n generalizing k with
  | zero => rfl
  | succ n ih =>
    have hword : (List.range k).map (wordSequence block) ++ [wordSequence block k] =
        (List.range (k + 1)).map (wordSequence block) := by
      rw [List.range_succ, List.map_append]
      rfl
    rw [laterWords, List.length_map, List.length_range, readW_range (by omega),
      readW_range (by omega), readW_range (by omega), readW_range (by omega)]
    simp only [Exec.ok_bind]
    rw [show (1 : UInt32) = UInt32.ofNat 1 from rfl, sha1CircularShift_eq (by decide) (by decide),
      ← wordSequence_high h, hword, ih (by omega), Nat.add_right_comm, Nat.add_assoc]

/-- The word buffers that hold the five words. -/
def buffers (v : Fin 5 → UInt32) : WordBuffers := ⟨v 0, v 1, v 2, v 3, v 4⟩

/-- A loop with the function and the constant of its rounds makes the steps of the standard. -/
theorem roundLoop_eq {block : List UInt8} {f : UInt32 → UInt32 → UInt32 → UInt32} {k : UInt32}
    {n t : Nat} (v : Fin 5 → UInt32) (ht : t + n ≤ 80)
    (hf : ∀ i, t ≤ i → i < t + n → roundFunction i = f ∧ roundConstant i = k) :
    (roundLoop ((List.range 80).map (wordSequence block)) f k n t (buffers v) :
      Exec Site WordBuffers) = .ok (buffers ((List.range' t n).foldl (hashStep block) v)) := by
  induction n generalizing t v with
  | zero => rfl
  | succ n ih =>
    obtain ⟨hfun, hconst⟩ := hf t (Nat.le_refl t) (by omega)
    have h5 : sha1CircularShift 5 (v 0) = rotl 5 (v 0) :=
      sha1CircularShift_eq (n := 5) (by decide) (by decide) _
    have h30 : sha1CircularShift 30 (v 1) = rotl 30 (v 1) :=
      sha1CircularShift_eq (n := 30) (by decide) (by decide) _
    have hstep : (⟨rotl 5 (v 0) + f (v 1) (v 2) (v 3) + v 4 + wordSequence block t + k, v 0,
        rotl 30 (v 1), v 2, v 3⟩ : WordBuffers) = buffers (hashStep block v t) := by
      rw [hashStep, hfun, hconst]
      rfl
    rw [roundLoop, readW_range (by omega), Exec.ok_bind, List.range'_succ, List.foldl_cons]
    simp only [buffers, and_mask, h5, h30]
    exact (congrArg _ hstep).trans (ih (hashStep block v t) (by omega) fun i hlow hhigh =>
      hf i (by omega) (by omega))

/-- The steps of the standard, loop by loop. -/
theorem range_loops : List.range 80 =
    List.range' 0 20 ++ (List.range' 20 20 ++ (List.range' 40 20 ++ List.range' 60 20)) := by
  have h40 : List.range' 0 20 ++ List.range' 20 20 = List.range' 0 40 :=
    List.range'_append_1 (s := 0)
  have h60 : List.range' 0 40 ++ List.range' 40 20 = List.range' 0 60 :=
    List.range'_append_1 (s := 0)
  have h80 : List.range' 0 60 ++ List.range' 60 20 = List.range' 0 80 :=
    List.range'_append_1 (s := 0)
  rw [← List.append_assoc, ← List.append_assoc, h40, h60, h80, List.range_eq_range']

section Loops

variable (block : List UInt8) (v : Fin 5 → UInt32)

/-- The first loop is rounds 0 to 19. -/
theorem firstLoop_eq :
    (roundLoop ((List.range 80).map (wordSequence block))
      (fun b c d => (b &&& c) ||| (~~~b &&& d)) 0x5A827999 20 0 (buffers v) :
      Exec Site WordBuffers) =
      .ok (buffers ((List.range' 0 20).foldl (hashStep block) v)) := by
  refine roundLoop_eq v (by decide) fun i _ hhigh => ⟨?_, ?_⟩
  · funext b c d
    rw [roundFunction, if_pos (by omega)]
  · rw [roundConstant, if_pos (by omega)]

/-- The second loop is rounds 20 to 39. -/
theorem secondLoop_eq :
    (roundLoop ((List.range 80).map (wordSequence block))
      (fun b c d => b ^^^ c ^^^ d) 0x6ED9EBA1 20 20 (buffers v) : Exec Site WordBuffers) =
      .ok (buffers ((List.range' 20 20).foldl (hashStep block) v)) := by
  refine roundLoop_eq v (by decide) fun i hlow hhigh => ⟨?_, ?_⟩
  · funext b c d
    rw [roundFunction, if_neg (by omega), if_pos (by omega)]
  · rw [roundConstant, if_neg (by omega), if_pos (by omega)]

/-- The third loop is rounds 40 to 59. -/
theorem thirdLoop_eq :
    (roundLoop ((List.range 80).map (wordSequence block))
      (fun b c d => (b &&& c) ||| (b &&& d) ||| (c &&& d)) 0x8F1BBCDC 20 40 (buffers v) :
      Exec Site WordBuffers) =
      .ok (buffers ((List.range' 40 20).foldl (hashStep block) v)) := by
  refine roundLoop_eq v (by decide) fun i hlow hhigh => ⟨?_, ?_⟩
  · funext b c d
    rw [roundFunction, if_neg (by omega), if_neg (by omega), if_pos (by omega)]
  · rw [roundConstant, if_neg (by omega), if_neg (by omega), if_pos (by omega)]

/-- The fourth loop is rounds 60 to 79. -/
theorem fourthLoop_eq :
    (roundLoop ((List.range 80).map (wordSequence block))
      (fun b c d => b ^^^ c ^^^ d) 0xCA62C1D6 20 60 (buffers v) : Exec Site WordBuffers) =
      .ok (buffers ((List.range' 60 20).foldl (hashStep block) v)) := by
  refine roundLoop_eq v (by decide) fun i hlow _ => ⟨?_, ?_⟩
  · funext b c d
    rw [roundFunction, if_neg (by omega), if_neg (by omega), if_neg (by omega)]
  · rw [roundConstant, if_neg (by omega), if_neg (by omega), if_neg (by omega)]

end Loops

/-- A whole block is compressed into the digest. -/
theorem sha1ProcessMessageBlock_eq (context : Sha1Context) :
    (sha1ProcessMessageBlock context : Exec Site Sha1Context) = .ok { context with
      messageDigest := compress context.messageDigest context.messageBlock
      messageBlockIndex := 0 } := by
  have hfirst : (firstWords context.messageBlock 16 [] : Exec Site (List UInt32)) =
      .ok ((List.range 16).map (wordSequence context.messageBlock)) :=
    firstWords_eq (k := 0) context.messageBlock_length (by decide)
  have hlater : (laterWords 64 ((List.range 16).map (wordSequence context.messageBlock)) :
      Exec Site (List UInt32)) = .ok ((List.range 80).map (wordSequence context.messageBlock)) :=
    laterWords_eq context.messageBlock (by decide)
  have hsum : ∀ h v : Fin 5 → UInt32, ![h 0 + v 0, h 1 + v 1, h 2 + v 2, h 3 + v 3, h 4 + v 4] =
      fun i => h i + v i := fun h v => funext fun
    | 0 => rfl
    | 1 => rfl
    | 2 => rfl
    | 3 => rfl
    | 4 => rfl
  have hstart := @firstLoop_eq Site context.messageBlock context.messageDigest
  rw [buffers] at hstart
  rw [sha1ProcessMessageBlock, hfirst, Exec.ok_bind, hlater, Exec.ok_bind]
  dsimp only
  rw [hstart, Exec.ok_bind, secondLoop_eq, Exec.ok_bind, thirdLoop_eq, Exec.ok_bind, fourthLoop_eq,
    Exec.ok_bind, ← List.foldl_append, ← List.foldl_append, ← List.foldl_append, ← range_loops]
  simp only [buffers, and_mask, hsum]
  rfl

/-- The digest of a context and the octets of the block that are not processed yet. -/
structure Sha1Context.Collects (context : Sha1Context) (s : (Fin 5 → UInt32) × List UInt8) :
    Prop where
  messageDigest : context.messageDigest = s.1
  messageBlockIndex : context.messageBlockIndex = s.2.length
  messageBlock : s.2 <+: context.messageBlock

/-- What the work on a block leaves alone: the length and the flags. -/
def Sha1Context.frame (context : Sha1Context) : UInt32 × UInt32 × Bool × Bool :=
  (context.lengthLow, context.lengthHigh, context.computed, context.corrupted)

/-- Bytes that fit in the block are written there and nowhere else. -/
theorem write_ok (Site : Type) (context : Sha1Context) (i : Nat) (octets : List UInt8)
    (h : i + octets.length ≤ 64) :
    ∃ context', (context.write i octets : Exec Site Sha1Context) = .ok context' ∧
      context'.messageBlock =
        context.messageBlock.take i ++ octets ++ context.messageBlock.drop (i + octets.length) ∧
      context'.messageDigest = context.messageDigest ∧
      context'.messageBlockIndex = context.messageBlockIndex ∧ context'.frame = context.frame := by
  have hcopy : (memcpyAt context.messageBlock i octets : Exec Site (List UInt8)) = .ok _ :=
    if_pos (by rw [context.messageBlock_length]; exact h)
  unfold Sha1Context.write
  split
  · rename_i hfault
    cases hcopy.symm.trans hfault
  · rename_i hblock
    cases hcopy.symm.trans hblock
    exact ⟨_, rfl, rfl, rfl, rfl, rfl⟩

/-- An octet put into a block that is not full is collected. -/
theorem put_ok (Site : Type) {context : Sha1Context} {digest : Fin 5 → UInt32} {octets : List UInt8}
    (h : context.Collects (digest, octets)) (hlen : octets.length < 64) (c : UInt8) :
    ∃ context', (context.put c : Exec Site Sha1Context) = .ok context' ∧
      context'.Collects (digest, octets ++ [c]) ∧ context'.frame = context.frame := by
  have hindex : context.messageBlockIndex = octets.length := h.messageBlockIndex
  obtain ⟨context', hwrite, hblock, hdigest, hindex', hframe⟩ :=
    write_ok Site context octets.length [c] hlen
  have htake : context.messageBlock.take octets.length = octets :=
    (List.prefix_iff_eq_take.1 h.messageBlock).symm
  refine ⟨{ context' with messageBlockIndex := octets.length + 1 }, ?_, ⟨?_, ?_, ?_⟩, hframe⟩
  · rw [Sha1Context.put, hindex, hwrite, Exec.ok_bind, hindex', hindex]
    rfl
  · exact hdigest.trans h.messageDigest
  · rw [List.length_append, List.length_singleton]
  · rw [hblock, htake]
    exact List.prefix_append _ _

/-- A full block is processed. -/
theorem processed (Site : Type) {context : Sha1Context} {digest : Fin 5 → UInt32}
    {octets : List UInt8}
    (h : context.Collects (digest, octets)) (hlen : octets.length = 64) :
    ∃ context', (sha1ProcessMessageBlock context : Exec Site Sha1Context) = .ok context' ∧
      context'.Collects (compress digest octets, []) ∧ context'.frame = context.frame := by
  have hblock : context.messageBlock = octets :=
    (h.messageBlock.eq_of_length (by rw [hlen, context.messageBlock_length])).symm
  refine ⟨_, sha1ProcessMessageBlock_eq context, ⟨?_, rfl, List.nil_prefix⟩, rfl⟩
  change compress context.messageDigest context.messageBlock = compress digest octets
  rw [hblock, h.messageDigest]

/-- A loop fills the block with zeros. -/
theorem fillLoop_ok (Site : Type) {limit : Nat} (hlimit : limit ≤ 64) (fuel : Nat)
    {context : Sha1Context}
    {digest : Fin 5 → UInt32} {octets : List UInt8} (h : context.Collects (digest, octets))
    (hfuel : limit ≤ octets.length + fuel) :
    ∃ context', (fillLoop limit fuel context : Exec Site Sha1Context) = .ok context' ∧
      context'.Collects (digest, octets ++ List.replicate (limit - octets.length) 0) ∧
      context'.frame = context.frame := by
  have hindex : context.messageBlockIndex = octets.length := h.messageBlockIndex
  induction fuel generalizing context octets with
  | zero =>
    rw [Nat.add_zero] at hfuel
    refine ⟨context, if_neg (by omega), ?_, rfl⟩
    rw [Nat.sub_eq_zero_of_le hfuel, List.replicate_zero, List.append_nil]
    exact h
  | succ fuel ih =>
    by_cases hmore : octets.length < limit
    · obtain ⟨context₁, hput, h₁, hframe₁⟩ := put_ok Site h (hmore.trans_le hlimit) 0
      have hlen : (octets ++ [0]).length = octets.length + 1 := by
        rw [List.length_append, List.length_singleton]
      obtain ⟨context', hfill, h', hframe⟩ := ih h₁ (by omega) h₁.messageBlockIndex
      have hcount : limit - octets.length = limit - (octets ++ [0]).length + 1 := by omega
      refine ⟨context', ?_, ?_, hframe.trans hframe₁⟩
      · rw [fillLoop, if_pos (by omega), hput, Exec.ok_bind, hfill]
      · rw [hcount, List.replicate_succ, List.append_cons]
        exact h'
    · refine ⟨context, ?_, ?_, rfl⟩
      · rw [fillLoop, if_neg (by omega)]
      · rw [Nat.sub_eq_zero_of_le (Nat.le_of_not_lt hmore), List.replicate_zero, List.append_nil]
        exact h

/-- A byte of a word is a digit of its number to base 256. -/
theorem shiftedOctet (x k : UInt32) (hk : k.toNat < 32) :
    ((x >>> k) &&& 0xFF).toUInt8 = UInt8.ofNat (x.toNat / 2 ^ k.toNat) := by
  have hmask : (0xFF : UInt32).toNat = 2 ^ 8 - 1 := rfl
  apply UInt8.toNat.inj
  rw [UInt32.toNat_toUInt8, UInt32.toNat_and, UInt32.toNat_shiftRight, Nat.mod_eq_of_lt hk, hmask,
    Nat.and_two_pow_sub_one_eq_mod, Nat.mod_mod, Nat.shiftRight_eq_div_pow, UInt8.toNat_ofNat']

/-- The last octets of the message are its length. -/
theorem lengthOctets (high low : UInt32) :
    [((high >>> 24) &&& 0xFF).toUInt8, ((high >>> 16) &&& 0xFF).toUInt8,
      ((high >>> 8) &&& 0xFF).toUInt8, (high &&& 0xFF).toUInt8,
      ((low >>> 24) &&& 0xFF).toUInt8, ((low >>> 16) &&& 0xFF).toUInt8,
      ((low >>> 8) &&& 0xFF).toUInt8, (low &&& 0xFF).toUInt8] =
      bigEndian 8 (high.toNat * 2 ^ 32 + low.toNat) := by
  have hlow := low.toNat_lt
  have hzero : ∀ x : UInt32, (x &&& 0xFF).toUInt8 = UInt8.ofNat (x.toNat / 2 ^ 0) := fun x =>
    shiftedOctet x 0 (by decide)
  have hoctet : ∀ {a b : Nat}, a % 256 = b % 256 → UInt8.ofNat a = UInt8.ofNat b := fun h => by
    apply UInt8.toNat.inj
    rw [UInt8.toNat_ofNat', UInt8.toNat_ofNat']
    exact h
  have h8 : (8 : UInt32).toNat = 8 := rfl
  have h16 : (16 : UInt32).toNat = 16 := rfl
  have h24 : (24 : UInt32).toNat = 24 := rfl
  rw [shiftedOctet high 24 (by decide), shiftedOctet high 16 (by decide),
    shiftedOctet high 8 (by decide), hzero high, shiftedOctet low 24 (by decide),
    shiftedOctet low 16 (by decide), shiftedOctet low 8 (by decide), hzero low, h8, h16, h24]
  simp only [bigEndian, List.nil_append, List.cons_append, Nat.div_div_eq_div_mul]
  refine List.cons_eq_cons.2 ⟨hoctet (by omega), List.cons_eq_cons.2 ⟨hoctet (by omega),
    List.cons_eq_cons.2 ⟨hoctet (by omega), List.cons_eq_cons.2 ⟨hoctet (by omega),
    List.cons_eq_cons.2 ⟨hoctet (by omega), List.cons_eq_cons.2 ⟨hoctet (by omega),
    List.cons_eq_cons.2 ⟨hoctet (by omega), List.cons_eq_cons.2 ⟨hoctet (by omega), rfl⟩⟩⟩⟩⟩⟩⟩⟩

/-- The length is written behind fifty-six octets, and the block is processed. -/
theorem finishBlock (Site : Type) {context : Sha1Context} {digest : Fin 5 → UInt32}
    {octets : List UInt8}
    (h : context.Collects (digest, octets)) (hlen : octets.length = 56) :
    ∃ context', (do
      let high := context.lengthHigh
      let low := context.lengthLow
      let context ← context.write 56
        [((high >>> 24) &&& 0xFF).toUInt8, ((high >>> 16) &&& 0xFF).toUInt8,
          ((high >>> 8) &&& 0xFF).toUInt8, (high &&& 0xFF).toUInt8,
          ((low >>> 24) &&& 0xFF).toUInt8, ((low >>> 16) &&& 0xFF).toUInt8,
          ((low >>> 8) &&& 0xFF).toUInt8, (low &&& 0xFF).toUInt8]
      sha1ProcessMessageBlock context : Exec Site Sha1Context) = .ok context' ∧
      context'.messageDigest = compress digest
        (octets ++ bigEndian 8 (context.lengthHigh.toNat * 2 ^ 32 + context.lengthLow.toNat)) ∧
      context'.frame = context.frame := by
  have hbytes := bigEndian_length 8 (context.lengthHigh.toNat * 2 ^ 32 + context.lengthLow.toNat)
  dsimp only
  rw [lengthOctets]
  generalize bigEndian 8 (context.lengthHigh.toNat * 2 ^ 32 + context.lengthLow.toNat) = bytes at *
  obtain ⟨context₁, hwrite, hblock, hdigest, -, hframe⟩ :=
    write_ok Site context 56 bytes (by omega)
  have htake : context.messageBlock.take 56 = octets := by
    rw [← hlen]
    exact (List.prefix_iff_eq_take.1 h.messageBlock).symm
  have hdrop : context.messageBlock.drop (56 + bytes.length) = [] :=
    List.drop_eq_nil_of_le (by rw [context.messageBlock_length]; omega)
  rw [htake, hdrop, List.append_nil] at hblock
  refine ⟨_, (congrArg (· >>= sha1ProcessMessageBlock) hwrite).trans
    (sha1ProcessMessageBlock_eq context₁), ?_, hframe⟩
  change compress context₁.messageDigest context₁.messageBlock = _
  rw [hblock, hdigest, h.messageDigest]

/-- The context stands for a message that is being taken in. -/
structure Sha1Context.Absorbing (context : Sha1Context) (m : List UInt8) : Prop where
  collects : context.Collects (absorb 64 compress (initialValue, []) m)
  length : context.lengthHigh.toNat * 2 ^ 32 + context.lengthLow.toNat = 8 * m.length
  computed : context.computed = false
  corrupted : context.corrupted = false

theorem length_collected (m : List UInt8) :
    (absorb 64 compress (initialValue, []) m).2.length = m.length % 64 :=
  length_absorbed (by decide) initialValue m

/-- Padding that takes a second block. -/
theorem absorb_padding_long {digest : Fin 5 → UInt32} {octets : List UInt8} {len : Nat}
    (hlen : octets.length = len % 64) (hlong : 55 < octets.length) :
    absorb 64 compress (digest, octets) (padding len) =
      (compress (compress digest (octets ++ [0x80] ++
          List.replicate (64 - (octets ++ [0x80]).length) 0))
        (List.replicate 56 0 ++ bigEndian 8 (8 * len)), []) := by
  have hzeros : List.replicate ((119 - len % 64) % 64) (0 : UInt8) =
      List.replicate (64 - (octets ++ [0x80]).length) 0 ++ List.replicate 56 0 := by
    rw [List.replicate_append_replicate, List.length_append, List.length_singleton]
    congr 1
    omega
  have hfirst : padding len =
      ([0x80] ++ List.replicate (64 - (octets ++ [0x80]).length) 0) ++
        (List.replicate 56 0 ++ bigEndian 8 (8 * len)) := by
    rw [padding, hzeros, List.append_assoc, List.append_assoc]
    rfl
  have hsecond : (List.replicate 56 0 ++ bigEndian 8 (8 * len)).length = 64 := by
    rw [List.length_append, List.length_replicate, bigEndian_length]
  rw [hfirst, absorb_append,
    absorb_full (List.append_ne_nil_of_left_ne_nil (List.cons_ne_nil _ _) _),
    absorb_full, List.nil_append, List.append_assoc]
  · rw [← List.length_pos_iff, hsecond]
    decide
  · rw [List.length_nil, hsecond]
  · simp only [List.length_append, List.length_singleton, List.length_replicate]
    omega

/-- Padding that fits into the block. -/
theorem absorb_padding_short {digest : Fin 5 → UInt32} {octets : List UInt8} {len : Nat}
    (hlen : octets.length = len % 64) (hshort : octets.length ≤ 55) :
    absorb 64 compress (digest, octets) (padding len) =
      (compress digest (octets ++ [0x80] ++ List.replicate (56 - (octets ++ [0x80]).length) 0 ++
        bigEndian 8 (8 * len)), []) := by
  have hcount : (119 - len % 64) % 64 = 56 - (octets ++ [0x80]).length := by
    rw [List.length_append, List.length_singleton]
    omega
  rw [padding, hcount, absorb_full (List.cons_ne_nil _ _)]
  · simp only [List.append_assoc, List.cons_append, List.nil_append]
  · simp only [List.length_append, List.length_cons, List.length_replicate, bigEndian_length,
      List.length_nil]
    omega

/-- The padding completes the message the context stands for. -/
theorem sha1PadMessage_ok (Site : Type) {context : Sha1Context} {m : List UInt8}
    (h : context.Absorbing m) :
    ∃ context', (sha1PadMessage context : Exec Site Sha1Context) = .ok context' ∧
      context'.messageDigest = digest m ∧ context'.frame = context.frame := by
  have hlen := length_collected m
  have hdigest : absorb 64 compress (absorb 64 compress (initialValue, []) m) (padding m.length) =
      (digest m, []) := (absorb_append _ _ _).symm.trans (digest_eq_absorb m)
  have hcollects := h.collects
  generalize absorb 64 compress (initialValue, []) m = s at hlen hdigest hcollects
  obtain ⟨d, octets⟩ := s
  have hindex : context.messageBlockIndex = octets.length := hcollects.messageBlockIndex
  have hlt : octets.length < 64 := hlen.trans_lt (Nat.mod_lt _ (by decide))
  obtain ⟨context₁, hput, h₁, hframe₁⟩ := put_ok Site hcollects hlt 0x80
  have hlen₁ : (octets ++ [0x80]).length = octets.length + 1 := by
    rw [List.length_append, List.length_singleton]
  have hbits : ∀ context₂ : Sha1Context, context₂.frame = context.frame →
      context₂.lengthHigh.toNat * 2 ^ 32 + context₂.lengthLow.toNat = 8 * m.length :=
    fun context₂ hframe => by
      have hlow : context₂.lengthLow = context.lengthLow := congrArg Prod.fst hframe
      have hhigh : context₂.lengthHigh = context.lengthHigh := congrArg (·.2.1) hframe
      rw [hlow, hhigh, h.length]
  rw [sha1PadMessage, hindex]
  by_cases hlong : 55 < octets.length
  · obtain ⟨context₂, hfill, h₂, hframe₂⟩ := fillLoop_ok Site (by decide : 64 ≤ 64) 64 h₁
      (by omega)
    obtain ⟨context₃, hprocess, h₃, hframe₃⟩ := processed Site h₂ (by
      rw [List.length_append, List.length_replicate]
      omega)
    obtain ⟨context₄, hfill₄, h₄, hframe₄⟩ := fillLoop_ok Site (by decide : 56 ≤ 64) 64 h₃
      (by decide)
    have hframe : context₄.frame = context.frame :=
      hframe₄.trans (hframe₃.trans (hframe₂.trans hframe₁))
    obtain ⟨context', hend, hdigest', hframe'⟩ := finishBlock Site h₄
      (by rw [List.nil_append, List.length_replicate]; rfl)
    rw [hbits context₄ hframe] at hdigest'
    refine ⟨context', ?_, ?_, hframe'.trans hframe⟩
    · rw [if_pos hlong, hput, Exec.ok_bind, hfill, Exec.ok_bind, hprocess, Exec.ok_bind, hfill₄,
        Exec.ok_bind]
      exact hend
    · rw [absorb_padding_long hlen hlong] at hdigest
      exact hdigest'.trans (congrArg Prod.fst hdigest)
  · obtain ⟨context₂, hfill, h₂, hframe₂⟩ := fillLoop_ok Site (by decide : 56 ≤ 64) 64 h₁
      (by omega)
    have hframe : context₂.frame = context.frame := hframe₂.trans hframe₁
    obtain ⟨context', hend, hdigest', hframe'⟩ := finishBlock Site h₂
      (by rw [List.length_append, List.length_replicate]; omega)
    rw [hbits context₂ hframe] at hdigest'
    refine ⟨context', ?_, ?_, hframe'.trans hframe⟩
    · rw [if_neg hlong, hput, Exec.ok_bind, hfill, Exec.ok_bind]
      exact hend
    · rw [absorb_padding_short hlen (Nat.le_of_not_lt hlong)] at hdigest
      exact hdigest'.trans (congrArg Prod.fst hdigest)

end ComputerNetworks.Router
