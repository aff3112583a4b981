import ComputerNetworks.Mysock.TcpSum
import Mathlib.Data.List.GetD

/-!
# What the STCP checksum detects

A packet that has been accepted is rejected after any change of one of its
aligned words, the odd last byte being one of them. One change escapes: one's
complement has two zeros, and outside `th_sum` they count the same.
-/

namespace ComputerNetworks.Mysock

open OnesComplement

/-- The two packets differ, and in the bytes of the `k`-th word only. -/
structure ChangedAt (k : Nat) (packet packet' : List UInt8) : Prop where
  length_eq : packet'.length = packet.length
  same : ∀ i, i / 2 ≠ k → packet'[i]? = packet[i]?
  differ : packet' ≠ packet

/-- The change puts one zero of one's complement for the other. -/
def SwapsZeros (w v : Nat) : Prop := (w = 0 ∧ v = 65535) ∨ (w = 65535 ∧ v = 0)

instance decidableSwapsZeros (w v : Nat) : Decidable (SwapsZeros w v) :=
  inferInstanceAs (Decidable (_ ∨ _))

namespace ChangedAt

variable {k : Nat} {packet packet' : List UInt8}

theorem getD_eq (h : ChangedAt k packet packet') {i : Nat} (hi : i / 2 ≠ k) :
    packet.getD i 0 = packet'.getD i 0 := by
  rw [List.getD_eq_getElem?_getD, List.getD_eq_getElem?_getD, h.same i hi]

theorem wordAt_eq (h : ChangedAt k packet packet') {j : Nat} (hj : j ≠ k) :
    wordAt packet j = wordAt packet' j :=
  wordAt_eq_iff.2 ⟨h.getD_eq (by omega), h.getD_eq (by omega)⟩

/-- The changed word differs. -/
theorem wordAt_ne (h : ChangedAt k packet packet') : wordAt packet k ≠ wordAt packet' k := by
  intro hword
  obtain ⟨hlo, hhi⟩ := wordAt_eq_iff.1 hword
  refine h.differ (List.ext_getElem h.length_eq fun i hi hi' => ?_)
  have hget : packet.getD i 0 = packet'.getD i 0 := by
    by_cases hik : i / 2 = k
    · have hcases : i = 2 * k ∨ i = 2 * k + 1 := by omega
      rcases hcases with rfl | rfl
      · exact hlo
      · exact hhi
    · exact h.getD_eq hik
  rw [List.getD_eq_getElem _ _ hi', List.getD_eq_getElem _ _ hi] at hget
  exact hget.symm

/-- The word is one of the packet's. -/
theorem lt (h : ChangedAt k packet packet') : k < (packet.length + 1) / 2 := by
  by_contra hk
  refine h.wordAt_ne (wordAt_eq_iff.2 ⟨?_, ?_⟩) <;>
    rw [List.getD_eq_default _ _ (by omega),
      List.getD_eq_default _ _ (by have := h.length_eq; omega)]

/-- A change of `th_sum` is none of the segment with its field cleared. -/
theorem clearSum_eq (h : ChangedAt 8 packet packet') : clearSum packet' = clearSum packet := by
  refine List.ext_getElem? fun i => ?_
  unfold clearSum
  by_cases hi : i / 2 = 8
  · have hcases : i = 16 ∨ i = 17 := by omega
    rcases hcases with rfl | rfl <;> simp [List.getElem?_set, h.length_eq]
  · rw [List.getElem?_set_ne (by omega), List.getElem?_set_ne (by omega),
      List.getElem?_set_ne (by omega), List.getElem?_set_ne (by omega), h.same i hi]

/-- A change elsewhere is one of the segment with its field cleared. -/
theorem sum_change (h : ChangedAt k packet packet') (hk : k ≠ 8) :
    (littleEndianWords (clearSum packet')).sum + wordAt packet k =
      (littleEndianWords (clearSum packet)).sum + wordAt packet' k := by
  have hcleared (packet : List UInt8) : wordAt (clearSum packet) k = wordAt packet k := by
    rw [wordAt_clearSum, if_neg (fun h => hk (Option.some.inj h).symm)]
  have hlen : (clearSum packet).length = (clearSum packet').length := by
    rw [clearSum_length, clearSum_length, h.length_eq]
  rw [← hcleared packet, ← hcleared packet']
  refine sum_littleEndianWords_change hlen (by rw [clearSum_length]; exact h.lt) fun j hj => ?_
  rw [wordAt_clearSum, wordAt_clearSum, h.wordAt_eq hj]

end ChangedAt

/-- The protocol number alone keeps the pseudo header from summing to zero. -/
theorem sum_pseudoHeader_pos (srcAddr dstAddr : UInt32) (len : Nat) :
    0 < (littleEndianWords (pseudoHeader srcAddr dstAddr len)).sum := by
  simp only [pseudoHeader, le32, List.cons_append, List.nil_append, littleEndianWords,
    List.sum_cons]
  have hsix : (6 : UInt8).toNat = 6 := rfl
  omega

/-- A verification that returns has passed its asserts. -/
theorem verifyChecksum_asserts {ctx : NetworkContext} {host : Option UInt32} {ptr : Nat}
    {packet : List UInt8} {len : Nat} {b : Bool}
    (h : verifyChecksum ctx host ptr packet len = .ok b) :
    ctx.PeerKnown ∧ ∃ ip, host = some ip ∧ 0 < ctx.peerAddr.addr ∧ 0 < ip ∧ ptr &&& 2 = 0 := by
  obtain ⟨_, -, h⟩ := Exec.bind_eq_ok.1 h
  obtain ⟨_, hfamily, h⟩ := Exec.bind_eq_ok.1 h
  obtain ⟨ip, hlocal, h⟩ := Exec.bind_eq_ok.1 h
  obtain ⟨mySum, hsum, -⟩ := Exec.bind_eq_ok.1 h
  obtain ⟨total, hsum, -⟩ := Exec.bind_eq_ok.1 hsum
  simp only [networkGetLocalAddr, Exec.bind_eq_ok, assert_eq_ok] at hlocal
  simp only [tcpSum, Exec.bind_eq_ok, assert_eq_ok] at hsum
  obtain ⟨_, hvalid, _, hpeer, _, -, hhost⟩ := hlocal
  obtain ⟨_, -, _, hsrc, _, hdst, _, -, _, hptr, -⟩ := hsum
  refine ⟨⟨hvalid, hpeer, assert_eq_ok.1 hfamily⟩, ip, ?_, hsrc, hdst, hptr⟩
  cases host with
  | none => cases hhost
  | some ip' =>
    cases hhost
    rfl

/-- The comparison of a verification, over the native words. -/
theorem verifyChecksum_native {ctx : NetworkContext} (hctx : ctx.PeerKnown) {ip : UInt32}
    {ptr : Nat} {packet : List UInt8} (hpeer : 0 < ctx.peerAddr.addr) (hip : 0 < ip)
    (hptr : ptr &&& 2 = 0) (hlen : headerSize ≤ packet.length)
    (hmax : packet.length ≤ maxIpPayloadLen) :
    verifyChecksum ctx (some ip) ptr packet packet.length =
      .ok (65535 -
        reduce ((littleEndianWords (pseudoHeader ctx.peerAddr.addr ip packet.length)).sum +
          (littleEndianWords (clearSum packet)).sum) == wordAt packet 8) := by
  have heven : (pseudoHeader ctx.peerAddr.addr ip packet.length).length % 2 = 0 := by
    rw [pseudoHeader_length]
  have hle : sum (bigEndianWords (rfc793PseudoHeader (le32 ctx.peerAddr.addr) (le32 ip)
      packet.length ++ clearSum packet)) ≤ 65535 := by
    rw [sum_eq_reduce (bigEndianWords_le _)]
    exact reduce_le _
  rw [verifyChecksum_eq hctx hpeer hip hptr hlen hmax le_rfl, List.take_length, rfc793Checksum,
    swap_complement hle, ← sum_littleEndianWords, sum_eq_reduce (littleEndianWords_le _),
    ← List.sum_append, ← littleEndianWords_append heven]
  rfl

/-- An accepted packet that is changed in one word is rejected, except when the word is not `th_sum`
and the change puts one zero for the other. -/
theorem verifyChecksum_changed {ctx : NetworkContext} {host : Option UInt32} {ptr k : Nat}
    {packet packet' : List UInt8} (hlen : headerSize ≤ packet.length)
    (hmax : packet.length ≤ maxIpPayloadLen)
    (haccepted : verifyChecksum ctx host ptr packet packet.length = .ok true)
    (hchanged : ChangedAt k packet packet') :
    verifyChecksum ctx host ptr packet' packet'.length =
      .ok (decide (k ≠ 8 ∧ SwapsZeros (wordAt packet k) (wordAt packet' k))) := by
  obtain ⟨hctx, ip, rfl, hpeer, hip, hptr⟩ := verifyChecksum_asserts haccepted
  have hlen' := hchanged.length_eq
  rw [verifyChecksum_native hctx hpeer hip hptr hlen hmax, Except.ok.injEq, beq_iff_eq] at haccepted
  rw [verifyChecksum_native hctx hpeer hip hptr (hlen' ▸ hlen) (hlen' ▸ hmax), hlen']
  rw [Except.ok.injEq, Bool.eq_iff_iff, beq_iff_eq, decide_eq_true_iff]
  have hpseudo : 0 < (littleEndianWords (pseudoHeader ctx.peerAddr.addr ip packet.length)).sum :=
    sum_pseudoHeader_pos _ _ _
  have hle := reduce_le ((littleEndianWords (pseudoHeader ctx.peerAddr.addr ip packet.length)).sum +
    (littleEndianWords (clearSum packet)).sum)
  have hle' :=
    reduce_le ((littleEndianWords (pseudoHeader ctx.peerAddr.addr ip packet.length)).sum +
      (littleEndianWords (clearSum packet')).sum)
  by_cases hk : k = 8
  · -- the recomputed sum stays and the stored one changes
    subst hk
    rw [hchanged.clearSum_eq, haccepted]
    exact iff_of_false hchanged.wordAt_ne fun h => h.1 rfl
  · -- the stored sum stays and the recomputed one changes with the word
    rw [← hchanged.wordAt_eq (Ne.symm hk), ← haccepted, and_iff_right hk]
    have hsum := hchanged.sum_change hk
    have hchange := reduce_change_iff
      (Nat.add_pos_left hpseudo (littleEndianWords (clearSum packet)).sum)
      (Nat.add_pos_left hpseudo (littleEndianWords (clearSum packet')).sum)
      (wordAt_le packet k) (wordAt_le packet' k) hchanged.wordAt_ne (by omega)
    rw [SwapsZeros, ← hchange]
    omega

/-- An odd segment with its checksum. -/
def oddSegment : List UInt8 := ((List.replicate 21 7).set 16 187).set 17 161

theorem oddSegment_changedAt : ChangedAt 10 oddSegment (oddSegment.set 20 8) where
  length_eq := List.length_set
  same := fun i hi => List.getElem?_set_ne (by omega)
  differ := by decide

/-- The odd last byte is changed. -/
theorem verifyChecksum_changed_lastByte :
    verifyChecksum ⟨⟨afInet, 1024, 16777343, 0⟩, 16, true, 5, -1, true⟩ (some 33554559) 8
      (oddSegment.set 20 8) (oddSegment.set 20 8).length = .ok false :=
  (verifyChecksum_changed (by decide) (by decide) (by decide +kernel) oddSegment_changedAt).trans
    (congrArg Except.ok (by decide))

end ComputerNetworks.Mysock
