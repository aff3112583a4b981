import ComputerNetworks.Router.Checksum
import ComputerNetworks.Router.IpPath

/-!
# The check of the IP header

`case 9` takes the checksum of as many bytes as the length field says, without
converting it to host order, and compares it with the checksum field, which is
among these bytes. Whether it judges a header right is a matter of the words it
counts besides those of the header.
-/

namespace ComputerNetworks.Router

open OnesComplement

variable {packet : List UInt8}

/-- `cksum(iphdr, iphdr->ip_len) == iphdr->ip_sum`. -/
def headerCheck (packet : List UInt8) : Exec RouterAssert Bool := do
  let ipLen ← load16 packet 16
  let sum ← cksum packet 14 ipLen.toNat
  let ipSum ← load16 packet 24
  pure (sum == ipSum)

/-- `case 9` goes on behind the check, or aborts there. -/
theorem ipCase_eq_headerCheck (loc : Locals) (sr : SrInstance) (packet : List UInt8)
    (mem : HandleMem) (now : Int) :
    ipCase loc sr packet mem now = (do
      let passes ← headerCheck packet
      assert (passes = true) .checksum
      let dst ← load32 packet 30
      (getInterfaceFromIp sr dst).elim (forward loc sr packet mem now)
        fun _ => addressedToUs loc sr packet mem) := by
  simp only [ipCase, headerCheck, bind_assoc, pure_bind, beq_iff_eq]
  refine bind_congr fun ipLen => bind_congr fun sum => bind_congr fun ipSum =>
    bind_congr fun _ => bind_congr fun dst => ?_
  cases getInterfaceFromIp sr dst with
  | none => rfl
  | some target => rfl

/-- The length field as the code takes it. -/
def rawLength (packet : List UInt8) : Nat := (word16 packet 16).toNat

/-- The checksum field in network order. -/
def checksumField (packet : List UInt8) : Nat := swap (word16 packet 24).toNat

/-- The exact sum of the ten words of the header. -/
def headerSum (packet : List UInt8) : Nat := (bigEndianWords ((packet.drop 14).take 20)).sum

/-- The exact sum of what the code counts: the words of the length it takes, and the checksum field
once more. -/
def countedSum (packet : List UInt8) : Nat :=
  (bigEndianWords ((packet.drop 14).take (rawLength packet))).sum + checksumField packet

/-- The bytes that are counted lie in the frame; and either the two sums agree modulo 65535, with a
nonzero checksum field in a correct header, or neither makes its header pass. -/
def JudgesRight (packet : List UInt8) : Prop :=
  14 + rawLength packet ≤ packet.length ∧
    if countedSum packet % 65535 = headerSum packet % 65535 then
      headerSum packet % 65535 = 0 → checksumField packet ≠ 0
    else headerSum packet % 65535 ≠ 0 ∧ (countedSum packet % 65535 = 0 → checksumField packet = 0)

instance JudgesRight.decidable (packet : List UInt8) : Decidable (JudgesRight packet) :=
  inferInstanceAs (Decidable (_ ∧ _))

/-- The loop reads all its pairs. -/
theorem sumPairs_inside {Site : Type} {b : List UInt8} {n off : Nat} {sum s : UInt32}
    (h : (sumPairs b n off sum : Exec Site UInt32) = .ok s) : n = 0 ∨ off + 2 * n ≤ b.length := by
  induction n generalizing off sum with
  | zero => exact Or.inl rfl
  | succ n ih =>
    obtain ⟨high, hhigh, h⟩ := Exec.bind_eq_ok.1 h
    obtain ⟨low, hlow, h⟩ := Exec.bind_eq_ok.1 h
    obtain ⟨hlow, -⟩ := loadField_eq_ok hlow
    right
    rcases ih h with rfl | hrest
    · exact hlow
    · omega

/-- A checksum is returned only for bytes of the buffer. -/
theorem cksum_inside {Site : Type} {b : List UInt8} {off len : Nat} {v : UInt16}
    (h : (cksum b off len : Exec Site UInt16) = .ok v) (hoff : off ≤ b.length) :
    off + len ≤ b.length := by
  obtain ⟨s, hpairs, h⟩ := Exec.bind_eq_ok.1 h
  obtain ⟨s', hlast, -⟩ := Exec.bind_eq_ok.1 h
  have hwhole := sumPairs_inside hpairs
  unfold sumLast at hlast
  split at hlast
  · obtain ⟨high, hhigh, -⟩ := Exec.bind_eq_ok.1 hlast
    obtain ⟨hhigh, -⟩ := loadField_eq_ok hhigh
    omega
  · omega

/-- A field holds the complement of the rest exactly if the whole sum is a multiple of 65535. -/
theorem complement_reduce_eq_iff {n f : Nat} (hf : f ≤ 65535) :
    complement (reduce n) = f ↔ f ≠ 0 ∧ (n + f) % 65535 = 0 := by
  unfold complement reduce
  split <;> split <;> omega

/-- A folded sum is all ones exactly for the multiples of 65535. -/
theorem reduce_eq_ones_iff {n : Nat} (hn : n ≠ 0) : reduce n = 65535 ↔ n % 65535 = 0 := by
  unfold reduce
  split <;> omega

/-- Where the bytes lie in the frame, the check passes exactly for a nonzero field that cancels what
is counted with it. -/
theorem headerCheck_eq (hlength : 34 ≤ packet.length)
    (hinside : 14 + rawLength packet ≤ packet.length) :
    headerCheck packet = .ok
      (decide (checksumField packet ≠ 0 ∧ countedSum packet % 65535 = 0)) := by
  have hlen : (load16 packet 16 : Exec RouterAssert UInt16) = .ok (word16 packet 16) :=
    loadField_of_le (by omega)
  have hsum : (load16 packet 24 : Exec RouterAssert UInt16) = .ok (word16 packet 24) :=
    loadField_of_le (by omega)
  have hraw : rawLength packet ≤ 65535 := Nat.le_of_lt_succ (word16 packet 16).toNat_lt
  obtain ⟨v, hrun, -, hv⟩ := @cksum_eq RouterAssert packet 14 (rawLength packet) hinside hraw
  have hfield : (word16 packet 24).toNat ≤ 65535 := Nat.le_of_lt_succ (word16 packet 24).toNat_lt
  have hiff : (v == word16 packet 24) = true ↔
      checksumField packet ≠ 0 ∧ countedSum packet % 65535 = 0 := by
    have hcancels := @complement_reduce_eq_iff
      (bigEndianWords ((packet.drop 14).take (rawLength packet))).sum _ (swap_le hfield)
    rw [countedSum, checksumField, ← hcancels, ← sum_eq_reduce (bigEndianWords_le _), beq_iff_eq,
      ← UInt16.toNat_inj, hv]
    constructor
    · intro h
      rw [← h, swap_swap (complement_le _)]
    · intro h
      rw [h, swap_swap hfield]
  simp only [headerCheck, hlen, hsum, Exec.ok_bind, Exec.pure_eq_ok]
  rw [← rawLength, hrun, Exec.ok_bind, Bool.eq_iff_iff.2 (hiff.trans decide_eq_true_iff.symm)]

/-- A header of five words is not zero. -/
theorem headerSum_ne_zero (hlength : 34 ≤ packet.length) (hihl : byteAt packet 14 &&& 15 = 5) :
    headerSum packet ≠ 0 := by
  have hne : (byteAt packet 14).toNat ≠ 0 := by
    intro h
    have hzero : byteAt packet 14 = 0 := UInt8.toNat_inj.1 h
    rw [hzero] at hihl
    exact absurd hihl (by decide)
  rw [headerSum, bigEndianWords_take_succ (by omega : 14 + 2 * (9 + 1) ≤ packet.length),
    List.sum_cons]
  omega

/-- For a frame with a header of twenty bytes, the check passes exactly for a correct header, and
reads no byte behind the frame, where the sums say so. -/
theorem headerCheck_iff (hlength : 34 ≤ packet.length) (hihl : byteAt packet 14 &&& 15 = 5) :
    headerCheck packet = .ok (decide (Verifies ((packet.drop 14).take 20))) ↔
      JudgesRight packet := by
  by_cases hinside : 14 + rawLength packet ≤ packet.length
  · have hverifies : Verifies ((packet.drop 14).take 20) ↔ headerSum packet % 65535 = 0 := by
      rw [Verifies, sum_eq_reduce (bigEndianWords_le _)]
      exact reduce_eq_ones_iff (headerSum_ne_zero hlength hihl)
    rw [headerCheck_eq hlength hinside, Except.ok.injEq, decide_eq_decide, hverifies, JudgesRight,
      and_iff_right hinside]
    split <;> omega
  · constructor
    · intro h
      obtain ⟨ipLen, hlen, h⟩ := Exec.bind_eq_ok.1 h
      obtain ⟨sum, hsum, -⟩ := Exec.bind_eq_ok.1 h
      obtain ⟨-, rfl⟩ := loadField_eq_ok hlen
      exact absurd (cksum_inside hsum (by omega)) hinside
    · exact fun h => absurd h.1 hinside

/-- A datagram of twenty bytes from 10.0.0.2 to 10.0.0.1 with a correct header. -/
def bareHeader : List UInt8 :=
  [2, 0, 0, 0, 0, 1, 2, 0, 0, 0, 0, 2, 8, 0] ++
    [0x45, 0, 0, 20, 0, 0, 0, 0, 64, 17, 0x66, 0xd7, 10, 0, 0, 2, 10, 0, 0, 1]

theorem headerCheck_iff_bareHeader :
    headerCheck bareHeader = .ok (decide (Verifies ((bareHeader.drop 14).take 20))) ↔
      JudgesRight bareHeader :=
  headerCheck_iff (by decide) (by decide)

/-- The check of a correct header reads behind the frame. -/
theorem headerCheck_leaves_frame :
    34 ≤ bareHeader.length ∧ byteAt bareHeader 14 &&& 15 = 5 ∧
      Verifies ((bareHeader.drop 14).take 20) ∧ headerCheck bareHeader = .error .outOfBounds ∧
      headerCheck bareHeader ≠ .ok (decide (Verifies ((bareHeader.drop 14).take 20))) := by
  have hrun : headerCheck bareHeader = .error .outOfBounds := by decide +kernel
  refine ⟨by decide, by decide, by decide, hrun, ?_⟩
  rw [hrun]
  exact nofun

end ComputerNetworks.Router
