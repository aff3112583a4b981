import ComputerNetworks.Core.OnesComplement
import ComputerNetworks.Mysock.Context

/-!
# The STCP checksum

`tcp_sum.c` on a little-endian host. The code adds native words in an `int32_t`
and folds twice; RFC 793 adds big-endian words with end-around carry. The two
agree on every segment that fits a packet buffer.
-/

namespace ComputerNetworks.Mysock

open OnesComplement

/-- The assertions on the way to a checksum. -/
inductive SumAssert where
  /-- `assert(len >= sizeof(struct tcphdr))`. -/
  | headerLen
  /-- `assert(src_addr > 0)`. -/
  | srcAddr
  /-- `assert(dst_addr > 0)`. -/
  | dstAddr
  /-- `assert(((long)packet & 2) == 0)`. -/
  | packetAligned
  /-- `assert(ctx->peer_addr_valid)`. -/
  | peerAddrValid
  /-- `assert(ctx->peer_addr_len > 0)`. -/
  | peerAddrLen
  /-- `assert(ctx->peer_addr.sa_family == AF_INET)`. -/
  | peerFamily
  /-- `assert(0)` after a failed lookup of the host's own name. -/
  | hostLookup
  deriving DecidableEq, Repr

/-- The byte at an index. -/
def load (b : List UInt8) (i : Nat) : Exec SumAssert UInt8 :=
  match b[i]? with
  | none => .error .outOfBounds
  | some c => .ok c

/-- The `k`-th `uint16_t` of a block. -/
def loadWord (b : List UInt8) (k : Nat) : Exec SumAssert Nat := do
  let lo ← load b (2 * k)
  let hi ← load b (2 * k + 1)
  pure (lo.toNat + hi.toNat * 256)

/-- `sum += v` on the `int32_t` accumulator, which never becomes negative. -/
def accumulate (sum v : Nat) : Exec SumAssert Nat :=
  if sum + v < 2 ^ 31 then .ok (sum + v) else .error .signedOverflow

/-- A summing loop with `n` words left from index `k` on, one of which may be left out. -/
def sumWords (b : List UInt8) (skip : Option Nat) : Nat → Nat → Nat → Exec SumAssert Nat
  | 0, _, sum => .ok sum
  | n + 1, k, sum =>
    if skip = some k then sumWords b skip n (k + 1) sum
    else do
      let w ← loadWord b k
      sumWords b skip n (k + 1) (← accumulate sum w)

/-- The packed `pseudo_header`, with `IPPROTO_TCP` and `htons(len)`. -/
def pseudoHeader (srcAddr dstAddr : UInt32) (len : Nat) : List UInt8 :=
  le32 srcAddr ++ le32 dstAddr ++ [0, 6, UInt8.ofNat (len / 256), UInt8.ofNat len]

/-- The odd last byte, stored in the first byte of a cleared `uint16_t`. -/
def sumOddByte (packet : List UInt8) (len sum : Nat) : Exec SumAssert Nat :=
  if len % 2 = 1 then do accumulate sum (← load packet (len - 1)).toNat else .ok sum

/-- `_mysock_tcp_checksum` up to the folding, for a packet at address `ptr`. -/
def tcpSum (srcAddr dstAddr : UInt32) (ptr : Nat) (packet : List UInt8) (len : Nat) :
    Exec SumAssert Nat := do
  assert (headerSize ≤ len) .headerLen
  assert (0 < srcAddr) .srcAddr
  assert (0 < dstAddr) .dstAddr
  let sum ← sumWords (pseudoHeader srcAddr dstAddr len) none 6 0 0
  assert (ptr &&& 2 = 0) .packetAligned
  -- `th_sum` is the ninth word of the header
  let sum ← sumWords packet (some 8) (len / 2) 0 sum
  sumOddByte packet len sum

/-- `_mysock_tcp_checksum`. -/
def tcpChecksum (srcAddr dstAddr : UInt32) (ptr : Nat) (packet : List UInt8) (len : Nat) :
    Exec SumAssert Nat := do
  let sum ← tcpSum srcAddr dstAddr ptr packet len
  let sum := sum / 65536 + sum % 65536
  let sum := sum + sum / 65536
  pure (65535 - sum % 65536)

/-- `_network_get_interface_ip`; `host` is what the lookup of the host's name yields. -/
def networkGetInterfaceIp (host : Option UInt32) : Exec SumAssert UInt32 :=
  match host with
  | none => .error (.assertion .hostLookup)
  | some ip => .ok ip

/-- `_network_get_local_addr`. -/
def networkGetLocalAddr (ctx : NetworkContext) (host : Option UInt32) : Exec SumAssert UInt32 := do
  assert (ctx.peerAddrValid = true) .peerAddrValid
  assert (0 < ctx.peerAddrLen) .peerAddrLen
  assert (ctx.peerAddr.family = afInet) .peerFamily
  networkGetInterfaceIp host

/-- The store of a native `uint16_t` in `th_sum`. -/
def storeSum (packet : List UInt8) (v : Nat) : Exec SumAssert (List UInt8) :=
  if 18 ≤ packet.length then
    .ok ((packet.set 16 (UInt8.ofNat v)).set 17 (UInt8.ofNat (v / 256)))
  else .error .outOfBounds

/-- `_mysock_set_checksum`. -/
def setChecksum (ctx : NetworkContext) (host : Option UInt32) (ptr : Nat) (packet : List UInt8)
    (len : Nat) : Exec SumAssert (List UInt8) := do
  assert (headerSize ≤ len) .headerLen
  assert (ctx.peerAddr.family = afInet) .peerFamily
  let localAddr ← networkGetLocalAddr ctx host
  storeSum packet (← tcpChecksum localAddr ctx.peerAddr.addr ptr packet len)

/-- `_mysock_verify_checksum`. -/
def verifyChecksum (ctx : NetworkContext) (host : Option UInt32) (ptr : Nat) (packet : List UInt8)
    (len : Nat) : Exec SumAssert Bool := do
  assert (headerSize ≤ len) .headerLen
  assert (ctx.peerAddr.family = afInet) .peerFamily
  let localAddr ← networkGetLocalAddr ctx host
  let mySum ← tcpChecksum ctx.peerAddr.addr localAddr ptr packet len
  pure (mySum == (← loadWord packet 8))

/-- The 96-bit pseudo header over the octets of the two addresses. -/
def rfc793PseudoHeader (src dst : List UInt8) (tcpLength : Nat) : List UInt8 :=
  src ++ dst ++ [0, 6, UInt8.ofNat (tcpLength / 256), UInt8.ofNat tcpLength]

/-- The segment with its checksum field taken as zero. -/
def clearSum (segment : List UInt8) : List UInt8 := (segment.set 16 0).set 17 0

/-- The complement of the one's-complement sum of the big-endian words of pseudo header and
segment. -/
def rfc793Checksum (src dst segment : List UInt8) : Nat :=
  65535 - sum (bigEndianWords (rfc793PseudoHeader src dst segment.length ++ clearSum segment))

theorem load_eq {b : List UInt8} {i : Nat} (h : i < b.length) : load b i = .ok (b.getD i 0) := by
  simp [load, h]

/-- A word inside the block is loaded. -/
theorem loadWord_eq {b : List UInt8} {k : Nat} (h : 2 * k + 1 < b.length) :
    loadWord b k = .ok (wordAt b k) := by
  rw [loadWord, load_eq (by omega), load_eq h]
  rfl

/-- A sum below `2 ^ 31` does not overflow. -/
theorem accumulate_eq {sum v : Nat} (h : sum + v < 2 ^ 31) : accumulate sum v = .ok (sum + v) :=
  if_pos h

/-- A loop adds its words exactly when the accumulator has room for the largest ones. -/
theorem sumWords_eq {b : List UInt8} {skip : Option Nat} {n k sum : Nat}
    (hlen : 2 * (k + n) ≤ b.length) (hroom : sum + 65535 * n < 2 ^ 31) :
    sumWords b skip n k sum =
      .ok (sum + ((List.range' k n).map fun j => if skip = some j then 0 else wordAt b j).sum) := by
  induction n generalizing k sum with
  | zero => rfl
  | succ n ih =>
    rw [List.range'_succ, List.map_cons, List.sum_cons]
    by_cases hk : skip = some k
    · rw [sumWords, if_pos hk, if_pos hk, ih (by omega) (by omega), Nat.zero_add]
    · have hw := wordAt_le b k
      rw [sumWords, if_neg hk, if_neg hk, loadWord_eq (by omega), Exec.ok_bind,
        accumulate_eq (by omega), Exec.ok_bind, ih (by omega) (by omega), Nat.add_assoc]

/-- An odd byte at the end is added. -/
theorem sumOddByte_eq {packet : List UInt8} {len sum : Nat} (hlen : len ≤ packet.length)
    (hroom : sum + 255 < 2 ^ 31) :
    sumOddByte packet len sum =
      .ok (sum + if len % 2 = 1 then (packet.getD (len - 1) 0).toNat else 0) := by
  unfold sumOddByte
  split
  · have hb := (packet.getD (len - 1) 0).toNat_lt
    rw [load_eq (by omega), Exec.ok_bind, accumulate_eq (by omega)]
  · rfl

theorem clearSum_length (segment : List UInt8) : (clearSum segment).length = segment.length := by
  simp [clearSum]

theorem clearSum_getD {segment : List UInt8} {i : Nat} (h : i ≠ 16) (h' : i ≠ 17) :
    (clearSum segment).getD i 0 = segment.getD i 0 := by
  simp [clearSum, List.getD_eq_getElem?_getD, h.symm, h'.symm]

/-- It clears those of the field. -/
theorem clearSum_getD_field {segment : List UInt8} {i : Nat} (h : i = 16 ∨ i = 17) :
    (clearSum segment).getD i 0 = 0 := by
  rw [clearSum, List.getD_eq_getElem?_getD]
  rcases h with rfl | rfl
  · rw [List.getElem?_set_ne (by omega), List.getElem?_set_self']
    cases segment[16]? <;> rfl
  · rw [List.getElem?_set_self']
    cases (segment.set 16 0)[17]? <;> rfl

/-- Clearing the field zeroes the ninth word and no other. -/
theorem wordAt_clearSum (segment : List UInt8) (k : Nat) :
    wordAt (clearSum segment) k = if some 8 = some k then 0 else wordAt segment k := by
  by_cases hk : some 8 = some k
  · cases hk
    rw [if_pos rfl, wordAt, clearSum_getD_field (.inl rfl), clearSum_getD_field (.inr rfl)]
    rfl
  · have hk' : k ≠ 8 := fun h => hk (by rw [h])
    rw [if_neg hk, wordAt, wordAt, clearSum_getD (by omega) (by omega),
      clearSum_getD (by omega) (by omega)]

theorem getD_take {b : List UInt8} {n i : Nat} (h : i < n) : (b.take n).getD i 0 = b.getD i 0 := by
  rw [List.getD_eq_getElem?_getD, List.getElem?_take_of_lt h, List.getD_eq_getElem?_getD]

/-- The two loops and the odd byte together add the words of the segment with its field cleared. -/
theorem sumPacket_eq {packet : List UInt8} {len : Nat} (hlen : headerSize ≤ len)
    (hpacket : len ≤ packet.length) :
    ((List.range' 0 (len / 2)).map fun j => if some 8 = some j then 0 else wordAt packet j).sum +
        (if len % 2 = 1 then (packet.getD (len - 1) 0).toNat else 0) =
      (littleEndianWords (clearSum (packet.take len))).sum := by
  have htake : (clearSum (packet.take len)).length = len := by
    rw [clearSum_length, List.length_take, Nat.min_eq_left hpacket]
  rw [sum_littleEndianWords_eq_range, htake, List.range_eq_range']
  unfold headerSize at hlen
  congr 1
  · congr 1
    refine List.map_congr_left fun j hj => ?_
    have hj' : 2 * j + 1 < len := by
      have := (List.mem_range'_1.1 hj).2
      omega
    rw [wordAt_clearSum, wordAt, wordAt, getD_take (by omega), getD_take hj']
  · rw [clearSum_getD (by omega) (by omega), getD_take (by omega)]

theorem pseudoHeader_length (srcAddr dstAddr : UInt32) (len : Nat) :
    (pseudoHeader srcAddr dstAddr len).length = 12 := rfl

/-- The first loop adds the words of the pseudo header. -/
theorem sumPseudoHeader_eq (srcAddr dstAddr : UInt32) (len : Nat) :
    sumWords (pseudoHeader srcAddr dstAddr len) none 6 0 0 =
      .ok (littleEndianWords (pseudoHeader srcAddr dstAddr len)).sum := by
  have hlen := pseudoHeader_length srcAddr dstAddr len
  rw [sumWords_eq (by omega) (by omega), sum_littleEndianWords_eq_range, hlen,
    List.range_eq_range']
  simp

/-- No overflow: the accumulator ends at the exact sum of the native words. -/
theorem tcpSum_eq {srcAddr dstAddr : UInt32} {ptr : Nat} {packet : List UInt8} {len : Nat}
    (hsrc : 0 < srcAddr) (hdst : 0 < dstAddr) (hptr : ptr &&& 2 = 0) (hlen : headerSize ≤ len)
    (hmax : len ≤ maxIpPayloadLen) (hpacket : len ≤ packet.length) :
    tcpSum srcAddr dstAddr ptr packet len = .ok (littleEndianWords
      (pseudoHeader srcAddr dstAddr len ++ clearSum (packet.take len))).sum := by
  have heven : (pseudoHeader srcAddr dstAddr len).length % 2 = 0 := by rw [pseudoHeader_length]
  have hpseudo := sum_littleEndianWords_le (pseudoHeader srcAddr dstAddr len)
  rw [pseudoHeader_length] at hpseudo
  have hsegment := sum_littleEndianWords_le (clearSum (packet.take len))
  rw [clearSum_length, List.length_take, Nat.min_eq_left hpacket, ← sumPacket_eq hlen hpacket]
    at hsegment
  unfold maxIpPayloadLen at hmax
  rw [tcpSum, assert_of hlen, assert_of hsrc, assert_of hdst, sumPseudoHeader_eq, assert_of hptr]
  simp only [Exec.ok_bind]
  rw [sumWords_eq (by omega) (by omega), Exec.ok_bind, sumOddByte_eq hpacket (by omega),
    Nat.add_assoc, sumPacket_eq hlen hpacket, littleEndianWords_append heven, List.sum_append]

/-- The sum over a segment does not overflow. -/
theorem segmentSum_lt {srcAddr dstAddr : UInt32} {segment : List UInt8} {len : Nat}
    (hlen : segment.length ≤ maxIpPayloadLen) :
    (littleEndianWords (pseudoHeader srcAddr dstAddr len ++ clearSum segment)).sum < 2 ^ 31 := by
  have hle := sum_littleEndianWords_le (pseudoHeader srcAddr dstAddr len ++ clearSum segment)
  rw [List.length_append, clearSum_length, pseudoHeader_length] at hle
  unfold maxIpPayloadLen at hlen
  omega

/-- The two folds are complete: the sixteen low bits are the one's-complement sum. -/
theorem foldTwice_segmentSum (srcAddr dstAddr : UInt32) (len : Nat) {segment : List UInt8}
    (hlen : segment.length ≤ maxIpPayloadLen) :
    foldTwice (littleEndianWords (pseudoHeader srcAddr dstAddr len ++ clearSum segment)).sum
        % 65536 =
      sum (littleEndianWords (pseudoHeader srcAddr dstAddr len ++ clearSum segment)) := by
  rw [foldTwice_mod (segmentSum_lt hlen), sum_eq_reduce (littleEndianWords_le _)]

/-- The native result is the byte-swapped checksum of the RFC. -/
theorem tcpChecksum_eq {srcAddr dstAddr : UInt32} {ptr : Nat} {packet : List UInt8} {len : Nat}
    (hsrc : 0 < srcAddr) (hdst : 0 < dstAddr) (hptr : ptr &&& 2 = 0) (hlen : headerSize ≤ len)
    (hmax : len ≤ maxIpPayloadLen) (hpacket : len ≤ packet.length) :
    tcpChecksum srcAddr dstAddr ptr packet len =
      .ok (swap (rfc793Checksum (le32 srcAddr) (le32 dstAddr) (packet.take len))) := by
  have htake : (packet.take len).length = len := by
    rw [List.length_take, Nat.min_eq_left hpacket]
  have hfold := foldTwice_segmentSum srcAddr dstAddr len (htake.trans_le hmax)
  rw [tcpChecksum, tcpSum_eq hsrc hdst hptr hlen hmax hpacket, Exec.ok_bind]
  change Except.ok (65535 - foldTwice _ % 65536) = _
  rw [hfold, sum_littleEndianWords, rfc793Checksum, htake, swap_complement]
  · rfl
  · rw [sum_eq_reduce (bigEndianWords_le _)]
    exact reduce_le _

/-- The checksum does not depend on the order of the two addresses. -/
theorem rfc793Checksum_comm (srcAddr dstAddr : UInt32) (segment : List UInt8) :
    rfc793Checksum (le32 srcAddr) (le32 dstAddr) segment =
      rfc793Checksum (le32 dstAddr) (le32 srcAddr) segment := by
  have hsum : (bigEndianWords (rfc793PseudoHeader (le32 srcAddr) (le32 dstAddr) segment.length ++
        clearSum segment)).sum =
      (bigEndianWords (rfc793PseudoHeader (le32 dstAddr) (le32 srcAddr) segment.length ++
        clearSum segment)).sum := by
    simp only [rfc793PseudoHeader, le32, List.cons_append, List.nil_append, bigEndianWords,
      List.sum_cons]
    omega
  rw [rfc793Checksum, rfc793Checksum, sum_eq_reduce (bigEndianWords_le _), hsum,
    ← sum_eq_reduce (bigEndianWords_le _)]

/-- The native store leaves the two bytes in network order. -/
theorem storeSum_swap {packet : List UInt8} (hpacket : headerSize ≤ packet.length) {c : Nat}
    (hc : c ≤ 65535) :
    storeSum packet (swap c) =
      .ok ((packet.set 16 (UInt8.ofNat (c / 256))).set 17 (UInt8.ofNat c)) := by
  have hlo : UInt8.ofNat (swap c) = UInt8.ofNat (c / 256) := by
    apply UInt8.toNat_inj.1
    simp only [UInt8.toNat_ofNat', swap]
    omega
  have hhi : UInt8.ofNat (swap c / 256) = UInt8.ofNat c := by
    have hdiv : swap c / 256 = c % 256 := by
      have hlow : c / 256 < 256 := by omega
      rw [swap, Nat.mul_comm, Nat.mul_add_div (by omega), Nat.div_eq_of_lt hlow, Nat.add_zero]
    apply UInt8.toNat_inj.1
    simp only [UInt8.toNat_ofNat', hdiv]
    omega
  unfold headerSize at hpacket
  rw [storeSum, if_pos (by omega), hlo, hhi]

/-- The field does not count. -/
theorem clearSum_set (packet : List UInt8) (hi lo : UInt8) :
    clearSum ((packet.set 16 hi).set 17 lo) = clearSum packet := by
  unfold clearSum
  rw [List.set_comm lo 0 (by omega : (17 : Nat) ≠ 16), List.set_set, List.set_set]

/-- Nor does it in the checksum of the standard. -/
theorem rfc793Checksum_set (src dst packet : List UInt8) (hi lo : UInt8) :
    rfc793Checksum src dst ((packet.set 16 hi).set 17 lo) = rfc793Checksum src dst packet := by
  rw [rfc793Checksum, rfc793Checksum, clearSum_set, List.length_set, List.length_set]

theorem rfc793Checksum_le (src dst segment : List UInt8) : rfc793Checksum src dst segment ≤ 65535 :=
  Nat.sub_le _ _

/-- The address of the host is what its name resolves to. -/
theorem networkGetLocalAddr_eq {ctx : NetworkContext} (hctx : ctx.PeerKnown) (ip : UInt32) :
    networkGetLocalAddr ctx (some ip) = .ok ip := by
  rw [networkGetLocalAddr, assert_of hctx.valid, assert_of hctx.len, assert_of hctx.family]
  rfl

/-- The word a receiver reads from `th_sum`. -/
theorem wordAt_stored {packet : List UInt8} (hpacket : headerSize ≤ packet.length) {c : Nat}
    (hc : c ≤ 65535) :
    wordAt ((packet.set 16 (UInt8.ofNat (c / 256))).set 17 (UInt8.ofNat c)) 8 = swap c := by
  unfold headerSize at hpacket
  have h16 : 16 < packet.length := by omega
  have h17 : 17 < packet.length := by omega
  rw [wordAt]
  simp [List.getD_eq_getElem?_getD, h16, h17, swap]
  omega

/-- A verification compares the recomputed checksum with the stored one. -/
theorem verifyChecksum_eq {ctx : NetworkContext} (hctx : ctx.PeerKnown) {ip : UInt32} {ptr : Nat}
    {packet : List UInt8} {len : Nat} (hpeer : 0 < ctx.peerAddr.addr) (hip : 0 < ip)
    (hptr : ptr &&& 2 = 0) (hlen : headerSize ≤ len) (hmax : len ≤ maxIpPayloadLen)
    (hpacket : len ≤ packet.length) :
    verifyChecksum ctx (some ip) ptr packet len =
      .ok (swap (rfc793Checksum (le32 ctx.peerAddr.addr) (le32 ip) (packet.take len)) ==
        wordAt packet 8) := by
  have hword : 2 * 8 + 1 < packet.length := by
    unfold headerSize at hlen
    omega
  rw [verifyChecksum, assert_of hlen, assert_of hctx.family, networkGetLocalAddr_eq hctx]
  simp only [Exec.ok_bind]
  rw [tcpChecksum_eq hpeer hip hptr hlen hmax hpacket, Exec.ok_bind, loadWord_eq hword]
  rfl

/-- A byte that was loaded lies inside the block. -/
theorem load_ok {b : List UInt8} {i : Nat} {c : UInt8} (h : load b i = .ok c) : i < b.length := by
  unfold load at h
  split at h
  · exact nomatch h
  · exact (List.getElem?_eq_some_iff.1 ‹_›).1

/-- A word that was loaded lies inside the block. -/
theorem loadWord_ok {b : List UInt8} {k w : Nat} (h : loadWord b k = .ok w) :
    2 * k + 1 < b.length := by
  obtain ⟨lo, -, hhi⟩ := Exec.bind_eq_ok.1 h
  obtain ⟨hi, hhi, -⟩ := Exec.bind_eq_ok.1 hhi
  exact load_ok hhi

/-- A loop that returns has read all of its words inside the block. -/
theorem sumWords_ok {b : List UInt8} {skip : Option Nat} {n k sum total : Nat}
    (h : sumWords b skip n k sum = .ok total) {j : Nat} (hk : k ≤ j) (hj : j < k + n)
    (hskip : skip ≠ some j) : 2 * j + 1 < b.length := by
  induction n generalizing k sum with
  | zero => omega
  | succ n ih =>
    unfold sumWords at h
    split at h
    · have hne : k ≠ j := fun hkj => hskip (hkj ▸ ‹skip = some k›)
      exact ih h (by omega) (by omega)
    · obtain ⟨w, hw, h⟩ := Exec.bind_eq_ok.1 h
      obtain ⟨sum', -, h⟩ := Exec.bind_eq_ok.1 h
      rcases Nat.eq_or_lt_of_le hk with rfl | hlt
      · exact loadWord_ok hw
      · exact ih h hlt (by omega)

/-- A verification that returns has read a whole segment inside the block. -/
theorem verifyChecksum_ok {ctx : NetworkContext} {host : Option UInt32} {ptr : Nat}
    {packet : List UInt8} {len : Nat} {b : Bool}
    (h : verifyChecksum ctx host ptr packet len = .ok b) :
    headerSize ≤ len ∧ len ≤ packet.length := by
  obtain ⟨_, hlen, h⟩ := Exec.bind_eq_ok.1 h
  rw [assert_eq_ok] at hlen
  obtain ⟨-, -, h⟩ := Exec.bind_eq_ok.1 h
  obtain ⟨ip, -, h⟩ := Exec.bind_eq_ok.1 h
  obtain ⟨mySum, hsum, -⟩ := Exec.bind_eq_ok.1 h
  obtain ⟨total, hsum, -⟩ := Exec.bind_eq_ok.1 hsum
  simp only [tcpSum, Exec.bind_eq_ok] at hsum
  obtain ⟨_, -, _, -, _, -, _, -, _, -, sum, hwords, hodd⟩ := hsum
  refine ⟨hlen, ?_⟩
  unfold headerSize at hlen
  by_cases hpar : len % 2 = 1
  · rw [sumOddByte, if_pos hpar] at hodd
    obtain ⟨c, hc, -⟩ := Exec.bind_eq_ok.1 hodd
    have := load_ok hc
    omega
  · have := @sumWords_ok packet (some 8) (len / 2) 0 _ sum hwords (len / 2 - 1) (by omega)
      (by omega) (by simp; omega)
    omega

/-- The stored segment: the checksum of RFC 793 in network order. -/
theorem setChecksum_eq {ctx : NetworkContext} (hctx : ctx.PeerKnown) {ip : UInt32} {ptr : Nat}
    {packet : List UInt8} {c : Nat} (hip : 0 < ip) (hpeer : 0 < ctx.peerAddr.addr)
    (hptr : ptr &&& 2 = 0) (hlen : headerSize ≤ packet.length)
    (hmax : packet.length ≤ maxIpPayloadLen)
    (hc : c = rfc793Checksum (le32 ip) (le32 ctx.peerAddr.addr) packet) :
    setChecksum ctx (some ip) ptr packet packet.length =
      .ok ((packet.set 16 (UInt8.ofNat (c / 256))).set 17 (UInt8.ofNat c)) := by
  rw [setChecksum, assert_of hlen, assert_of hctx.family, networkGetLocalAddr_eq hctx]
  simp only [Exec.ok_bind]
  rw [tcpChecksum_eq hip hpeer hptr hlen hmax le_rfl, Exec.ok_bind, List.take_length, ← hc,
    storeSum_swap hlen (hc ▸ rfc793Checksum_le _ _ _)]

/-- A segment that carries its checksum is accepted, with the two addresses in either order. -/
theorem verifyChecksum_stored {ctx : NetworkContext} (hctx : ctx.PeerKnown)
    {src dst ip : UInt32} {ptr : Nat} {packet : List UInt8} {c : Nat} (hsrc : 0 < src)
    (hdst : 0 < dst) (hptr : ptr &&& 2 = 0) (hlen : headerSize ≤ packet.length)
    (hmax : packet.length ≤ maxIpPayloadLen)
    (hc : c = rfc793Checksum (le32 src) (le32 dst) packet)
    (hends : (ctx.peerAddr.addr = src ∧ ip = dst) ∨ (ctx.peerAddr.addr = dst ∧ ip = src)) :
    verifyChecksum ctx (some ip) ptr
      ((packet.set 16 (UInt8.ofNat (c / 256))).set 17 (UInt8.ofNat c)) packet.length =
      .ok true := by
  have hchecksum : rfc793Checksum (le32 ctx.peerAddr.addr) (le32 ip) packet = c := by
    rcases hends with ⟨rfl, rfl⟩ | ⟨rfl, rfl⟩
    · exact hc.symm
    · exact (rfc793Checksum_comm _ _ _).trans hc.symm
  have hpeer : 0 < ctx.peerAddr.addr ∧ 0 < ip := by
    rcases hends with ⟨rfl, rfl⟩ | ⟨rfl, rfl⟩
    · exact ⟨hsrc, hdst⟩
    · exact ⟨hdst, hsrc⟩
  have hset : ((packet.set 16 (UInt8.ofNat (c / 256))).set 17 (UInt8.ofNat c)).length =
      packet.length := by simp
  rw [verifyChecksum_eq hctx hpeer.1 hpeer.2 hptr hlen hmax hset.ge,
    List.take_of_length_le hset.le, rfc793Checksum_set, hchecksum,
    wordAt_stored hlen (hc ▸ rfc793Checksum_le _ _ _), beq_self_eq_true]

/-- What `_mysock_set_checksum` stores is the checksum of RFC 793, whatever the field held before:
the accumulator never overflows, the two folds leave no carry, and the other end accepts the
segment with the two addresses in either order. -/
theorem setChecksum_rfc793 {sender receiver : NetworkContext} {ip ip' : UInt32} {ptr ptr' : Nat}
    {packet : List UInt8} {c : Nat} (hsender : sender.PeerKnown) (hreceiver : receiver.PeerKnown)
    (hlen : headerSize ≤ packet.length) (hmax : packet.length ≤ maxIpPayloadLen)
    (hip : 0 < ip) (hpeer : 0 < sender.peerAddr.addr)
    (hptr : ptr &&& 2 = 0) (hptr' : ptr' &&& 2 = 0)
    (hc : c = rfc793Checksum (le32 ip) (le32 sender.peerAddr.addr) packet)
    (hends : (receiver.peerAddr.addr = ip ∧ ip' = sender.peerAddr.addr) ∨
      (receiver.peerAddr.addr = sender.peerAddr.addr ∧ ip' = ip)) :
    (∃ total, tcpSum ip sender.peerAddr.addr ptr packet packet.length = .ok total ∧
      foldTwice total % 65536 = sum (littleEndianWords
        (pseudoHeader ip sender.peerAddr.addr packet.length ++ clearSum packet))) ∧
    ∃ packet', setChecksum sender (some ip) ptr packet packet.length = .ok packet' ∧
      packet' = (packet.set 16 (UInt8.ofNat (c / 256))).set 17 (UInt8.ofNat c) ∧
      verifyChecksum receiver (some ip') ptr' packet' packet'.length = .ok true := by
  constructor
  · refine ⟨_, tcpSum_eq hip hpeer hptr hlen hmax le_rfl, ?_⟩
    rw [List.take_length, foldTwice_segmentSum _ _ _ hmax]
  · refine ⟨_, setChecksum_eq hsender hip hpeer hptr hlen hmax hc, rfl, ?_⟩
    rw [List.length_set, List.length_set]
    exact verifyChecksum_stored hreceiver hip hpeer hptr' hlen hmax hc hends

/-- An odd segment between two addresses, verified at the other end. -/
theorem setChecksum_rfc793_sample :
    ∃ packet', setChecksum ⟨⟨afInet, 80, 33554559, 0⟩, 16, true, 3, -1, true⟩ (some 16777343) 4
        (List.replicate 21 7) 21 = .ok packet' ∧
      verifyChecksum ⟨⟨afInet, 1024, 16777343, 0⟩, 16, true, 5, -1, true⟩ (some 33554559) 8
        packet' packet'.length = .ok true := by
  obtain ⟨-, packet', hset, -, hverify⟩ := @setChecksum_rfc793
    ⟨⟨afInet, 80, 33554559, 0⟩, 16, true, 3, -1, true⟩
    ⟨⟨afInet, 1024, 16777343, 0⟩, 16, true, 5, -1, true⟩
    16777343 33554559 4 8 (List.replicate 21 7) _ (by decide) (by decide) (by decide) (by decide)
    (by decide) (by decide) rfl rfl rfl (.inl ⟨rfl, rfl⟩)
  exact ⟨packet', hset, hverify⟩

end ComputerNetworks.Mysock
