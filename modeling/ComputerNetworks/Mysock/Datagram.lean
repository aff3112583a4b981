import ComputerNetworks.Mysock.RecvThread

/-!
# Receiving a datagram

`_network_recv` copies no more than the caller's buffer takes and returns the
size of the whole packet, through an `int`. The value then says over how many
bytes of the buffer `stcp_network_recv` verifies the checksum.
-/

namespace ComputerNetworks.Mysock

/-- The assertions of `stcp_network_recv` and of what it calls. -/
inductive DatagramAssert where
  /-- `assert(len <= 0 || _mysock_verify_checksum(..))`. -/
  | checksum
  | queue (site : QueueAssert)
  | sum (site : SumAssert)
  deriving DecidableEq, Repr

/-- The value of a `size_t` that is assigned to an `int`. -/
def toInt (n : Nat) : Int := if n % 2 ^ 32 < 2 ^ 31 then n % 2 ^ 32 else n % 2 ^ 32 - 2 ^ 32

/-- What a call of `_network_recv` leaves: the queue, the caller's buffer, how many bytes were
stored in it and the value returned. -/
structure Datagram where
  queue : PacketQueue
  dst : List UInt8
  stored : Nat
  len : Int

/-- `_network_recv` from the end of its wait on. -/
def networkRecvInt (pq : PacketQueue) (dst : List UInt8) (maxLen : Nat) :
    Exec QueueAssert Datagram := do
  let out ← dequeueBuffer pq dst maxLen false
  pure ⟨out.queue, out.dst, out.stored, toInt out.packetLen⟩

/-- The number of bytes over which `stcp_network_recv` verifies the checksum; none are if nothing
was received. -/
def Datagram.verified (d : Datagram) : Nat := d.len.toNat

/-- The assert of `stcp_network_recv`. -/
def checkSum (ctx : NetworkContext) (host : Option UInt32) (ptr : Nat) (d : Datagram) :
    Exec DatagramAssert Unit :=
  if d.len ≤ 0 then .ok ()
  else do
    let ok ← (verifyChecksum ctx host ptr d.dst d.verified).within .sum
    assert (ok = true) .checksum

/-- `stcp_network_recv` into a buffer at address `ptr`, from the end of its wait on. -/
def stcpNetworkRecvInt (ctx : NetworkContext) (host : Option UInt32) (ptr : Nat) (pq : PacketQueue)
    (dst : List UInt8) (maxLen : Nat) : Exec DatagramAssert Datagram := do
  let d ← (networkRecvInt pq dst maxLen).within .queue
  checkSum ctx host ptr d
  pure d

/-- The call removes the head packet alone, stores it as far as the buffer goes, returns the number
of bytes stored, no more than `max_len`, and verifies the checksum over no others. -/
def ReportsStored (pq : PacketQueue) (packet : List UInt8) (rest : List (List UInt8))
    (dst : List UInt8) (maxLen : Nat) : Prop :=
  ∃ d, networkRecvInt pq dst maxLen = .ok d ∧
    (∀ ctx host ptr, stcpNetworkRecvInt ctx host ptr pq dst maxLen =
      (fun _ => d) <$> checkSum ctx host ptr d) ∧
    d.queue.Holds rest ∧ d.dst = packet.take d.stored ++ dst.drop d.stored ∧ d.len = d.stored ∧
    d.stored ≤ maxLen ∧ d.verified ≤ d.stored

theorem toInt_of_lt {n : Nat} (h : n < 2 ^ 31) : toInt n = n := by
  rw [toInt, Nat.mod_eq_of_lt (by omega), if_pos h]
  omega

/-- The size of the packet, as an `int`, is the number of bytes stored. -/
theorem toInt_eq_min_iff {n maxLen : Nat} :
    toInt n = (min maxLen n : Nat) ↔
      if n ≤ maxLen then n < 2 ^ 31 else maxLen < 2 ^ 31 ∧ n % 2 ^ 32 = maxLen := by
  unfold toInt
  split <;> split <;> omega

/-- What the call leaves, for a packet of any size. -/
theorem networkRecvInt_eq {pq : PacketQueue} {packet : List UInt8} {rest : List (List UInt8)}
    (h : pq.Holds (packet :: rest)) {dst : List UInt8} {maxLen : Nat} (hdst : maxLen ≤ dst.length) :
    ∃ pq', networkRecvInt pq dst maxLen =
        .ok ⟨pq', packet.take maxLen ++ dst.drop (min maxLen packet.length),
          min maxLen packet.length, toInt packet.length⟩ ∧
      pq'.Holds rest := by
  obtain ⟨pq', hrun, hholds⟩ := dequeueBuffer_whole h hdst (.inr rfl)
  refine ⟨pq', ?_, hholds⟩
  rw [networkRecvInt, hrun]
  rfl

/-- The call reports what it stored exactly if the packet fits the buffer and an `int`, or is longer
by what an `int` does not hold. -/
theorem reportsStored_iff {pq : PacketQueue} {packet : List UInt8} {rest : List (List UInt8)}
    (h : pq.Holds (packet :: rest)) {dst : List UInt8} {maxLen : Nat} (hdst : maxLen ≤ dst.length) :
    ReportsStored pq packet rest dst maxLen ↔
      if packet.length ≤ maxLen then packet.length < 2 ^ 31
      else maxLen < 2 ^ 31 ∧ packet.length % 2 ^ 32 = maxLen := by
  obtain ⟨pq', hrun, hholds⟩ := networkRecvInt_eq h hdst
  rw [← toInt_eq_min_iff]
  constructor
  · rintro ⟨d, hd, -, -, -, hlen, -⟩
    cases hrun.symm.trans hd
    exact hlen
  · intro hlen
    refine ⟨_, hrun, fun ctx host ptr => ?_, hholds, ?_, hlen, Nat.min_le_left .., ?_⟩
    · rw [stcpNetworkRecvInt, hrun]
      rfl
    · rw [List.take_eq_take_min]
    · rw [Datagram.verified, hlen, Int.toNat_natCast]

/-- A single queued packet. -/
def PacketQueue.single (packet : List UInt8) : PacketQueue :=
  ⟨Function.update (fun _ => none) 0 (some ⟨some packet, packet.length, none⟩), some 0, some 0⟩

/-- The queue of one packet holds it. -/
theorem PacketQueue.holds_single (packet : List UInt8) :
    (PacketQueue.single packet).Holds [packet] := by
  refine ⟨[(0, ⟨some packet, packet.length, none⟩)], Linked.singleton rfl, ?_, ?_⟩
  · intro c hc
    cases List.mem_singleton.1 hc
    exact ⟨packet, rfl, le_rfl⟩
  · rw [List.map_singleton, PacketQueueNode.packet, Option.getD_some, List.take_length]

theorem reportsStored_header :
    ReportsStored (.single (List.replicate 20 7)) (List.replicate 20 7) [] (List.replicate 20 0)
      20 :=
  (reportsStored_iff (PacketQueue.holds_single _) (by decide)).2 (by decide)

/-- Of 21 bytes 20 are stored and 21 returned. -/
theorem not_reportsStored :
    (PacketQueue.single (List.replicate 21 7)).Holds [List.replicate 21 7] ∧
      ¬ ReportsStored (.single (List.replicate 21 7)) (List.replicate 21 7) []
        (List.replicate 20 0) 20 := by
  refine ⟨PacketQueue.holds_single _, ?_⟩
  rintro ⟨d, hrun, -, -, -, hlen, hmax, -⟩
  have hreturned : Datagram.len <$> networkRecvInt (.single (List.replicate 21 7))
      (List.replicate 20 0) 20 = .ok 21 := by decide +kernel
  obtain ⟨d', hrun', hlen'⟩ := Exec.map_eq_ok.1 hreturned
  cases hrun.symm.trans hrun'
  omega

/-- The verification reads past a buffer of `max_len` bytes. -/
theorem stcpNetworkRecvInt_overread {pq : PacketQueue} {packet : List UInt8}
    {rest : List (List UInt8)} (h : pq.Holds (packet :: rest)) {dst : List UInt8}
    (hlong : dst.length < packet.length) (hsize : packet.length < 2 ^ 31) (ctx : NetworkContext)
    (host : Option UInt32) (ptr : Nat) (d : Datagram) :
    stcpNetworkRecvInt ctx host ptr pq dst dst.length ≠ .ok d := by
  obtain ⟨pq', hrun, -⟩ := networkRecvInt_eq h (le_refl dst.length)
  intro hcall
  rw [stcpNetworkRecvInt, hrun, toInt_of_lt hsize, Exec.within_ok, Exec.ok_bind] at hcall
  obtain ⟨_, hcheck, -⟩ := Exec.bind_eq_ok.1 hcall
  have hpos : ¬ ((packet.length : Int) ≤ 0) := by omega
  rw [checkSum, if_neg hpos] at hcheck
  obtain ⟨ok, hverify, -⟩ := Exec.bind_eq_ok.1 hcheck
  have hread := (verifyChecksum_ok (Exec.within_eq_ok.1 hverify)).2
  rw [Datagram.verified, Int.toNat_natCast, List.length_append, List.length_take, List.length_drop]
    at hread
  omega

/-- The check passes on an empty datagram and on one whose checksum is right. -/
theorem checkSum_of {ctx : NetworkContext} {host : Option UInt32} {ptr n : Nat} {d : Datagram}
    (hlen : d.len = n) (h : n ≠ 0 → verifyChecksum ctx host ptr d.dst n = .ok true) :
    checkSum ctx host ptr d = .ok () := by
  unfold checkSum
  split
  · rfl
  · rw [Datagram.verified, hlen, Int.toNat_natCast, h (by omega)]
    rfl

/-- A call on the list of packets that returns has taken the first one, and its checksum was right
unless the packet was empty. -/
theorem stcpNetworkRecv_eq_ok {s s' : Demux} {sd : Nat} {e : Entry} {host : Option UInt32}
    {ptr : Nat} {dst dst' : List UInt8} {maxLen len : Nat} {packet : List UInt8}
    {rest : List (List UInt8)} (he : getContext s sd = .ok e)
    (hqueue : e.ctx.networkRecvQueue = packet :: rest)
    (h : stcpNetworkRecv s sd host ptr dst maxLen = .ok (len, dst', s')) :
    len = packet.length ∧ dst' = packet.take maxLen ++ dst.drop (min maxLen packet.length) ∧
      s' = s.setContext sd { e.ctx with networkRecvQueue := rest } ∧
      (packet.length ≠ 0 →
        verifyChecksum e.ctx.network host ptr dst' packet.length = .ok true) := by
  obtain ⟨e', he', h⟩ := Exec.bind_eq_ok.1 h
  cases he.symm.trans (Exec.within_eq_ok.1 he')
  obtain ⟨out, hrecv, h⟩ := Exec.bind_eq_ok.1 h
  rw [hqueue, networkRecv] at hrecv
  by_cases hfits : min maxLen packet.length ≤ dst.length
  · rw [if_pos hfits] at hrecv
    cases hrecv
    by_cases hempty : packet.length = 0
    · simp only [hempty, if_true, Exec.pure_eq_ok] at h
      cases h
      exact ⟨hempty.symm, by rw [hempty], rfl, fun hne => absurd hempty hne⟩
    · simp only [hempty, if_false] at h
      obtain ⟨ok, hverify, h⟩ := Exec.bind_eq_ok.1 h
      obtain ⟨_, hok, h⟩ := Exec.bind_eq_ok.1 h
      cases h
      rw [assert_eq_ok] at hok
      subst hok
      exact ⟨rfl, rfl, rfl, fun _ => Exec.within_eq_ok.1 hverify⟩
  · rw [if_neg hfits] at hrecv
    cases hrecv

/-- For the packets of the receive thread, which are no longer than its buffer, this is the call on
the list of packets. -/
theorem stcpNetworkRecv_refines {s s' : Demux} {sd : Nat} {e : Entry}
    (he : getContext s sd = .ok e) {pq : PacketQueue} {packet : List UInt8}
    {rest : List (List UInt8)} (hqueue : e.ctx.networkRecvQueue = packet :: rest)
    (hpq : pq.Holds (packet :: rest)) (hsize : packet.length ≤ maxIpPayloadLen)
    {host : Option UInt32} {ptr : Nat} {dst dst' : List UInt8} {maxLen len : Nat}
    (hdst : maxLen ≤ dst.length)
    (h : stcpNetworkRecv s sd host ptr dst maxLen = .ok (len, dst', s')) :
    ∃ d, stcpNetworkRecvInt e.ctx.network host ptr pq dst maxLen = .ok d ∧ d.len = len ∧
      d.dst = dst' ∧ d.queue.Holds rest ∧
      s' = s.setContext sd { e.ctx with networkRecvQueue := rest } := by
  obtain ⟨rfl, rfl, rfl, hverify⟩ := stcpNetworkRecv_eq_ok he hqueue h
  obtain ⟨pq', hrun, hholds⟩ := networkRecvInt_eq hpq hdst
  unfold maxIpPayloadLen at hsize
  have hint : toInt packet.length = packet.length := toInt_of_lt (by omega)
  rw [hint] at hrun
  have hcheck : checkSum e.ctx.network host ptr ⟨pq', packet.take maxLen ++
      dst.drop (min maxLen packet.length), min maxLen packet.length, packet.length⟩ = .ok () :=
    checkSum_of rfl hverify
  refine ⟨⟨pq', _, min maxLen packet.length, packet.length⟩, ?_, rfl, rfl, hholds, rfl⟩
  rw [stcpNetworkRecvInt, hrun, Exec.within_ok, Exec.ok_bind, hcheck]
  rfl

end ComputerNetworks.Mysock
