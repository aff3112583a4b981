import ComputerNetworks.Mysock.StcpApi

/-!
# End of file

`stcp_fin_received` queues an empty packet behind the data, and `myread` takes a
dequeue of length 0 for it. A dequeue can also have length 0 because nothing was
asked for, or because its length does not fit the `int` it is stored in. Where
neither happens, `eof` is set at the marker only.
-/

namespace ComputerNetworks.Mysock

/-- `data_len` of the node at the head of a queue. -/
def PacketQueue.headLen (pq : PacketQueue) : Nat :=
  ((pq.head.bind pq.heap).map PacketQueueNode.dataLen).getD 0

/-- A call of `myread` before the end of file that finds data at the head of the queue asks for some
of it, and gets a length that fits an `int`. -/
def StcpOp.ReadsSome (r : StcpRun PacketQueue) : StcpOp → Prop
  | .read _ bufLen => r.ctx.eof = false → 0 < r.ctx.appSendQueue.headLen →
      0 < bufLen ∧ min bufLen r.ctx.appSendQueue.headLen < 2 ^ 31
  | _ => True

instance StcpOp.decidableReadsSome (r : StcpRun PacketQueue) :
    (op : StcpOp) → Decidable (op.ReadsSome r)
  | .read _ bufLen => inferInstanceAs (Decidable (r.ctx.eof = false →
      0 < r.ctx.appSendQueue.headLen → 0 < bufLen ∧ min bufLen r.ctx.appSendQueue.headLen < 2 ^ 31))
  | .write _ _ | .close | .appRecv _ _ | .waitForEvent _ | .wake _ | .timeout _ | .appSend _ _
  | .finReceived _ | .networkArrive _ _ | .networkRecv _ _ => isTrue trivial

namespace StcpRun

/-- The condition over lists of packets. -/
def ReadsSome (a : StcpRun Packets) : StcpOp → Prop
  | .read _ bufLen => a.ctx.eof = false → ∀ packet ∈ a.ctx.appSendQueue.head?, packet ≠ [] →
      0 < bufLen ∧ min bufLen packet.length < 2 ^ 31
  | _ => True

/-- No FIN yet: all that was sent is returned or queued, in packets with data. -/
def Streaming (a : StcpRun Packets) : Prop :=
  a.fin = none ∧ a.ctx.eof = false ∧ (∀ packet ∈ a.ctx.appSendQueue, packet ≠ []) ∧
    a.returned ++ a.ctx.appSendQueue.flatten = a.sent

/-- The marker is queued behind the rest of the data sent before it. -/
def Ending (a : StcpRun Packets) : Prop :=
  a.ctx.eof = false ∧ ∃ before after, a.ctx.appSendQueue = before ++ [] :: after ∧
    (∀ packet ∈ before, packet ≠ []) ∧ a.fin = some (a.returned ++ before.flatten) ∧
    a.returned ++ before.flatten ++ after.flatten = a.sent

/-- The marker was read, with all the data before it returned. -/
def Ended (a : StcpRun Packets) : Prop :=
  a.ctx.eof = true ∧ a.fin = some a.returned ∧ a.returned <+: a.sent

/-- The end of file was reached only at the marker. -/
def EofInv (a : StcpRun Packets) : Prop := a.Streaming ∨ a.Ending ∨ a.Ended

theorem eofInv_start : (start [] : StcpRun Packets).EofInv := .inl ⟨rfl, rfl, nofun, rfl⟩

/-- A pass of the wait keeps the invariant. -/
theorem EofInv.endPass {a : StcpRun Packets} (h : a.EofInv) (call : WaitCall) :
    (a.endPass call (next.pass a.ctx call.flags)).EofInv := by
  unfold StcpRun.endPass next.pass closeEvent
  split <;> split <;> exact h

/-- What was read is returned behind what was returned before. -/
theorem returned_endRead {Q : Type} (r : StcpRun Q) (bufLen : Nat) (ctx : StcpContext Q)
    (buf : List UInt8) (len : Int) :
    (r.endRead bufLen ctx buf len).returned = r.returned ++ buf.take len.toNat := by
  simp [returned, endRead]

end StcpRun

/-- A length below `2 ^ 31` is kept by the `int`. -/
theorem intOfSize_of_lt {n : Nat} (h : n < 2 ^ 31) : intOfSize n = n :=
  Int.bmod_eq_of_le_mul_two (by omega) (by omega)

/-- A dequeue at a packet with data takes some of it, and leaves packets with data. -/
theorem takeFront_data {bufLen : Nat} {packet : List UInt8} (hpacket : packet ≠ [])
    (hlen : 0 < bufLen) (packets : Packets) :
    ∃ bytes rest, takeFront bufLen (packet :: packets) = (bytes, rest ++ packets) ∧
      bytes ++ rest.flatten = packet ∧ (∀ p ∈ rest, p ≠ []) ∧ 0 < bytes.length ∧
      bytes.length = min bufLen packet.length := by
  rcases lt_or_ge bufLen packet.length with hlong | hle
  · refine ⟨packet.take bufLen, [packet.drop bufLen], takeFront_of_lt hlong packets, ?_, ?_, ?_, ?_⟩
    · rw [List.flatten_singleton, List.take_append_drop]
    · simpa using hlong
    · rw [List.length_take]
      omega
    · rw [List.length_take]
  · refine ⟨packet, [], takeFront_of_le hle packets, List.append_nil _, nofun, ?_, ?_⟩
    · exact List.length_pos_iff.2 hpacket
    · exact (Nat.min_eq_right hle).symm

/-- A read of data moves it from the queue to the bytes returned. -/
theorem next_read_data {a : StcpRun Packets} {bufLen : Nat} {buf packet : List UInt8}
    {packets : Packets} (heof : a.ctx.eof = false)
    (hqueue : a.ctx.appSendQueue = packet :: packets) (hpacket : packet ≠ []) (hlen : 0 < bufLen)
    (hfits : min bufLen packet.length < 2 ^ 31) :
    ∃ bytes rest, bytes ++ rest.flatten = packet ∧ (∀ p ∈ rest, p ≠ []) ∧
      (a.next (.read buf bufLen)).ctx = { a.ctx with appSendQueue := rest ++ packets } ∧
      (a.next (.read buf bufLen)).returned = a.returned ++ bytes ∧
      (a.next (.read buf bufLen)).fin = a.fin ∧ (a.next (.read buf bufLen)).sent = a.sent := by
  obtain ⟨bytes, rest, htake, hbytes, hrest, hpos, hmin⟩ := takeFront_data hpacket hlen packets
  have hint : intOfSize bytes.length = bytes.length := intOfSize_of_lt (hmin ▸ hfits)
  have hnote : ¬(bytes.length : Int) = 0 := by omega
  refine ⟨bytes, rest, hbytes, hrest, ?_⟩
  simp only [StcpRun.next, heof, Bool.false_eq_true, if_false, hqueue, htake, hint, noteEof,
    if_neg hnote, StcpRun.returned_endRead, Int.toNat_natCast, List.take_length, true_and]
  exact ⟨rfl, rfl, rfl⟩

/-- A read at the marker returns 0 and sets `eof`. -/
theorem next_read_marker {a : StcpRun Packets} {bufLen : Nat} {buf : List UInt8} {packets : Packets}
    (heof : a.ctx.eof = false) (hqueue : a.ctx.appSendQueue = [] :: packets) :
    (a.next (.read buf bufLen)).ctx = { a.ctx with appSendQueue := packets, eof := true } ∧
      (a.next (.read buf bufLen)).returned = a.returned ∧
      (a.next (.read buf bufLen)).fin = a.fin ∧ (a.next (.read buf bufLen)).sent = a.sent := by
  have htake : takeFront bufLen ([] :: packets) = ([], packets) :=
    takeFront_of_le (Nat.zero_le _) packets
  have hint : intOfSize ([] : List UInt8).length = 0 := rfl
  simp only [StcpRun.next, heof, Bool.false_eq_true, if_false, hqueue, htake, hint, noteEof,
    if_true, StcpRun.returned_endRead, List.take_nil, List.append_nil, true_and]
  exact ⟨rfl, rfl, rfl⟩

/-- A read after the end of file returns 0 and changes nothing. -/
theorem next_read_eof {a : StcpRun Packets} (heof : a.ctx.eof = true) (buf : List UInt8)
    (bufLen : Nat) :
    a.next (.read buf bufLen) = { a with reads := a.reads ++ [⟨bufLen, 0, []⟩] } := by
  simp only [StcpRun.next, heof, if_true]
  rfl

/-- A read before the FIN returns data. -/
theorem StcpRun.Streaming.read {a : StcpRun Packets} (h : a.Streaming) {buf : List UInt8}
    {bufLen : Nat} (hne : a.ctx.appSendQueue ≠ []) (hsome : a.ReadsSome (.read buf bufLen)) :
    (a.next (.read buf bufLen)).Streaming := by
  obtain ⟨hfin, heof, hdata, hbytes⟩ := h
  obtain ⟨packet, packets, hqueue⟩ := List.exists_cons_of_ne_nil hne
  rw [hqueue, List.forall_mem_cons] at hdata
  obtain ⟨hlen, hfits⟩ := hsome heof packet (by rw [hqueue]; rfl) hdata.1
  obtain ⟨bytes, rest, rfl, hrest, hctx, hreturned, hfin', hsent⟩ :=
    next_read_data heof hqueue hdata.1 hlen hfits
  refine ⟨hfin'.trans hfin, by rw [hctx]; exact heof, ?_, ?_⟩
  · rw [hctx]
    exact List.forall_mem_append.2 ⟨hrest, hdata.2⟩
  · rw [hctx, hreturned, hsent, ← hbytes, hqueue, List.flatten_append, List.flatten_cons]
    simp only [List.append_assoc]

/-- A read behind the FIN returns data, or comes to the marker. -/
theorem StcpRun.Ending.read {a : StcpRun Packets} (h : a.Ending) {buf : List UInt8} {bufLen : Nat}
    (hsome : a.ReadsSome (.read buf bufLen)) : (a.next (.read buf bufLen)).EofInv := by
  obtain ⟨heof, before, after, hqueue, hdata, hfin, hbytes⟩ := h
  cases before with
  | nil =>
    obtain ⟨hctx, hreturned, hfin', hsent⟩ := @next_read_marker a bufLen buf after heof hqueue
    rw [List.flatten_nil, List.append_nil] at hfin hbytes
    refine .inr (.inr ⟨by rw [hctx], ?_, ?_⟩)
    · rw [hfin', hreturned, hfin]
    · rw [hreturned, hsent, ← hbytes]
      exact List.prefix_append _ _
  | cons packet before =>
    rw [List.forall_mem_cons] at hdata
    obtain ⟨hlen, hfits⟩ := hsome heof packet (by rw [hqueue]; rfl) hdata.1
    obtain ⟨bytes, rest, rfl, hrest, hctx, hreturned, hfin', hsent⟩ :=
      next_read_data heof hqueue hdata.1 hlen hfits
    refine .inr (.inl ⟨by rw [hctx]; exact heof, rest ++ before, after, ?_, ?_, ?_, ?_⟩)
    · rw [hctx, List.append_assoc]
      rfl
    · exact List.forall_mem_append.2 ⟨hrest, hdata.2⟩
    · rw [hfin', hreturned, hfin, List.flatten_append, List.flatten_cons]
      simp only [List.append_assoc]
    · rw [hreturned, hsent, ← hbytes, List.flatten_append, List.flatten_cons]
      simp only [List.append_assoc]

/-- At the end of file nothing more is returned. -/
theorem StcpRun.Ended.read {a : StcpRun Packets} (h : a.Ended) (buf : List UInt8) (bufLen : Nat) :
    (a.next (.read buf bufLen)).Ended := by
  obtain ⟨heof, hfin, hprefix⟩ := h
  have hreturned : StcpRun.returned { a with reads := a.reads ++ [⟨bufLen, 0, []⟩] } =
      a.returned := by simp [returned]
  rw [next_read_eof heof]
  refine ⟨heof, ?_, ?_⟩
  · rw [hreturned]
    exact hfin
  · rw [hreturned]
    exact hprefix

/-- The packet `stcp_app_send` queues, if any, has the bytes it was given. -/
theorem flatten_sent (src : List UInt8) :
    (if 0 < src.length then [src] else []).flatten = src := by
  split
  · exact List.flatten_singleton
  · exact (List.eq_nil_of_length_eq_zero (Nat.eq_zero_of_not_pos ‹_›)).symm

/-- Data of the network side join the queue. -/
theorem StcpRun.EofInv.appSend {a : StcpRun Packets} (h : a.EofInv) (mem : Allocation)
    (src : List UInt8) : (a.next (.appSend mem src)).EofInv := by
  obtain ⟨hfin, heof, hdata, hbytes⟩ | ⟨heof, before, after, hqueue, hdata, hfin, hbytes⟩ |
    ⟨heof, hfin, hprefix⟩ := h
  · refine .inl ⟨hfin, heof, List.forall_mem_append.2 ⟨hdata, ?_⟩, ?_⟩
    · split
      · simpa using List.ne_nil_of_length_pos ‹_›
      · exact nofun
    · simp only [StcpRun.next, List.flatten_append, flatten_sent, ← hbytes, ← List.append_assoc]
      rfl
  · refine .inr (.inl ⟨heof, before, after ++ if 0 < src.length then [src] else [], ?_, hdata, hfin,
      ?_⟩)
    · simp only [StcpRun.next, hqueue, List.append_assoc, List.cons_append]
    · simp only [StcpRun.next, List.flatten_append, flatten_sent, ← hbytes, ← List.append_assoc]
      rfl
  · exact .inr (.inr ⟨heof, hfin, hprefix.trans (List.prefix_append _ _)⟩)

/-- Each call that meets the condition keeps the end of file genuine. -/
theorem packetsMachine_preserves_eof :
    (packetsMachine.restrict StcpRun.ReadsSome).Preserves StcpRun.EofInv := by
  rintro a op h ⟨⟨horder, hwaited⟩, hsome⟩
  refine ⟨_, rfl, ?_⟩
  cases op with
  | waitForEvent call => exact h.endPass call
  | wake i =>
    refine StcpRun.resume_keeps h i fun waiting call => ?_
    exact @StcpRun.EofInv.endPass { a with waiting } h call
  | timeout i => exact StcpRun.resume_keeps h i fun _ _ => h
  | appSend mem src => exact h.appSend mem src
  | finReceived mem =>
    obtain ⟨hfin, heof, hdata, hbytes⟩ | ⟨-, _, _, -, -, hfin, -⟩ | ⟨-, hfin, -⟩ := h
    · refine .inr (.inl ⟨heof, a.ctx.appSendQueue, [], rfl, hdata, congrArg some hbytes.symm, ?_⟩)
      exact (List.append_nil _).trans hbytes
    · exact absurd (horder.symm.trans hfin) (Option.some_ne_none _).symm
    · exact absurd (horder.symm.trans hfin) (Option.some_ne_none _).symm
  | read buf bufLen =>
    obtain hstream | hending | hended := h
    · refine .inl (hstream.read (hwaited.1.resolve_left ?_) hsome)
      exact fun heof => Bool.false_ne_true (hstream.2.1.symm.trans heof)
    · exact hending.read hsome
    · exact .inr (.inr (hended.read buf bufLen))
  | write mem buf | close | appRecv dst maxLen | networkArrive mem packet
  | networkRecv dst maxLen => exact h

/-- The first node knows the length of its packet. -/
theorem PacketQueue.Holds.headLen {pq : PacketQueue} {packet : List UInt8} {packets : Packets}
    (h : pq.Holds (packet :: packets)) : pq.headLen = packet.length := by
  obtain ⟨a, n, data, cells, hhead, hheap, -, hle, rfl, -⟩ := h.exists_head
  simp [PacketQueue.headLen, hhead, hheap, hle]

/-- The condition on the linked queue is the one on its packets. -/
theorem readsSome_of_represents {c : StcpRun PacketQueue} {a : StcpRun Packets} {op : StcpOp}
    (hrep : c.Represents a) (h : op.ReadsSome c) : a.ReadsSome op := by
  obtain ⟨-, appRecv, appSend, networkRecv, -, hsend, -, rfl⟩ := hrep
  cases op with
  | read buf bufLen =>
    intro heof packet hpacket hne
    obtain ⟨packets, hqueue⟩ := List.head?_eq_some_iff.1 hpacket
    rw [hqueue] at hsend
    have hlen : appSend.headLen = packet.length := hsend.headLen
    have hread := h heof
    simp only [StcpRun.withQueues, hlen] at hread
    exact hread (List.length_pos_iff.2 hne)
  | _ => trivial

/-- The reads of a run that starts after the end of file. -/
def StcpRun.ReadsNothingSince (old : List ReadReturn) (a : StcpRun Packets) : Prop :=
  a.ctx.eof = true ∧ ∃ later, a.reads = old ++ later ∧ ∀ c ∈ later, c.len = 0 ∧ c.bytes = []

/-- After the end of file every read returns 0, whatever is called. -/
theorem packetsMachine_preserves_readsNothing (old : List ReadReturn) :
    packetsMachine.Preserves (StcpRun.ReadsNothingSince old) := by
  rintro a op ⟨heof, later, hreads, hzero⟩ -
  refine ⟨_, rfl, ?_⟩
  have h : a.ReadsNothingSince old := ⟨heof, later, hreads, hzero⟩
  have hpass : ∀ waiting call, StcpRun.ReadsNothingSince old
      (StcpRun.endPass { a with waiting } call (StcpRun.next.pass a.ctx call.flags)) := by
    intro waiting call
    unfold StcpRun.endPass StcpRun.next.pass closeEvent
    split <;> split <;> exact h
  cases op with
  | waitForEvent call => exact hpass a.waiting call
  | wake i => exact StcpRun.resume_keeps h i hpass
  | timeout i => exact StcpRun.resume_keeps h i fun _ _ => h
  | read buf bufLen =>
    rw [next_read_eof heof]
    refine ⟨heof, later ++ [⟨bufLen, 0, []⟩], ?_, List.forall_mem_append.2 ⟨hzero, ?_⟩⟩
    · rw [hreads, List.append_assoc]
    · simp
  | write mem buf | close | appRecv dst maxLen | appSend mem src | finReceived mem
  | networkArrive mem packet | networkRecv dst maxLen => exact h

/-- Where each read of data asks for some of it, in every order of the calls: the bytes returned are
a prefix of those sent, `eof` is set only when exactly the bytes sent before the FIN were returned,
and every later read returns 0. -/
theorem eof_only_at_fin (heap : Addr → Option PacketQueueNode) {ops : List StcpOp}
    (hops : (stcpMachine.restrict fun r op => op.ReadsSome r).Admissible
      (StcpRun.start ⟨heap, none, none⟩) ops) :
    ∃ r, stcpMachine.run (StcpRun.start ⟨heap, none, none⟩) ops = .ok r ∧
      r.returned <+: r.sent ∧ (r.ctx.eof = true → r.fin = some r.returned) ∧
      (r.ctx.eof = true → ∀ later, stcpMachine.Admissible r later →
        ∃ r' reads, stcpMachine.run r later = .ok r' ∧ r'.reads = r.reads ++ reads ∧
          r'.ctx.eof = true ∧ ∀ c ∈ reads, c.len = 0 ∧ c.bytes = []) := by
  have hsim : (stcpMachine.restrict fun r op => op.ReadsSome r).Simulates
      (packetsMachine.restrict StcpRun.ReadsSome) StcpRun.Represents :=
    stcpMachine_simulates.restrict fun _ _ _ => readsSome_of_represents
  obtain ⟨r, hrun, a, hrep, hinv⟩ := (hsim.preserves packetsMachine_preserves_eof).run
    ⟨_, StcpRun.represents_start heap, StcpRun.eofInv_start⟩ hops
  rw [Machine.restrict_run] at hrun
  have hlater : a.ctx.eof = true → ∀ later, stcpMachine.Admissible r later →
      ∃ r' reads, stcpMachine.run r later = .ok r' ∧ r'.reads = a.reads ++ reads ∧
        r'.ctx.eof = true ∧ ∀ c ∈ reads, c.len = 0 ∧ c.bytes = [] := by
    intro heof later hadm
    have hstart : a.ReadsNothingSince a.reads := ⟨heof, [], (List.append_nil _).symm, nofun⟩
    obtain ⟨r', hrun', a', ⟨-, _, _, _, -, -, -, rfl⟩, heof', reads, hreads, hzero⟩ :=
      (stcpMachine_simulates.preserves (packetsMachine_preserves_readsNothing a.reads)).run
        ⟨a, hrep, hstart⟩ hadm
    exact ⟨_, reads, hrun', hreads, heof', hzero⟩
  obtain ⟨-, _, _, _, -, -, -, rfl⟩ := hrep
  refine ⟨_, hrun, ?_, ?_, hlater⟩
  · obtain ⟨-, -, -, hbytes⟩ | ⟨-, before, after, -, -, -, hbytes⟩ | ⟨-, -, hprefix⟩ := hinv
    · exact ⟨_, hbytes⟩
    · exact ⟨_, (List.append_assoc _ _ _).symm.trans hbytes⟩
    · exact hprefix
  · intro heof
    obtain ⟨-, hnot, -⟩ | ⟨hnot, -⟩ | ⟨-, hfin, -⟩ := hinv
    · exact absurd (hnot.symm.trans heof) Bool.false_ne_true
    · exact absurd (hnot.symm.trans heof) Bool.false_ne_true
    · exact hfin

/-- Partial reads up to the marker, with data sent behind it. -/
theorem eof_only_at_fin_sample :
    ∃ r, stcpMachine.run (StcpRun.start ⟨fun _ => none, none, none⟩)
        [.appSend ⟨some 1, some [0, 0, 0]⟩ [7, 8, 9], .read [0, 0] 2,
          .finReceived ⟨some 2, some []⟩, .appSend ⟨some 3, some [0]⟩ [4], .read [0, 0] 2,
          .read [] 0, .read [0, 0] 2] = .ok r ∧
      r.returned <+: r.sent ∧ (r.ctx.eof = true → r.fin = some r.returned) ∧
      (r.ctx.eof = true → ∀ later, stcpMachine.Admissible r later →
        ∃ r' reads, stcpMachine.run r later = .ok r' ∧ r'.reads = r.reads ++ reads ∧
          r'.ctx.eof = true ∧ ∀ c ∈ reads, c.len = 0 ∧ c.bytes = []) :=
  eof_only_at_fin _ (by decide)

/-- A read of length 0 while a byte is queued sets `eof`, and the byte is never returned. -/
theorem eof_before_fin :
    stcpMachine.Admissible (StcpRun.start ⟨fun _ => none, none, none⟩)
        [.appSend ⟨some 1, some [0]⟩ [7], .read [] 0, .read [0] 1] ∧
      ∃ r, stcpMachine.run (StcpRun.start ⟨fun _ => none, none, none⟩)
          [.appSend ⟨some 1, some [0]⟩ [7], .read [] 0, .read [0] 1] = .ok r ∧
        r.ctx.eof = true ∧ r.fin = none ∧ r.sent = [7] ∧ r.returned = [] :=
  ⟨by decide, _, rfl, by decide⟩

end ComputerNetworks.Mysock
