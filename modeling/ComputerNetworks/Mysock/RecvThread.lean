import ComputerNetworks.Mysock.ConnectionDemux
import ComputerNetworks.Mysock.Framing
import ComputerNetworks.Mysock.PacketQueue
import ComputerNetworks.Mysock.TcpSum

/-!
# The receive thread

`network_recv_thread_func` of `network_io_socket.c` reads frames off a connection
and hands them to the demultiplexer or to the socket's own queue, from which
`stcp_network_recv` of `stcp_api.c` takes them. One round of the thread's loop is
one atomic step.
-/

namespace ComputerNetworks.Mysock

open OnesComplement

/-- The assertions on the way of a received packet. -/
inductive RecvAssert where
  /-- `assert(errno == EINTR)`. -/
  | pollErrno
  /-- `assert(0)` on a `poll` that timed out. -/
  | pollTimeout
  /-- `assert(!(fds[0].revents & POLLERR))`. -/
  | exitPipeError
  /-- `assert(!(fds[1].revents & POLLERR))`. -/
  | socketError
  /-- `assert(bytes_read <= (int)sizeof(packet_buf))`. -/
  | packetFits
  /-- `assert(len <= 0 || _mysock_verify_checksum(..))`. -/
  | checksum
  /-- Those of the TCP layer. -/
  | net (site : NetAssert)
  /-- Those of the demultiplexer. -/
  | demux (site : DemuxAssert)
  /-- Those of the checksum. -/
  | sum (site : SumAssert)
  deriving DecidableEq, Repr

/-- `POLLERR`. -/
def pollErr : UInt16 := 8

/-- What a call of `poll` returns: an error, which is `EINTR` or not, a timeout, or the `revents` of
the exit pipe and of the socket. -/
inductive PollReturn where
  | failed (eintr : Bool)
  | timeout
  | events (exitPipe socket : UInt16)
  deriving DecidableEq, Repr

/-- How the wait ends, if it does. -/
inductive Wait where
  | waiting
  | done
  | ready
  deriving DecidableEq, Repr

/-- The inner loop of the thread, on what its calls of `poll` return. -/
def waitPacket : List PollReturn → Exec RecvAssert Wait
  | [] => .ok .waiting
  | .failed eintr :: polls => do
    assert (eintr = true) .pollErrno
    waitPacket polls
  | .timeout :: _ => .error (.assertion .pollTimeout)
  | .events exitPipe socket :: polls => do
    assert (exitPipe &&& pollErr = 0) .exitPipeError
    assert (socket &&& pollErr = 0) .socketError
    if exitPipe ≠ 0 then .ok .done
    else if socket ≠ 0 then .ok .ready
    else waitPacket polls

/-- What a `poll` without timeout returns on two open descriptors without an error on them. -/
def PollReturn.Regular : PollReturn → Prop
  | .failed eintr => eintr = true
  | .timeout => False
  | .events exitPipe socket => exitPipe &&& pollErr = 0 ∧ socket &&& pollErr = 0

instance PollReturn.decidableRegular : (p : PollReturn) → Decidable p.Regular
  | .failed eintr => inferInstanceAs (Decidable (eintr = true))
  | .timeout => inferInstanceAs (Decidable False)
  | .events exitPipe socket =>
    inferInstanceAs (Decidable (exitPipe &&& pollErr = 0 ∧ socket &&& pollErr = 0))

/-- What a `poll` without timeout on two open descriptors can return: there is no error on the exit
pipe, which nobody else holds, but there may be one on the socket. -/
def PollReturn.Possible : PollReturn → Prop
  | .failed eintr => eintr = true
  | .timeout => False
  | .events exitPipe _ => exitPipe &&& pollErr = 0

instance PollReturn.decidablePossible : (p : PollReturn) → Decidable p.Possible
  | .failed eintr => inferInstanceAs (Decidable (eintr = true))
  | .timeout => inferInstanceAs (Decidable False)
  | .events exitPipe _ => inferInstanceAs (Decidable (exitPipe &&& pollErr = 0))

/-- A call of `poll` in the wait reports an error on the socket, as after a reset by the peer. -/
def ErrorReported : List PollReturn → Prop
  | [] => False
  | .events exitPipe socket :: polls =>
    socket &&& pollErr ≠ 0 ∨ exitPipe = 0 ∧ socket = 0 ∧ ErrorReported polls
  | _ :: polls => ErrorReported polls

instance decidableErrorReported : (polls : List PollReturn) → Decidable (ErrorReported polls)
  | [] => inferInstanceAs (Decidable False)
  | .events exitPipe socket :: polls =>
    have := decidableErrorReported polls
    inferInstanceAs (Decidable
      (socket &&& pollErr ≠ 0 ∨ exitPipe = 0 ∧ socket = 0 ∧ ErrorReported polls))
  | .failed _ :: polls => decidableErrorReported polls
  | .timeout :: polls => decidableErrorReported polls

/-- The wait fails on an error that is reported on the socket, and on nothing else. -/
theorem waitPacket_cases {polls : List PollReturn} (h : ∀ p ∈ polls, p.Possible) :
    (ErrorReported polls ∧ waitPacket polls = .error (.assertion .socketError)) ∨
      (¬ErrorReported polls ∧ ∃ w, waitPacket polls = .ok w) := by
  induction polls with
  | nil => exact .inr ⟨id, .waiting, rfl⟩
  | cons p polls ih =>
    have hrest := ih fun x hx => h x (List.mem_cons_of_mem p hx)
    have hp := h p List.mem_cons_self
    cases p with
    | failed eintr =>
      have heintr : eintr = true := hp
      rw [waitPacket, assert_of heintr, Exec.ok_bind]
      exact hrest
    | timeout => exact hp.elim
    | events exitPipe socket =>
      have hpipe : exitPipe &&& pollErr = 0 := hp
      rw [waitPacket, assert_of hpipe, Exec.ok_bind, ErrorReported]
      by_cases herror : socket &&& pollErr = 0
      · rw [assert_of herror, Exec.ok_bind]
        by_cases hdone : exitPipe = 0
        · by_cases hready : socket = 0
          · rw [if_neg (not_not.2 hdone), if_neg (not_not.2 hready),
              or_iff_right (not_not.2 herror), and_iff_right hdone, and_iff_right hready]
            exact hrest
          · rw [if_neg (not_not.2 hdone), if_pos hready]
            refine .inr ⟨fun hc => ?_, .ready, rfl⟩
            exact hc.elim (absurd herror) fun hc => hready hc.2.1
        · rw [if_pos hdone]
          refine .inr ⟨fun hc => ?_, .done, rfl⟩
          exact hc.elim (absurd herror) fun hc => hdone hc.1
      · exact .inl ⟨.inl herror, by rw [assert_not herror]; rfl⟩

/-- A regular `poll` is a possible one without an error. -/
theorem PollReturn.Regular.possible {p : PollReturn} (h : p.Regular) : p.Possible := by
  cases p with
  | failed eintr => exact h
  | timeout => exact h
  | events exitPipe socket => exact h.1

/-- Regular calls report no error. -/
theorem not_errorReported {polls : List PollReturn} (h : ∀ p ∈ polls, p.Regular) :
    ¬ErrorReported polls := by
  induction polls with
  | nil => exact id
  | cons p polls ih =>
    have hrest := ih fun x hx => h x (List.mem_cons_of_mem p hx)
    have hp := h p List.mem_cons_self
    cases p with
    | failed eintr => exact hrest
    | timeout => exact hrest
    | events exitPipe socket => exact fun hc => hc.elim (absurd hp.2) fun hc => hrest hc.2.2

/-- Without an error on a descriptor the wait does not fail. -/
theorem waitPacket_eq {polls : List PollReturn} (h : ∀ p ∈ polls, p.Regular) :
    ∃ w, waitPacket polls = .ok w := by
  obtain ⟨herror, -⟩ | ⟨-, hw⟩ := waitPacket_cases fun p hp => (h p hp).possible
  · exact absurd herror (not_errorReported h)
  · exact hw

/-- What a round leaves: the tables, the connection, whether the thread goes on, the packet it
handed on and whether a passive connection was established with it. -/
structure Round where
  sys : Demux
  reader : Reader
  running : Bool
  handed : Option (List UInt8)
  established : Bool

/-- A packet joins the receive queue of a context. -/
def MysockContext.enqueue (ctx : MysockContext) (packet : List UInt8) : MysockContext :=
  { ctx with networkRecvQueue := ctx.networkRecvQueue ++ [packet] }

/-- The end of a round of `network_recv_thread_func` that received a packet into `packet_buf`. -/
def dispatch (s : Demux) (sd : Nat) (out : Received) (socket : Int) : Exec RecvAssert Round := do
  assert (out.rc ≤ maxIpPayloadLen) .packetFits
  let n := out.rc.toNat
  if out.ctx.listening then do
    let (established, s) ← (enqueueConnection (s.setContext sd out.ctx) sd out.dst n
      out.ctx.network.peerAddr out.ctx.network.peerAddrLen 0 socket).within .demux
    pure ⟨s, out.reader, true, some (out.dst.take n), established⟩
  else do
    let data ← readAt out.dst 0 n
    pure ⟨s.setContext sd (out.ctx.enqueue data), out.reader, true, some data, false⟩

/-- A round of `network_recv_thread_func` on the context under a descriptor. A failed receive puts
an empty packet in the queue and ends the thread. -/
def networkRecvThread (s : Demux) (sd : Nat) (polls : List PollReturn) (env : RecvEnv)
    (packetBuf : List UInt8) (socket : Int) : Exec RecvAssert Round := do
  match ← waitPacket polls with
  | .waiting => pure ⟨s, env.reader, true, none, false⟩
  | .done => pure ⟨s, env.reader, false, none, false⟩
  | .ready => do
    let ctx ← (derefContext s sd).within .demux
    let out ← (networkRecvPacket ctx env packetBuf maxIpPayloadLen).within .net
    if out.rc ≤ 0 then pure ⟨s.setContext sd (out.ctx.enqueue []), out.reader, false, none, false⟩
    else dispatch s sd out socket

/-- `_network_recv` from the end of its wait on, over the packets of the queue: the number of bytes
it returns, the buffer and the packets left. -/
def networkRecv (queue : List (List UInt8)) (dst : List UInt8) (maxLen : Nat) :
    Exec RecvAssert (Nat × List UInt8 × List (List UInt8)) :=
  match queue with
  | [] => .error .nullPointer
  | packet :: queue =>
    if min maxLen packet.length ≤ dst.length then
      .ok (packet.length, packet.take maxLen ++ dst.drop (min maxLen packet.length), queue)
    else .error .outOfBounds

/-- `stcp_network_recv` into a buffer at address `ptr`; `host` is what the lookup of the host's own
name yields. -/
def stcpNetworkRecv (s : Demux) (sd : Nat) (host : Option UInt32) (ptr : Nat) (dst : List UInt8)
    (maxLen : Nat) : Exec RecvAssert (Nat × List UInt8 × Demux) := do
  let e ← (getContext s sd).within .demux
  let (len, dst, queue) ← networkRecv e.ctx.networkRecvQueue dst maxLen
  let s := s.setContext sd { e.ctx with networkRecvQueue := queue }
  if len = 0 then pure (len, dst, s)
  else do
    let ok ← (verifyChecksum e.ctx.network host ptr dst len).within .sum
    assert (ok = true) .checksum
    pure (len, dst, s)

/-- The list of packets stands for the linked queue: the call is `_mysock_dequeue_buffer` on it. -/
theorem networkRecv_refines {pq : PacketQueue} {queue : List (List UInt8)} (hpq : pq.Holds queue)
    {dst : List UInt8} {maxLen : Nat} (hdst : maxLen ≤ dst.length) {len : Nat} {dst' : List UInt8}
    {queue' : List (List UInt8)} (h : networkRecv queue dst maxLen = .ok (len, dst', queue')) :
    ∃ out, dequeueBuffer pq dst maxLen false = .ok out ∧ out.packetLen = len ∧ out.dst = dst' ∧
      out.queue.Holds queue' := by
  cases queue with
  | nil => exact nomatch h
  | cons packet queue =>
    obtain ⟨pq', hrun, hholds⟩ := dequeueBuffer_whole hpq hdst (.inr rfl)
    rw [networkRecv, if_pos (by omega)] at h
    cases h
    exact ⟨_, hrun, rfl, rfl, hholds⟩

/-- A frame of more than `packet_buf` holds has arrived as far as the buffer. -/
def Oversized (pending : List UInt8) : Prop :=
  match pending with
  | hi :: lo :: rest => maxIpPayloadLen < ntohs [hi, lo] ∧ maxIpPayloadLen ≤ rest.length
  | _ => False

instance decidableOversized (pending : List UInt8) : Decidable (Oversized pending) :=
  match pending with
  | hi :: lo :: rest => inferInstanceAs
      (Decidable (maxIpPayloadLen < ntohs [hi, lo] ∧ maxIpPayloadLen ≤ rest.length))
  | [] => inferInstanceAs (Decidable False)
  | [_] => inferInstanceAs (Decidable False)

/-- A frame that has arrived is a packet that fits the buffer, or an oversized one. -/
theorem readFrame_arrived {r : Reader} {dst : List UInt8} (hdst : dst.length = maxIpPayloadLen)
    (h : FrameArrived r.pending maxIpPayloadLen) :
    (∃ packet left counts, packet ≠ [] ∧ packet.length ≤ maxIpPayloadLen ∧
      r.pending = frame packet ++ left ∧ readFrame r dst maxIpPayloadLen =
        .ok ((packet.length : Int), ⟨left, r.reset, counts⟩, packet ++ dst.drop packet.length)) ∨
    (Oversized r.pending ∧ ∃ n r' dst', maxIpPayloadLen < n ∧
      readFrame r dst maxIpPayloadLen = .ok ((n : Int), r', dst')) := by
  obtain ⟨hi, lo, rest, hpending, hpos, hrest⟩ := h.exists_eq
  have hmin : 0 < min (ntohs [hi, lo]) maxIpPayloadLen := by
    unfold maxIpPayloadLen
    omega
  obtain ⟨counts, hread⟩ := readFrame_eq hpending rfl hmin hdst.ge hrest
  by_cases hfits : ntohs [hi, lo] ≤ maxIpPayloadLen
  · rw [Nat.min_eq_left hfits] at hread hrest
    have hlen : (rest.take (ntohs [hi, lo])).length = ntohs [hi, lo] := by
      rw [List.length_take, Nat.min_eq_left hrest]
    refine .inl ⟨rest.take (ntohs [hi, lo]), rest.drop (ntohs [hi, lo]), counts, ?_, ?_, ?_, ?_⟩
    · exact List.ne_nil_of_length_pos (by omega)
    · omega
    · rw [frame, hlen, htons_ntohs, List.append_assoc, List.take_append_drop, hpending]
      rfl
    · rw [hread, hlen]
  · refine .inr ⟨?_, _, _, _, Nat.lt_of_not_le hfits, hread⟩
    rw [hpending]
    exact ⟨by omega, by omega⟩

/-- An oversized frame has arrived as far as it is read. -/
theorem Oversized.frameArrived {pending : List UInt8} (h : Oversized pending) :
    FrameArrived pending maxIpPayloadLen := by
  unfold Oversized at h
  split at h
  · exact ⟨by omega, by omega⟩
  · exact h.elim

/-- A frame that fits the buffer is not oversized. -/
theorem not_oversized_frame {packet left : List UInt8} (h : packet.length ≤ maxIpPayloadLen) :
    ¬Oversized (frame packet ++ left) := by
  have hlen : ntohs (htons packet.length) = packet.length := by
    unfold maxIpPayloadLen at h
    exact ntohs_htons (by omega)
  exact fun hover => absurd h (Nat.not_le.2 (hlen ▸ hover.1))

/-- An active socket is connected, or the system connects it now. -/
def MysockContext.Connects (ctx : MysockContext) (connectOk : Bool) : Prop :=
  ctx.isActive = true → ctx.network.connected = true ∨ connectOk = true

instance MysockContext.decidableConnects (ctx : MysockContext) (connectOk : Bool) :
    Decidable (ctx.Connects connectOk) :=
  inferInstanceAs (Decidable (_ → _))

/-- The context with its connection made, or not. -/
def MysockContext.setConnected (ctx : MysockContext) (connected : Bool) : MysockContext :=
  { ctx with network := { ctx.network with connected } }

/-- An active socket is connected, or its connection fails. -/
theorem connectActive_cases {ctx : MysockContext}
    (h : ctx.isActive = true → ctx.network.Connectable) (connectOk : Bool) :
    (ctx.Connects connectOk ∧ ∃ c, connectActive ctx connectOk =
      .ok (0, (ctx.setConnected c).network)) ∨
    (¬ctx.Connects connectOk ∧ ∃ c, connectActive ctx connectOk =
      .ok (-1, (ctx.setConnected c).network)) := by
  unfold connectActive MysockContext.Connects
  by_cases hactive : ctx.isActive = true
  · have hconnectable := h hactive
    rw [if_pos hactive, tcpConnect]
    by_cases hconnected : ctx.network.connected = true
    · refine .inl ⟨fun _ => .inl hconnected, true, ?_⟩
      rw [if_pos hconnected, MysockContext.setConnected, ← hconnected]
    · obtain ⟨hvalid, hfamily, hport⟩ := hconnectable.peer.resolve_left hconnected
      rw [if_neg hconnected, assert_of hvalid, assert_of hfamily, assert_of hport]
      cases connectOk with
      | true => exact .inl ⟨fun _ => .inr rfl, true, rfl⟩
      | false =>
        refine .inr ⟨fun hc => ?_, ctx.network.connected, rfl⟩
        rcases hc hactive with hc | hc
        · exact hconnected hc
        · exact nomatch hc
  · rw [if_neg hactive]
    exact .inl ⟨fun hc => absurd hc hactive, ctx.network.connected, rfl⟩

/-- A receive on an established connection ends it, or reads a frame. -/
theorem networkRecvPacket_established {ctx : MysockContext} (h : ctx.Receiving) (env : RecvEnv)
    (dst : List UInt8) (maxLen : Nat) :
    ∃ c, (¬ctx.Connects env.connectOk ∧ networkRecvPacket ctx env dst maxLen =
        .ok ⟨-1, ctx.setConnected c, env.reader, dst⟩) ∨
      (ctx.Connects env.connectOk ∧ ∀ rc r' dst', readFrame env.reader dst maxLen =
        .ok (rc, r', dst') →
        networkRecvPacket ctx env dst maxLen = .ok ⟨rc, ctx.setConnected c, r', dst'⟩) := by
  have hlistening : ¬(ctx.listening = true) := by simp [h.notListening]
  rcases connectActive_cases h.active env.connectOk with ⟨hconnects, c, hcall⟩ | ⟨hnot, c, hcall⟩
  · refine ⟨c, .inr ⟨hconnects, fun rc r' dst' hread => ?_⟩⟩
    simp only [networkRecvPacket, assert_of h.socket, Exec.ok_bind, hcall, Int.lt_irrefl, if_false,
      acceptPeer, if_neg hlistening, Bool.true_eq_false, hread, Exec.pure_eq_ok]
    rfl
  · refine ⟨c, .inl ⟨hnot, ?_⟩⟩
    simp only [networkRecvPacket, assert_of h.socket, Exec.ok_bind, hcall, Int.reduceNeg,
      Int.reduceLT, if_true, Exec.pure_eq_ok]
    rfl

/-- A round that is ready receives into the packet buffer, and passes on what it received. -/
theorem networkRecvThread_received {s : Demux} {sd : Nat} {e : Entry}
    (he : s.globalCtx sd = some e) {polls : List PollReturn} (hw : waitPacket polls = .ok .ready)
    {env : RecvEnv} {packetBuf : List UInt8} {out : Received}
    (hcall : networkRecvPacket e.ctx env packetBuf maxIpPayloadLen = .ok out) (socket : Int) :
    networkRecvThread s sd polls env packetBuf socket =
      if out.rc ≤ 0 then
        .ok ⟨s.setContext sd (out.ctx.enqueue []), out.reader, false, none, false⟩
      else dispatch s sd out socket := by
  have hderef : derefContext s sd = .ok e.ctx := by rw [derefContext, he]
  simp only [networkRecvThread, hw, Exec.ok_bind, hderef, Exec.within_ok, hcall, Exec.pure_eq_ok]

/-- An error on the socket fails the assertion. -/
theorem networkRecvThread_of_error {polls : List PollReturn} {fault : Fault RecvAssert}
    (hw : waitPacket polls = .error fault) (s : Demux) (sd : Nat) (env : RecvEnv)
    (packetBuf : List UInt8) (socket : Int) :
    networkRecvThread s sd polls env packetBuf socket = .error fault := by
  rw [networkRecvThread, hw]
  rfl

/-- A frame that is longer than the packet buffer fails the assertion. -/
theorem dispatch_oversized {n : Nat} (hn : maxIpPayloadLen < n) (s : Demux) (sd : Nat)
    (ctx : MysockContext) (reader : Reader) (dst : List UInt8) (socket : Int) :
    dispatch s sd ⟨n, ctx, reader, dst⟩ socket = .error (.assertion .packetFits) := by
  have hfits : ¬((n : Int) ≤ maxIpPayloadLen) := by omega
  simp only [dispatch, assert_not hfits, Exec.error_bind]

/-- Any other packet joins the queue of a connection. -/
theorem dispatch_connected {packet : List UInt8} (hle : packet.length ≤ maxIpPayloadLen)
    {ctx : MysockContext} (hctx : ctx.listening = false) (s : Demux) (sd : Nat) (reader : Reader)
    (rest : List UInt8) (socket : Int) :
    dispatch s sd ⟨packet.length, ctx, reader, packet ++ rest⟩ socket =
      .ok ⟨s.setContext sd (ctx.enqueue packet), reader, true, some packet, false⟩ := by
  have hfits : (packet.length : Int) ≤ maxIpPayloadLen := by omega
  simp only [dispatch, assert_of hfits, Exec.ok_bind, hctx, Bool.false_eq_true, if_false,
    Int.toNat_natCast, readAt_prefix, Exec.pure_eq_ok]

/-- What a round of an established connection does. -/
theorem networkRecvThread_established {s : Demux} {sd : Nat} {e : Entry}
    (he : s.globalCtx sd = some e) (h : e.ctx.Receiving) {polls : List PollReturn}
    (hwait : ∃ w, waitPacket polls = .ok w) (env : RecvEnv) {packetBuf : List UInt8}
    (hbuf : packetBuf.length = maxIpPayloadLen) (socket : Int) :
    (waitPacket polls ≠ .ok .ready ∧ ∃ running, networkRecvThread s sd polls env packetBuf socket =
      .ok ⟨s, env.reader, running, none, false⟩) ∨
    (waitPacket polls = .ok .ready ∧
      ¬(e.ctx.Connects env.connectOk ∧ FrameArrived env.reader.pending maxIpPayloadLen) ∧
      ∃ c reader, networkRecvThread s sd polls env packetBuf socket =
        .ok ⟨s.setContext sd ((e.ctx.setConnected c).enqueue []), reader, false, none, false⟩) ∨
    (waitPacket polls = .ok .ready ∧ e.ctx.Connects env.connectOk ∧
      ∃ c packet left counts, packet.length ≤ maxIpPayloadLen ∧
        env.reader.pending = frame packet ++ left ∧
        networkRecvThread s sd polls env packetBuf socket =
          .ok ⟨s.setContext sd ((e.ctx.setConnected c).enqueue packet),
            ⟨left, env.reader.reset, counts⟩, true, some packet, false⟩) ∨
    (waitPacket polls = .ok .ready ∧ e.ctx.Connects env.connectOk ∧
      Oversized env.reader.pending ∧
      networkRecvThread s sd polls env packetBuf socket = .error (.assertion .packetFits)) := by
  obtain ⟨w, hw⟩ := hwait
  cases w with
  | waiting => exact .inl ⟨by simp [hw], true, by simp [networkRecvThread, hw]⟩
  | done => exact .inl ⟨by simp [hw], false, by simp [networkRecvThread, hw]⟩
  | ready =>
  refine .inr ?_
  obtain ⟨c, ⟨hnot, hcall⟩ | ⟨hconnects, hcall⟩⟩ :=
    networkRecvPacket_established h env packetBuf maxIpPayloadLen
  · exact .inl ⟨hw, fun hc => hnot hc.1, c, env.reader,
      networkRecvThread_received he hw hcall socket⟩
  by_cases harrived : FrameArrived env.reader.pending maxIpPayloadLen
  · rcases readFrame_arrived hbuf harrived with
      ⟨packet, left, counts, hne, hle, hpending, hread⟩ | ⟨hover, n, r', dst', hn, hread⟩
    · have hpos := List.length_pos_iff.2 hne
      have hrc : ¬((packet.length : Int) ≤ 0) := by omega
      have hlistening : (e.ctx.setConnected c).listening = false := h.notListening
      refine .inr (.inl ⟨hw, hconnects, c, packet, left, counts, hle, hpending, ?_⟩)
      rw [networkRecvThread_received he hw (hcall _ _ _ hread), if_neg hrc,
        dispatch_connected hle hlistening]
    · have hrc : ¬((n : Int) ≤ 0) := by omega
      refine .inr (.inr ⟨hw, hconnects, hover, ?_⟩)
      rw [networkRecvThread_received he hw (hcall _ _ _ hread), if_neg hrc, dispatch_oversized hn]
  · obtain ⟨rc, r', dst', hrc, hread⟩ := readFrame_stop hbuf.ge harrived
    refine .inl ⟨hw, fun hc => harrived hc.2, c, r', ?_⟩
    rw [networkRecvThread_received he hw (hcall _ _ _ hread), if_pos hrc]

/-- The listener with the length of the address it asks for. -/
def MysockContext.clearPeer (ctx : MysockContext) : MysockContext :=
  { ctx with network := { ctx.network with peerAddrLen := 16 } }

/-- The listener with a connection it accepted. -/
def MysockContext.accept (ctx : MysockContext) (sd : Int) (peer : Sockaddr) : MysockContext :=
  { ctx with network := { ctx.network with peerAddr := peer, peerAddrLen := 16, newSocket := sd } }

/-- A socket that accepts connections. -/
structure MysockContext.Accepting (ctx : MysockContext) : Prop where
  listening : ctx.listening = true
  notActive : ctx.isActive = false
  socket : 0 ≤ ctx.network.socket

theorem connectActive_accepting {ctx : MysockContext} (h : ctx.Accepting) (connectOk : Bool) :
    connectActive ctx connectOk = .ok (0, ctx.network) := by
  rw [connectActive, h.notActive]
  rfl

/-- Without a connection, a receive on a listening socket fails. -/
theorem networkRecvPacket_refused {ctx : MysockContext} (h : ctx.Accepting) {env : RecvEnv}
    (henv : env.accepted = none) (dst : List UInt8) (maxLen : Nat) :
    networkRecvPacket ctx env dst maxLen = .ok ⟨-1, ctx.clearPeer, env.reader, dst⟩ := by
  simp only [networkRecvPacket, assert_of h.socket, Exec.ok_bind, connectActive_accepting h,
    Int.lt_irrefl, if_false, acceptPeer, if_pos h.listening, henv, if_true, Exec.pure_eq_ok]
  rfl

/-- A connection that was accepted before and never passed on fails the assertion. -/
theorem networkRecvPacket_taken {ctx : MysockContext} (h : ctx.Accepting) {env : RecvEnv} {sd : Int}
    {peer : Sockaddr} (henv : env.accepted = some (sd, peer)) (hnew : ctx.network.newSocket ≠ -1)
    (dst : List UInt8) (maxLen : Nat) :
    networkRecvPacket ctx env dst maxLen = .error (.assertion .newSocketFree) := by
  simp only [networkRecvPacket, assert_of h.socket, Exec.ok_bind, connectActive_accepting h,
    Int.lt_irrefl, if_false, acceptPeer, if_pos h.listening, henv, assert_not hnew,
    Exec.error_bind]

/-- A new connection is read from. -/
theorem networkRecvPacket_accepted {ctx : MysockContext} (h : ctx.Accepting) {env : RecvEnv}
    {sd rc : Int} {peer : Sockaddr} {r' : Reader} {dst dst' : List UInt8} {maxLen : Nat}
    (henv : env.accepted = some (sd, peer)) (hnew : ctx.network.newSocket = -1)
    (hread : readFrame env.reader dst maxLen = .ok (rc, r', dst')) :
    networkRecvPacket ctx env dst maxLen = .ok ⟨rc, ctx.accept sd peer, r', dst'⟩ := by
  simp only [networkRecvPacket, assert_of h.socket, Exec.ok_bind, connectActive_accepting h,
    Int.lt_irrefl, if_false, acceptPeer, if_pos h.listening, henv, assert_of hnew,
    Bool.true_eq_false, hread, Exec.pure_eq_ok]
  rfl

/-- A packet for a listening socket is passed on to its queue. -/
theorem dispatch_listening {packet rest : List UInt8} (hle : packet.length ≤ maxIpPayloadLen)
    {ctx : MysockContext} (hctx : ctx.listening = true) {s s' : Demux} {sd : Nat} {socket : Int}
    {established : Bool}
    (hcall : enqueueConnection (s.setContext sd ctx) sd (packet ++ rest) packet.length
      ctx.network.peerAddr ctx.network.peerAddrLen 0 socket = .ok (established, s'))
    (reader : Reader) :
    dispatch s sd ⟨packet.length, ctx, reader, packet ++ rest⟩ socket =
      .ok ⟨s', reader, true, some packet, established⟩ := by
  have hfits : (packet.length : Int) ≤ maxIpPayloadLen := by omega
  simp only [dispatch, assert_of hfits, Exec.ok_bind, hctx, if_true, Int.toNat_natCast, hcall,
    Exec.within_ok, List.take_left, Exec.pure_eq_ok]

/-- What a round of a listening socket does. -/
theorem networkRecvThread_accepting {s : Demux} {sd : Nat} {e : Entry}
    (he : s.globalCtx sd = some e) (h : e.ctx.Accepting) {polls : List PollReturn}
    (hwait : ∃ w, waitPacket polls = .ok w) (env : RecvEnv) {packetBuf : List UInt8}
    (hbuf : packetBuf.length = maxIpPayloadLen) (socket : Int) :
    (∃ running, waitPacket polls = .ok (if running then .waiting else .done) ∧
      networkRecvThread s sd polls env packetBuf socket =
        .ok ⟨s, env.reader, running, none, false⟩) ∨
    (waitPacket polls = .ok .ready ∧ env.accepted = none ∧
      networkRecvThread s sd polls env packetBuf socket =
        .ok ⟨s.setContext sd (e.ctx.clearPeer.enqueue []), env.reader, false, none, false⟩) ∨
    (waitPacket polls = .ok .ready ∧ ∃ fd peer, env.accepted = some (fd, peer) ∧
      ((e.ctx.network.newSocket ≠ -1 ∧
          networkRecvThread s sd polls env packetBuf socket =
            .error (.assertion (.net .newSocketFree))) ∨
        (e.ctx.network.newSocket = -1 ∧ ¬FrameArrived env.reader.pending maxIpPayloadLen ∧
          ∃ reader, networkRecvThread s sd polls env packetBuf socket = .ok
            ⟨s.setContext sd ((e.ctx.accept fd peer).enqueue []), reader, false, none, false⟩) ∨
        (e.ctx.network.newSocket = -1 ∧ Oversized env.reader.pending ∧
          networkRecvThread s sd polls env packetBuf socket = .error (.assertion .packetFits)) ∨
        (e.ctx.network.newSocket = -1 ∧
          ∃ packet left counts, packet ≠ [] ∧ packet.length ≤ maxIpPayloadLen ∧
            env.reader.pending = frame packet ++ left ∧
            ∀ b s', enqueueConnection (s.setContext sd (e.ctx.accept fd peer)) sd
                (packet ++ packetBuf.drop packet.length) packet.length peer 16 0 socket =
                  .ok (b, s') →
              networkRecvThread s sd polls env packetBuf socket =
                .ok ⟨s', ⟨left, env.reader.reset, counts⟩, true, some packet, b⟩))) := by
  have hderef : derefContext s sd = .ok e.ctx := by rw [derefContext, he]
  obtain ⟨w, hw⟩ := hwait
  cases w with
  | waiting => exact .inl ⟨true, hw, by simp [networkRecvThread, hw]⟩
  | done => exact .inl ⟨false, hw, by simp [networkRecvThread, hw]⟩
  | ready =>
  refine .inr ?_
  cases haccepted : env.accepted with
  | none =>
    refine .inl ⟨hw, rfl, ?_⟩
    exact networkRecvThread_received he hw (networkRecvPacket_refused h haccepted _ _) socket
  | some connection =>
  obtain ⟨fd, peer⟩ := connection
  refine .inr ⟨hw, fd, peer, rfl, ?_⟩
  by_cases hnew : e.ctx.network.newSocket = -1
  · refine .inr ?_
    by_cases harrived : FrameArrived env.reader.pending maxIpPayloadLen
    · refine .inr ?_
      rcases readFrame_arrived hbuf harrived with
        ⟨packet, left, counts, hne, hle, hpending, hread⟩ | ⟨hover, n, r', dst', hn, hread⟩
      · have hpos := List.length_pos_iff.2 hne
        have hrc : ¬((packet.length : Int) ≤ 0) := by omega
        have hlistening : (e.ctx.accept fd peer).listening = true := h.listening
        refine .inr ⟨hnew, packet, left, counts, hne, hle, hpending, fun b s' hcall => ?_⟩
        rw [networkRecvThread_received he hw (networkRecvPacket_accepted h haccepted hnew hread),
          if_neg hrc, dispatch_listening hle hlistening hcall]
      · have hrc : ¬((n : Int) ≤ 0) := by omega
        refine .inl ⟨hnew, hover, ?_⟩
        rw [networkRecvThread_received he hw (networkRecvPacket_accepted h haccepted hnew hread),
          if_neg hrc, dispatch_oversized hn]
    · obtain ⟨rc, r', dst', hrc, hread⟩ := readFrame_stop hbuf.ge harrived
      refine .inl ⟨hnew, harrived, r', ?_⟩
      rw [networkRecvThread_received he hw (networkRecvPacket_accepted h haccepted hnew hread),
        if_pos hrc]
  · refine .inl ⟨hnew, ?_⟩
    simp only [networkRecvThread, hw, Exec.ok_bind, hderef, Exec.within_ok,
      networkRecvPacket_taken h haccepted hnew, Exec.within_error, Exec.error_bind]
    rfl

/-- What `stcp_network_recv` can take off the queue: the empty packet that ends a connection, or a
segment that fits the buffer and carries its checksum. -/
def Verifiable (ctx : NetworkContext) (ip : UInt32) (maxLen : Nat) (packet : List UInt8) : Prop :=
  packet = [] ∨ (headerSize ≤ packet.length ∧ packet.length ≤ maxLen ∧
    swap (rfc793Checksum (le32 ctx.peerAddr.addr) (le32 ip) packet) = wordAt packet 8)

instance decidableVerifiable (ctx : NetworkContext) (ip : UInt32) (maxLen : Nat)
    (packet : List UInt8) : Decidable (Verifiable ctx ip maxLen packet) :=
  inferInstanceAs (Decidable (_ ∨ _))

theorem wordAt_append {packet rest : List UInt8} {k : Nat} (h : 2 * k + 1 < packet.length) :
    wordAt (packet ++ rest) k = wordAt packet k := by
  simp only [wordAt, List.getD_eq_getElem?_getD]
  rw [List.getElem?_append_left (by omega), List.getElem?_append_left h]

/-- A packet is taken if it is verifiable; otherwise the call does not return. -/
theorem stcpNetworkRecv_cases {s : Demux} {sd : Nat} {e : Entry} {packet : List UInt8}
    {queue : List (List UInt8)} (hget : getContext s sd = .ok e)
    (hqueue : e.ctx.networkRecvQueue = packet :: queue) (hpeer : e.ctx.network.PeerKnown)
    (haddr : 0 < e.ctx.network.peerAddr.addr) {ip : UInt32} (hip : 0 < ip) {ptr : Nat}
    (hptr : ptr &&& 2 = 0) (hmax : packet.length ≤ maxIpPayloadLen) {dst : List UInt8} :
    (Verifiable e.ctx.network ip dst.length packet ∧ ∃ dst',
      stcpNetworkRecv s sd (some ip) ptr dst dst.length =
        .ok (packet.length, dst', s.setContext sd { e.ctx with networkRecvQueue := queue })) ∨
    (¬Verifiable e.ctx.network ip dst.length packet ∧
      (stcpNetworkRecv s sd (some ip) ptr dst dst.length = .error (.assertion .checksum) ∨
        ∃ fault, stcpNetworkRecv s sd (some ip) ptr dst dst.length =
          .error (Fault.map RecvAssert.sum fault))) := by
  have hrecv : networkRecv e.ctx.networkRecvQueue dst dst.length = .ok (packet.length,
      packet.take dst.length ++ dst.drop (min dst.length packet.length), queue) := by
    rw [hqueue, networkRecv, if_pos (Nat.min_le_left _ _)]
  by_cases hzero : packet.length = 0
  · refine .inl ⟨.inl (List.eq_nil_of_length_eq_zero hzero),
      packet.take dst.length ++ dst.drop (min dst.length packet.length), ?_⟩
    simp only [stcpNetworkRecv, hget, Exec.within_ok, Exec.ok_bind, hrecv, if_pos hzero,
      Exec.pure_eq_ok]
  have hne : packet ≠ [] := fun h => hzero (by rw [h]; rfl)
  generalize hdst' : packet.take dst.length ++ dst.drop (min dst.length packet.length) = dst'
    at hrecv
  have hlen' : dst'.length = dst.length := by
    rw [← hdst', List.length_append, List.length_take, List.length_drop]
    omega
  cases hverify : verifyChecksum e.ctx.network (some ip) ptr dst' packet.length with
  | error fault =>
    refine .inr ⟨?_, .inr ⟨fault, ?_⟩⟩
    · rintro (hnil | ⟨hheader, hfits, -⟩)
      · exact hne hnil
      · rw [verifyChecksum_eq hpeer haddr hip hptr hheader hmax (hlen' ▸ hfits)] at hverify
        cases hverify
    · simp only [stcpNetworkRecv, hget, Exec.within_ok, Exec.ok_bind, hrecv, if_neg hzero, hverify,
        Exec.within_error]
      rfl
  | ok b =>
    obtain ⟨hheader, hfits⟩ := verifyChecksum_ok hverify
    rw [hlen'] at hfits
    rw [List.take_of_length_le hfits] at hdst'
    have hb := verifyChecksum_eq hpeer haddr hip hptr hheader hmax (hlen' ▸ hfits)
    have hword : 2 * 8 + 1 < packet.length := by
      unfold headerSize at hheader
      omega
    rw [hverify, ← hdst', List.take_left, wordAt_append hword] at hb
    have hrun : stcpNetworkRecv s sd (some ip) ptr dst dst.length =
        (do assert (b = true) .checksum
            pure (packet.length, dst',
              s.setContext sd { e.ctx with networkRecvQueue := queue })) := by
      simp only [stcpNetworkRecv, hget, Exec.within_ok, Exec.ok_bind, hrecv, if_neg hzero, hverify]
    have hiff : b = true ↔ Verifiable e.ctx.network ip dst.length packet := by
      rw [Except.ok.inj hb, beq_iff_eq]
      exact ⟨fun hsum => .inr ⟨hheader, hfits, hsum⟩, fun h => (h.resolve_left hne).2.2⟩
    cases b with
    | true => exact .inl ⟨hiff.1 rfl, dst', by rw [hrun]; rfl⟩
    | false => exact .inr ⟨fun h => Bool.false_ne_true (hiff.2 h), .inl (by rw [hrun]; rfl)⟩

end ComputerNetworks.Mysock
