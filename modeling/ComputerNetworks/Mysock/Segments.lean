import ComputerNetworks.Mysock.Datagram
import ComputerNetworks.Mysock.Receiver

/-!
# Segments from one transport layer to the other

`stcp_network_send` of `stcp_api.c` puts a segment together and fills in its
header; the frame goes over the connection, the receive thread puts it in the
queue, and `stcp_network_recv` takes it from there. The calls at the two ends come
in any order, and any number of segments may be under way.
-/

namespace ComputerNetworks.Mysock

open OnesComplement

/-- The assertions of `stcp_network_send` and of what it calls. -/
inductive SendAssert where
  /-- `assert(src_len <= sizeof(packet))`. -/
  | srcLen
  /-- `assert(packet_len + next_len <= sizeof(packet))`. -/
  | nextLen
  /-- `assert(packet_len >= sizeof(struct tcphdr))`. -/
  | headerLen
  /-- `VERIFY_SOCKET` of `_network_get_port`. -/
  | socketOpen
  /-- `assert(0)` after a failed `getsockname`. -/
  | sockname
  /-- `assert(sin.sin_family == AF_INET)`. -/
  | sockFamily
  /-- `assert(ctx->network_state.peer_addr.sa_family == AF_INET)`. -/
  | peerFamily
  /-- `assert(header->th_dport > 0)`. -/
  | destPort
  /-- Those of the checksum. -/
  | sum (site : SumAssert)
  /-- Those of the TCP layer. -/
  | net (site : NetAssert)
  deriving DecidableEq, Repr

/-- The copies into `packet`, behind the first one: the bytes that are in it. -/
def gather : List (List UInt8) → List UInt8 → Exec SendAssert (List UInt8)
  | [], packet => .ok packet
  | next :: bufs, packet => do
    assert (packet.length + next.length ≤ maxIpPayloadLen) .nextLen
    gather bufs (packet ++ next)

/-- `_network_get_port`, with what `getsockname` yields and the family it then checks. -/
def Segments.networkGetPort (ctx : NetworkContext) (sockname : Option Sockaddr) :
    Exec SendAssert UInt16 := do
  assert (0 ≤ ctx.socket) .socketOpen
  match sockname with
  | none => .error (.assertion .sockname)
  | some sin => do
    assert (sin.family = afInet) .sockFamily
    pure sin.port

/-- Store a `uint16_t`. -/
def setWord (packet : List UInt8) (off : Nat) (v : UInt16) : List UInt8 :=
  (packet.set off v.toUInt8).set (off + 1) (v >>> 8).toUInt8

/-- The fields of the header that are filled in before the checksum. -/
def fillHeader (packet : List UInt8) (sport dport : UInt16) : List UInt8 :=
  setWord (setWord (setWord (setWord packet 0 sport) 2 dport) 16 0) 18 0

/-- `stcp_network_send` with the pairs of buffers and lengths up to the `NULL`; `ptr` is the address
of its array. -/
def stcpNetworkSend (ctx : NetworkContext) (sockname : Option Sockaddr) (host : Option UInt32)
    (ptr : Nat) (connectOk : Bool) (w : Writer) (src : List UInt8) (bufs : List (List UInt8)) :
    Exec SendAssert (Int × NetworkContext × Writer) := do
  assert (src.length ≤ maxIpPayloadLen) .srcLen
  let packet ← gather bufs src
  assert (headerSize ≤ packet.length) .headerLen
  let sport ← Segments.networkGetPort ctx sockname
  assert (ctx.peerAddr.family = afInet) .peerFamily
  assert (0 < ctx.peerAddr.port) .destPort
  let packet := fillHeader packet sport ctx.peerAddr.port
  let packet ← (setChecksum ctx host ptr packet packet.length).within .sum
  (networkSendPacket ctx connectOk w packet packet.length).within .net

/-- What the two ends have to do with each other: the receiving socket, the peer that the sender has
for it, and the name and address of the sender. -/
structure SegmentEnv where
  sd : Nat
  peer : Sockaddr
  sockname : Sockaddr
  ip : UInt32
  deriving DecidableEq, Repr

/-- The segment that carries a packet. -/
def SegmentEnv.segment (env : SegmentEnv) (packet : List UInt8) : List UInt8 :=
  let packet := fillHeader packet env.sockname.port env.peer.port
  let c := rfc793Checksum (le32 env.ip) (le32 env.peer.addr) packet
  (packet.set 16 (UInt8.ofNat (c / 256))).set 17 (UInt8.ofNat c)

/-- Buffers that fit are put together. -/
theorem gather_eq {bufs : List (List UInt8)} {packet : List UInt8}
    (h : (packet ++ bufs.flatten).length ≤ maxIpPayloadLen) :
    gather bufs packet = .ok (packet ++ bufs.flatten) := by
  induction bufs generalizing packet with
  | nil => rw [gather, List.flatten_nil, List.append_nil]
  | cons next bufs ih =>
    rw [List.flatten_cons, ← List.append_assoc] at h ⊢
    have hnext : packet.length + next.length ≤ maxIpPayloadLen := by
      rw [List.length_append, List.length_append] at h
      omega
    rw [gather, assert_of hnext, Exec.ok_bind, ih h]

/-- Buffers that are too long together stop at an assertion. -/
theorem gather_ok {bufs : List (List UInt8)} {packet out : List UInt8}
    (hpacket : packet.length ≤ maxIpPayloadLen) (h : gather bufs packet = .ok out) :
    out = packet ++ bufs.flatten ∧ out.length ≤ maxIpPayloadLen := by
  induction bufs generalizing packet with
  | nil =>
    cases h
    rw [List.flatten_nil, List.append_nil]
    exact ⟨rfl, hpacket⟩
  | cons next bufs ih =>
    obtain ⟨_, hnext, h⟩ := Exec.bind_eq_ok.1 h
    rw [assert_eq_ok, ← List.length_append] at hnext
    rw [List.flatten_cons, ← List.append_assoc]
    exact ih hnext h

@[simp] theorem setWord_length (packet : List UInt8) (off : Nat) (v : UInt16) :
    (setWord packet off v).length = packet.length := by
  rw [setWord, List.length_set, List.length_set]

@[simp] theorem fillHeader_length (packet : List UInt8) (sport dport : UInt16) :
    (fillHeader packet sport dport).length = packet.length := by
  simp only [fillHeader, setWord_length]

variable {env : SegmentEnv}

@[simp] theorem SegmentEnv.segment_length (packet : List UInt8) :
    (env.segment packet).length = packet.length := by
  simp only [segment, List.length_set, fillHeader_length]

/-- Only fields of the header are written. -/
theorem SegmentEnv.segment_data (packet : List UInt8) :
    (env.segment packet).drop headerSize = packet.drop headerSize := by
  have hset : ∀ (s : List UInt8) (i : Nat) (c : UInt8), i < headerSize →
      (s.set i c).drop headerSize = s.drop headerSize := by
    intro s i c hi
    exact List.drop_set_of_lt hi
  simp only [segment, fillHeader, setWord]
  simp only [hset _ _ _ (show 0 < headerSize by decide), hset _ _ _ (show 1 < headerSize by decide),
    hset _ _ _ (show 2 < headerSize by decide), hset _ _ _ (show 3 < headerSize by decide),
    hset _ _ _ (show 16 < headerSize by decide), hset _ _ _ (show 17 < headerSize by decide),
    hset _ _ _ (show 18 < headerSize by decide), hset _ _ _ (show 19 < headerSize by decide)]

/-- The addresses of the two ends are those of hosts, and the peer has a port. -/
structure SegmentEnv.Valid (env : SegmentEnv) : Prop where
  family : env.sockname.family = afInet
  port : 0 < env.peer.port
  addr : 0 < env.peer.addr
  ip : 0 < env.ip

/-- The sender is connected, or can be, to the peer. -/
structure SegmentEnv.Sends (env : SegmentEnv) (ctx : NetworkContext) : Prop where
  connectable : ctx.Connectable
  known : ctx.PeerKnown
  peer : ctx.peerAddr = env.peer

/-- The port is that of the name of the socket. -/
theorem Segments.networkGetPort_eq {ctx : NetworkContext} (hsocket : 0 ≤ ctx.socket)
    (hfamily : env.sockname.family = afInet) :
    Segments.networkGetPort ctx (some env.sockname) = .ok env.sockname.port := by
  simp only [Segments.networkGetPort, assert_of hsocket, assert_of hfamily, Exec.ok_bind,
    Exec.pure_eq_ok]

/-- A packet of the right size goes onto the connection as a segment. -/
theorem stcpNetworkSend_eq {ctx : NetworkContext} (hctx : env.Sends ctx) (hvalid : env.Valid)
    {ptr : Nat} (hptr : ptr &&& 2 = 0) {src : List UInt8} {bufs : List (List UInt8)}
    (hmin : headerSize ≤ (src ++ bufs.flatten).length)
    (hmax : (src ++ bufs.flatten).length ≤ maxIpPayloadLen) (w : Writer) :
    ∃ counts, stcpNetworkSend ctx (some env.sockname) (some env.ip) ptr true w src bufs =
      .ok (((src ++ bufs.flatten).length : Int), { ctx with connected := true },
        ⟨w.sent ++ frame (env.segment (src ++ bufs.flatten)), counts⟩) := by
  have hsrc : src.length ≤ maxIpPayloadLen := by
    rw [List.length_append] at hmax
    omega
  generalize hpacket : src ++ bufs.flatten = packet at hmin hmax
  have hgather := gather_eq (hpacket ▸ hmax)
  rw [hpacket] at hgather
  have hfamily := hctx.known.family
  have hport : 0 < ctx.peerAddr.port := hctx.peer ▸ hvalid.port
  have hset : setChecksum ctx (some env.ip) ptr
      (fillHeader packet env.sockname.port ctx.peerAddr.port)
      (fillHeader packet env.sockname.port ctx.peerAddr.port).length = .ok
        (env.segment packet) := by
    have haddr : 0 < ctx.peerAddr.addr := hctx.peer ▸ hvalid.addr
    rw [setChecksum_eq hctx.known hvalid.ip haddr hptr (by rw [fillHeader_length]; exact hmin)
      (by rw [fillHeader_length]; exact hmax) rfl, hctx.peer]
    rfl
  obtain ⟨counts, hsend⟩ := networkSendPacket_eq hctx.connectable hctx.known.len w
    (env.segment packet)
  rw [SegmentEnv.segment_length] at hsend
  refine ⟨counts, ?_⟩
  simp only [stcpNetworkSend, assert_of hsrc, hgather, assert_of hmin,
    Segments.networkGetPort_eq hctx.connectable.socket hvalid.family, assert_of hfamily,
    assert_of hport, hset, Exec.ok_bind, Exec.within_ok, SegmentEnv.segment_length, hsend]

/-- Any other stops at an assertion. -/
theorem stcpNetworkSend_ok {ctx : NetworkContext} {sockname : Option Sockaddr}
    {host : Option UInt32} {ptr : Nat} {connectOk : Bool} {w : Writer} {src : List UInt8}
    {bufs : List (List UInt8)} {out : Int × NetworkContext × Writer}
    (h : stcpNetworkSend ctx sockname host ptr connectOk w src bufs = .ok out) :
    headerSize ≤ (src ++ bufs.flatten).length ∧ (src ++ bufs.flatten).length ≤ maxIpPayloadLen := by
  obtain ⟨_, hsrc, h⟩ := Exec.bind_eq_ok.1 h
  obtain ⟨packet, hgather, h⟩ := Exec.bind_eq_ok.1 h
  obtain ⟨_, hmin, -⟩ := Exec.bind_eq_ok.1 h
  rw [assert_eq_ok] at hsrc hmin
  obtain ⟨rfl, hmax⟩ := gather_ok hsrc hgather
  exact ⟨hmin, hmax⟩

/-- The assertions at the two ends. -/
inductive LinkAssert where
  | sender (site : SendAssert)
  | receiver (site : RecvAssert)
  deriving DecidableEq, Repr

/-- The sending end, the receiving process, the bytes between them, whether the receive thread is
running, and the history: the segments sent and those returned. -/
structure Link where
  sender : NetworkContext
  sys : Demux
  stream : List UInt8
  running : Bool
  sent : List (List UInt8)
  received : List (List UInt8)

/-- A call of `stcp_network_send`, a round of the receive thread, or a call of
`stcp_network_recv`. -/
inductive LinkOp where
  | send (src : List UInt8) (bufs : List (List UInt8)) (ptr : Nat) (counts : List Nat)
  | round (polls : List PollReturn) (packetBuf : List UInt8) (counts : List Nat) (socket : Int)
  | recv (ptr : Nat) (dst : List UInt8)
  deriving DecidableEq, Repr

/-- The thread goes on until it is told to exit, and `poll` reports the socket only where something
has arrived; a segment is taken once there is one. -/
def LinkOp.Enabled (env : SegmentEnv) (l : Link) : LinkOp → Prop
  | .send _ _ ptr _ => ptr &&& 2 = 0
  | .round polls packetBuf _ _ =>
    l.running = true ∧ (∀ p ∈ polls, p.Regular) ∧ packetBuf.length = maxIpPayloadLen ∧
      (waitPacket polls = .ok .ready → l.stream ≠ [])
  | .recv ptr _ =>
    ptr &&& 2 = 0 ∧ ∃ e ∈ l.sys.globalCtx env.sd, e.ctx.networkRecvQueue ≠ []

instance LinkOp.decidableEnabled (env : SegmentEnv) (l : Link) :
    (op : LinkOp) → Decidable (op.Enabled env l)
  | .send _ _ _ _ => inferInstanceAs (Decidable (_ = _))
  | .round _ _ _ _ => inferInstanceAs (Decidable (_ ∧ _))
  | .recv _ _ => inferInstanceAs (Decidable (_ ∧ _))

/-- What the callers have to see to: a segment has a header and fits `packet`, and the buffer takes
the segment at the front of the queue. -/
def LinkOp.Fits (env : SegmentEnv) (l : Link) : LinkOp → Prop
  | .send src bufs _ _ =>
    headerSize ≤ (src ++ bufs.flatten).length ∧ (src ++ bufs.flatten).length ≤ maxIpPayloadLen
  | .round _ _ _ _ => True
  | .recv _ dst => ∀ e ∈ l.sys.globalCtx env.sd, ∀ segment ∈ e.ctx.networkRecvQueue.head?,
      segment.length ≤ dst.length

instance LinkOp.decidableFits (env : SegmentEnv) (l : Link) :
    (op : LinkOp) → Decidable (op.Fits env l)
  | .send _ _ _ _ => inferInstanceAs (Decidable (_ ∧ _))
  | .round _ _ _ _ => inferInstanceAs (Decidable True)
  | .recv _ _ => inferInstanceAs (Decidable (∀ _, _))

/-- The two ends of a connection in one direction. The host of the receiver has the address that the
sender uses for it. -/
def linkMachine (env : SegmentEnv) : Machine LinkAssert Link LinkOp where
  enabled := fun l op => op.Enabled env l
  step := fun l op =>
    match op with
    | .send src bufs ptr counts => do
      let (_, sender, w) ← (stcpNetworkSend l.sender (some env.sockname) (some env.ip) ptr true
        ⟨l.stream, counts⟩ src bufs).within .sender
      pure { l with sender, stream := w.sent, sent :=
        l.sent ++ [env.segment (src ++ bufs.flatten)] }
    | .round polls packetBuf counts socket => do
      let out ← (networkRecvThread l.sys env.sd polls ⟨true, none, ⟨l.stream, false, counts⟩⟩
        packetBuf socket).within .receiver
      pure { l with sys := out.sys, stream := out.reader.pending, running := out.running }
    | .recv ptr dst => do
      let (len, dst, sys) ← (stcpNetworkRecv l.sys env.sd (some env.peer.addr) ptr dst
        dst.length).within .receiver
      pure { l with sys, received := l.received ++ [dst.take len] }

instance linkMachine_decidableEnabled (env : SegmentEnv) (l : Link) (op : LinkOp) :
    Decidable ((linkMachine env).enabled l op) :=
  inferInstanceAs (Decidable (op.Enabled env l))

/-- A segment between the two ends that carries its checksum. -/
structure SegmentEnv.Carried (env : SegmentEnv) (segment : List UInt8) : Prop where
  min : headerSize ≤ segment.length
  max : segment.length ≤ maxIpPayloadLen
  sum : swap (rfc793Checksum (le32 env.ip) (le32 env.peer.addr) segment) = wordAt segment 8

/-- The receiving socket: established, with the sender as its peer. -/
structure SegmentEnv.Receives (env : SegmentEnv) (ctx : MysockContext) : Prop where
  descriptor : ctx.mySd = env.sd
  socket : 0 ≤ ctx.network.socket
  established : ctx.Established
  peer : ctx.network.peerAddr.addr = env.ip

/-- What has been sent is what was returned, what is in the queue and what is under way, in this
order. -/
structure Link.Flows (env : SegmentEnv) (l : Link) : Prop where
  sends : env.Sends l.sender
  carried : ∀ segment ∈ l.sent, env.Carried segment
  flows : ∃ e queue flying, l.sys.globalCtx env.sd = some e ∧ env.Receives e.ctx ∧
    e.ctx.networkRecvQueue = queue ∧ l.stream = flying.flatMap frame ∧
    l.sent = l.received ++ queue ++ flying

/-- A segment of the sender carries its checksum. -/
theorem SegmentEnv.carried_segment {packet : List UInt8} (hmin : headerSize ≤ packet.length)
    (hmax : packet.length ≤ maxIpPayloadLen) : env.Carried (env.segment packet) where
  min := by
    rw [segment_length]
    exact hmin
  max := by
    rw [segment_length]
    exact hmax
  sum := by
    have hfilled : headerSize ≤ (fillHeader packet env.sockname.port env.peer.port).length := by
      rw [fillHeader_length]
      exact hmin
    simp only [segment]
    rw [rfc793Checksum_set, wordAt_stored hfilled (rfc793Checksum_le _ _ _)]

/-- A segment that is carried is taken exactly by a buffer it fits. -/
theorem SegmentEnv.Carried.verifiable_iff {segment : List UInt8} (h : env.Carried segment)
    {ctx : MysockContext} (hctx : env.Receives ctx) {maxLen : Nat} :
    Verifiable ctx.network env.peer.addr maxLen segment ↔ segment.length ≤ maxLen := by
  have hne : segment ≠ [] := by
    rintro rfl
    exact absurd h.min (by decide)
  constructor
  · intro hverifiable
    exact (hverifiable.resolve_left hne).2.1
  · intro hfits
    refine Or.inr ⟨h.min, hfits, ?_⟩
    rw [hctx.peer]
    exact h.sum

theorem SegmentEnv.Receives.enqueue {ctx : MysockContext} (h : env.Receives ctx) (c : Bool)
    (packet : List UInt8) : env.Receives ((ctx.setConnected c).enqueue packet) :=
  ⟨h.descriptor, h.socket, h.established.setConnected c packet, h.peer⟩

/-- Nor does one that is taken off the queue. -/
theorem SegmentEnv.Receives.dequeue {ctx : MysockContext} (h : env.Receives ctx)
    (queue : List (List UInt8)) : env.Receives { ctx with networkRecvQueue := queue } :=
  ⟨h.descriptor, h.socket, ⟨h.established.notListening, h.established.peer, h.established.addr,
    h.established.port⟩, h.peer⟩

/-- The context can be read from. -/
theorem SegmentEnv.Receives.receiving {ctx : MysockContext} (h : env.Receives ctx) :
    ctx.Receiving :=
  ⟨h.established.notListening, h.socket, fun hactive => ⟨h.socket, .inr ⟨h.established.peer.valid,
    h.established.peer.family, h.established.port hactive⟩⟩⟩

variable {l : Link}

/-- A send puts a segment under way, or stops. -/
theorem Link.Flows.send (h : l.Flows env) (hvalid : env.Valid) {src : List UInt8}
    {bufs : List (List UInt8)} {ptr : Nat} {counts : List Nat} (hptr : ptr &&& 2 = 0) :
    (LinkOp.Fits env l (.send src bufs ptr counts) ∧
      ∃ l', (linkMachine env).step l (.send src bufs ptr counts) = .ok l' ∧ l'.Flows env) ∨
    (¬LinkOp.Fits env l (.send src bufs ptr counts) ∧
      ∀ l', (linkMachine env).step l (.send src bufs ptr counts) ≠ .ok l') := by
  by_cases hfits : headerSize ≤ (src ++ bufs.flatten).length ∧
      (src ++ bufs.flatten).length ≤ maxIpPayloadLen
  · obtain ⟨counts', hsend⟩ := stcpNetworkSend_eq h.sends hvalid hptr hfits.1 hfits.2
      ⟨l.stream, counts⟩
    obtain ⟨e, queue, flying, he, hreceives, hqueue, hstream, hsent⟩ := h.flows
    refine Or.inl ⟨hfits, ⟨{ l.sender with connected := true }, l.sys,
      l.stream ++ frame (env.segment (src ++ bufs.flatten)), l.running,
      l.sent ++ [env.segment (src ++ bufs.flatten)], l.received⟩, ?_, ?_⟩
    · simp only [linkMachine, hsend, Exec.within_ok, Exec.ok_bind, Exec.pure_eq_ok]
    · refine ⟨⟨h.sends.connectable.connect, ⟨h.sends.known.valid, h.sends.known.len,
        h.sends.known.family⟩, h.sends.peer⟩, ?_, e, queue,
        flying ++ [env.segment (src ++ bufs.flatten)], he, hreceives, hqueue, ?_, ?_⟩
      · intro segment hmem
        rcases List.mem_append.1 hmem with hmem | hmem
        · exact h.carried segment hmem
        · rw [List.mem_singleton.1 hmem]
          exact SegmentEnv.carried_segment hfits.1 hfits.2
      · rw [hstream, List.flatMap_append, List.flatMap_singleton]
      · rw [hsent, List.append_assoc _ flying]
  · refine Or.inr ⟨hfits, ?_⟩
    intro l' hstep
    obtain ⟨out, hsend, -⟩ := Exec.bind_eq_ok.1 hstep
    exact hfits (stcpNetworkSend_ok (Exec.within_eq_ok.1 hsend))

/-- A round of the thread moves a segment from the connection to the queue, or nothing. -/
theorem Link.Flows.round (h : l.Flows env) {polls : List PollReturn} {packetBuf : List UInt8}
    {counts : List Nat} {socket : Int}
    (henabled : LinkOp.Enabled env l (.round polls packetBuf counts socket)) :
    ∃ l', (linkMachine env).step l (.round polls packetBuf counts socket) = .ok l' ∧
      l'.Flows env := by
  obtain ⟨-, hpolls, hbuf, hready⟩ := henabled
  obtain ⟨e, queue, flying, he, hreceives, hqueue, hstream, hsent⟩ := h.flows
  obtain ⟨w, hw⟩ := waitPacket_eq hpolls
  cases w with
  | waiting =>
    refine ⟨{ l with running := true }, ?_, h.sends, h.carried, h.flows⟩
    simp only [linkMachine, networkRecvThread, hw, Exec.ok_bind, Exec.pure_eq_ok, Exec.within_ok]
  | done =>
    refine ⟨{ l with running := false }, ?_, h.sends, h.carried, h.flows⟩
    simp only [linkMachine, networkRecvThread, hw, Exec.ok_bind, Exec.pure_eq_ok, Exec.within_ok]
  | ready =>
    obtain ⟨segment, flying, rfl⟩ : ∃ segment rest, flying = segment :: rest := by
      apply List.exists_cons_of_ne_nil
      rintro rfl
      exact hready hw hstream
    have hcarried := h.carried segment (by rw [hsent]; simp)
    have hmax := hcarried.max
    have hpos : 0 < segment.length := Nat.lt_of_lt_of_le (by decide) hcarried.min
    rw [List.flatMap_cons] at hstream
    obtain ⟨counts', hread⟩ := @readFrame_frame segment (flying.flatMap frame) packetBuf
      maxIpPayloadLen counts hpos (hmax.trans (by decide)) (by decide) hbuf.ge
    rw [Nat.min_eq_left hmax, List.take_length, ← hstream] at hread
    obtain ⟨c, ⟨hnot, -⟩ | ⟨-, hcall⟩⟩ := networkRecvPacket_established hreceives.receiving
      ⟨true, none, ⟨l.stream, false, counts⟩⟩ packetBuf maxIpPayloadLen
    · exact absurd (fun _ => Or.inr rfl) hnot
    have hrc : ¬((segment.length : Int) ≤ 0) := by omega
    have hlistening : (e.ctx.setConnected c).listening = false := hreceives.established.notListening
    have hrun := networkRecvThread_received he hw (hcall _ _ _ hread) socket
    rw [if_neg hrc, dispatch_connected hmax hlistening] at hrun
    refine ⟨{ l with
      sys := l.sys.setContext env.sd ((e.ctx.setConnected c).enqueue segment)
      stream := flying.flatMap frame, running := true }, ?_, h.sends, h.carried,
      { e with ctx := (e.ctx.setConnected c).enqueue segment }, queue ++ [segment], flying, ?_,
      hreceives.enqueue c segment, ?_, rfl, ?_⟩
    · simp only [linkMachine, hrun, Exec.within_ok, Exec.ok_bind, Exec.pure_eq_ok]
    · rw [Demux.setContext_eq he]
      exact Function.update_self ..
    · rw [← hqueue]
      rfl
    · rw [hsent]
      simp

/-- A receive takes the segment at the front of the queue into a buffer that it fits, or stops. -/
theorem Link.Flows.recv (h : l.Flows env) (hvalid : env.Valid) (hsd : env.sd < maxNumConnections)
    {ptr : Nat} {dst : List UInt8} (henabled : LinkOp.Enabled env l (.recv ptr dst)) :
    (LinkOp.Fits env l (.recv ptr dst) ∧
      ∃ l', (linkMachine env).step l (.recv ptr dst) = .ok l' ∧ l'.Flows env) ∨
    (¬LinkOp.Fits env l (.recv ptr dst) ∧
      ∀ l', (linkMachine env).step l (.recv ptr dst) ≠ .ok l') := by
  obtain ⟨hptr, e', he', hne⟩ := henabled
  obtain ⟨e, queue, flying, he, hreceives, hqueue, hstream, hsent⟩ := h.flows
  have hsame : e' = e := Option.some.inj (he'.symm.trans he)
  rw [hsame] at hne
  obtain ⟨segment, queue, rfl⟩ := List.exists_cons_of_ne_nil (hqueue ▸ hne)
  have hcarried := h.carried segment (by rw [hsent]; simp)
  have hfits : LinkOp.Fits env l (.recv ptr dst) ↔ segment.length ≤ dst.length := by
    simp only [LinkOp.Fits, he, Option.mem_some_iff, forall_eq', hqueue, List.head?_cons]
  have hget : getContext l.sys env.sd = .ok e := by
    have hrange : (0 : Int) ≤ env.sd ∧ (env.sd : Int) < maxNumConnections := by omega
    simp only [getContext, if_pos hrange, Int.toNat_natCast, he, assert_of hreceives.descriptor,
      Exec.ok_bind, Exec.pure_eq_ok]
  rcases @stcpNetworkRecv_cases l.sys env.sd e segment queue hget hqueue hreceives.established.peer
    hreceives.established.addr env.peer.addr hvalid.addr ptr hptr hcarried.max dst with
    ⟨hverifiable, dst', hrun⟩ | ⟨hnot, hfail⟩
  · rw [hcarried.verifiable_iff hreceives] at hverifiable
    obtain ⟨-, hdst', -, -⟩ := stcpNetworkRecv_eq_ok hget hqueue hrun
    refine Or.inl ⟨hfits.2 hverifiable, ⟨l.sender,
      l.sys.setContext env.sd { e.ctx with networkRecvQueue := queue }, l.stream, l.running, l.sent,
      l.received ++ [segment]⟩, ?_, h.sends, h.carried,
      { e with ctx := { e.ctx with networkRecvQueue := queue } }, queue, flying, ?_,
      hreceives.dequeue queue, rfl, hstream, ?_⟩
    · have htake : dst'.take segment.length = segment := by
        rw [hdst', List.take_of_length_le hverifiable, List.take_left]
      simp only [linkMachine, hrun, Exec.within_ok, Exec.ok_bind, Exec.pure_eq_ok, htake]
    · rw [Demux.setContext_eq he]
      exact Function.update_self ..
    · rw [hsent]
      simp
  · rw [hcarried.verifiable_iff hreceives] at hnot
    refine Or.inr ⟨fun hc => hnot (hfits.1 hc), ?_⟩
    intro l' hstep
    obtain ⟨out, hrecv, -⟩ := Exec.bind_eq_ok.1 hstep
    have hrecv := Exec.within_eq_ok.1 hrecv
    rcases hfail with hfail | ⟨fault, hfail⟩
    · rw [hfail] at hrecv
      cases hrecv
    · rw [hfail] at hrecv
      cases hrecv

/-- An operation that fits leaves the link in order; any other stops. -/
theorem Link.Flows.step (h : l.Flows env) (hvalid : env.Valid) (hsd : env.sd < maxNumConnections)
    {op : LinkOp} (henabled : (linkMachine env).enabled l op) :
    (op.Fits env l ∧ ∃ l', (linkMachine env).step l op = .ok l' ∧ l'.Flows env) ∨
      (¬op.Fits env l ∧ ∀ l', (linkMachine env).step l op ≠ .ok l') := by
  cases op with
  | send src bufs ptr counts => exact h.send hvalid henabled
  | round polls packetBuf counts socket => exact Or.inl ⟨trivial, h.round henabled⟩
  | recv ptr dst => exact h.recv hvalid hsd henabled

/-- The packet that is passed to `stcp_network_send`. -/
def LinkOp.packet : LinkOp → Option (List UInt8)
  | .send src bufs _ _ => some (src ++ bufs.flatten)
  | .round _ _ _ _ => none
  | .recv _ _ => none

/-- Each operation adds the segment of its packet to the history. -/
theorem linkMachine_sent {l' : Link} {ops : List LinkOp}
    (hrun : (linkMachine env).run l ops = .ok l') :
    l'.sent = l.sent ++ (ops.filterMap LinkOp.packet).map env.segment := by
  induction ops generalizing l with
  | nil =>
    cases hrun
    exact (List.append_nil _).symm
  | cons op ops ih =>
    obtain ⟨l₁, hstep, hrun⟩ := Exec.bind_eq_ok.1 hrun
    rw [ih hrun]
    cases op with
    | send src bufs ptr counts =>
      obtain ⟨⟨rc, sender, w⟩, -, hstep⟩ := Exec.bind_eq_ok.1 hstep
      cases hstep
      rw [List.append_assoc]
      rfl
    | round polls packetBuf counts socket =>
      obtain ⟨out, -, hstep⟩ := Exec.bind_eq_ok.1 hstep
      cases hstep
      rfl
    | recv ptr dst =>
      obtain ⟨⟨len, dst', sys⟩, -, hstep⟩ := Exec.bind_eq_ok.1 hstep
      cases hstep
      rfl

/-- A new connection. -/
def Link.start (sender : NetworkContext) (sys : Demux) : Link := ⟨sender, sys, [], true, [], []⟩

/-- In whatever order segments are sent, read by the thread and taken off the queue, the calls
return exactly if each packet has a header and fits, and each buffer takes the segment at the front.
Then the segments returned are the first ones sent, in their order, each of them checked, and the
others are in the queue or under way. -/
theorem segments_delivered {sender : NetworkContext} {sys : Demux} {e : Entry} (hvalid : env.Valid)
    (hsd : env.sd < maxNumConnections) (hsends : env.Sends sender)
    (he : sys.globalCtx env.sd = some e) (hreceives : env.Receives e.ctx)
    (hempty : e.ctx.networkRecvQueue = []) {ops : List LinkOp}
    (hops : (linkMachine env).Admissible (.start sender sys) ops) :
    ((∃ l, (linkMachine env).run (.start sender sys) ops = .ok l) ↔
        ((linkMachine env).restrict (LinkOp.Fits env)).Admissible (.start sender sys) ops) ∧
      ∀ l, (linkMachine env).run (.start sender sys) ops = .ok l →
        (∃ e flying, l.sys.globalCtx env.sd = some e ∧ l.stream = flying.flatMap frame ∧
          (ops.filterMap LinkOp.packet).map env.segment =
            l.received ++ e.ctx.networkRecvQueue ++ flying) ∧
        l.received.map (List.drop headerSize) <+:
          (ops.filterMap LinkOp.packet).map (List.drop headerSize) := by
  have hstart : (Link.start sender sys).Flows env :=
    ⟨hsends, List.forall_mem_nil _, e, [], [], he, hreceives, hempty, rfl, rfl⟩
  have hkeep : ∀ (l : Link) (op : LinkOp) (l' : Link), l.Flows env →
      (linkMachine env).enabled l op →
      (linkMachine env).step l op = .ok l' → l'.Flows env := by
    intro l op l' h henabled hstep
    rcases h.step hvalid hsd henabled with ⟨-, l₁, hstep₁, h₁⟩ | ⟨-, hstop⟩
    · cases hstep.symm.trans hstep₁
      exact h₁
    · exact absurd hstep (hstop l')
  constructor
  · refine @Machine.run_good_iff LinkAssert Link LinkOp (linkMachine env) (Link.Flows env)
      (LinkOp.Fits env) (fun run => ∃ l, run = .ok l) hkeep ?_ ?_ _ hstart ⟨_, rfl⟩ _ hops
    · intro l op h _ henabled
      rcases h.step hvalid hsd henabled with ⟨hfits, l', hstep, -⟩ | ⟨hnot, hstop⟩
      · exact iff_of_true ⟨l', hstep⟩ hfits
      · exact iff_of_false (fun ⟨l', hstep⟩ => hstop l' hstep) hnot
    · exact fun l op _ hbad _ => absurd ⟨l, rfl⟩ hbad
  · intro l hrun
    have hflows := Machine.run_ok hkeep hstart hops hrun
    have hsent : l.sent = (ops.filterMap LinkOp.packet).map env.segment := linkMachine_sent hrun
    obtain ⟨e', queue, flying, he', -, rfl, hstream, hall⟩ := hflows.flows
    rw [hsent] at hall
    refine ⟨⟨e', flying, he', hstream, hall⟩, ?_⟩
    have hdata : ((ops.filterMap LinkOp.packet).map env.segment).map (List.drop headerSize) =
        (ops.filterMap LinkOp.packet).map (List.drop headerSize) := by
      rw [List.map_map]
      exact List.map_congr_left fun packet _ => SegmentEnv.segment_data packet
    rw [← hdata, hall, List.append_assoc, List.map_append]
    exact List.prefix_append _ _

/-- Two hosts. -/
def twoHosts : SegmentEnv :=
  ⟨3, ⟨afInet, 80, 33554559, 0⟩, ⟨afInet, 1024, 16777343, 0⟩, 16777343⟩

/-- The context of the receiving socket. -/
def receivingContext : MysockContext :=
  ⟨false, ⟨⟨afInet, 1024, 16777343, 0⟩, 16, true, 4, -1, true⟩, true, false, 3, 0, false, []⟩

/-- The process of the receiving socket. -/
def receivingProcess : Demux where
  globalCtx := fun k => if k = 3 then some ⟨0, receivingContext⟩ else none
  allocated := 1
  listenTable := fun _ => none

/-- A segment that is put together of two buffers is read and taken; a header follows. -/
def twoSegments : List LinkOp :=
  [.send (List.replicate 20 7) [[1, 2], [3]] 4 [0, 1], .round [.failed true, .events 0 1]
    (List.replicate 1500 0) [1, 0] 0, .send (List.replicate 20 9) [] 4 [],
    .recv 8 (List.replicate 23 0)]

theorem segments_delivered_two :
    ∃ l, (linkMachine twoHosts).run (.start ⟨twoHosts.peer, 16, true, 3, -1, true⟩ receivingProcess)
        twoSegments = .ok l ∧
      l.received.map (List.drop headerSize) <+: [[1, 2, 3], []] := by
  have hsends : twoHosts.Sends ⟨twoHosts.peer, 16, true, 3, -1, true⟩ :=
    ⟨⟨by decide, Or.inl rfl⟩, by decide, rfl⟩
  have hreceives : twoHosts.Receives receivingContext :=
    ⟨rfl, by decide, ⟨rfl, by decide, by decide, fun h => Bool.noConfusion h⟩, rfl⟩
  obtain ⟨hreturns, hdelivered⟩ := @segments_delivered twoHosts _ receivingProcess
    ⟨0, receivingContext⟩ ⟨rfl, by decide, by decide, by decide⟩ (by decide) hsends rfl
      hreceives rfl
    twoSegments (by decide +kernel)
  obtain ⟨l, hrun⟩ := hreturns.2 (by decide +kernel)
  exact ⟨l, hrun, (hdelivered l hrun).2⟩

end ComputerNetworks.Mysock
