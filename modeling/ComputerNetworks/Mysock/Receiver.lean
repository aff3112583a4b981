import ComputerNetworks.Mysock.Backlog
import ComputerNetworks.Mysock.RecvThread

/-!
# Runs of the receive threads

One process with a listening socket and any number of established connections.
The receive threads read what arrives on the connections, the transport layer
takes packets off the queues, and the application connects, accepts, opens and
closes sockets meanwhile, in any order. The bytes that arrive are arbitrary.
-/

namespace ComputerNetworks.Mysock

/-- The writes of `myconnect` and of `_mysock_transport_init` to a context that goes active. -/
def MysockContext.connectTo (ctx : MysockContext) (name : Sockaddr) (namelen : Nat) :
    MysockContext :=
  { ctx with
    isActive := true
    bound := true
    network := { ctx.network with
      peerAddr := name, peerAddrLen := namelen, peerAddrValid := true } }

/-- `myconnect` up to its wait, with an ephemeral port at hand; `false` is `EISCONN`. -/
def myconnect (s : Demux) (sd : Nat) (name : Sockaddr) (namelen : Nat) :
    Exec DemuxAssert (Bool × Demux) := do
  let e ← getContext s sd
  if e.ctx.network.peerAddrLen ≠ 0 then pure (false, s)
  else do
    -- `_mysock_transport_init`
    assert (e.ctx.listening = false) .newNotListening
    pure (true, s.setContext sd (e.ctx.connectTo name namelen))

/-- A connection `accept` yields: its socket, its peer and what will arrive on it. -/
structure Connection where
  sd : Int
  peer : Sockaddr
  reader : Reader
  deriving DecidableEq, Repr

/-- A packet a thread handed on, with the bytes to come before and after the round. -/
structure Handed where
  stream : List UInt8
  left : List UInt8
  packet : List UInt8
  deriving DecidableEq, Repr

/-- The tables, what is still to arrive on each socket of the system, the contexts whose threads
were started and those whose receive thread has ended, by serial number, and the packets handed
on. -/
structure Receiver where
  run : DemuxRun
  wire : Int → Reader
  started : List Nat
  ended : List Nat
  handed : List Handed

/-- `io_socket` of `_network_recv_packet`. -/
def MysockContext.ioSocket (ctx : MysockContext) (accepted : Option Connection) : Int :=
  if ctx.listening then (accepted.map Connection.sd).getD (-1) else ctx.network.socket

/-- What is to arrive on each socket, an accepted one included. -/
def Receiver.arrive (r : Receiver) (ctx : MysockContext) (accepted : Option Connection) :
    Int → Reader :=
  match ctx.listening, accepted with
  | true, some c => Function.update r.wire c.sd c.reader
  | _, _ => r.wire

/-- What the round will read from. -/
def Receiver.pending (r : Receiver) (ctx : MysockContext) (accepted : Option Connection) : Reader :=
  r.arrive ctx accepted (ctx.ioSocket accepted)

/-- What the system answers in the round. -/
def Receiver.env (r : Receiver) (ctx : MysockContext) (connectOk : Bool)
    (accepted : Option Connection) : RecvEnv :=
  ⟨connectOk, accepted.map fun c => (c.sd, c.peer), r.pending ctx accepted⟩

/-- The system after a round of the thread of a context. -/
def Receiver.advance (r : Receiver) (e : Entry) (accepted : Option Connection) (out : Round) :
    Receiver where
  run := { r.run with sys := out.sys }
  wire := Function.update (r.arrive e.ctx accepted) (e.ctx.ioSocket accepted) out.reader
  started := if out.established then r.started ++ [r.run.sys.allocated] else r.started
  ended := if out.running then r.ended else r.ended ++ [e.serial]
  handed :=
    match out.handed with
    | none => r.handed
    | some packet => r.handed ++ [⟨(r.pending e.ctx accepted).pending, out.reader.pending, packet⟩]

/-- A round of the receive thread of a socket, with what `poll`, `connect` and `accept` return,
what `packet_buf` holds before, and the socket a new context is given. -/
def Receiver.iterate (r : Receiver) (sd : Nat) (polls : List PollReturn) (connectOk : Bool)
    (accepted : Option Connection) (packetBuf : List UInt8) (socket : Int) :
    Exec RecvAssert Receiver :=
  match r.run.sys.globalCtx sd with
  | none => .error .dangling
  | some e => do
    let out ← networkRecvThread r.run.sys sd polls (r.env e.ctx connectOk accepted) packetBuf socket
    pure (r.advance e accepted out)

/-- A call of `myconnect`; what will arrive on the connection is known from then on. -/
def Receiver.connect (r : Receiver) (sd : Nat) (name : Sockaddr) (reader : Reader) :
    Exec RecvAssert Receiver := do
  let e ← (getContext r.run.sys sd).within .demux
  let (ok, sys) ← (myconnect r.run.sys sd name 16).within .demux
  if ok then
    pure { r with
      run := { r.run with sys }
      wire := Function.update r.wire e.ctx.network.socket reader
      started := r.started ++ [e.serial] }
  else pure r

/-- What happens in the process. -/
inductive ReceiverOp where
  | iterate (sd : Nat) (polls : List PollReturn) (connectOk : Bool) (accepted : Option Connection)
      (packetBuf : List UInt8) (socket : Int)
  | receive (sd : Nat) (ip : UInt32) (ptr : Nat) (dst : List UInt8)
  | connect (sd : Nat) (name : Sockaddr) (reader : Reader)
  | application (op : DemuxOp)
  deriving DecidableEq, Repr

/-- A new connection has a socket and an address of the internet. -/
def Connection.Valid (c : Connection) : Prop :=
  0 ≤ c.sd ∧ c.peer.family = afInet ∧ 0 < c.peer.addr

/-- An operation of the application, which is not the arrival of a request. -/
def DemuxOp.OfApplication : DemuxOp → Prop
  | .enqueue _ _ _ => False
  | .openSocket socket => 0 ≤ socket
  | _ => True

/-- A thread that was started and has not ended goes on; a packet is taken once there is one, by the
transport layer of a started connection; and the application connects to an internet address. -/
def ReceiverOp.Enabled (L : Nat) (r : Receiver) : ReceiverOp → Prop
  | .iterate sd polls _ accepted packetBuf _ =>
    (∃ e ∈ r.run.sys.globalCtx sd, e.serial ∈ r.started ∧ e.serial ∉ r.ended) ∧
      (∀ p ∈ polls, p.Possible) ∧ (∀ c ∈ accepted, c.Valid) ∧ packetBuf.length = maxIpPayloadLen
  | .receive sd ip ptr _ =>
    (∃ e ∈ r.run.sys.globalCtx sd, e.serial ∈ r.started ∧ e.ctx.listening = false ∧
      e.ctx.networkRecvQueue ≠ []) ∧ 0 < ip ∧ ptr &&& 2 = 0
  | .connect sd name _ =>
    (∃ e ∈ r.run.sys.globalCtx sd, e.ctx.listening = false) ∧
      name.family = afInet ∧ 0 < name.port ∧ 0 < name.addr
  | .application op => op.Enabled L r.run ∧ op.OfApplication

instance Connection.decidableValid (c : Connection) : Decidable c.Valid :=
  inferInstanceAs (Decidable (_ ∧ _))

instance DemuxOp.decidableOfApplication : (op : DemuxOp) → Decidable op.OfApplication
  | .enqueue _ _ _ => inferInstanceAs (Decidable False)
  | .unblock _ => inferInstanceAs (Decidable True)
  | .dequeue => inferInstanceAs (Decidable True)
  | .openSocket socket => inferInstanceAs (Decidable (0 ≤ socket))
  | .closeSocket _ => inferInstanceAs (Decidable True)

instance ReceiverOp.decidableEnabled (L : Nat) (r : Receiver) :
    (op : ReceiverOp) → Decidable (op.Enabled L r)
  | .iterate _ _ _ _ _ _ => inferInstanceAs (Decidable (_ ∧ _))
  | .receive _ _ _ _ => inferInstanceAs (Decidable (_ ∧ _))
  | .connect _ _ _ => inferInstanceAs (Decidable (_ ∧ _))
  | .application _ => inferInstanceAs (Decidable (_ ∧ _))

/-- The process with the listening socket `L`. -/
def receiverMachine (L : Nat) : Machine RecvAssert Receiver ReceiverOp where
  enabled := fun r op => op.Enabled L r
  step := fun r op =>
    match op with
    | .iterate sd polls connectOk accepted packetBuf socket =>
      r.iterate sd polls connectOk accepted packetBuf socket
    | .receive sd ip ptr dst => do
      let (_, _, sys) ← stcpNetworkRecv r.run.sys sd (some ip) ptr dst dst.length
      pure { r with run := { r.run with sys } }
    | .connect sd name reader => r.connect sd name reader
    | .application op => do
      let run ← ((demuxMachine L).step r.run op).within .demux
      pure { r with run }

instance receiverMachine_decidableEnabled (L : Nat) (r : Receiver) (op : ReceiverOp) :
    Decidable ((receiverMachine L).enabled r op) :=
  inferInstanceAs (Decidable (op.Enabled L r))

/-- A connection with a known peer, as every started context has. -/
structure MysockContext.Established (ctx : MysockContext) : Prop where
  notListening : ctx.listening = false
  peer : ctx.network.PeerKnown
  addr : 0 < ctx.network.peerAddr.addr
  port : ctx.isActive = true → 0 < ctx.network.peerAddr.port

/-- A context has a socket, and no packet in its queue is longer than a packet buffer. -/
structure MysockContext.Held (ctx : MysockContext) : Prop where
  socket : 0 ≤ ctx.network.socket
  packets : ∀ packet ∈ ctx.networkRecvQueue, packet.length ≤ maxIpPayloadLen

/-- The packet is the frame that was read: as many bytes were handed on as were received. -/
def Handed.Genuine (h : Handed) : Prop :=
  h.stream = frame h.packet ++ h.left ∧ h.packet.length ≤ maxIpPayloadLen

/-- The listening socket is in order, and so are the contexts of all connections. -/
structure Receiver.Inv (L : Nat) (r : Receiver) : Prop where
  listens : ∃ q done listener, r.run.Listens L q done listener ∧ listener.ctx.isActive = false
  held : ∀ (k : Nat) (e : Entry), r.run.sys.globalCtx k = some e → e.ctx.Held
  established : ∀ (k : Nat) (e : Entry), k ≠ L → r.run.sys.globalCtx k = some e →
    e.serial ∈ r.started → e.ctx.Established
  started : ∀ n ∈ r.started, n < r.run.sys.allocated
  handed : ∀ h ∈ r.handed, h.Genuine

/-- An established connection can be read from. -/
theorem MysockContext.Established.receiving {ctx : MysockContext} (h : ctx.Established)
    (hheld : ctx.Held) : ctx.Receiving :=
  ⟨h.notListening, hheld.socket, fun hactive =>
    ⟨hheld.socket, .inr ⟨h.peer.valid, h.peer.family, h.port hactive⟩⟩⟩

/-- A packet that fits may join the queue. -/
theorem MysockContext.Held.enqueue {ctx : MysockContext} (h : ctx.Held) {packet : List UInt8}
    (hlen : packet.length ≤ maxIpPayloadLen) : (ctx.enqueue packet).Held := by
  refine ⟨h.socket, fun p hp => ?_⟩
  rcases List.mem_append.1 hp with hp | hp
  · exact h.packets p hp
  · rw [List.mem_singleton.1 hp]
    exact hlen

namespace Receiver.Inv

variable {L : Nat} {r : Receiver}

/-- A write to one context that keeps its card; the threads and the history play no part. -/
theorem write (h : r.Inv L) {k : Nat} {e : Entry} {ctx : MysockContext} {wire : Int → Reader}
    {started ended : List Nat} {handed : List Handed} (he : r.run.sys.globalCtx k = some e)
    (hcard : Entry.card { e with ctx } = e.card) (hheld : ctx.Held)
    (hlistener : k = L → ctx.listening = true ∧ ctx.bound = true ∧ ctx.isActive = false)
    (hestablished : k ≠ L → e.serial ∈ started → ctx.Established)
    (hstarted : ∀ n ∈ started, n = e.serial ∨ n ∈ r.started)
    (hhanded : ∀ h ∈ handed, h.Genuine) :
    Receiver.Inv L
      ⟨{ r.run with sys := r.run.sys.setContext k ctx }, wire, started, ended, handed⟩ := by
  obtain ⟨q, done, listener, hlistens, hactive⟩ := h.listens
  obtain ⟨listener', hlistens', hother, hown⟩ := hlistens.setContext he hcard fun hk =>
    ⟨(hlistener hk).1, (hlistener hk).2.1⟩
  have hctx (j : Nat) (e' : Entry) (hj : (r.run.sys.setContext k ctx).globalCtx j = some e') :
      (j = k ∧ e' = { e with ctx }) ∨ (j ≠ k ∧ r.run.sys.globalCtx j = some e') := by
    rw [Demux.setContext_eq he] at hj
    rcases update_cases hj with ⟨rfl, he'⟩ | ⟨hne, hj⟩
    · exact .inl ⟨rfl, (Option.some.inj he').symm⟩
    · exact .inr ⟨hne, hj⟩
  refine ⟨⟨q, done, listener', hlistens', ?_⟩, ?_, ?_, ?_, hhanded⟩
  · by_cases hk : k = L
    · rw [hown hk]
      exact (hlistener hk).2.2
    · rw [hother hk]
      exact hactive
  · intro j e' hj
    rcases hctx j e' hj with ⟨-, rfl⟩ | ⟨-, hj⟩
    · exact hheld
    · exact h.held j e' hj
  · intro j e' hjL hj hserial
    rcases hctx j e' hj with ⟨rfl, rfl⟩ | ⟨hne, hj⟩
    · exact hestablished hjL hserial
    · refine h.established j e' hjL hj ((hstarted _ hserial).resolve_left fun hsame => hne ?_)
      exact hlistens.backlog.serials j k e'.card e.card (Demux.card_eq_some hj)
        (Demux.card_eq_some he) hsame
  · intro n hn
    rcases hstarted n hn with rfl | hn
    · exact (hlistens.backlog.table k e.card (Demux.card_eq_some he)).2.2
    · exact h.started n hn

/-- The threads that ended and the wire play no part. -/
theorem quiet (h : r.Inv L) (wire : Int → Reader) (ended : List Nat) :
    Receiver.Inv L ⟨r.run, wire, r.started, ended, r.handed⟩ :=
  ⟨h.listens, h.held, h.established, h.started, h.handed⟩

/-- A genuine packet may be handed on. -/
theorem handed_append (h : r.Inv L) {new : Handed} (hnew : new.Genuine) :
    ∀ x ∈ r.handed ++ [new], x.Genuine := by
  intro x hx
  rcases List.mem_append.1 hx with hx | hx
  · exact h.handed x hx
  · rw [List.mem_singleton.1 hx]
    exact hnew

end Receiver.Inv

/-- The round reads from a connection: `poll` reports the socket, an active one is connected, and a
listening one has accepted a connection and passed on the one before. -/
def MysockContext.Reads (ctx : MysockContext) (polls : List PollReturn) (connectOk : Bool)
    (accepted : Option Connection) : Prop :=
  waitPacket polls = .ok .ready ∧ ctx.Connects connectOk ∧
    (ctx.listening = true → accepted ≠ none ∧ ctx.network.newSocket = -1)

/-- A round that accepts reads from the new connection. -/
theorem Receiver.pending_accepted (r : Receiver) {ctx : MysockContext} (h : ctx.listening = true)
    (c : Connection) : r.pending ctx (some c) = c.reader := by
  simp only [pending, arrive, MysockContext.ioSocket, h, if_true, Option.map_some, Option.getD_some,
    Function.update_self]

/-- A round whose thread returns advances the system. -/
theorem Receiver.iterate_of_ok {r : Receiver} {sd : Nat} {e : Entry}
    (he : r.run.sys.globalCtx sd = some e) {polls : List PollReturn} {connectOk : Bool}
    {accepted : Option Connection} {packetBuf : List UInt8} {socket : Int} {out : Round}
    (h : networkRecvThread r.run.sys sd polls (r.env e.ctx connectOk accepted) packetBuf socket =
      .ok out) :
    r.iterate sd polls connectOk accepted packetBuf socket = .ok (r.advance e accepted out) := by
  rw [iterate, he]
  simp only [h, Exec.ok_bind, Exec.pure_eq_ok]

/-- A round whose thread faults ends the process. -/
theorem Receiver.iterate_of_error {r : Receiver} {sd : Nat} {e : Entry}
    (he : r.run.sys.globalCtx sd = some e) {polls : List PollReturn} {connectOk : Bool}
    {accepted : Option Connection} {packetBuf : List UInt8} {socket : Int}
    {fault : Fault RecvAssert}
    (h : networkRecvThread r.run.sys sd polls (r.env e.ctx connectOk accepted) packetBuf socket =
      .error fault) :
    r.iterate sd polls connectOk accepted packetBuf socket = .error fault := by
  rw [iterate, he]
  simp only [h, Exec.error_bind]

theorem MysockContext.Held.setConnected {ctx : MysockContext} (h : ctx.Held) (c : Bool) :
    (ctx.setConnected c).Held := ⟨h.socket, h.packets⟩

theorem MysockContext.Established.setConnected {ctx : MysockContext} (h : ctx.Established)
    (c : Bool) (packet : List UInt8) : ((ctx.setConnected c).enqueue packet).Established :=
  ⟨h.notListening, ⟨h.peer.valid, h.peer.len, h.peer.family⟩, h.addr, h.port⟩

/-- The thread of an established connection fails on an oversized frame and on nothing else. -/
theorem Receiver.Inv.iterate_established {L : Nat} {r : Receiver} (h : r.Inv L) {sd : Nat}
    {e : Entry} (hne : sd ≠ L) (he : r.run.sys.globalCtx sd = some e)
    (hserial : e.serial ∈ r.started) {polls : List PollReturn}
    (hwait : ∃ w, waitPacket polls = .ok w)
    (connectOk : Bool) (accepted : Option Connection) {packetBuf : List UInt8}
    (hbuf : packetBuf.length = maxIpPayloadLen) (socket : Int) :
    (¬(e.ctx.Reads polls connectOk accepted ∧ Oversized (r.pending e.ctx accepted).pending) ∧
      ∃ r', r.iterate sd polls connectOk accepted packetBuf socket = .ok r' ∧ r'.Inv L) ∨
    ((e.ctx.Reads polls connectOk accepted ∧ Oversized (r.pending e.ctx accepted).pending) ∧
      r.iterate sd polls connectOk accepted packetBuf socket =
        .error (.assertion .packetFits)) := by
  have hest := h.established sd e hne he hserial
  have hheld := h.held sd e he
  have hnotListening : e.ctx.listening = true → accepted ≠ none ∧ e.ctx.network.newSocket = -1 :=
    fun hl => absurd (hest.notListening.symm.trans hl) Bool.false_ne_true
  have hwrite (c : Bool) (packet : List UInt8) (wire : Int → Reader) (ended : List Nat)
      (handed : List Handed) (hlen : packet.length ≤ maxIpPayloadLen)
      (hhanded : ∀ x ∈ handed, x.Genuine) : Receiver.Inv L
        ⟨{ r.run with sys := r.run.sys.setContext sd ((e.ctx.setConnected c).enqueue packet) },
          wire, r.started, ended, handed⟩ :=
    h.write he rfl ((hheld.setConnected c).enqueue hlen) (fun hk => absurd hk hne)
      (fun _ _ => hest.setConnected c packet) (fun _ hn => .inr hn) hhanded
  rcases networkRecvThread_established he (hest.receiving hheld) hwait
    (r.env e.ctx connectOk accepted) hbuf socket with
    ⟨hw, running, hrun⟩ | ⟨hw, hnot, c, reader, hrun⟩ |
    ⟨hw, hconnects, c, packet, left, counts, hlen, hpending, hrun⟩ | ⟨hw, hconnects, hover, hrun⟩
  · exact .inl ⟨fun hc => hw hc.1.1, _, iterate_of_ok he hrun, h.quiet _ _⟩
  · refine .inl ⟨fun hc => hnot ⟨hc.1.2.1, hc.2.frameArrived⟩, _, iterate_of_ok he hrun, ?_⟩
    exact hwrite c [] _ _ _ (Nat.zero_le _) h.handed
  · refine .inl ⟨fun hc => ?_, _, iterate_of_ok he hrun, ?_⟩
    · have hpending' : (r.pending e.ctx accepted).pending = frame packet ++ left := hpending
      exact not_oversized_frame hlen (hpending' ▸ hc.2)
    · exact hwrite c packet _ _ _ hlen (h.handed_append ⟨hpending, hlen⟩)
  · exact .inr ⟨⟨⟨hw, hconnects, hnotListening⟩, hover⟩, iterate_of_error he hrun⟩

/-- What stands behind a packet in the buffer plays no part. -/
theorem isSyn_append {packet rest : List UInt8} :
    IsSyn (packet ++ rest) packet.length ↔ IsSyn packet packet.length := by
  unfold IsSyn
  refine and_congr_right fun hlen => ?_
  unfold headerSize at hlen
  rw [List.getElem?_append_left (by omega)]

/-- Writing to an open context neither takes nor frees a descriptor. -/
theorem acceptable_setContext {s : Demux} {k : Nat} {e : Entry} (he : s.globalCtx k = some e)
    (ctx : MysockContext) {q : ListenQueue} {packet rest : List UInt8} {peer : Sockaddr} :
    Acceptable (s.setContext k ctx) q (packet ++ rest) packet.length peer ↔
      Acceptable s q packet packet.length peer := by
  have hnone (j : Nat) : (s.setContext k ctx).globalCtx j = none ↔ s.globalCtx j = none := by
    rw [Demux.setContext_eq he]
    by_cases hj : j = k
    · subst hj
      simp [he]
    · simp [hj]
  constructor
  · rintro ⟨hsyn, hpeer, hslot, j, hj, hfree⟩
    exact ⟨isSyn_append.1 hsyn, hpeer, hslot, j, hj, (hnone j).1 hfree⟩
  · rintro ⟨hsyn, hpeer, hslot, j, hj, hfree⟩
    exact ⟨isSyn_append.2 hsyn, hpeer, hslot, j, hj, (hnone j).2 hfree⟩

theorem MysockContext.Held.clearPeer {ctx : MysockContext} (h : ctx.Held) : ctx.clearPeer.Held :=
  ⟨h.socket, h.packets⟩

theorem MysockContext.Held.accept {ctx : MysockContext} (h : ctx.Held) (sd : Int)
    (peer : Sockaddr) : (ctx.accept sd peer).Held := ⟨h.socket, h.packets⟩

/-- The state after a request was accepted and its connection passed on to a new context. -/
theorem Receiver.Inv.establish {L : Nat} {r : Receiver} (h : r.Inv L) {q : ListenQueue}
    {done : List (Nat × Nat)} {listener : Entry} (hlistens : r.run.Listens L q done listener)
    {k sd : Nat} {slot : ConnectRequest} {syn : List UInt8} {peer : Sockaddr}
    {wire : Int → Reader} {ended : List Nat} {handed : List Handed}
    (hk : q.connectionQueue[k]? = some slot) (hslot : slot.sd = -1) (hsd : sd < maxNumConnections)
    (hnone : r.run.sys.globalCtx sd = none) (hnew : ∀ r ∈ q.connectionQueue, r.peerAddr ≠ peer)
    (hsyn : syn.length ≤ maxIpPayloadLen) (hsocket : 0 ≤ listener.ctx.network.newSocket)
    (hfamily : peer.family = afInet) (haddr : 0 < peer.addr) (hhanded : ∀ x ∈ handed, x.Genuine) :
    Receiver.Inv L ⟨{ r.run with sys := r.run.sys.accept L listener q k sd syn peer }, wire,
      r.started ++ [r.run.sys.allocated], ended, handed⟩ := by
  obtain ⟨q₀, done₀, listener₀, hlistens₀, hactive⟩ := h.listens
  cases hlistens.entry.symm.trans hlistens₀.entry
  have hctx (j : Nat) (e : Entry)
      (hj : (r.run.sys.accept L listener q k sd syn peer).globalCtx j = some e) :
      (j = L ∧ e = { listener with ctx := listener.ctx.passOn }) ∨
      (j ≠ L ∧ j = sd ∧ e = ⟨r.run.sys.allocated,
        passiveContext sd listener.ctx.mySd peer listener.ctx.network.newSocket syn⟩) ∨
      (j ≠ L ∧ r.run.sys.globalCtx j = some e) := by
    rcases update_cases hj with ⟨hjL, he⟩ | ⟨hjL, hj⟩
    · exact .inl ⟨hjL, (Option.some.inj he).symm⟩
    · rcases update_cases hj with ⟨hjsd, he⟩ | ⟨-, hj⟩
      · exact .inr (.inl ⟨hjL, hjsd, (Option.some.inj he).symm⟩)
      · exact .inr (.inr ⟨hjL, hj⟩)
  refine ⟨⟨_, done, _, hlistens.accept syn hk hslot hsd hnone hnew, hactive⟩, ?_, ?_, ?_, hhanded⟩
  · intro j e hj
    rcases hctx j e hj with ⟨-, rfl⟩ | ⟨-, -, rfl⟩ | ⟨-, hj⟩
    · have hheld := h.held L listener hlistens.entry
      exact ⟨hheld.socket, hheld.packets⟩
    · refine ⟨hsocket, fun p hp => ?_⟩
      rw [List.mem_singleton.1 hp]
      exact hsyn
    · exact h.held j e hj
  · intro j e hjL hj hserial
    rcases hctx j e hj with ⟨hj, -⟩ | ⟨-, -, rfl⟩ | ⟨-, hj⟩
    · exact absurd hj hjL
    · exact ⟨rfl, ⟨rfl, Nat.succ_pos 15, hfamily⟩, haddr, nofun⟩
    · refine h.established j e hjL hj ((List.mem_append.1 hserial).resolve_right fun hnew => ?_)
      have hpast := (hlistens.backlog.table j e.card (Demux.card_eq_some hj)).2.2
      exact absurd (List.mem_singleton.1 hnew) hpast.ne
  · intro n hn
    change n < r.run.sys.allocated + 1
    rcases List.mem_append.1 hn with hn | hn
    · exact Nat.lt_succ_of_lt (h.started n hn)
    · rw [List.mem_singleton.1 hn]
      exact Nat.lt_succ_self _

/-- The context of a listening socket that went on to accept. -/
theorem Receiver.Inv.accepting {L : Nat} {r : Receiver} (h : r.Inv L) {e : Entry}
    (he : r.run.sys.globalCtx L = some e) :
    e.ctx.Accepting ∧ e.ctx.bound = true := by
  obtain ⟨q, done, listener, hlistens, hactive⟩ := h.listens
  cases he.symm.trans hlistens.entry
  exact ⟨⟨hlistens.open_.1, hactive, (h.held L e he).socket⟩, hlistens.open_.2⟩

/-- What a round of the listening thread does. -/
theorem Receiver.Inv.iterate_listener {L : Nat} {r : Receiver} (h : r.Inv L) {e : Entry}
    (he : r.run.sys.globalCtx L = some e) {polls : List PollReturn}
    (hwait : ∃ w, waitPacket polls = .ok w) (connectOk : Bool) {accepted : Option Connection}
    (hvalid : ∀ c ∈ accepted, c.Valid) {packetBuf : List UInt8}
    (hbuf : packetBuf.length = maxIpPayloadLen) (socket : Int) :
    (∃ (running : Bool) (r' : Receiver),
      waitPacket polls = .ok (if running then .waiting else .done) ∧
      r.iterate L polls connectOk accepted packetBuf socket = .ok r' ∧ r'.Inv L ∧
      r'.run = r.run ∧ r'.started = r.started ∧
      r'.ended = if running then r.ended else r.ended ++ [e.serial]) ∨
    (waitPacket polls = .ok .ready ∧ accepted = none ∧ ∃ r' ctx,
      r.iterate L polls connectOk accepted packetBuf socket = .ok r' ∧ r'.Inv L ∧
      r'.run.sys.globalCtx L = some { e with ctx } ∧ e.serial ∈ r'.ended) ∨
    (waitPacket polls = .ok .ready ∧ ∃ c, accepted = some c ∧
      ((e.ctx.network.newSocket ≠ -1 ∧ r.iterate L polls connectOk accepted packetBuf socket =
          .error (.assertion (.net .newSocketFree))) ∨
        (e.ctx.network.newSocket = -1 ∧ ¬FrameArrived c.reader.pending maxIpPayloadLen ∧ ∃ r' ctx,
          r.iterate L polls connectOk accepted packetBuf socket = .ok r' ∧ r'.Inv L ∧
          r'.run.sys.globalCtx L = some { e with ctx } ∧ e.serial ∈ r'.ended) ∨
        (e.ctx.network.newSocket = -1 ∧ Oversized c.reader.pending ∧
          r.iterate L polls connectOk accepted packetBuf socket =
            .error (.assertion .packetFits)) ∨
        (e.ctx.network.newSocket = -1 ∧ ∃ packet left q, packet.length ≤ maxIpPayloadLen ∧
          c.reader.pending = frame packet ++ left ∧ r.run.sys.listenTable L = some q ∧
          ((¬Acceptable r.run.sys q packet packet.length c.peer ∧ ∃ r',
              r.iterate L polls connectOk accepted packetBuf socket = .ok r' ∧ r'.Inv L ∧
              r'.run.sys.globalCtx L = some { e with ctx := e.ctx.accept c.sd c.peer }) ∨
            (Acceptable r.run.sys q packet packet.length c.peer ∧ ∃ r',
              r.iterate L polls connectOk accepted packetBuf socket = .ok r' ∧ r'.Inv L ∧
              r'.run.sys.globalCtx L = some { e with ctx := (e.ctx.accept c.sd c.peer).passOn } ∧
              r'.ended = r.ended ∧ r.started ⊆ r'.started))))) := by
  obtain ⟨haccepting, hbound⟩ := h.accepting he
  have hheld := h.held L e he
  have hwrite (ctx : MysockContext) (hcard : ctx.mySd = e.ctx.mySd ∧
      ctx.listenSd = e.ctx.listenSd ∧ ctx.blocking = e.ctx.blocking) (hctx : ctx.Held)
      (hopen : ctx.listening = true ∧ ctx.bound = true ∧ ctx.isActive = false)
      (wire : Int → Reader) (ended : List Nat) (handed : List Handed)
      (hhanded : ∀ x ∈ handed, x.Genuine) : Receiver.Inv L
        ⟨{ r.run with sys := r.run.sys.setContext L ctx }, wire, r.started, ended, handed⟩ :=
    h.write he (by rw [Entry.card, Entry.card, hcard.1, hcard.2.1, hcard.2.2]) hctx
      (fun _ => hopen) (fun hne => absurd rfl hne) (fun _ hn => .inr hn) hhanded
  have hentry (ctx : MysockContext) :
      (r.run.sys.setContext L ctx).globalCtx L = some { e with ctx } := by
    rw [Demux.setContext_eq he]
    exact Function.update_self ..
  rcases networkRecvThread_accepting he haccepting hwait (r.env e.ctx connectOk accepted) hbuf
    socket with ⟨running, hw, hrun⟩ | ⟨hw, hnone, hrun⟩ | ⟨hw, fd, peer, hsome, hcases⟩
  · exact .inl ⟨running, _, hw, iterate_of_ok he hrun, h.quiet _ _, rfl, rfl, rfl⟩
  · refine .inr (.inl ⟨hw, Option.map_eq_none_iff.1 hnone, _, _, iterate_of_ok he hrun, ?_,
      hentry _, List.mem_append_right _ (List.mem_singleton.2 rfl)⟩)
    exact hwrite (e.ctx.clearPeer.enqueue []) ⟨rfl, rfl, rfl⟩
      (hheld.clearPeer.enqueue (Nat.zero_le _))
      ⟨haccepting.listening, hbound, haccepting.notActive⟩ _ _ _ h.handed
  obtain ⟨c, rfl, hc⟩ := Option.map_eq_some_iff.1 hsome
  cases hc
  have hreader : (r.env e.ctx connectOk (some c)).reader = c.reader :=
    r.pending_accepted haccepting.listening c
  rw [hreader] at hcases
  refine .inr (.inr ⟨hw, c, rfl, ?_⟩)
  rcases hcases with ⟨hnew, hrun⟩ | ⟨hnew, harrived, reader, hrun⟩ | ⟨hnew, hover, hrun⟩ |
    ⟨hnew, packet, left, counts, hne, hlen, hpending, hrun⟩
  · exact .inl ⟨hnew, iterate_of_error he hrun⟩
  · refine .inr (.inl ⟨hnew, harrived, _, _, iterate_of_ok he hrun, ?_, hentry _,
      List.mem_append_right _ (List.mem_singleton.2 rfl)⟩)
    exact hwrite ((e.ctx.accept c.sd c.peer).enqueue []) ⟨rfl, rfl, rfl⟩
      ((hheld.accept c.sd c.peer).enqueue (Nat.zero_le _))
      ⟨haccepting.listening, hbound, haccepting.notActive⟩ _ _ _ h.handed
  · exact .inr (.inr (.inl ⟨hnew, hover, iterate_of_error he hrun⟩))
  refine .inr (.inr (.inr ⟨hnew, packet, left, ?_⟩))
  obtain ⟨hsocket, hfamily, haddr⟩ := hvalid c rfl
  have hgenuine : Handed.Genuine ⟨(r.pending e.ctx (some c)).pending, left, packet⟩ :=
    ⟨by rw [← hpending, r.pending_accepted haccepting.listening], hlen⟩
  have hmid := hwrite (e.ctx.accept c.sd c.peer) ⟨rfl, rfl, rfl⟩ (hheld.accept c.sd c.peer)
    ⟨haccepting.listening, hbound, haccepting.notActive⟩
  obtain ⟨q, done, listener, hlistens, -⟩ := (hmid r.wire r.ended r.handed h.handed).listens
  cases (hentry (e.ctx.accept c.sd c.peer)).symm.trans hlistens.entry
  refine ⟨q, hlen, hpending, hlistens.lookup, ?_⟩
  have hbuflen : packet.length ≤ (packet ++ packetBuf.drop packet.length).length := by
    rw [List.length_append]
    omega
  rcases @enqueueConnection_cases _ L _ q (packet ++ packetBuf.drop packet.length) packet.length
    c.peer socket hlistens.entry hlistens.open_ hlistens.lookup_listener hlistens.backlog.queue
    hbuflen hfamily with
    ⟨hnot, hcall⟩ | ⟨hacc, k, sd, slot, hk, hslot, hsd, hfree, hcall⟩
  · exact .inl ⟨fun hacc => hnot ((acceptable_setContext he _).2 hacc), _,
      iterate_of_ok he (hrun _ _ hcall), hmid _ _ _ (h.handed_append hgenuine), hentry _⟩
  · refine .inr ⟨(acceptable_setContext he _).1 hacc, _, iterate_of_ok he (hrun _ _ hcall), ?_,
      Function.update_self .., rfl, List.subset_append_left _ _⟩
    exact (hmid r.wire r.ended r.handed h.handed).establish hlistens hk hslot hsd hfree
      hacc.newPeer (by rw [List.take_left]; exact hlen) hsocket hfamily haddr
      (h.handed_append hgenuine)

/-- A socket that does not listen is another one than the listener. -/
theorem Receiver.Inv.ne_listener {L : Nat} {r : Receiver} (h : r.Inv L) {sd : Nat} {e : Entry}
    (he : r.run.sys.globalCtx sd = some e) (hlistening : e.ctx.listening = false) : sd ≠ L := by
  rintro rfl
  obtain ⟨haccepting, -⟩ := h.accepting he
  exact Bool.false_ne_true (hlistening.symm.trans haccepting.listening)

/-- The call finds the context of a descriptor. -/
theorem Receiver.Inv.getContext_eq_ok {L : Nat} {r : Receiver} (h : r.Inv L) {sd : Nat} {e : Entry}
    (he : r.run.sys.globalCtx sd = some e) : getContext r.run.sys sd = .ok e := by
  obtain ⟨q, done, listener, hlistens, -⟩ := h.listens
  obtain ⟨hlt, hmine, -⟩ := hlistens.backlog.table sd e.card (Demux.card_eq_some he)
  exact getContext_eq hlt he hmine

/-- `stcp_network_recv` fails on a packet that is not verifiable and on nothing else. -/
theorem Receiver.Inv.receive {L : Nat} {r : Receiver} (h : r.Inv L) {sd : Nat} {e : Entry}
    (he : r.run.sys.globalCtx sd = some e) (hserial : e.serial ∈ r.started)
    (hlistening : e.ctx.listening = false) {packet : List UInt8} {queue : List (List UInt8)}
    (hqueue : e.ctx.networkRecvQueue = packet :: queue) {ip : UInt32} (hip : 0 < ip) {ptr : Nat}
    (hptr : ptr &&& 2 = 0) (dst : List UInt8) :
    (Verifiable e.ctx.network ip dst.length packet ∧ ∃ r',
      (receiverMachine L).step r (.receive sd ip ptr dst) = .ok r' ∧ r'.Inv L) ∨
    (¬Verifiable e.ctx.network ip dst.length packet ∧ ∃ fault,
      (receiverMachine L).step r (.receive sd ip ptr dst) = .error fault ∧
      fault ≠ .assertion (.net .newSocketFree)) := by
  have hne := h.ne_listener he hlistening
  have hest := h.established sd e hne he hserial
  have hheld := h.held sd e he
  have hqueue' : ∀ p ∈ packet :: queue, p.length ≤ maxIpPayloadLen := hqueue ▸ hheld.packets
  rcases @stcpNetworkRecv_cases r.run.sys sd e packet queue (h.getContext_eq_ok he) hqueue
    hest.peer hest.addr ip hip ptr hptr (hqueue' packet List.mem_cons_self) dst with
    ⟨hok, dst', hcall⟩ | ⟨hnot, hcall | ⟨fault, hcall⟩⟩
  · let sys := r.run.sys.setContext sd { e.ctx with networkRecvQueue := queue }
    refine .inl ⟨hok, ⟨{ r.run with sys }, r.wire, r.started, r.ended, r.handed⟩, ?_, ?_⟩
    · simp only [receiverMachine, hcall, Exec.ok_bind, Exec.pure_eq_ok]
      rfl
    · exact h.write he rfl ⟨hheld.socket, fun p hp => hqueue' p (List.mem_cons_of_mem _ hp)⟩
        (fun hk => absurd hk hne) (fun _ _ => ⟨hest.notListening, hest.peer, hest.addr, hest.port⟩)
        (fun _ hn => .inr hn) h.handed
  · refine .inr ⟨hnot, .assertion .checksum, ?_, nofun⟩
    simp only [receiverMachine, hcall, Exec.error_bind]
  · refine .inr ⟨hnot, Fault.map RecvAssert.sum fault, ?_, ?_⟩
    · simp only [receiverMachine, hcall, Exec.error_bind]
    · cases fault <;> exact nofun

/-- `myconnect` on a socket that does not listen connects it, unless it has a peer already. -/
theorem Receiver.Inv.connect {L : Nat} {r : Receiver} (h : r.Inv L) {sd : Nat} {e : Entry}
    (he : r.run.sys.globalCtx sd = some e) (hlistening : e.ctx.listening = false)
    {name : Sockaddr} (hfamily : name.family = afInet) (hport : 0 < name.port)
    (haddr : 0 < name.addr) (reader : Reader) :
    ∃ r', r.connect sd name reader = .ok r' ∧ r'.Inv L := by
  have hne := h.ne_listener he hlistening
  have hget := h.getContext_eq_ok he
  have hheld := h.held sd e he
  by_cases hpeer : e.ctx.network.peerAddrLen ≠ 0
  · refine ⟨r, ?_, h⟩
    simp only [Receiver.connect, hget, Exec.within_ok, Exec.ok_bind, myconnect, if_pos hpeer,
      Exec.pure_eq_ok, Bool.false_eq_true, if_false]
  · refine ⟨⟨{ r.run with sys := r.run.sys.setContext sd (e.ctx.connectTo name 16) },
      Function.update r.wire e.ctx.network.socket reader, r.started ++ [e.serial], r.ended,
      r.handed⟩, ?_, ?_⟩
    · simp only [Receiver.connect, hget, Exec.within_ok, Exec.ok_bind, myconnect, if_neg hpeer,
        assert_of hlistening, Exec.pure_eq_ok, if_true]
    · refine h.write he rfl ⟨hheld.socket, hheld.packets⟩ (fun hk => absurd hk hne)
        (fun _ _ => ⟨hlistening, ⟨rfl, Nat.succ_pos 15, hfamily⟩, haddr, fun _ => hport⟩)
        ?_ h.handed
      intro n hn
      exact (List.mem_append.1 hn).symm.imp_left List.mem_singleton.1

/-- Completing a connection leaves the contexts alone. -/
theorem passiveConnectionComplete_globalCtx {s s' : Demux} {ctx : MysockContext}
    (h : passiveConnectionComplete s ctx = .ok s') :
    s'.globalCtx = s.globalCtx ∧ s'.allocated = s.allocated := by
  obtain rfl | ⟨key, q, k, -, rfl⟩ := passiveConnectionComplete_cases h
  · exact ⟨rfl, rfl⟩
  · exact ⟨rfl, rfl⟩

/-- So does taking one off the queue. -/
theorem dequeueConnection_globalCtx {s s' : Demux} {sd : Nat} {e : Entry}
    (h : dequeueConnection s sd = .ok (e, s')) :
    s'.globalCtx = s.globalCtx ∧ s'.allocated = s.allocated := by
  obtain ⟨key, q, k, completedQueue, -, rfl⟩ := dequeueConnection_cases h
  exact ⟨rfl, rfl⟩

/-- What the application does to the contexts: it unblocks one, opens one, or closes one. -/
theorem demuxMachine_contexts {L : Nat} {run run' : DemuxRun} {op : DemuxOp}
    (hop : op.OfApplication) (hstep : (demuxMachine L).step run op = .ok run') :
    run.sys.allocated ≤ run'.sys.allocated ∧
      ∀ (k : Nat) (e' : Entry), run'.sys.globalCtx k = some e' →
        (∃ e, run.sys.globalCtx k = some e ∧ (e' = e ∨ e' = { e with ctx := e.ctx.unblock })) ∨
        (∃ socket, 0 ≤ socket ∧ e' = ⟨run.sys.allocated, allocateContext k socket⟩) := by
  cases op with
  | enqueue packet peer socket => exact hop.elim
  | unblock sd =>
    obtain ⟨e, hget, hstep⟩ := Exec.bind_eq_ok.1 hstep
    obtain ⟨sys, hunblock, hstep⟩ := Exec.bind_eq_ok.1 hstep
    cases hstep
    obtain ⟨e₁, hget₁, hunblock⟩ := Exec.bind_eq_ok.1 hunblock
    obtain ⟨_, -, hunblock⟩ := Exec.bind_eq_ok.1 hunblock
    have hctx : sys.globalCtx = (run.sys.setContext sd e₁.ctx.unblock).globalCtx ∧
        sys.allocated = run.sys.allocated := by
      simp only at hunblock
      split at hunblock
      · cases hunblock
        exact ⟨rfl, rfl⟩
      · exact passiveConnectionComplete_globalCtx hunblock
    have he₁ : run.sys.globalCtx sd = some e₁ := by
      unfold getContext at hget₁
      split at hget₁
      · simp only [Int.toNat_natCast] at hget₁
        split at hget₁
        · cases hget₁
        · obtain ⟨_, -, hget₁⟩ := Exec.bind_eq_ok.1 hget₁
          cases hget₁
          assumption
      · cases hget₁
    refine ⟨hctx.2.ge, fun k e' hk => .inl ?_⟩
    have hk' : (run.sys.setContext sd e₁.ctx.unblock).globalCtx k = some e' := hctx.1 ▸ hk
    rw [Demux.setContext_eq he₁] at hk'
    rcases update_cases hk' with ⟨rfl, he'⟩ | ⟨-, hk'⟩
    · exact ⟨e₁, he₁, .inr (Option.some.inj he').symm⟩
    · exact ⟨e', hk', .inl rfl⟩
  | dequeue =>
    obtain ⟨⟨e, sys⟩, hdequeue, hstep⟩ := Exec.bind_eq_ok.1 hstep
    cases hstep
    obtain ⟨hctx, halloc⟩ := dequeueConnection_globalCtx hdequeue
    exact ⟨halloc.ge, fun k e' hk => .inl ⟨e', hctx ▸ hk, .inl rfl⟩⟩
  | openSocket socket =>
    cases hstep
    rcases newMysocket_cases run.sys socket with ⟨hcall, -⟩ | ⟨j, hj, hnone, hcall⟩
    · rw [hcall]
      exact ⟨le_rfl, fun k e' hk => .inl ⟨e', hk, .inl rfl⟩⟩
    · rw [hcall]
      refine ⟨Nat.le_succ _, fun k e' hk => ?_⟩
      rcases update_cases hk with ⟨rfl, he'⟩ | ⟨-, hk⟩
      · exact .inr ⟨socket, hop, (Option.some.inj he').symm⟩
      · exact .inl ⟨e', hk, .inl rfl⟩
  | closeSocket sd =>
    cases hstep
    refine ⟨le_rfl, fun k e' hk => .inl ?_⟩
    rcases update_cases hk with ⟨-, he'⟩ | ⟨-, hk⟩
    · cases he'
    · exact ⟨e', hk, .inl rfl⟩

/-- What the application does leaves the listening context alone and never fails. -/
theorem Receiver.Inv.application {L : Nat} {r : Receiver} (h : r.Inv L) {op : DemuxOp}
    (henabled : op.Enabled L r.run) (hop : op.OfApplication) :
    ∃ r', (receiverMachine L).step r (.application op) = .ok r' ∧ r'.Inv L ∧
      r'.run.sys.globalCtx L = r.run.sys.globalCtx L ∧ r'.started = r.started ∧
      r'.ended = r.ended := by
  obtain ⟨q, done, listener, hlistens, hactive⟩ := h.listens
  obtain ⟨run', q', done', hstep, hlistens'⟩ := hlistens.application henabled fun _ _ _ heq => by
    subst heq
    exact hop
  obtain ⟨halloc, hctx⟩ := demuxMachine_contexts hop hstep
  refine ⟨{ r with run := run' }, ?_, ⟨⟨q', done', listener, hlistens', hactive⟩, ?_, ?_, ?_,
    h.handed⟩, hlistens'.entry.trans hlistens.entry.symm, rfl, rfl⟩
  · simp only [receiverMachine, hstep, Exec.within_ok, Exec.ok_bind, Exec.pure_eq_ok]
  · intro k e' hk
    rcases hctx k e' hk with ⟨e, he, rfl | rfl⟩ | ⟨socket, hsocket, rfl⟩
    · exact h.held k e' he
    · exact ⟨(h.held k e he).socket, (h.held k e he).packets⟩
    · exact ⟨hsocket, nofun⟩
  · intro k e' hkL hk hserial
    rcases hctx k e' hk with ⟨e, he, rfl | rfl⟩ | ⟨socket, -, rfl⟩
    · exact h.established k e' hkL he hserial
    · have hest := h.established k e hkL he hserial
      exact ⟨hest.notListening, hest.peer, hest.addr, hest.port⟩
    · exact absurd (h.started _ hserial) (Nat.lt_irrefl _)
  · exact fun n hn => lt_of_lt_of_le (h.started n hn) halloc

end ComputerNetworks.Mysock
