import ComputerNetworks.Mysock.NetworkIo

/-!
# Two ends of a framed connection

Runs of `_network_send_packet` at one end of a TCP connection and
`_network_recv_packet` at the other, in any order and with any short counts. A
receive is taken once the frame it waits for has been sent; how its reads are cut
does not depend on when the bytes arrived.
-/

namespace ComputerNetworks.Mysock

/-- The socket is connected, or has what `_tcp_connect` needs. -/
structure NetworkContext.Connectable (ctx : NetworkContext) : Prop where
  socket : 0 ≤ ctx.socket
  peer : ctx.connected = true ∨
    (ctx.peerAddrValid = true ∧ ctx.peerAddr.family = afInet ∧ 0 < ctx.peerAddr.port)

/-- A connectable socket is connected. -/
theorem tcpConnect_eq {ctx : NetworkContext} (h : ctx.Connectable) :
    tcpConnect ctx true = .ok (0, { ctx with connected := true }) := by
  unfold tcpConnect
  by_cases hconnected : ctx.connected = true
  · rw [if_pos hconnected, ← hconnected]
  · obtain ⟨hvalid, hfamily, hport⟩ := h.peer.resolve_left hconnected
    rw [if_neg hconnected, assert_of hvalid, assert_of hfamily, assert_of hport]
    rfl

theorem NetworkContext.Connectable.connect {ctx : NetworkContext} (h : ctx.Connectable) :
    NetworkContext.Connectable { ctx with connected := true } :=
  ⟨h.socket, .inl rfl⟩

/-- Sending over a connection that can be made appends the frame of the packet. -/
theorem networkSendPacket_eq {ctx : NetworkContext} (h : ctx.Connectable)
    (hlen : 0 < ctx.peerAddrLen) (w : Writer) (packet : List UInt8) :
    ∃ counts, networkSendPacket ctx true w packet packet.length =
      .ok ((packet.length : Int), { ctx with connected := true },
        ⟨w.sent ++ frame packet, counts⟩) := by
  obtain ⟨counts, hwrite⟩ := writeFrame_eq w packet
  refine ⟨counts, ?_⟩
  rw [networkSendPacket, assert_of hlen, assert_of h.socket, tcpConnect_eq h]
  simp only [Exec.ok_bind, Int.lt_irrefl, if_false, hwrite, Exec.pure_eq_ok]

/-- A socket that receives on a connection of its own. -/
structure MysockContext.Receiving (ctx : MysockContext) : Prop where
  notListening : ctx.listening = false
  socket : 0 ≤ ctx.network.socket
  active : ctx.isActive = true → ctx.network.Connectable

/-- A receiving socket is connected before it is read from. -/
theorem connectActive_eq {ctx : MysockContext} (h : ctx.Receiving) :
    ∃ network, connectActive ctx true = .ok (0, network) ∧
      MysockContext.Receiving { ctx with network } := by
  unfold connectActive
  by_cases hactive : ctx.isActive = true
  · refine ⟨{ ctx.network with connected := true }, ?_, h.notListening, h.socket, ?_⟩
    · rw [if_pos hactive, tcpConnect_eq (h.active hactive)]
    · exact fun _ => (h.active hactive).connect
  · refine ⟨ctx.network, ?_, h⟩
    rw [if_neg hactive]

/-- Receiving on a connection of one's own is reading a frame. -/
theorem networkRecvPacket_eq {ctx : MysockContext} (h : ctx.Receiving)
    {accepted : Option (Int × Sockaddr)} {reader reader' : Reader} {dst dst' : List UInt8}
    {maxLen : Nat} {rc : Int} (hread : readFrame reader dst maxLen = .ok (rc, reader', dst')) :
    ∃ ctx', networkRecvPacket ctx ⟨true, accepted, reader⟩ dst maxLen =
      .ok ⟨rc, ctx', reader', dst'⟩ ∧ ctx'.Receiving := by
  obtain ⟨network, hconnect, hctx'⟩ := connectActive_eq h
  have hlistening : ¬(ctx.listening = true) := by simp [h.notListening]
  refine ⟨_, ?_, hctx'⟩
  simp only [networkRecvPacket, assert_of h.socket, Exec.ok_bind, hconnect, Int.lt_irrefl, if_false,
    acceptPeer, hlistening, Bool.true_eq_false, hread, Exec.pure_eq_ok, Bool.false_eq_true]

/-- A call at one of the two ends, with the counts its system calls return. -/
inductive ChannelOp where
  | send (packet : List UInt8) (counts : List Nat)
  | recv (dst : List UInt8) (maxLen : Nat) (counts : List Nat)
  deriving DecidableEq, Repr

/-- A receive that returned: the buffer before and after, its size and the value returned. -/
structure RecvReturn where
  buf : List UInt8
  maxLen : Nat
  rc : Int
  dst : List UInt8
  deriving DecidableEq, Repr

/-- The two ends, the bytes between them, and the history of the calls. -/
structure Channel where
  sender : NetworkContext
  receiver : MysockContext
  stream : List UInt8
  sent : List (List UInt8)
  received : List RecvReturn
  deriving DecidableEq, Repr

/-- A fresh connection. -/
def Channel.start (sender : NetworkContext) (receiver : MysockContext) : Channel :=
  ⟨sender, receiver, [], [], []⟩

/-- Packets have 1 to 65535 bytes; a receive has room for a byte or more and a packet to come. -/
def ChannelOp.Enabled (c : Channel) : ChannelOp → Prop
  | .send packet _ => 0 < packet.length ∧ packet.length ≤ 65535
  | .recv dst maxLen _ => 0 < maxLen ∧ maxLen ≤ dst.length ∧ c.received.length < c.sent.length

instance ChannelOp.decidableEnabled (c : Channel) : (op : ChannelOp) → Decidable (op.Enabled c)
  | .send packet _ => inferInstanceAs (Decidable (0 < packet.length ∧ packet.length ≤ 65535))
  | .recv dst maxLen _ => inferInstanceAs (Decidable
      (0 < maxLen ∧ maxLen ≤ dst.length ∧ c.received.length < c.sent.length))

/-- `_network_send_packet` and `_network_recv_packet` at the two ends of a connection. -/
def channelMachine : Machine NetAssert Channel ChannelOp where
  enabled := fun c op => op.Enabled c
  step := fun c op =>
    match op with
    | .send packet counts => do
      let (_, sender, w) ← networkSendPacket c.sender true ⟨c.stream, counts⟩ packet packet.length
      pure { c with sender, stream := w.sent, sent := c.sent ++ [packet] }
    | .recv dst maxLen counts => do
      let out ← networkRecvPacket c.receiver ⟨true, none, ⟨c.stream, false, counts⟩⟩ dst maxLen
      pure { c with
        receiver := out.ctx
        stream := out.reader.pending
        received := c.received ++ [⟨dst, maxLen, out.rc, out.dst⟩] }

instance channelMachine_decidableEnabled (c : Channel) (op : ChannelOp) :
    Decidable (channelMachine.enabled c op) :=
  inferInstanceAs (Decidable (op.Enabled c))

/-- The call returned the length of the packet and stored what of it fits the buffer. -/
def RecvReturn.Delivers (ret : RecvReturn) (packet : List UInt8) : Prop :=
  ret.rc = packet.length ∧
    ret.dst = packet.take (min packet.length ret.maxLen) ++
      ret.buf.drop (min packet.length ret.maxLen)

/-- The stream holds exactly the frames that are still to be received, and every packet received
is the one sent in its turn. -/
structure Channel.InStep (c : Channel) : Prop where
  sender : c.sender.Connectable
  peerAddrLen : 0 < c.sender.peerAddrLen
  receiver : c.receiver.Receiving
  sizes : ∀ packet ∈ c.sent, 0 < packet.length ∧ packet.length ≤ 65535
  count : c.received.length ≤ c.sent.length
  stream : c.stream = (c.sent.drop c.received.length).flatMap frame
  delivered : ∀ (i : Nat) (ret : RecvReturn), c.received[i]? = some ret →
    ∃ packet, c.sent[i]? = some packet ∧ ret.Delivers packet

/-- The frame at the front of the stream is received. -/
theorem readFrame_frame {packet rest dst : List UInt8} {maxLen : Nat} {counts : List Nat}
    (hpos : 0 < packet.length) (hle : packet.length ≤ 65535) (hmax : 0 < maxLen)
    (hdst : maxLen ≤ dst.length) :
    ∃ counts', readFrame ⟨frame packet ++ rest, false, counts⟩ dst maxLen =
      .ok ((packet.length : Int), ⟨rest, false, counts'⟩,
        packet.take (min packet.length maxLen) ++ dst.drop (min packet.length maxLen)) := by
  have hmin : min packet.length maxLen ≤ packet.length := Nat.min_le_left _ _
  obtain ⟨counts', hread⟩ := @readFrame_eq ⟨frame packet ++ rest, false, counts⟩
    (UInt8.ofNat (packet.length / 256)) (UInt8.ofNat packet.length) (packet ++ rest) dst maxLen
    packet.length rfl (ntohs_htons hle) (by omega) hdst (by rw [List.length_append]; omega)
  refine ⟨counts', ?_⟩
  rw [hread, List.drop_left, List.take_append_of_le_length hmin]

/-- A send extends the stream by one frame. -/
theorem Channel.InStep.send {c : Channel} (h : c.InStep) {packet : List UInt8} {counts : List Nat}
    (hpos : 0 < packet.length) (hle : packet.length ≤ 65535) :
    ∃ c', channelMachine.step c (.send packet counts) = .ok c' ∧ c'.InStep := by
  obtain ⟨counts', hsend⟩ := networkSendPacket_eq h.sender h.peerAddrLen ⟨c.stream, counts⟩ packet
  refine ⟨⟨{ c.sender with connected := true }, c.receiver, c.stream ++ frame packet,
    c.sent ++ [packet], c.received⟩, ?_, h.sender.connect, h.peerAddrLen,
    h.receiver, ?_, ?_, ?_, ?_⟩
  · simp only [channelMachine, hsend, Exec.ok_bind, Exec.pure_eq_ok]
  · intro p hp
    rcases List.mem_append.1 hp with hp | hp
    · exact h.sizes p hp
    · cases List.mem_singleton.1 hp
      exact ⟨hpos, hle⟩
  · rw [List.length_append]
    exact le_trans h.count (Nat.le_add_right _ _)
  · rw [h.stream, List.drop_append_of_le_length h.count, List.flatMap_append,
      List.flatMap_singleton]
  · intro i ret hret
    obtain ⟨p, hp, hdelivers⟩ := h.delivered i ret hret
    refine ⟨p, ?_, hdelivers⟩
    rw [List.getElem?_append_left (List.getElem?_eq_some_iff.1 hp).1, hp]

/-- A receive takes the next frame off the stream. -/
theorem Channel.InStep.recv {c : Channel} (h : c.InStep) {dst : List UInt8} {maxLen : Nat}
    {counts : List Nat} (hmax : 0 < maxLen) (hdst : maxLen ≤ dst.length)
    (hcount : c.received.length < c.sent.length) :
    ∃ c', channelMachine.step c (.recv dst maxLen counts) = .ok c' ∧ c'.InStep := by
  obtain ⟨packet, hpacket⟩ : ∃ p, c.sent[c.received.length]? = some p :=
    ⟨_, List.getElem?_eq_getElem hcount⟩
  obtain ⟨hpos, hle⟩ := h.sizes packet (List.mem_of_getElem? hpacket)
  have hstream : c.stream = frame packet ++
      (c.sent.drop (c.received.length + 1)).flatMap frame := by
    rw [h.stream, List.drop_eq_getElem_cons hcount, List.flatMap_cons,
      (List.getElem?_eq_some_iff.1 hpacket).2]
  obtain ⟨counts', hread⟩ := @readFrame_frame packet
    ((c.sent.drop (c.received.length + 1)).flatMap frame) dst maxLen counts hpos hle hmax hdst
  obtain ⟨ctx', hrecv, hctx'⟩ := @networkRecvPacket_eq _ h.receiver none _ _ _ _ _ _ hread
  refine ⟨⟨c.sender, ctx', (c.sent.drop (c.received.length + 1)).flatMap frame, c.sent,
    c.received ++ [⟨dst, maxLen, packet.length,
      packet.take (min packet.length maxLen) ++ dst.drop (min packet.length maxLen)⟩]⟩,
    ?_, h.sender, h.peerAddrLen, hctx', h.sizes, ?_, ?_, ?_⟩
  · simp only [channelMachine, hstream, hrecv, Exec.ok_bind, Exec.pure_eq_ok]
  · rw [List.length_append]
    exact hcount
  · rw [List.length_append]
    rfl
  · intro i ret hret
    rcases Nat.lt_or_ge i c.received.length with hi | hi
    · rw [List.getElem?_append_left hi] at hret
      exact h.delivered i ret hret
    · rw [List.getElem?_append_right hi, List.getElem?_singleton] at hret
      obtain ⟨hi', hret⟩ := Option.ite_none_right_eq_some.1 hret
      cases hret
      obtain rfl : i = c.received.length := by omega
      exact ⟨packet, hpacket, rfl, rfl⟩

/-- Every send and every receive keeps the two ends in step. -/
theorem channelMachine_preserves : channelMachine.Preserves Channel.InStep := by
  intro c op h henabled
  cases op with
  | send packet counts => exact h.send henabled.1 henabled.2
  | recv dst maxLen counts => exact h.recv henabled.1 henabled.2.1 henabled.2.2

/-- The two ends stay in step over every run: each receive returns the length of the packet sent
in its turn, stores what of it fits, and leaves the stream at the next frame. -/
theorem framing_in_step {sender : NetworkContext} {receiver : MysockContext}
    (hsender : sender.Connectable) (hlen : 0 < sender.peerAddrLen) (hreceiver : receiver.Receiving)
    {ops : List ChannelOp}
    (hops : channelMachine.Admissible (Channel.start sender receiver) ops) :
    ∃ c, channelMachine.run (Channel.start sender receiver) ops = .ok c ∧
      c.stream = (c.sent.drop c.received.length).flatMap frame ∧
      ∀ (i : Nat) (ret : RecvReturn), c.received[i]? = some ret → ∃ packet,
        c.sent[i]? = some packet ∧ ret.rc = packet.length ∧
        ret.dst = packet.take (min packet.length ret.maxLen) ++
          ret.buf.drop (min packet.length ret.maxLen) := by
  have hstart : (Channel.start sender receiver).InStep :=
    ⟨hsender, hlen, hreceiver, nofun, le_rfl, rfl, nofun⟩
  obtain ⟨c, hrun, hc⟩ := channelMachine_preserves.run hstart hops
  exact ⟨c, hrun, hc.stream, hc.delivered⟩

/-- A packet cut by a small buffer is followed by one received whole. -/
theorem framing_in_step_sample :
    ∃ c, channelMachine.run (Channel.start
        ⟨⟨afInet, 80, 1, 0⟩, 16, true, 3, -1, false⟩
        ⟨false, ⟨⟨afInet, 1024, 2, 0⟩, 16, true, 4, -1, true⟩, true, false, 1, 0, false, []⟩)
        [.send [1, 2, 3] [1, 0, 0], .recv [0, 0] 2 [0, 5, 0, 1, 0], .send [9] [],
          .recv [0, 0] 2 []] = .ok c ∧
      c.stream = (c.sent.drop c.received.length).flatMap frame ∧
      ∀ (i : Nat) (ret : RecvReturn), c.received[i]? = some ret → ∃ packet,
        c.sent[i]? = some packet ∧ ret.rc = packet.length ∧
        ret.dst = packet.take (min packet.length ret.maxLen) ++
          ret.buf.drop (min packet.length ret.maxLen) :=
  framing_in_step ⟨by decide, .inr (by decide)⟩ (by decide)
    ⟨rfl, by decide, fun h => Bool.noConfusion h⟩ (by decide)

end ComputerNetworks.Mysock
