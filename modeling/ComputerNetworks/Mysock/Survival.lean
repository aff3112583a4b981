import ComputerNetworks.Mysock.Receiver

/-!
# What a peer can do to the receiving side

A reset, a frame longer than the packet buffer, a packet that is no segment with
its checksum, and a connection request that is refused each end the process or the
thread that serves the listening socket. Nothing else does: both results below
are equivalences over every run.
-/

namespace ComputerNetworks.Mysock

/-- The state in which the runs start: a socket that has just been made to listen, with its thread,
and connections that were made before. -/
structure Receiver.Starts (L backlog : Nat) (r : Receiver) : Prop where
  listening : r.run.sys.StartsListening L backlog
  listener : ∃ e, r.run.sys.globalCtx L = some e ∧ e.ctx.isActive = false ∧
    e.ctx.network.newSocket = -1 ∧ e.serial ∈ r.started
  held : ∀ (k : Nat) (e : Entry), r.run.sys.globalCtx k = some e → e.ctx.Held
  established : ∀ (k : Nat) (e : Entry), k ≠ L → r.run.sys.globalCtx k = some e →
    e.serial ∈ r.started → e.ctx.Established
  started : ∀ n ∈ r.started, n < r.run.sys.allocated
  history : r.run.completed = [] ∧ r.run.returned = [] ∧ r.ended = [] ∧ r.handed = []

/-- The invariant holds at the start. -/
theorem Receiver.Starts.inv {L backlog : Nat} {r : Receiver} (h : r.Starts L backlog) :
    r.Inv L := by
  obtain ⟨⟨sys, completed, returned⟩, wire, started, ended, handed⟩ := r
  obtain ⟨e, he, hactive, -⟩ := h.listener
  obtain ⟨listener, hlistens⟩ := h.listening.listens
  obtain ⟨hcompleted, hreturned, -, hhanded⟩ := h.history
  dsimp only at hcompleted hreturned hhanded he
  subst hcompleted hreturned hhanded
  cases he.symm.trans hlistens.entry
  exact ⟨⟨_, [], e, hlistens, hactive⟩, h.held, h.established, h.started, nofun⟩

/-- The operation meets nothing it cannot take: the round is told of no error on its socket and does
not read an oversized frame, and the packet taken off the queue is empty or a segment with its
checksum that fits the buffer. -/
def ReceiverOp.Harmless (r : Receiver) : ReceiverOp → Prop
  | .iterate sd polls connectOk accepted _ _ => ¬ErrorReported polls ∧
      ∀ e ∈ r.run.sys.globalCtx sd, e.ctx.Reads polls connectOk accepted →
        ¬Oversized (r.pending e.ctx accepted).pending
  | .receive sd ip _ dst => ∀ e ∈ r.run.sys.globalCtx sd,
      ∀ packet ∈ e.ctx.networkRecvQueue.head?, Verifiable e.ctx.network ip dst.length packet
  | _ => True

instance MysockContext.decidableReads (ctx : MysockContext) (polls : List PollReturn)
    (connectOk : Bool) (accepted : Option Connection) :
    Decidable (ctx.Reads polls connectOk accepted) :=
  inferInstanceAs (Decidable (_ ∧ _))

instance ReceiverOp.decidableHarmless (r : Receiver) : (op : ReceiverOp) → Decidable (op.Harmless r)
  | .iterate sd polls connectOk accepted _ _ => inferInstanceAs (Decidable (¬ErrorReported polls ∧
      ∀ e ∈ r.run.sys.globalCtx sd, e.ctx.Reads polls connectOk accepted →
        ¬Oversized (r.pending e.ctx accepted).pending))
  | .receive sd ip _ dst => inferInstanceAs (Decidable (∀ e ∈ r.run.sys.globalCtx sd,
      ∀ packet ∈ e.ctx.networkRecvQueue.head?, Verifiable e.ctx.network ip dst.length packet))
  | .connect _ _ _ => inferInstanceAs (Decidable True)
  | .application _ => inferInstanceAs (Decidable True)

/-- The outcome is not an abort, save for the one in `_network_recv_packet` itself. -/
def NoAbort (out : Exec RecvAssert Receiver) : Prop :=
  ∀ fault, out = .error fault → fault = .assertion (.net .newSocketFree)

theorem noAbort_ok (r : Receiver) : NoAbort (.ok r) := nofun

theorem not_noAbort_error {fault : Fault RecvAssert}
    (h : fault ≠ .assertion (.net .newSocketFree)) : ¬NoAbort (.error fault) :=
  fun hno => h (hno fault rfl)

/-- The listening thread aborts on an oversized frame and on no other. -/
theorem Receiver.Inv.iterate_listener_noAbort {L : Nat} {r : Receiver} (h : r.Inv L) {e : Entry}
    (he : r.run.sys.globalCtx L = some e) {polls : List PollReturn}
    (hwait : ∃ w, waitPacket polls = .ok w) (connectOk : Bool) {accepted : Option Connection}
    (hvalid : ∀ c ∈ accepted, c.Valid) {packetBuf : List UInt8}
    (hbuf : packetBuf.length = maxIpPayloadLen) (socket : Int) :
    (NoAbort (r.iterate L polls connectOk accepted packetBuf socket) ↔
      (e.ctx.Reads polls connectOk accepted → ¬Oversized (r.pending e.ctx accepted).pending)) ∧
    ∀ r', r.iterate L polls connectOk accepted packetBuf socket = .ok r' → r'.Inv L := by
  have hlistening := (h.accepting he).1.listening
  have hquiet : waitPacket polls ≠ .ok .ready → e.ctx.Reads polls connectOk accepted →
      ¬Oversized (r.pending e.ctx accepted).pending := fun hw hreads => absurd hreads.1 hw
  have hsafe {r' : Receiver} (hrun : r.iterate L polls connectOk accepted packetBuf socket = .ok r')
      (hr' : r'.Inv L) (hcond : e.ctx.Reads polls connectOk accepted →
        ¬Oversized (r.pending e.ctx accepted).pending) :
      (NoAbort (r.iterate L polls connectOk accepted packetBuf socket) ↔
        (e.ctx.Reads polls connectOk accepted → ¬Oversized (r.pending e.ctx accepted).pending)) ∧
      ∀ r'', r.iterate L polls connectOk accepted packetBuf socket = .ok r'' → r''.Inv L := by
    refine ⟨iff_of_true (hrun ▸ noAbort_ok r') hcond, fun r'' hr'' => ?_⟩
    cases hrun.symm.trans hr''
    exact hr'
  rcases h.iterate_listener he hwait connectOk hvalid hbuf socket with
    ⟨running, r', hw, hrun, hr', -⟩ | ⟨-, rfl, r', ctx, hrun, hr', -⟩ | ⟨hw, c, rfl, hcases⟩
  · refine hsafe hrun hr' (hquiet ?_)
    rw [hw]
    cases running <;> exact nofun
  · exact hsafe hrun hr' fun hreads => absurd rfl (hreads.2.2 hlistening).1
  rw [r.pending_accepted hlistening] at hsafe ⊢
  rcases hcases with ⟨hnew, hrun⟩ | ⟨-, harrived, r', ctx, hrun, hr', -⟩ | ⟨hnew, hover, hrun⟩ |
    ⟨-, packet, left, q, hlen, hpending, -, hcases⟩
  · rw [hrun]
    refine ⟨iff_of_true ?_ fun hreads => absurd (hreads.2.2 hlistening).2 hnew, nofun⟩
    intro fault hfault
    exact (Except.error.inj hfault).symm
  · exact hsafe hrun hr' fun _ hover => harrived hover.frameArrived
  · rw [hrun]
    refine ⟨iff_of_false (not_noAbort_error nofun) fun hcond => ?_, nofun⟩
    have hconnects : e.ctx.Connects connectOk := fun hactive =>
      absurd ((h.accepting he).1.notActive.symm.trans hactive) Bool.false_ne_true
    exact hcond ⟨hw, hconnects, fun _ => ⟨nofun, hnew⟩⟩ hover
  · have hnot : e.ctx.Reads polls connectOk (some c) → ¬Oversized c.reader.pending :=
      fun _ => hpending ▸ not_oversized_frame hlen
    rcases hcases with ⟨-, r', hrun, hr', -⟩ | ⟨-, r', hrun, hr', -⟩
    · exact hsafe hrun hr' hnot
    · exact hsafe hrun hr' hnot

/-- One step: it aborts the process exactly when it is not harmless. -/
theorem receiverMachine_step {L : Nat} {r : Receiver} (h : r.Inv L) {op : ReceiverOp}
    (hop : op.Enabled L r) :
    (NoAbort ((receiverMachine L).step r op) ↔ op.Harmless r) ∧
    ∀ r', (receiverMachine L).step r op = .ok r' → r'.Inv L := by
  cases op with
  | iterate sd polls connectOk accepted packetBuf socket =>
    obtain ⟨⟨e, he, hstarted, -⟩, hpolls, hvalid, hbuf⟩ := hop
    change (NoAbort (r.iterate sd polls connectOk accepted packetBuf socket) ↔ _) ∧
      ∀ r', r.iterate sd polls connectOk accepted packetBuf socket = .ok r' → _
    rcases waitPacket_cases hpolls with ⟨herror, hw⟩ | ⟨hnone, hwait⟩
    · rw [Receiver.iterate_of_error he (networkRecvThread_of_error hw _ _ _ _ _)]
      exact ⟨iff_of_false (not_noAbort_error nofun) fun hh => hh.1 herror, nofun⟩
    have hharmless : ReceiverOp.Harmless r (.iterate sd polls connectOk accepted packetBuf socket) ↔
        (e.ctx.Reads polls connectOk accepted →
          ¬Oversized (r.pending e.ctx accepted).pending) := by
      refine ⟨fun hh => hh.2 e he, fun hh => ⟨hnone, fun e' he' => ?_⟩⟩
      cases Option.some.inj (he.symm.trans he')
      exact hh
    rw [hharmless]
    by_cases hsd : sd = L
    · subst hsd
      exact h.iterate_listener_noAbort he hwait connectOk hvalid hbuf socket
    · rcases h.iterate_established hsd he hstarted hwait connectOk accepted hbuf socket with
        ⟨hnot, r', hrun, hr'⟩ | ⟨hover, hrun⟩
      · rw [hrun]
        refine ⟨iff_of_true (noAbort_ok r') (not_and.1 hnot), fun r'' hr'' => ?_⟩
        cases hr''
        exact hr'
      · rw [hrun]
        exact ⟨iff_of_false (not_noAbort_error nofun) fun hh => hh hover.1 hover.2, nofun⟩
  | receive sd ip ptr dst =>
    obtain ⟨⟨e, he, hstarted, hlistening, hne⟩, hip, hptr⟩ := hop
    obtain ⟨packet, queue, hqueue⟩ := List.exists_cons_of_ne_nil hne
    have hharmless : ReceiverOp.Harmless r (.receive sd ip ptr dst) ↔
        Verifiable e.ctx.network ip dst.length packet := by
      refine ⟨fun hh => hh e he packet (by rw [hqueue]; rfl), fun hh e' he' packet' hp => ?_⟩
      cases Option.some.inj (he.symm.trans he')
      rw [hqueue] at hp
      cases hp
      exact hh
    rw [hharmless]
    rcases h.receive he hstarted hlistening hqueue hip hptr dst with
      ⟨hok, r', hrun, hr'⟩ | ⟨hnot, fault, hrun, hfault⟩
    · rw [hrun]
      refine ⟨iff_of_true (noAbort_ok r') hok, fun r'' hr'' => ?_⟩
      cases hr''
      exact hr'
    · rw [hrun]
      exact ⟨iff_of_false (not_noAbort_error hfault) hnot, nofun⟩
  | connect sd name reader =>
    obtain ⟨⟨e, he, hlistening⟩, hfamily, hport, haddr⟩ := hop
    obtain ⟨r', hrun, hr'⟩ := h.connect he hlistening hfamily hport haddr reader
    have hstep : (receiverMachine L).step r (.connect sd name reader) = .ok r' := hrun
    rw [hstep]
    refine ⟨iff_of_true (noAbort_ok r') trivial, fun r'' hr'' => ?_⟩
    cases hr''
    exact hr'
  | application op =>
    obtain ⟨r', hrun, hr', -⟩ := h.application hop.1 hop.2
    rw [hrun]
    refine ⟨iff_of_true (noAbort_ok r') trivial, fun r'' hr'' => ?_⟩
    cases hr''
    exact hr'

/-- No run aborts, and as many bytes are handed on as were received, exactly when none of its steps
is told of an error on a socket, reads an oversized frame or takes an unverifiable packet. -/
theorem receiver_noAbort_iff {L backlog : Nat} {r : Receiver} (hr : r.Starts L backlog)
    {ops : List ReceiverOp} (hops : (receiverMachine L).Admissible r ops) :
    ((∀ fault, (receiverMachine L).run r ops = .error fault →
        fault = .assertion (.net .newSocketFree)) ∧
      ∀ r', (receiverMachine L).run r ops = .ok r' → ∀ h ∈ r'.handed,
        h.stream = frame h.packet ++ h.left ∧ h.packet.length ≤ maxIpPayloadLen) ↔
    ((receiverMachine L).restrict fun r op => op.Harmless r).Admissible r ops := by
  have hkeep (r : Receiver) (op : ReceiverOp) (r' : Receiver) (h : r.Inv L)
      (hop : op.Enabled L r) (hstep : (receiverMachine L).step r op = .ok r') : r'.Inv L :=
    (receiverMachine_step h hop).2 r' hstep
  have hiff := Machine.run_good_iff hkeep
    (fun r op h _ hop => (receiverMachine_step h hop).1)
    (fun r op _ hbad _ => absurd (noAbort_ok r) hbad) hr.inv (noAbort_ok r) hops
  rw [← hiff]
  refine ⟨fun h => h.1, fun h => ⟨h, fun r' hrun => ?_⟩⟩
  exact (Machine.run_ok hkeep hr.inv hops hrun).handed

/-- The process of the examples: socket 0 listens, with its thread, and nothing else is open. -/
def Receiver.listening (backlog : Nat) : Receiver :=
  ⟨⟨Demux.listening backlog, [], []⟩, fun _ => ⟨[], false, []⟩, [0], [], []⟩

/-- The process of the examples is one of those considered. -/
theorem Receiver.starts_listening (backlog : Nat) :
    (Receiver.listening backlog).Starts 0 backlog where
  listening := Demux.startsListening_listening backlog
  listener := ⟨_, rfl, rfl, rfl, List.mem_singleton.2 rfl⟩
  held := by
    intro k e he
    obtain ⟨-, rfl⟩ := Demux.listening_globalCtx he
    exact ⟨Int.natCast_nonneg 3, nofun⟩
  established := fun k e hk he => absurd (Demux.listening_globalCtx he).1 hk
  started := by
    intro n hn
    rw [List.mem_singleton.1 hn]
    exact Nat.zero_lt_one
  history := ⟨rfl, rfl, rfl, rfl⟩

/-- A connection from port 80 of the host with address 1, over which these bytes arrive. -/
def arrival (bytes : List UInt8) (socket : Int) : ReceiverOp :=
  .iterate 0 [.events 0 1] false (some ⟨socket, ⟨afInet, 80, 1, 0⟩, ⟨bytes, false, [1, 1499]⟩⟩)
    (List.replicate maxIpPayloadLen 0) 4

/-- A SYN of twenty bytes with a given checksum field. -/
def synPacket (hi lo : UInt8) : List UInt8 :=
  [0, 0, 0, 0, 0, 0, 0, 0, 0, 0, 0, 0, 0, 2, 0, 0, hi, lo, 0, 0]

/-- Four peers that abort the receiving side: with a SYN that has a wrong checksum, with a frame of
one byte after a good SYN, with a frame of 1501 bytes, and with a reset behind a good SYN (`poll`
then reports `POLLIN`, `POLLERR` and `POLLHUP`). -/
theorem receiver_aborts :
    ((receiverMachine 0).Admissible (.listening 0)
        [arrival (frame (synPacket 0 0)) 5, .receive 1 2 0 (List.replicate 20 0)] ∧
      (receiverMachine 0).run (.listening 0)
        [arrival (frame (synPacket 0 0)) 5, .receive 1 2 0 (List.replicate 20 0)] =
          .error (.assertion .checksum)) ∧
    ((receiverMachine 0).Admissible (.listening 0)
        [arrival (frame (synPacket 252 227) ++ frame [7]) 5, .receive 1 2 0 (List.replicate 20 0),
          .iterate 1 [.events 0 1] false none (List.replicate maxIpPayloadLen 0) 4,
          .receive 1 2 0 (List.replicate 20 0)] ∧
      (receiverMachine 0).run (.listening 0)
        [arrival (frame (synPacket 252 227) ++ frame [7]) 5, .receive 1 2 0 (List.replicate 20 0),
          .iterate 1 [.events 0 1] false none (List.replicate maxIpPayloadLen 0) 4,
          .receive 1 2 0 (List.replicate 20 0)] = .error (.assertion (.sum .headerLen))) ∧
    ((receiverMachine 0).Admissible (.listening 0) [arrival (frame (List.replicate 1501 0)) 5] ∧
      (receiverMachine 0).run (.listening 0) [arrival (frame (List.replicate 1501 0)) 5] =
        .error (.assertion .packetFits)) ∧
    ((receiverMachine 0).Admissible (.listening 0)
        [arrival (frame (synPacket 252 227)) 5,
          .iterate 1 [.events 0 25] false none (List.replicate maxIpPayloadLen 0) 4] ∧
      (receiverMachine 0).run (.listening 0)
        [arrival (frame (synPacket 252 227)) 5,
          .iterate 1 [.events 0 25] false none (List.replicate maxIpPayloadLen 0) 4] =
        .error (.assertion .socketError)) := by
  decide +kernel

/-- A SYN with its checksum is received, and then taken off the queue of the new connection. -/
theorem receiver_noAbort_syn :
    (∀ fault, (receiverMachine 0).run (.listening 0)
      [arrival (frame (synPacket 252 227)) 5, .receive 1 2 0 (List.replicate 20 0)] =
        .error fault → fault = .assertion (.net .newSocketFree)) ∧
    ∀ r', (receiverMachine 0).run (.listening 0)
      [arrival (frame (synPacket 252 227)) 5, .receive 1 2 0 (List.replicate 20 0)] = .ok r' →
      ∀ h ∈ r'.handed, h.stream = frame h.packet ++ h.left ∧
        h.packet.length ≤ maxIpPayloadLen := by
  have hops : (receiverMachine 0).Admissible (.listening 0)
      [arrival (frame (synPacket 252 227)) 5, .receive 1 2 0 (List.replicate 20 0)] := by
    decide +kernel
  exact (receiver_noAbort_iff (Receiver.starts_listening 0) hops).2 (by decide +kernel)

/-- The thread of the listening socket runs, and the connection it accepted last was passed on. -/
def Receiver.Serving (L : Nat) (r : Receiver) : Prop :=
  ∃ e, r.run.sys.globalCtx L = some e ∧ e.serial ∈ r.started ∧ e.serial ∉ r.ended ∧
    e.ctx.network.newSocket = -1

/-- A connection whose first frame is a request that will be accepted. -/
def Connection.Welcome (c : Connection) (L : Nat) (s : Demux) : Prop :=
  ∃ packet left q, packet.length ≤ maxIpPayloadLen ∧ c.reader.pending = frame packet ++ left ∧
    s.listenTable L = some q ∧ Acceptable s q packet packet.length c.peer

/-- Rounds of the listening thread that nobody asked to exit, and what the application does. A peer
cannot cause an error on a listening socket. -/
def ReceiverOp.OnListener (L : Nat) : ReceiverOp → Prop
  | .iterate sd polls _ _ _ _ =>
    sd = L ∧ (∀ p ∈ polls, p.Regular) ∧ waitPacket polls ≠ .ok .done
  | .application _ => True
  | _ => False

/-- The process as far as the listening socket goes. -/
def listenerMachine (L : Nat) : Machine RecvAssert Receiver ReceiverOp :=
  (receiverMachine L).restrict fun _ op => op.OnListener L

instance ReceiverOp.decidableOnListener (L : Nat) : (op : ReceiverOp) → Decidable (op.OnListener L)
  | .iterate sd polls _ _ _ _ =>
    inferInstanceAs (Decidable
      (sd = L ∧ (∀ p ∈ polls, p.Regular) ∧ waitPacket polls ≠ .ok .done))
  | .receive _ _ _ _ => inferInstanceAs (Decidable False)
  | .connect _ _ _ => inferInstanceAs (Decidable False)
  | .application _ => inferInstanceAs (Decidable True)

instance listenerMachine_decidableEnabled (L : Nat) (r : Receiver) (op : ReceiverOp) :
    Decidable ((listenerMachine L).enabled r op) :=
  inferInstanceAs (Decidable (op.Enabled L r ∧ op.OnListener L))

/-- Every connection that arrives is a welcome one. -/
def ReceiverOp.Welcomed (L : Nat) (r : Receiver) : ReceiverOp → Prop
  | .iterate _ polls _ accepted _ _ =>
    waitPacket polls = .ok .ready → ∃ c, accepted = some c ∧ c.Welcome L r.run.sys
  | _ => True

/-- A stream starts with one frame only. -/
theorem frame_inj {packet packet' left left' : List UInt8}
    (hlen : packet.length ≤ maxIpPayloadLen) (hlen' : packet'.length ≤ maxIpPayloadLen)
    (h : frame packet ++ left = frame packet' ++ left') : packet = packet' := by
  unfold maxIpPayloadLen at hlen hlen'
  simp only [frame, List.append_assoc] at h
  obtain ⟨hcount, h⟩ := List.append_inj h rfl
  have hsame : packet.length = packet'.length := by
    rw [← @ntohs_htons packet.length (by omega), hcount, ntohs_htons (by omega)]
  exact (List.append_inj h hsame).1

/-- A whole frame has arrived. -/
theorem FrameArrived.of_frame {packet left : List UInt8} (hpos : 0 < packet.length)
    (hlen : packet.length ≤ maxIpPayloadLen) :
    FrameArrived (frame packet ++ left) maxIpPayloadLen := by
  have hcount : ntohs (htons packet.length) = packet.length := by
    unfold maxIpPayloadLen at hlen
    exact ntohs_htons (by omega)
  change 0 < ntohs (htons packet.length) ∧
    min (ntohs (htons packet.length)) maxIpPayloadLen ≤ (packet ++ left).length
  rw [hcount, List.length_append]
  omega

/-- A welcome connection brings a frame that fits the buffer. -/
theorem Connection.Welcome.frameArrived {c : Connection} {L : Nat} {s : Demux}
    (h : c.Welcome L s) :
    FrameArrived c.reader.pending maxIpPayloadLen ∧ ¬Oversized c.reader.pending := by
  obtain ⟨packet, left, q, hlen, hpending, -, hacc⟩ := h
  have hheader := hacc.syn.1
  unfold headerSize at hheader
  rw [hpending]
  exact ⟨.of_frame (by omega) hlen, not_oversized_frame hlen⟩

/-- The outcome leaves the listening socket at work. -/
def StillServing (L : Nat) (out : Exec RecvAssert Receiver) : Prop :=
  ∃ r, out = .ok r ∧ r.Serving L

/-- From a serving state, a round goes on serving exactly when what arrives is welcome. -/
theorem Receiver.Inv.serving_iterate {L : Nat} {r : Receiver} (h : r.Inv L) (hr : r.Serving L)
    {polls : List PollReturn} (hpolls : ∀ p ∈ polls, p.Regular)
    (hdone : waitPacket polls ≠ .ok .done) (connectOk : Bool) {accepted : Option Connection}
    (hvalid : ∀ c ∈ accepted, c.Valid) {packetBuf : List UInt8}
    (hbuf : packetBuf.length = maxIpPayloadLen) (socket : Int) :
    StillServing L (r.iterate L polls connectOk accepted packetBuf socket) ↔
      (waitPacket polls = .ok .ready → ∃ c, accepted = some c ∧ c.Welcome L r.run.sys) := by
  obtain ⟨e, he, hstarted, hended, hnew⟩ := hr
  have hstop {r' : Receiver} {ctx : MysockContext}
      (hentry : r'.run.sys.globalCtx L = some { e with ctx })
      (hbad : e.serial ∈ r'.ended ∨ ctx.network.newSocket ≠ -1) : ¬r'.Serving L := by
    rintro ⟨e', he', -, hended', hnew'⟩
    cases Option.some.inj (hentry.symm.trans he')
    exact hbad.elim hended' fun hne => hne hnew'
  have hlost {r' : Receiver} (hrun : r.iterate L polls connectOk accepted packetBuf socket = .ok r')
      (hr' : ¬r'.Serving L) :
      ¬StillServing L (r.iterate L polls connectOk accepted packetBuf socket) := by
    rintro ⟨r'', hrun', hserving⟩
    cases hrun.symm.trans hrun'
    exact hr' hserving
  rcases h.iterate_listener he (waitPacket_eq hpolls) connectOk hvalid hbuf socket with
    ⟨running, r', hw, hrun, -, hsame, hstarted', hended'⟩ |
    ⟨hw, rfl, r', ctx, hrun, -, hentry, hend⟩ | ⟨hw, c, rfl, hcases⟩
  · cases running with
    | false => exact absurd hw hdone
    | true =>
      refine iff_of_true ⟨r', hrun, e, hsame ▸ he, hstarted' ▸ hstarted, ?_, hnew⟩ fun hready => ?_
      · rw [hended']
        exact hended
      · exact nomatch hw.symm.trans hready
  · refine iff_of_false (hlost hrun (hstop hentry (.inl hend))) fun hwelcome => ?_
    obtain ⟨c, hc, -⟩ := hwelcome hw
    exact nomatch hc
  have hiff : (waitPacket polls = .ok .ready → ∃ c', some c = some c' ∧ c'.Welcome L r.run.sys) ↔
      c.Welcome L r.run.sys := by
    refine ⟨fun hwelcome => ?_, fun hwelcome _ => ⟨c, rfl, hwelcome⟩⟩
    obtain ⟨c', hc', hwelcome⟩ := hwelcome hw
    cases hc'
    exact hwelcome
  rw [hiff]
  rcases hcases with ⟨hne, -⟩ | ⟨-, harrived, r', ctx, hrun, -, hentry, hend⟩ | ⟨-, hover, hrun⟩ |
    ⟨-, packet, left, q, hlen, hpending, hq, hcases⟩
  · exact absurd hnew hne
  · exact iff_of_false (hlost hrun (hstop hentry (.inl hend))) fun hw => harrived hw.frameArrived.1
  · refine iff_of_false ?_ fun hw => hw.frameArrived.2 hover
    rintro ⟨r', hrun', -⟩
    exact nomatch hrun.symm.trans hrun'
  · rcases hcases with ⟨hnot, r', hrun, -, hentry⟩ | ⟨hacc, r', hrun, -, hentry, hend, hsub⟩
    · have hsocket := (hvalid c rfl).1
      refine iff_of_false (hlost hrun (hstop hentry (.inr ?_))) ?_
      · change c.sd ≠ -1
        omega
      · rintro ⟨packet', left', q', hlen', hpending', hq', hacc⟩
        cases frame_inj hlen hlen' (hpending.symm.trans hpending')
        cases Option.some.inj (hq.symm.trans hq')
        exact hnot hacc
    · refine iff_of_true ⟨r', hrun, _, hentry, hsub hstarted, ?_, rfl⟩ ⟨packet, left, q, hlen,
        hpending, hq, hacc⟩
      rw [hend]
      exact hended

/-- A connection that was never passed on is never got rid of. -/
theorem Receiver.Inv.not_serving_iterate {L : Nat} {r : Receiver} (h : r.Inv L) {e : Entry}
    (he : r.run.sys.globalCtx L = some e) (hnew : e.ctx.network.newSocket ≠ -1)
    {polls : List PollReturn} (hpolls : ∀ p ∈ polls, p.Regular) (connectOk : Bool)
    {accepted : Option Connection} (hvalid : ∀ c ∈ accepted, c.Valid) {packetBuf : List UInt8}
    (hbuf : packetBuf.length = maxIpPayloadLen) (socket : Int) :
    ¬StillServing L (r.iterate L polls connectOk accepted packetBuf socket) := by
  rintro ⟨r'', hrun'', e'', he'', -, hended'', hnew''⟩
  rcases h.iterate_listener he (waitPacket_eq hpolls) connectOk hvalid hbuf socket with
    ⟨running, r', -, hrun, -, hsame, -⟩ | ⟨-, -, r', ctx, hrun, -, hentry, hend⟩ |
    ⟨-, c, -, ⟨-, hrun⟩ | ⟨hfree, -⟩ | ⟨hfree, -⟩ | ⟨hfree, -⟩⟩
  · cases hrun.symm.trans hrun''
    rw [hsame] at he''
    cases Option.some.inj (he.symm.trans he'')
    exact hnew hnew''
  · cases hrun.symm.trans hrun''
    cases Option.some.inj (hentry.symm.trans he'')
    exact hended'' hend
  · exact nomatch hrun.symm.trans hrun''
  · exact hnew hfree
  · exact hnew hfree
  · exact hnew hfree

/-- What the application does neither stops the listening socket nor helps it. -/
theorem Receiver.Inv.serving_application {L : Nat} {r : Receiver} (h : r.Inv L) {op : DemuxOp}
    (henabled : op.Enabled L r.run) (hop : op.OfApplication) :
    StillServing L ((receiverMachine L).step r (.application op)) ↔ r.Serving L := by
  obtain ⟨r', hrun, -, hctx, hstarted, hended⟩ := h.application henabled hop
  have hsame : r'.Serving L ↔ r.Serving L := by
    simp only [Receiver.Serving, hctx, hstarted, hended]
  rw [hrun, ← hsame]
  refine ⟨?_, fun hserving => ⟨r', rfl, hserving⟩⟩
  rintro ⟨r'', hr'', hserving⟩
  cases hr''
  exact hserving

/-- The listening socket goes on serving through a run exactly when every connection of the run
brings, as its first frame, a request that is accepted. -/
theorem listener_serving_iff {L backlog : Nat} {r : Receiver} (hr : r.Starts L backlog)
    {ops : List ReceiverOp} (hops : (listenerMachine L).Admissible r ops) :
    (∃ r' e, (listenerMachine L).run r ops = .ok r' ∧ r'.run.sys.globalCtx L = some e ∧
      e.serial ∈ r'.started ∧ e.serial ∉ r'.ended ∧ e.ctx.network.newSocket = -1) ↔
    ((listenerMachine L).restrict fun r op => op.Welcomed L r).Admissible r ops := by
  have hstart : r.Serving L := by
    obtain ⟨e, he, -, hnew, hstarted⟩ := hr.listener
    refine ⟨e, he, hstarted, ?_, hnew⟩
    rw [hr.history.2.2.1]
    exact List.not_mem_nil
  have hiff := @Machine.run_good_iff _ _ _ (listenerMachine L) (Receiver.Inv L)
    (fun r op => op.Welcomed L r) (StillServing L)
    (fun r op r' h hop hstep => (receiverMachine_step h hop.1).2 r' hstep) ?_ ?_ r hr.inv
    ⟨r, rfl, hstart⟩ ops hops
  · rw [← hiff]
    refine ⟨fun ⟨r', e, hrun, h⟩ => ⟨r', hrun, e, h⟩, fun ⟨r', hrun, e, h⟩ => ⟨r', e, hrun, h⟩⟩
  · rintro r op h ⟨_, hr', hserving⟩ ⟨henabled, hop⟩
    cases hr'
    cases op with
    | iterate sd polls connectOk accepted packetBuf socket =>
      obtain ⟨rfl, hpolls, hdone⟩ := hop
      exact h.serving_iterate hserving hpolls hdone connectOk henabled.2.2.1 henabled.2.2.2 socket
    | receive sd ip ptr dst => exact hop.elim
    | connect sd name reader => exact hop.elim
    | application op =>
      exact iff_of_true ((h.serving_application henabled.1 henabled.2).2 hserving) trivial
  · rintro r op h hnot ⟨henabled, hop⟩
    have hnot' : ¬r.Serving L := fun hserving => hnot ⟨r, rfl, hserving⟩
    cases op with
    | iterate sd polls connectOk accepted packetBuf socket =>
      obtain ⟨rfl, hpolls, -⟩ := hop
      obtain ⟨⟨e, he, hstarted, hended⟩, -, hvalid, hbuf⟩ := henabled
      have hnew : e.ctx.network.newSocket ≠ -1 := fun hnew => hnot' ⟨e, he, hstarted, hended, hnew⟩
      exact h.not_serving_iterate he hnew hpolls connectOk hvalid hbuf socket
    | receive sd ip ptr dst => exact hop.elim
    | connect sd name reader => exact hop.elim
    | application op =>
      exact fun hstill => hnot' ((h.serving_application henabled.1 henabled.2).1 hstill)

/-- A first frame that is no SYN is ignored, and the next connection aborts the process. -/
theorem listener_aborts :
    (listenerMachine 0).Admissible (.listening 0)
      [arrival (frame (List.replicate 20 0)) 5, arrival (frame (synPacket 0 0)) 6] ∧
    (listenerMachine 0).run (.listening 0)
      [arrival (frame (List.replicate 20 0)) 5, arrival (frame (synPacket 0 0)) 6] =
        .error (.assertion (.net .newSocketFree)) := by
  decide +kernel

/-- A SYN from a new peer, for which there is a slot and a descriptor, is served. -/
theorem listener_serves_syn :
    ∃ r' e, (listenerMachine 0).run (.listening 0) [arrival (frame (synPacket 0 0)) 5] = .ok r' ∧
      r'.run.sys.globalCtx 0 = some e ∧ e.serial ∈ r'.started ∧ e.serial ∉ r'.ended ∧
      e.ctx.network.newSocket = -1 := by
  have hops :
      (listenerMachine 0).Admissible (.listening 0) [arrival (frame (synPacket 0 0)) 5] := by
    decide +kernel
  refine (listener_serving_iff (Receiver.starts_listening 0) hops).2 ⟨⟨hops.1, fun _ => ?_⟩, ?_⟩
  · refine ⟨_, rfl, synPacket 0 0, [], _, by decide, (List.append_nil _).symm, rfl, ?_, ?_, ?_, ?_⟩
    · exact ⟨le_rfl, 2, rfl, by decide⟩
    · decide
    · decide
    · exact ⟨1, by decide, rfl⟩
  · exact fun _ _ => trivial

end ComputerNetworks.Mysock
