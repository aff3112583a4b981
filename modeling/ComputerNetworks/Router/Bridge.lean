import ComputerNetworks.Router.Responder
import ComputerNetworks.Router.Session

/-!
# The router behind the switch

A frame on a port of the switch goes to the router as a message, and what the router
sends comes back as messages and leaves on ports. Messages wait on the way in both
directions, and meanwhile other clients may come and go and switches may rename the
ports. The router does not notice: it ends where it would with its packet handler at
the ports themselves, under the names they had when the frames came in, and what it
sent leaves in order on the ports its interfaces have when the server gets to it.
-/

namespace ComputerNetworks.Router

open Vns SecureHash

variable {Conn : Type} [DecidableEq Conn]

/-- A frame that came in on a port, with the names of the ports at that time. -/
structure Arrival where
  frame : List UInt8
  port : Nat
  names : Nat → Option (List UInt8)

/-- The server and the router, what is on its way between them, the frames that came in on ports so
far, those that went out, and the ports of the interfaces whenever the server took a message of the
router. -/
structure Bridge (Conn : Type) where
  server : SRServerListener Conn
  router : Client
  toRouter : List VnsMessage
  toServer : List (List UInt8)
  ins : List Arrival
  outs : List (List UInt8 × Nat)
  ports : List (List UInt8 → Option Nat)

/-- What happens on the link. -/
inductive BridgeEvent (Conn : Type) where
  | packetIn (pkt : List UInt8) (port : Nat)
  /-- An event of another client, or a `RouterInfo`. -/
  | other (e : ServerEvent Conn)
  | routerTakes (env : VnsEnv) (m : WireMessage)
  | serverTakes (msg : VnsMessage)

/-- The frames a handler of the server sends out of ports. -/
def raised : List (Effect Conn) → List (List UInt8 × Nat) :=
  List.filterMap fun
    | .raisePacketOut pkt port => some (pkt, port)
    | _ => none

namespace Bridge

/-- The server handles an event and sends what it sends to the router. -/
def handles (text : Conn → List UInt8) (conn : Conn) (b : Bridge Conn) (e : ServerEvent Conn) :
    Bridge Conn :=
  { b with
    server := (b.server.handle text e).1
    toRouter := b.toRouter ++ sentTo conn (b.server.handle text e).2.1 }

/-- One event. An exception ends the handler of the server and nothing else: what LTProtocol and the
reactor do to a connection after an exception, or after `loseConnection`, is left out. -/
def step (text : Conn → List UInt8) (conn : Conn) (set : Settings) (handle : PacketHandler)
    (b : Bridge Conn) : BridgeEvent Conn → Exec VnsAssert (Bridge Conn)
  | .packetIn pkt port =>
    .ok { b.handles text conn (.packetIn pkt port) with
      ins := b.ins ++ [⟨pkt, port, b.server.portToIntfname⟩] }
  | .other e => .ok (b.handles text conn e)
  | .routerTakes env m => do
    let router ← b.router.receive set handle env m
    pure { b with
      router
      toRouter := b.toRouter.tail
      toServer := b.toServer ++ b.router.produced router }
  | .serverTakes msg =>
    .ok { b.handles text conn (.recvMsg conn (some msg)) with
      toServer := b.toServer.tail
      outs := b.outs ++ raised (b.server.handle text (.recvMsg conn (some msg))).2.1
      ports := b.ports ++ [b.server.intfnameToPort] }

/-- The other clients have connections of their own, the connection of the router lasts, and any
switch may connect. -/
def Elsewhere (conn : Conn) : ServerEvent Conn → Prop
  | .newClient conn' _ => conn' ≠ conn
  | .clientDisconnected conn' => conn' ≠ conn
  | .recvMsg conn' _ => conn' ≠ conn
  | .routerInfo _ => True
  | .packetIn _ _ => False

/-- Where an event can happen: a frame fits a message, and a message is taken by the side it is sent
to, in the order of sending. -/
def Enabled (conn : Conn) (b : Bridge Conn) : BridgeEvent Conn → Prop
  | .packetIn pkt _ => pkt.length ≤ 9976
  | .other e => Elsewhere conn e
  | .routerTakes _ m => ∃ msg waiting, b.toRouter = msg :: waiting ∧ Travels msg m
  | .serverTakes msg => ∃ bytes waiting, b.toServer = bytes :: waiting ∧ Decodes bytes msg

/-- The link of a router. -/
def machine (text : Conn → List UInt8) (conn : Conn) (set : Settings) (handle : PacketHandler) :
    Machine VnsAssert (Bridge Conn) (BridgeEvent Conn) where
  enabled := Enabled conn
  step := step text conn set handle

/-- A router in its main loop, and nothing on its way. -/
def start (l : SRServerListener Conn) (vs : VnsSession) : Bridge Conn :=
  ⟨l, ⟨.running, vs⟩, [], [], [], [], []⟩

end Bridge

/-- A frame on a port under the name of the interface. -/
def Arrival.named (input : Arrival) : Option VNSPacket :=
  (input.names input.port).map fun name => ⟨name, input.frame⟩

/-- A frame under the name of an interface on the port. -/
def leaves (packet : VNSPacket) (ports : List UInt8 → Option Nat) : Option (List UInt8 × Nat) :=
  (ports packet.intfName).map fun port => (packet.ethernetFrame, port)

/-- The router is handed a frame, unless it is a request for another one. -/
def VnsSession.takes (handle : PacketHandler) (vs : VnsSession) (packet : VNSPacket) :
    Exec VnsAssert VnsSession := do
  let frame := packet.ethernetFrame
  let interface := padded 16 packet.intfName ++ frame
  if ← arpReqNotForUs vs.sr frame (UInt32.ofNat frame.length) interface then pure vs
  else do
    let sr ← (handle vs.sr frame (UInt32.ofNat frame.length) interface).within .router
    pure { vs.logging frame with sr }

/-- The router is handed the frames of known ports, one after the other. -/
def wired (handle : PacketHandler) (vs : VnsSession) (ins : List Arrival) :
    Exec VnsAssert VnsSession :=
  (ins.filterMap Arrival.named).foldlM (VnsSession.takes handle) vs

/-- What the router sends is in messages of this form. -/
def packetBytes (packet : VNSPacket) : List UInt8 :=
  ltFrame VNSPacket.getType (padded 16 packet.intfName ++ packet.ethernetFrame)

/-- A handler that keeps an invariant of the router, and sends by adding frames, under names that
fit, to what was sent before. -/
def PacketHandler.Conforms (handle : PacketHandler) (Inv : SrInstance → Prop) : Prop :=
  ∀ sr sr' frame len interface, Inv sr → handle sr frame len interface = .ok sr' →
    Inv sr' ∧ ∃ packets : List VNSPacket, (∀ packet ∈ packets, TextFits 16 packet.intfName) ∧
      sr'.wire = sr.wire ++ packets.map packetBytes

/-- The server decodes a message in one way only. -/
theorem Decodes.unique {bytes : List UInt8} {msg msg' : VnsMessage} (h : Decodes bytes msg)
    (h' : Decodes bytes msg') : msg = msg' := by
  obtain ⟨type, body, htype, rfl, hunpack⟩ := h
  obtain ⟨type', body', htype', hbytes, hunpack'⟩ := h'
  obtain ⟨rfl, rfl⟩ := ltFrame_injective htype htype' hbytes
  exact Except.ok.inj (Option.some.inj (hunpack.symm.trans hunpack'))

/-- A packet whose interface name fits is decoded as it was sent. -/
theorem decodes_packetBytes {packet : VNSPacket} (h : TextFits 16 packet.intfName) :
    Decodes (packetBytes packet) (.packet packet) := by
  have hround := VNSPacket.unpack_pack packet h
  rw [pack_packet packet.intfName packet.ethernetFrame] at hround
  refine ⟨VNSPacket.getType, _, by decide, rfl, ?_⟩
  exact congrArg (fun out => some (VnsMessage.packet <$> out)) hround

/-- A frame that the router takes in its main loop is one that it is handed. -/
theorem receive_packet {set : Settings} {handle : PacketHandler} {env : VnsEnv} {vs : VnsSession}
    {m : WireMessage} {packet : VNSPacket} (hhigh : packet.ethernetFrame.length ≤ 9976)
    (hm : Travels (.packet packet) m) :
    Client.receive set handle env ⟨.running, vs⟩ m = (do
      let vs ← vs.takes handle packet
      pure ⟨.running, vs⟩) := by
  have htype : (frameMessage packet.intfName packet.ethernetFrame hhigh).type = vnsPacket := rfl
  rw [Client.receive_of_ne Stage.noConfusion, Stage.expected, hm.eq_frameMessage hhigh, dispatch,
    htype, if_neg (fun h => h.1 rfl), switchCommand, if_pos rfl, packetCase_eq, VnsSession.takes]
  dsimp only
  cases arpReqNotForUs vs.sr packet.ethernetFrame (UInt32.ofNat packet.ethernetFrame.length)
      (padded 16 packet.intfName ++ packet.ethernetFrame) with
  | error fault => rfl
  | ok drop =>
    cases drop with
    | true => rfl
    | false =>
      cases handle vs.sr packet.ethernetFrame (UInt32.ofNat packet.ethernetFrame.length)
          (padded 16 packet.intfName ++ packet.ethernetFrame) with
      | error fault => rfl
      | ok sr => rfl

/-- What a frame makes a conforming handler send. -/
theorem takes_conforms {handle : PacketHandler} {Inv : SrInstance → Prop}
    (hconf : handle.Conforms Inv) {vs vs' : VnsSession} {packet : VNSPacket} (hinv : Inv vs.sr)
    (h : vs.takes handle packet = .ok vs') :
    Inv vs'.sr ∧ vs'.sent = vs.sent ∧ ∃ packets : List VNSPacket,
      (∀ packet ∈ packets, TextFits 16 packet.intfName) ∧
      vs'.sr.wire = vs.sr.wire ++ packets.map packetBytes := by
  obtain ⟨drop, -, h⟩ := Exec.bind_eq_ok.1 h
  cases drop with
  | true =>
    cases h
    exact ⟨hinv, rfl, [], List.forall_mem_nil _, (List.append_nil _).symm⟩
  | false =>
    obtain ⟨sr, hhandle, h⟩ := Exec.bind_eq_ok.1 h
    cases h
    obtain ⟨hinv', packets, hfits, hwire⟩ := hconf _ _ _ _ _ hinv (Exec.within_eq_ok.1 hhandle)
    exact ⟨hinv', rfl, packets, hfits, hwire⟩

/-- A broadcast reaches the router once for each time it is a client. -/
theorem sentTo_broadcast_count (conn : Conn) (l : SRServerListener Conn) (msg : VnsMessage) :
    sentTo conn (l.broadcast msg) = List.replicate (l.srclients.count conn) msg := by
  rw [SRServerListener.broadcast]
  induction l.srclients with
  | nil => rfl
  | cons client rest ih =>
    rw [List.map_cons]
    by_cases hclient : client = conn
    · subst hclient
      rw [sentTo, List.filterMap_cons]
      simp only [if_true, List.count_cons_self, List.replicate_succ]
      exact congrArg _ ih
    · rw [sentTo_send_ne hclient, ih, List.count_cons_of_ne hclient]

/-- The frames that came in are those the router was handed and those on their way to it; what it
has sent are the frames that went out and those on their way back. -/
structure Bridge.Inv (handle : PacketHandler) (Keeps : SrInstance → Prop) (conn : Conn)
    (vs : VnsSession) (b : Bridge Conn) : Prop where
  client : b.server.srclients.count conn = 1
  keeps : Keeps b.router.vs.sr
  small : ∀ input ∈ b.ins, input.frame.length ≤ 9976
  inward : ∃ done pending, b.ins = done ++ pending ∧
    wired handle vs done = .ok b.router.vs ∧ b.router.stage = .running ∧
    b.toRouter = (pending.filterMap Arrival.named).map .packet
  outward : ∃ taken waiting : List VNSPacket, (∀ packet ∈ waiting, TextFits 16 packet.intfName) ∧
    b.router.vs.sr.wire = vs.sr.wire ++ (taken ++ waiting).map packetBytes ∧
    b.toServer = waiting.map packetBytes ∧ taken.length = b.ports.length ∧
    b.outs = (List.zipWith leaves taken b.ports).filterMap id

section

variable {text : Conn → List UInt8} {conn : Conn} {set : Settings} {handle : PacketHandler}
  {Keeps : SrInstance → Prop} {l : SRServerListener Conn} {vs : VnsSession} {b b' : Bridge Conn}

/-- What happens elsewhere does not change what the router gets. -/
theorem elsewhere_quiet {e : ServerEvent Conn} (h : Bridge.Elsewhere conn e) :
    (l.handle text e).1.srclients.count conn = l.srclients.count conn ∧
      sentTo conn (l.handle text e).2.1 = [] := by
  cases e with
  | newClient conn' salt =>
    refine ⟨?_, sentTo_send_ne h _ _⟩
    have hnone : [conn'].count conn = 0 := List.count_eq_zero.2 fun hmem =>
      h (List.mem_singleton.1 hmem).symm
    exact List.count_append.trans (by rw [hnone, Nat.add_zero])
  | clientDisconnected conn' => exact ⟨rfl, rfl⟩
  | routerInfo info =>
    obtain ⟨hsent, hclients⟩ := l.handleRouterInfo_quiet info
    rw [SRServerListener.handle, hsent, hclients]
    exact ⟨rfl, rfl⟩
  | packetIn pkt port => exact h.elim
  | recvMsg conn' msg =>
    rw [SRServerListener.handle, l.handleRecvMsg_fst, handleRecvMsg_other h]
    exact ⟨rfl, rfl⟩

/-- A frame from the switch sets out under the name of its port. -/
theorem Bridge.Inv.packetIn (h : b.Inv handle Keeps conn vs) {pkt : List UInt8}
    (hsmall : pkt.length ≤ 9976) (port : Nat) :
    Bridge.Inv handle Keeps conn vs { b.handles text conn (.packetIn pkt port) with
      ins := b.ins ++ [⟨pkt, port, b.server.portToIntfname⟩] } := by
  obtain ⟨client, keeps, small, ⟨done, pending, hins, hwired, hstage, hto⟩, outward⟩ := h
  have hserver : (b.server.handle text (.packetIn pkt port)).1 = b.server := by
    rw [SRServerListener.handle, SRServerListener.handleSRPacketIn]
    cases b.server.portToIntfname port with
    | none => rfl
    | some name => rfl
  have hsent : sentTo conn (b.server.handle text (.packetIn pkt port)).2.1 =
      ([⟨pkt, port, b.server.portToIntfname⟩].filterMap Arrival.named).map .packet := by
    rw [SRServerListener.handle, SRServerListener.handleSRPacketIn, List.filterMap_cons,
      Arrival.named]
    dsimp only
    cases b.server.portToIntfname port with
    | none => rfl
    | some name =>
      dsimp only
      rw [sentTo_broadcast_count, client]
      rfl
  refine ⟨?_, keeps, ?_,
    ⟨done, pending ++ [⟨pkt, port, b.server.portToIntfname⟩], ?_, hwired, hstage, ?_⟩, outward⟩
  · rw [← client]
    exact congrArg _ (congrArg _ hserver)
  · exact List.forall_mem_append.2 ⟨small, List.forall_mem_singleton.2 hsmall⟩
  · rw [← List.append_assoc, ← hins]
  · rw [List.filterMap_append, List.map_append, ← hto, ← hsent]
    rfl

/-- The rest of the server's life leaves the link alone. -/
theorem Bridge.Inv.other (h : b.Inv handle Keeps conn vs) {e : ServerEvent Conn}
    (he : Bridge.Elsewhere conn e) : Bridge.Inv handle Keeps conn vs (b.handles text conn e) := by
  obtain ⟨client, keeps, small, ⟨done, pending, hins, hwired, hstage, hto⟩, outward⟩ := h
  obtain ⟨hcount, hsent⟩ := @elsewhere_quiet _ _ text conn b.server e he
  refine ⟨hcount.trans client, keeps, small, ⟨done, pending, hins, hwired, hstage, ?_⟩, outward⟩
  rw [Bridge.handles, hsent, List.append_nil]
  exact hto

/-- The router takes the next frame: those on unknown ports before it never were on their way. -/
theorem Bridge.Inv.routerTakes (h : b.Inv handle Keeps conn vs) (hconf : handle.Conforms Keeps)
    {env : VnsEnv} {m : WireMessage} {msg : VnsMessage} {waiting : List VnsMessage}
    (hto : b.toRouter = msg :: waiting) (hm : Travels msg m)
    (hstep : b.step text conn set handle (.routerTakes env m) = .ok b') :
    b'.Inv handle Keeps conn vs := by
  obtain ⟨client, keeps, small, ⟨done, pending, hins, hwired, hstage, hto'⟩,
    taken, back, hfits, hwire, hserver, hports, houts⟩ := h
  obtain ⟨packet, packets, hpending, rfl, rfl⟩ := List.map_eq_cons_iff.1 (hto'.symm.trans hto)
  obtain ⟨skipped, input, rest, rfl, hskipped, hnamed, rfl⟩ := List.filterMap_eq_cons_iff.1 hpending
  have hframe : packet.ethernetFrame = input.frame := by
    obtain ⟨name, -, rfl⟩ := Option.map_eq_some_iff.1 hnamed
    rfl
  have hsmall : packet.ethernetFrame.length ≤ 9976 := by
    rw [hframe]
    apply small
    rw [hins]
    exact List.mem_append_right _ (List.mem_append_right _ List.mem_cons_self)
  obtain ⟨server, ⟨stage, router⟩, toRouter, toServer, ins, outs, ports⟩ := b
  obtain rfl : stage = .running := hstage
  obtain ⟨c, hreceive, hstep⟩ := Exec.bind_eq_ok.1 hstep
  rw [receive_packet hsmall hm] at hreceive
  obtain ⟨vs', htakes, hreceive⟩ := Exec.bind_eq_ok.1 hreceive
  cases hreceive
  cases hstep
  obtain ⟨hkeeps, hsent, sent, hsentFits, hwire'⟩ := takes_conforms hconf keeps htakes
  have hdone : wired handle vs (done ++ (skipped ++ [input])) = .ok vs' := by
    have hnone : skipped.filterMap Arrival.named = [] := List.filterMap_eq_nil_iff.2 hskipped
    have hbefore : (done.filterMap Arrival.named).foldlM (VnsSession.takes handle) vs =
        .ok router := hwired
    rw [wired, List.filterMap_append, List.filterMap_append, hnone, List.filterMap_cons, hnamed,
      List.foldlM_append, hbefore, Exec.ok_bind]
    exact Exec.bind_eq_ok.2 ⟨vs', htakes, rfl⟩
  refine ⟨client, hkeeps, small, ⟨done ++ (skipped ++ [input]), rest, ?_, hdone, rfl, ?_⟩,
    taken, back ++ sent, List.forall_mem_append.2 ⟨hfits, hsentFits⟩, ?_, ?_, hports, houts⟩
  · rw [hins, List.append_assoc, List.append_assoc]
    rfl
  · rw [hto]
    rfl
  · rw [hwire', hwire]
    simp only [List.map_append, List.append_assoc]
  · have hproduced : (Client.mk .running router).produced ⟨.running, vs'⟩ =
        sent.map packetBytes := by
      rw [Client.produced, hsent, hwire', List.drop_length, List.drop_left, List.nil_append]
    rw [hproduced, List.map_append, ← hserver]

/-- The server takes the next frame of the router, under the names it has now. -/
theorem Bridge.Inv.serverTakes (h : b.Inv handle Keeps conn vs) {bytes : List UInt8}
    {msg : VnsMessage} {waiting : List (List UInt8)} (hto : b.toServer = bytes :: waiting)
    (hdecodes : Decodes bytes msg)
    (hstep : b.step text conn set handle (.serverTakes msg) = .ok b') :
    b'.Inv handle Keeps conn vs := by
  obtain ⟨client, keeps, small, ⟨done, pending, hins, hwired, hstage, hto'⟩,
    taken, back, hfits, hwire, hserver, hports, houts⟩ := h
  obtain ⟨packet, rest, rfl, rfl, rfl⟩ := List.map_eq_cons_iff.1 (hserver.symm.trans hto)
  obtain ⟨hfit, hfits⟩ := List.forall_mem_cons.1 hfits
  obtain rfl := hdecodes.unique (decodes_packetBytes hfit)
  cases hstep
  have hserves : (b.server.handle text (.recvMsg conn (some (.packet packet)))).1 = b.server :=
    b.server.handleRecvMsg_fst text conn _
  have heffects :
      sentTo conn (b.server.handle text (.recvMsg conn (some (.packet packet)))).2.1 = [] ∧
      raised (b.server.handle text (.recvMsg conn (some (.packet packet)))).2.1 =
        [leaves packet b.server.intfnameToPort].filterMap id := by
    rw [SRServerListener.handle, SRServerListener.handleRecvMsg, SRServerListener.handlePacketMsg,
      leaves]
    cases b.server.intfnameToPort packet.intfName with
    | none => exact ⟨rfl, rfl⟩
    | some port => exact ⟨rfl, rfl⟩
  refine ⟨?_, keeps, small, ⟨done, pending, hins, hwired, hstage, ?_⟩,
    taken ++ [packet], rest, hfits, ?_, ?_, ?_, ?_⟩
  · rw [← client]
    exact congrArg _ (congrArg _ hserves)
  · rw [Bridge.handles, heffects.1, List.append_nil]
    exact hto'
  · rw [List.append_assoc]
    exact hwire
  · rw [hto]
    rfl
  · rw [List.length_append, List.length_append, hports]
    rfl
  · rw [heffects.2, List.zipWith_append hports, List.filterMap_append, ← houts]
    rfl

/-- What one event keeps. -/
theorem Bridge.Inv.step (hconf : handle.Conforms Keeps) (h : b.Inv handle Keeps conn vs)
    {e : BridgeEvent Conn} (he : b.Enabled conn e)
    (hstep : b.step text conn set handle e = .ok b') : b'.Inv handle Keeps conn vs := by
  cases e with
  | packetIn pkt port =>
    cases hstep
    exact h.packetIn he port
  | other e =>
    cases hstep
    exact h.other he
  | routerTakes env m =>
    obtain ⟨msg, waiting, hto, hm⟩ := he
    exact h.routerTakes hconf hto hm hstep
  | serverTakes msg =>
    obtain ⟨bytes, waiting, hto, hdecodes⟩ := he
    exact h.serverTakes hto hdecodes hstep

/-- The dictionaries of the server, now and whenever a frame crossed, are those of a listener. -/
structure Bridge.NamesFixed (l : SRServerListener Conn) (b : Bridge Conn) : Prop where
  server : b.server.maps = l.maps
  ins : ∀ input ∈ b.ins, input.names = l.portToIntfname
  ports : ∀ ports ∈ b.ports, ports = l.intfnameToPort

/-- Only a `RouterInfo` changes them. -/
theorem Bridge.NamesFixed.step (h : b.NamesFixed l) {e : BridgeEvent Conn}
    (he : ∀ info, e ≠ .other (.routerInfo info))
    (hstep : b.step text conn set handle e = .ok b') : b'.NamesFixed l := by
  have hmaps {e : ServerEvent Conn} (he : ∀ info, e ≠ .routerInfo info) :
      (b.server.handle text e).1.maps = l.maps := (b.server.handle_maps text he).trans h.server
  have hnames : b.server.portToIntfname = l.portToIntfname :=
    congrArg TwoWayMap.backward h.server
  have hports : b.server.intfnameToPort = l.intfnameToPort := congrArg TwoWayMap.forward h.server
  cases e with
  | packetIn pkt port =>
    cases hstep
    refine ⟨hmaps nofun, ?_, h.ports⟩
    exact List.forall_mem_append.2 ⟨h.ins, List.forall_mem_singleton.2 hnames⟩
  | other e =>
    cases hstep
    exact ⟨hmaps fun info heq => he info (congrArg _ heq), h.ins, h.ports⟩
  | routerTakes env m =>
    obtain ⟨c, -, hstep⟩ := Exec.bind_eq_ok.1 hstep
    cases hstep
    exact ⟨h.server, h.ins, h.ports⟩
  | serverTakes msg =>
    cases hstep
    refine ⟨hmaps nofun, h.ins, ?_⟩
    exact List.forall_mem_append.2 ⟨h.ports, List.forall_mem_singleton.2 hports⟩

/-- Between two `RouterInfo` events the frames have the names and the ports of the start. -/
theorem bridge_names_fixed {events : List (BridgeEvent Conn)}
    (hevents : ((Bridge.machine text conn set handle).restrict
      fun _ e => ∀ info, e ≠ .other (.routerInfo info)).Admissible (.start l vs) events)
    (hrun : (Bridge.machine text conn set handle).run (.start l vs) events = .ok b) :
    b.NamesFixed l := by
  rw [← Machine.restrict_run fun _ e => ∀ info, e ≠ .other (.routerInfo info)] at hrun
  exact Machine.run_ok (fun _ _ _ h he hstep => h.step he.2 hstep)
    (⟨rfl, List.forall_mem_nil _, List.forall_mem_nil _⟩ : (Bridge.start l vs).NamesFixed l)
    hevents hrun

end

/-- Nothing is queued, and the interfaces have names that fit. -/
def Keeps (sr : SrInstance) : Prop :=
  sr.cache.requests = none ∧ ∀ i ∈ sr.ifList, ∃ name, CStrAt i.name 0 name ∧ name.length ≤ 16

end ComputerNetworks.Router
