import ComputerNetworks.Core.Machine
import ComputerNetworks.Router.Handshake
import ComputerNetworks.Vns.PortMaps

/-!
# A session between the server and a router

The server with its switch and all its clients, from its start on, and one router
that connects to it. What one side has sent reaches the other in order and at any
time later, so frames from the switch may fall between any two messages of the
handshake, and the router may ask for its interfaces before the server knows any.
Once everything that was sent has arrived, the router has come up exactly when
neither happened.
-/

namespace ComputerNetworks.Router

open Vns SecureHash

variable {Conn : Type} [DecidableEq Conn]

/-- The program of the router: its settings, what it does with a packet, and its session before the
first message. -/
structure Program where
  set : Settings
  handle : PacketHandler
  start : VnsSession

/-- What the client has sent between two states. -/
def Client.produced (before after : Client) : List (List UInt8) :=
  after.vs.sent.drop before.vs.sent.length ++ after.vs.sr.wire.drop before.vs.sr.wire.length

/-- What the client sends while it takes messages. -/
def Client.sentBy (set : Settings) (handle : PacketHandler) :
    Client → List (VnsEnv × WireMessage) → List (List UInt8)
  | _, [] => []
  | c, m :: messages =>
    match c.receive set handle m.1 m.2 with
    | .error _ => []
    | .ok c' => c.produced c' ++ sentBy set handle c' messages

namespace Program

/-- Where the program stands after the messages it has taken. -/
def process (p : Program) (received : List (VnsEnv × WireMessage)) : Exec VnsAssert Client :=
  Client.receiveAll p.set p.handle ⟨.authRequest, p.start⟩ received

/-- What it has sent by then. -/
def outgoing (p : Program) (received : List (VnsEnv × WireMessage)) : List (List UInt8) :=
  Client.sentBy p.set p.handle ⟨.authRequest, p.start⟩ received

end Program

/-- The server; every message it has sent to the router; the messages the router has taken, with the
surroundings of its calls; and how many of the router's messages the server has taken. -/
structure Session (Conn : Type) where
  server : SRServerListener Conn
  history : List VnsMessage
  received : List (VnsEnv × WireMessage)
  taken : Nat

/-- What happens in a session. -/
inductive SessionEvent (Conn : Type) where
  /-- An event of the server that does not come from this router. -/
  | server (e : ServerEvent Conn)
  /-- The server takes the next message of the router. -/
  | serverTakes (msg : VnsMessage)
  /-- The router takes the next message of the server. -/
  | clientTakes (env : VnsEnv) (m : WireMessage)

/-- What the server sends to a connection. -/
def sentTo (conn : Conn) : List (Effect Conn) → List VnsMessage :=
  List.filterMap fun
    | .send conn' msg => if conn' = conn then some msg else none
    | _ => none

namespace Session

/-- The server handles an event. An exception ends the handler and nothing else, and the transports
are not looked into: what LTProtocol and the reactor do to a connection after an exception, or after
`loseConnection`, is left out. -/
def handles (text : Conn → List UInt8) (conn : Conn) (s : Session Conn) (e : ServerEvent Conn) :
    Session Conn :=
  { s with
    server := (s.server.handle text e).1
    history := s.history ++ sentTo conn (s.server.handle text e).2.1 }

/-- One event. -/
def step (text : Conn → List UInt8) (conn : Conn) (s : Session Conn) :
    SessionEvent Conn → Session Conn
  | .server e => s.handles text conn e
  | .serverTakes msg => { s.handles text conn (.recvMsg conn (some msg)) with taken := s.taken + 1 }
  | .clientTakes env m => { s with received := s.received ++ [(env, m)] }

/-- Whatever interfaces the server has suit the router. -/
def Suits (table : List SrRt) (l : SRServerListener Conn) : Prop :=
  ∀ intfs, l.interfaces = some intfs → Servable table intfs

/-- What the surroundings of the server may do: every client has a connection of its own and gets
twenty bytes of salt; that of the router lasts; the interfaces of the switch suit the router; frames
are at least as long as an ARP request and fit a message. -/
def Surroundings (conn : Conn) (table : List SrRt) (l : SRServerListener Conn) : ServerEvent Conn →
    Prop
  | .newClient conn' salt => conn' ∉ l.srclients ∧ salt.length = 20
  | .clientDisconnected conn' => conn' ≠ conn
  | .routerInfo info => Suits table (l.handleRouterInfo info).1
  | .packetIn pkt _ => 42 ≤ pkt.length ∧ pkt.length ≤ 9976
  | .recvMsg conn' _ => conn' ≠ conn

/-- Where an event can happen. -/
def Enabled (p : Program) (conn : Conn) (key : List UInt8) (table : List SrRt) (s : Session Conn) :
    SessionEvent Conn → Prop
  | .server e => Surroundings conn table s.server e
  | .serverTakes msg => ∃ bytes, (p.outgoing s.received)[s.taken]? = some bytes ∧ Decodes bytes msg
  | .clientTakes env m =>
    env.Healthy key ∧ ∃ msg, s.history[s.received.length]? = some msg ∧ Travels msg m

/-- The sessions of a router. -/
def machine (text : Conn → List UInt8) (p : Program) (conn : Conn) (key : List UInt8)
    (table : List SrRt) : Machine Empty (Session Conn) (SessionEvent Conn) where
  enabled := Enabled p conn key table
  step := fun s e => .ok (s.step text conn e)

/-- A server that takes the command to open a session knows its interfaces. -/
def KnowsInterfaces (s : Session Conn) (e : SessionEvent Conn) : Prop :=
  ∀ command, e = .serverTakes (.open command) → s.server.interfaces ≠ none

/-- Before the router connects. -/
def start (l : SRServerListener Conn) : Session Conn := ⟨l, [], [], 0⟩

/-- The router has come up: at some point it was in its main loop with interfaces of the server. -/
def CameUp (p : Program) (s : Session Conn) : Prop :=
  ∃ before vs intfs, before <+: s.received ∧ p.process before = .ok ⟨.running, vs⟩ ∧
    .hardwareInfo ⟨intfs⟩ ∈ s.history ∧ vs.sr.ifList ≠ [] ∧
    List.Forall₂ IsInterface vs.sr.ifList intfs

end Session

/-- A frame was sent before the hardware information. -/
def overtaken : List VnsMessage → Bool
  | [] => false
  | .packet _ :: _ => true
  | .hardwareInfo _ :: _ => false
  | _ :: rest => overtaken rest

section

variable {set : Settings} {handle : PacketHandler} {env : VnsEnv} {m : WireMessage}
  {messages : List (VnsEnv × WireMessage)}

/-- A message adds what it makes the client send. -/
theorem Client.sentBy_cons {c c' : Client} (h : c.receive set handle env m = .ok c') :
    Client.sentBy set handle c ((env, m) :: messages) =
      c.produced c' ++ Client.sentBy set handle c' messages := by
  rw [Client.sentBy, h]

/-- A client that has ended sends nothing. -/
theorem Client.sentBy_ended (vs : VnsSession) (messages : List (VnsEnv × WireMessage)) :
    Client.sentBy set handle ⟨.ended, vs⟩ messages = [] := by
  induction messages with
  | nil => rfl
  | cons m messages ih =>
    rw [Client.sentBy_cons (Client.receive_ended set handle m.1 vs m.2), ih, Client.produced,
      List.drop_length, List.drop_length]
    rfl

end

/-- A frame of at least 42 bytes that fits a message. -/
def IsFrame : VnsMessage → Prop
  | .packet packet => 42 ≤ packet.ethernetFrame.length ∧ packet.ethernetFrame.length ≤ 9976
  | _ => False

/-- What the server has sent to the router, when it has taken a number of its messages: frames
between the messages of the handshake, and anything after the last of these; or nothing but frames
in reply to the command to open the session. -/
inductive Shape (table : List SrRt) (connected : Prop) : List VnsMessage → Nat → Prop
  | fresh : ¬connected → Shape table connected [] 0
  | requested {salt : List UInt8} {frames : List VnsMessage} : connected →
    (∀ m ∈ frames, IsFrame m) → Shape table connected (.authRequest ⟨salt⟩ :: frames) 0
  | authenticated {salt text : List UInt8} {before after : List VnsMessage} : connected →
    (∀ m ∈ before, IsFrame m) → (∀ m ∈ after, IsFrame m) →
    Shape table connected (.authRequest ⟨salt⟩ :: (before ++ .authStatus ⟨true, text⟩ :: after)) 1
  | refused {salt text : List UInt8} {before after : List VnsMessage} {n : Nat} : connected →
    (∀ m ∈ before, IsFrame m) → (∀ m ∈ after, IsFrame m) →
    Shape table connected
      (.authRequest ⟨salt⟩ :: (before ++ .authStatus ⟨true, text⟩ :: after)) (n + 2)
  | informed {salt text : List UInt8} {before after rest : List VnsMessage}
    {intfs : List VNSInterface} {n : Nat} : connected →
    (∀ m ∈ before, IsFrame m) → (∀ m ∈ after, IsFrame m) → Servable table intfs →
    Shape table connected (.authRequest ⟨salt⟩ :: (before ++ .authStatus ⟨true, text⟩ ::
      (after ++ .hardwareInfo ⟨intfs⟩ :: rest))) (n + 2)

/-- Frames may be sent to a router that is connected at any time. -/
theorem Shape.frames {table : List SrRt} {connected : Prop} {history frames : List VnsMessage}
    {taken : Nat} (h : Shape table connected history taken) (hframes : ∀ m ∈ frames, IsFrame m)
    (hnone : ¬connected → frames = []) : Shape table connected (history ++ frames) taken := by
  cases h with
  | fresh hnot =>
    rw [hnone hnot]
    exact .fresh hnot
  | requested hc hbefore => exact .requested hc (List.forall_mem_append.2 ⟨hbefore, hframes⟩)
  | authenticated hc hbefore hafter =>
    rw [List.cons_append, List.append_assoc, List.cons_append]
    exact .authenticated hc hbefore (List.forall_mem_append.2 ⟨hafter, hframes⟩)
  | refused hc hbefore hafter =>
    rw [List.cons_append, List.append_assoc, List.cons_append]
    exact .refused hc hbefore (List.forall_mem_append.2 ⟨hafter, hframes⟩)
  | informed hc hbefore hafter hintfs =>
    rw [List.cons_append, List.append_assoc, List.cons_append, List.append_assoc, List.cons_append]
    exact .informed hc hbefore hafter hintfs

/-- What is sent to the router alone. -/
theorem sentTo_send_self (conn : Conn) (msg : VnsMessage) :
    sentTo conn [.send conn msg] = [msg] := by
  rw [sentTo, List.filterMap_cons]
  simp only [if_true, List.filterMap_nil]

/-- What is sent to another connection is not sent to this one. -/
theorem sentTo_send_ne {conn conn' : Conn} (h : conn' ≠ conn) (msg : VnsMessage)
    (effects : List (Effect Conn)) :
    sentTo conn (.send conn' msg :: effects) = sentTo conn effects := by
  rw [sentTo, List.filterMap_cons]
  simp only [if_neg h]

/-- A broadcast sends the packet to its clients and nothing else. -/
theorem sentTo_broadcast (conn : Conn) (l : SRServerListener Conn) (packet : VNSPacket) :
    (∀ m ∈ sentTo conn (l.broadcast (.packet packet)), m = .packet packet) ∧
      (conn ∉ l.srclients → sentTo conn (l.broadcast (.packet packet)) = []) := by
  rw [SRServerListener.broadcast]
  induction l.srclients with
  | nil => exact ⟨List.forall_mem_nil _, fun _ => rfl⟩
  | cons client rest ih =>
    rw [List.map_cons]
    by_cases hclient : client = conn
    · subst hclient
      have hfirst : sentTo client (.send client (.packet packet) ::
          rest.map fun client => Effect.send client (.packet packet)) =
          .packet packet ::
            sentTo client (rest.map fun client => .send client (.packet packet)) := by
        rw [sentTo, List.filterMap_cons]
        simp only [if_true]
      rw [hfirst]
      refine ⟨List.forall_mem_cons.2 ⟨rfl, ih.1⟩, fun hnot => absurd List.mem_cons_self hnot⟩
    · rw [sentTo_send_ne hclient]
      exact ⟨ih.1, fun hnot => ih.2 fun hmem => hnot (List.mem_cons_of_mem _ hmem)⟩

section

variable {text : Conn → List UInt8} {conn : Conn} {table : List SrRt} {l : SRServerListener Conn}
  {e : ServerEvent Conn}

/-- A message of another client sends nothing to the router. -/
theorem handleRecvMsg_other {conn' : Conn} (h : conn' ≠ conn) (msg : Option VnsMessage) :
    sentTo conn (l.handleRecvMsg text conn' msg).2.1 = [] := by
  cases msg with
  | none => rfl
  | some msg =>
    cases msg with
    | authReply _ => exact sentTo_send_ne h _ _
    | «open» _ =>
      rw [SRServerListener.handleRecvMsg, SRServerListener.handleOpenMsg]
      cases l.interfaces with
      | none => rfl
      | some intfs => exact sentTo_send_ne h _ _
    | packet msg =>
      rw [SRServerListener.handleRecvMsg, SRServerListener.handlePacketMsg]
      cases l.intfnameToPort msg.intfName with
      | none => rfl
      | some port => rfl
    | _ => rfl

/-- The surroundings send the router nothing but frames, and only once it is connected. -/
theorem surroundings_sent (h : Session.Surroundings conn table l e)
    (hnew : ∀ salt, e ≠ .newClient conn salt) :
    (∀ m ∈ sentTo conn (l.handle text e).2.1, IsFrame m) ∧
      (conn ∉ l.srclients → sentTo conn (l.handle text e).2.1 = []) ∧
      (conn ∈ (l.handle text e).1.srclients ↔ conn ∈ l.srclients) := by
  cases e with
  | newClient conn' salt =>
    have hne : conn' ≠ conn := fun heq => hnew salt (heq ▸ rfl)
    have hsent : sentTo conn (l.handle text (.newClient conn' salt)).2.1 = [] :=
      sentTo_send_ne hne _ _
    have hclients : (l.handle text (.newClient conn' salt)).1.srclients = l.srclients ++ [conn'] :=
      rfl
    rw [hsent, hclients, List.mem_append, List.mem_singleton, or_iff_left (Ne.symm hne)]
    exact ⟨List.forall_mem_nil _, fun _ => rfl, Iff.rfl⟩
  | clientDisconnected conn' => exact ⟨List.forall_mem_nil _, fun _ => rfl, Iff.rfl⟩
  | routerInfo info =>
    obtain ⟨hsent, hclients⟩ := l.handleRouterInfo_quiet info
    rw [SRServerListener.handle, hsent, hclients]
    exact ⟨List.forall_mem_nil _, fun _ => rfl, Iff.rfl⟩
  | packetIn pkt port =>
    rw [SRServerListener.handle, SRServerListener.handleSRPacketIn]
    cases l.portToIntfname port with
    | none => exact ⟨List.forall_mem_nil _, fun _ => rfl, Iff.rfl⟩
    | some intfname =>
      obtain ⟨hall, hnone⟩ := sentTo_broadcast conn l ⟨intfname, pkt⟩
      refine ⟨fun m hm => ?_, hnone, Iff.rfl⟩
      rw [hall m hm]
      exact h
  | recvMsg conn' msg =>
    rw [SRServerListener.handle, handleRecvMsg_other h, l.handleRecvMsg_fst]
    exact ⟨List.forall_mem_nil _, fun _ => rfl, Iff.rfl⟩

/-- The surroundings send the router no interfaces. -/
theorem surroundings_no_info (h : Session.Surroundings conn table l e) (info : VNSHardwareInfo) :
    .hardwareInfo info ∉ sentTo conn (l.handle text e).2.1 := by
  by_cases hnew : ∃ salt, e = .newClient conn salt
  · obtain ⟨salt, rfl⟩ := hnew
    have hsent : sentTo conn (l.handle text (.newClient conn salt)).2.1 = [.authRequest ⟨salt⟩] :=
      sentTo_send_self conn _
    rw [hsent]
    exact fun hmem => nomatch List.mem_singleton.1 hmem
  · have hframes := (@surroundings_sent Conn _ text conn table l e h fun salt heq =>
      hnew ⟨salt, heq⟩).1
    exact fun hmem => hframes _ hmem

/-- A message of the router makes the server send its interfaces exactly when it opens the session
and the server knows them. -/
theorem handleRecvMsg_info (msg : VnsMessage) :
    (∃ info, .hardwareInfo info ∈ sentTo conn (l.handle text (.recvMsg conn (some msg))).2.1) ↔
      (∃ command, msg = .open command) ∧ l.interfaces ≠ none := by
  have hquiet {sent : List VnsMessage} (hsent : ∀ info, .hardwareInfo info ∉ sent)
      (hmsg : ∀ command, msg ≠ .open command) :
      (∃ info, .hardwareInfo info ∈ sent) ↔
        (∃ command, msg = .open command) ∧ l.interfaces ≠ none :=
    iff_of_false (not_exists.2 hsent) fun h => not_exists.2 hmsg h.1
  rw [SRServerListener.handle]
  cases msg with
  | authReply _ =>
    rw [SRServerListener.handleRecvMsg, SRServerListener.handleAuthReply, sentTo_send_self]
    exact hquiet (fun info hmem => by simp at hmem) (by simp)
  | «open» command =>
    rw [SRServerListener.handleRecvMsg, SRServerListener.handleOpenMsg]
    cases l.interfaces with
    | none => exact iff_of_false (not_exists.2 fun info => List.not_mem_nil) fun h => h.2 rfl
    | some intfs =>
      rw [sentTo_send_self]
      exact iff_of_true ⟨_, List.mem_cons_self⟩ ⟨⟨command, rfl⟩, Option.some_ne_none _⟩
  | packet msg =>
    rw [SRServerListener.handleRecvMsg, SRServerListener.handlePacketMsg]
    cases l.intfnameToPort msg.intfName with
    | none => exact hquiet (fun info => List.not_mem_nil) (by simp)
    | some port => exact hquiet (fun info => List.not_mem_nil) (by simp)
  | _ => exact hquiet (fun info => List.not_mem_nil) (by simp)

omit [DecidableEq Conn] in
/-- The interfaces suit the router all the time, and are never forgotten. -/
theorem Session.Suits.handle (hl : Session.Suits table l)
    (h : Session.Surroundings conn table l e) :
    Session.Suits table (l.handle text e).1 ∧
      (l.interfaces ≠ none → (l.handle text e).1.interfaces ≠ none) := by
  cases e with
  | newClient conn' salt => exact ⟨hl, id⟩
  | clientDisconnected conn' => exact ⟨hl, id⟩
  | routerInfo info =>
    refine ⟨h, fun hknown => ?_⟩
    have hkept := (l.routerInfoLoop_fst [] info).2.2
    rw [SRServerListener.handle]
    unfold SRServerListener.handleRouterInfo
    split
    · rename_i hrun
      rw [hrun] at hkept
      rw [hkept]
      exact hknown
    · exact Option.some_ne_none _
  | packetIn pkt port =>
    rw [SRServerListener.handle, SRServerListener.handleSRPacketIn]
    cases l.portToIntfname port with
    | none => exact ⟨hl, id⟩
    | some intfname => exact ⟨hl, id⟩
  | recvMsg conn' msg =>
    rw [SRServerListener.handle, l.handleRecvMsg_fst]
    exact ⟨hl, id⟩

end

/-- The router has taken a message, in surroundings a handshake can do with. -/
def Took (key : List UInt8) (msg : VnsMessage) (r : VnsEnv × WireMessage) : Prop :=
  Travels msg r.2 ∧ r.1.Healthy key

/-- The messages the router has taken are the first of the history: none, one or two of the
handshake, or all three; or a frame is among them. -/
inductive Trace (key : List UInt8) (table : List SrRt) :
    List VnsMessage → List (VnsEnv × WireMessage) → Prop
  | waiting {history : List VnsMessage} : Trace key table history []
  | requested {salt : List UInt8} {waiting : List VnsMessage} {r : VnsEnv × WireMessage} :
    Took key (.authRequest ⟨salt⟩) r → Trace key table (.authRequest ⟨salt⟩ :: waiting) [r]
  | interrupted {salt : List UInt8} {m : VnsMessage} {waiting : List VnsMessage}
    {r r' : VnsEnv × WireMessage} {rest : List (VnsEnv × WireMessage)} :
    Took key (.authRequest ⟨salt⟩) r → Took key m r' → IsFrame m →
    Trace key table (.authRequest ⟨salt⟩ :: m :: waiting) (r :: r' :: rest)
  | authenticated {salt text : List UInt8} {waiting : List VnsMessage}
    {r r' : VnsEnv × WireMessage} :
    Took key (.authRequest ⟨salt⟩) r → Took key (.authStatus ⟨true, text⟩) r' →
    Trace key table (.authRequest ⟨salt⟩ :: .authStatus ⟨true, text⟩ :: waiting) [r, r']
  | stopped {salt text : List UInt8} {m : VnsMessage} {waiting : List VnsMessage}
    {r r' r'' : VnsEnv × WireMessage} {rest : List (VnsEnv × WireMessage)} :
    Took key (.authRequest ⟨salt⟩) r → Took key (.authStatus ⟨true, text⟩) r' → Took key m r'' →
    IsFrame m → Trace key table (.authRequest ⟨salt⟩ :: .authStatus ⟨true, text⟩ :: m :: waiting)
      (r :: r' :: r'' :: rest)
  | informed {salt text : List UInt8} {intfs : List VNSInterface} {waiting : List VnsMessage}
    {r r' r'' : VnsEnv × WireMessage} {rest : List (VnsEnv × WireMessage)} :
    Took key (.authRequest ⟨salt⟩) r → Took key (.authStatus ⟨true, text⟩) r' →
    Took key (.hardwareInfo ⟨intfs⟩) r'' → Servable table intfs →
    Trace key table
      (.authRequest ⟨salt⟩ :: .authStatus ⟨true, text⟩ :: .hardwareInfo ⟨intfs⟩ :: waiting)
      (r :: r' :: r'' :: rest)

section

variable {table : List SrRt} {connected : Prop} {history waiting : List VnsMessage} {taken : Nat}
  {m m' m'' : VnsMessage} {key : List UInt8}

/-- The first message is the request for authentication. -/
theorem Shape.first (h : Shape table connected (m :: waiting) taken) :
    ∃ salt, m = .authRequest ⟨salt⟩ := by
  cases h with
  | requested => exact ⟨_, rfl⟩
  | authenticated => exact ⟨_, rfl⟩
  | refused => exact ⟨_, rfl⟩
  | informed => exact ⟨_, rfl⟩

/-- Frames and what follows them start with a frame or with what follows. -/
theorem frames_or_first {frames rest : List VnsMessage} {first : VnsMessage}
    (hframes : ∀ m ∈ frames, IsFrame m) (h : m :: waiting = frames ++ first :: rest) :
    IsFrame m ∨ m = first ∧ waiting = rest := by
  cases frames with
  | nil => exact Or.inr (List.cons.inj h)
  | cons frame frames =>
    rw [List.cons_append] at h
    exact Or.inl ((List.cons.inj h).1 ▸ hframes frame List.mem_cons_self)

/-- The second is a frame or the status of the authentication. -/
theorem Shape.second (h : Shape table connected (m :: m' :: waiting) taken) :
    IsFrame m' ∨ ∃ text, m' = .authStatus ⟨true, text⟩ := by
  generalize hhistory : m :: m' :: waiting = history at h
  cases h with
  | fresh => cases hhistory
  | requested _ hframes =>
    exact Or.inl (hframes m' ((List.cons.inj hhistory).2 ▸ List.mem_cons_self))
  | authenticated _ hbefore _ =>
    exact (frames_or_first hbefore (List.cons.inj hhistory).2).imp id fun h => ⟨_, h.1⟩
  | refused _ hbefore _ =>
    exact (frames_or_first hbefore (List.cons.inj hhistory).2).imp id fun h => ⟨_, h.1⟩
  | informed _ hbefore _ _ =>
    exact (frames_or_first hbefore (List.cons.inj hhistory).2).imp id fun h => ⟨_, h.1⟩

/-- A status is no frame. -/
theorem not_isFrame_authStatus {status : VNSAuthStatus} : ¬IsFrame (.authStatus status) := id

/-- Behind the status of the authentication comes a frame or the hardware information. -/
theorem Shape.third {text : List UInt8}
    (h : Shape table connected (m :: .authStatus ⟨true, text⟩ :: m'' :: waiting) taken) :
    IsFrame m'' ∨ ∃ intfs, m'' = .hardwareInfo ⟨intfs⟩ ∧ Servable table intfs := by
  generalize hhistory : m :: .authStatus ⟨true, text⟩ :: m'' :: waiting = history at h
  cases h with
  | fresh => cases hhistory
  | requested _ hframes =>
    have hframe :=
      hframes (.authStatus ⟨true, text⟩) ((List.cons.inj hhistory).2 ▸ List.mem_cons_self)
    exact absurd hframe not_isFrame_authStatus
  | authenticated _ hbefore hafter =>
    obtain hframe | ⟨-, hrest⟩ := frames_or_first hbefore (List.cons.inj hhistory).2
    · exact absurd hframe not_isFrame_authStatus
    · exact Or.inl (hafter m'' (hrest ▸ List.mem_cons_self))
  | refused _ hbefore hafter =>
    obtain hframe | ⟨-, hrest⟩ := frames_or_first hbefore (List.cons.inj hhistory).2
    · exact absurd hframe not_isFrame_authStatus
    · exact Or.inl (hafter m'' (hrest ▸ List.mem_cons_self))
  | informed _ hbefore hafter hintfs =>
    obtain hframe | ⟨-, hrest⟩ := frames_or_first hbefore (List.cons.inj hhistory).2
    · exact absurd hframe not_isFrame_authStatus
    · exact (frames_or_first hafter hrest).imp id fun h => ⟨_, h.1, hintfs⟩

/-- A history of one message is that of a server that has taken nothing. -/
theorem Shape.taken_request (h : Shape table connected [m] taken) : taken = 0 := by
  generalize hhistory : [m] = history at h
  cases h with
  | fresh => rfl
  | requested => rfl
  | authenticated => exact absurd (congrArg List.length hhistory) (by simp)
  | refused => exact absurd (congrArg List.length hhistory) (by simp)
  | informed => exact absurd (congrArg List.length hhistory) (by simp)

/-- The router can only be where the handshake leads. -/
theorem Shape.trace (h : Shape table connected history taken) {delivered : List VnsMessage}
    (hhistory : history = delivered ++ waiting) {received : List (VnsEnv × WireMessage)}
    (htook : List.Forall₂ (Took key) delivered received) : Trace key table history received := by
  subst hhistory
  cases htook with
  | nil => exact .waiting
  | cons hfirst hrest =>
    obtain ⟨salt, rfl⟩ := h.first
    cases hrest with
    | nil => exact .requested hfirst
    | cons hsecond hrest =>
      obtain hframe | ⟨text, rfl⟩ := h.second
      · exact .interrupted hfirst hsecond hframe
      cases hrest with
      | nil => exact .authenticated hfirst hsecond
      | cons hthird hrest =>
        obtain hframe | ⟨intfs, rfl, hintfs⟩ := h.third
        · exact .stopped hfirst hsecond hthird hframe
        · exact .informed hfirst hsecond hthird hintfs

end

/-- A frame is a packet of 42 to 9976 bytes. -/
theorem isFrame_packet {m : VnsMessage} (h : IsFrame m) :
    ∃ name frame, m = .packet ⟨name, frame⟩ ∧ 42 ≤ frame.length ∧ frame.length ≤ 9976 := by
  cases m with
  | packet packet => exact ⟨_, _, rfl, h⟩
  | _ => exact absurd h id

/-- There are no interfaces among the first messages and frames. -/
theorem not_info_of_frames {salt text : List UInt8} {before after : List VnsMessage}
    (hbefore : ∀ m ∈ before, IsFrame m) (hafter : ∀ m ∈ after, IsFrame m) (info : VNSHardwareInfo) :
    .hardwareInfo info ∉
      VnsMessage.authRequest ⟨salt⟩ :: (before ++ .authStatus ⟨true, text⟩ :: after) := by
  intro hmem
  rcases List.mem_cons.1 hmem with heq | hmem
  · cases heq
  rcases List.mem_append.1 hmem with hmem | hmem
  · exact hbefore _ hmem
  rcases List.mem_cons.1 hmem with heq | hmem
  · cases heq
  · exact hafter _ hmem

/-- What has the type of a class is a message of it. -/
theorem decodes_type {α : Type} {type : Nat} {body : List UInt8} {msg : VnsMessage}
    {unpack : List UInt8 → Except VnsError α} {build : α → VnsMessage} (htype : type < 2 ^ 32)
    (hclass : VnsMessage.unpack type body = some (build <$> unpack body))
    (h : Decodes (ltFrame type body) msg) : ∃ a, msg = build a := by
  obtain ⟨type', body', htype', hbytes, hunpack⟩ := h
  obtain ⟨rfl, rfl⟩ := ltFrame_injective htype htype' hbytes
  rw [hclass] at hunpack
  cases hbody : unpack body with
  | error e =>
    rw [hbody] at hunpack
    cases hunpack
  | ok a =>
    rw [hbody] at hunpack
    cases hunpack
    exact ⟨a, rfl⟩

section

variable {p : Program} {vs : VnsSession} {key salt text : List UInt8} {table : List SrRt}
  {set : Settings} {handle : PacketHandler} {r : VnsEnv × WireMessage}
  {rest received : List (VnsEnv × WireMessage)} {history : List VnsMessage} {bytes : List UInt8}

/-- The request makes the client reply. -/
theorem sentBy_authRequest (h : Took key (.authRequest ⟨salt⟩) r) :
    Client.sentBy set handle ⟨.authRequest, vs⟩ (r :: rest) =
      authReply vs.user (digest (salt ++ key.take 64)) ::
        Client.sentBy set handle ⟨.authStatus, vs.replied salt key⟩ rest := by
  rw [Client.sentBy_cons (Client.receive_authRequest h.2 h.1), Client.produced, VnsSession.replied,
    List.drop_left, List.drop_length]
  rfl

/-- A positive status makes the client open its topology. -/
theorem sentBy_authStatus (hset : set.Ready vs table) (h : Took key (.authStatus ⟨true, text⟩) r) :
    Client.sentBy set handle ⟨.authStatus, vs⟩ (r :: rest) =
      ltFrame VNSOpen.getType (openBody set vs.user) ::
        Client.sentBy set handle ⟨.running, vs.opened set table⟩ rest := by
  have hwire : (vs.opened set table).sr.wire = vs.sr.wire := rfl
  rw [Client.sentBy_cons (Client.receive_authStatus hset h.1), Client.produced, hwire,
    VnsSession.opened, List.drop_left, List.drop_length]
  rfl

/-- A frame before the status makes the client send nothing more. -/
theorem sentBy_frame {m : VnsMessage} (hframe : IsFrame m) (h : Took key m r) :
    Client.sentBy set handle ⟨.authStatus, vs⟩ (r :: rest) = [] := by
  obtain ⟨name, frame, rfl, -⟩ := isFrame_packet hframe
  rw [Client.sentBy_cons (Client.receive_frame_authStatus h.1), Client.sentBy_ended,
    Client.produced, List.drop_length, List.drop_length]
  rfl

/-- Where nothing was sent nothing was received. -/
theorem Trace.received_nil (h : Trace key table [] received) : received = [] := by
  cases h
  rfl

/-- The first message of the router is its reply. -/
theorem Trace.reply_first (h : Trace key table history received)
    (hbytes : (p.outgoing received)[0]? = some bytes) {msg : VnsMessage}
    (hdecodes : Decodes bytes msg) : ∃ reply, msg = .authReply reply := by
  have hfirst : ∀ {salt r rest}, Took key (.authRequest ⟨salt⟩) r → received = r :: rest →
      ∃ reply, msg = .authReply reply := by
    rintro salt r rest htook rfl
    rw [Program.outgoing, sentBy_authRequest htook, List.getElem?_cons_zero] at hbytes
    rw [← Option.some.inj hbytes, authReply_eq] at hdecodes
    exact @decodes_type _ _ _ _ VNSAuthReply.unpack .authReply (by decide) rfl hdecodes
  cases h with
  | waiting => cases hbytes
  | requested h₁ => exact hfirst h₁ rfl
  | interrupted h₁ => exact hfirst h₁ rfl
  | authenticated h₁ => exact hfirst h₁ rfl
  | stopped h₁ => exact hfirst h₁ rfl
  | informed h₁ => exact hfirst h₁ rfl

/-- The second opens its session. -/
theorem Trace.open_second (hset : p.set.Ready p.start table) (h : Trace key table history received)
    (hbytes : (p.outgoing received)[1]? = some bytes) {msg : VnsMessage}
    (hdecodes : Decodes bytes msg) : ∃ command, msg = .open command := by
  have hsecond : ∀ {salt text r r' rest}, Took key (.authRequest ⟨salt⟩) r →
      Took key (.authStatus ⟨true, text⟩) r' → received = r :: r' :: rest →
      ∃ command, msg = .open command := by
    rintro salt text r r' rest h₁ h₂ rfl
    rw [Program.outgoing, sentBy_authRequest h₁,
      sentBy_authStatus (hset.replied salt key) h₂] at hbytes
    rw [← Option.some.inj hbytes] at hdecodes
    exact @decodes_type _ _ _ _ VNSOpen.unpack .open (by decide) rfl hdecodes
  cases h with
  | waiting => cases hbytes
  | requested h₁ =>
    rw [Program.outgoing, sentBy_authRequest h₁] at hbytes
    cases hbytes
  | interrupted h₁ h₂ hframe =>
    rw [Program.outgoing, sentBy_authRequest h₁, sentBy_frame hframe h₂] at hbytes
    cases hbytes
  | authenticated h₁ h₂ => exact hsecond h₁ h₂ rfl
  | stopped h₁ h₂ => exact hsecond h₁ h₂ rfl
  | informed h₁ h₂ => exact hsecond h₁ h₂ rfl

/-- Without the interfaces the router sends no third message. -/
theorem Trace.outgoing_length_le (hset : p.set.Ready p.start table)
    (h : Trace key table history received) (hnone : ∀ info, .hardwareInfo info ∉ history) :
    (p.outgoing received).length ≤ 2 := by
  cases h with
  | waiting => exact Nat.zero_le _
  | requested h₁ =>
    rw [Program.outgoing, sentBy_authRequest h₁]
    exact Nat.le_succ 1
  | interrupted h₁ h₂ hframe =>
    rw [Program.outgoing, sentBy_authRequest h₁, sentBy_frame hframe h₂]
    exact Nat.le_succ 1
  | authenticated h₁ h₂ =>
    rw [Program.outgoing, sentBy_authRequest h₁, sentBy_authStatus (hset.replied _ key) h₂]
    exact le_rfl
  | @stopped salt text m waiting r r' r'' rest h₁ h₂ h₃ hframe =>
    obtain ⟨name, frame, rfl, hlow, hhigh⟩ := isFrame_packet hframe
    have hopened : ((p.start.replied salt key).opened p.set table).sr.ifList = [] :=
      hset.noInterfaces
    rw [Program.outgoing, sentBy_authRequest h₁, sentBy_authStatus (hset.replied _ key) h₂,
      Client.sentBy, Client.receive_frame_noInterfaces hlow hhigh hopened h₃.1]
    exact le_rfl
  | informed =>
    exact absurd (List.mem_cons_of_mem _ (List.mem_cons_of_mem _ List.mem_cons_self)) (hnone _)

end

namespace Session

/-- What holds in every state of a session. -/
structure Inv (conn : Conn) (key : List UInt8) (table : List SrRt) (s : Session Conn) : Prop where
  suits : Suits table s.server
  known : ∀ info, .hardwareInfo info ∈ s.history → s.server.interfaces ≠ none
  shape : Shape table (conn ∈ s.server.srclients) s.history s.taken
  received : ∃ delivered waiting, s.history = delivered ++ waiting ∧
    List.Forall₂ (Took key) delivered s.received

variable {text : Conn → List UInt8} {p : Program} {conn : Conn} {key : List UInt8}
  {table : List SrRt} {s : Session Conn}

omit [DecidableEq Conn] in
/-- What a router received is a trace of its history. -/
theorem Inv.trace (h : s.Inv conn key table) : Trace key table s.history s.received := by
  obtain ⟨delivered, waiting, hhistory, htook⟩ := h.received
  exact h.shape.trace hhistory htook

omit [DecidableEq Conn] in
/-- The router has taken none of what is sent later. -/
theorem Inv.received_append (h : s.Inv conn key table) (sent : List VnsMessage) :
    ∃ delivered waiting, s.history ++ sent = delivered ++ waiting ∧
      List.Forall₂ (Took key) delivered s.received := by
  obtain ⟨delivered, waiting, hhistory, htook⟩ := h.received
  exact ⟨delivered, waiting ++ sent, by rw [hhistory, List.append_assoc], htook⟩

/-- An event of the surroundings preserves the invariant. -/
theorem Inv.server (h : s.Inv conn key table) {e : ServerEvent Conn}
    (he : Surroundings conn table s.server e) : (s.handles text conn e).Inv conn key table := by
  have hkept := @Suits.handle _ text conn table s.server e h.suits he
  refine ⟨hkept.1, fun info hmem => ?_, ?_, h.received_append _⟩
  · rcases List.mem_append.1 hmem with hmem | hmem
    · exact hkept.2 (h.known info hmem)
    · exact absurd hmem (surroundings_no_info he info)
  by_cases hnew : ∃ salt, e = .newClient conn salt
  · obtain ⟨salt, rfl⟩ := hnew
    have hsent : sentTo conn (s.server.handle text (.newClient conn salt)).2.1 =
        [.authRequest ⟨salt⟩] :=
      sentTo_send_self conn _
    have hclients : (s.server.handle text (.newClient conn salt)).1.srclients =
        s.server.srclients ++ [conn] := rfl
    have hnow : conn ∈ s.server.srclients ++ [conn] := List.mem_append_right _ List.mem_cons_self
    have hshape := h.shape
    rw [handles, hsent]
    dsimp only
    rw [hclients]
    generalize s.history = history at hshape
    generalize s.taken = taken at hshape
    cases hshape with
    | fresh => exact .requested hnow (List.forall_mem_nil _)
    | requested hc => exact absurd hc he.1
    | authenticated hc => exact absurd hc he.1
    | refused hc => exact absurd hc he.1
    | informed hc => exact absurd hc he.1
  · obtain ⟨hframes, hnone, hclients⟩ := @surroundings_sent Conn _ text conn table s.server e he
      fun salt heq => hnew ⟨salt, heq⟩
    have hshape := h.shape.frames hframes hnone
    rw [handles]
    dsimp only
    rwa [propext hclients]

/-- A message that the server takes preserves the invariant. -/
theorem Inv.serverTakes (hset : p.set.Ready p.start table) (h : s.Inv conn key table)
    {msg : VnsMessage} (he : Enabled p conn key table s (.serverTakes msg)) :
    (s.step text conn (.serverTakes msg)).Inv conn key table := by
  have htrace := h.trace
  have hstate : (s.server.handle text (.recvMsg conn (some msg))).1 = s.server :=
    s.server.handleRecvMsg_fst text conn _
  obtain ⟨bytes, hnext, hdecodes⟩ := he
  have hsent := @handleRecvMsg_info _ _ text conn s.server msg
  refine ⟨?_, fun info hmem => ?_, ?_, h.received_append _⟩
  · rw [step, handles, hstate]
    exact h.suits
  · rw [step, handles, hstate]
    rcases List.mem_append.1 hmem with hmem | hmem
    · exact h.known info hmem
    · exact (hsent.1 ⟨info, hmem⟩).2
  rw [step, handles, hstate]
  dsimp only
  have hshape := h.shape
  generalize s.history = history at hshape htrace
  generalize s.taken = taken at hshape hnext
  cases hshape with
  | fresh hnot =>
    rw [htrace.received_nil] at hnext
    cases hnext
  | requested hc hframes =>
    obtain ⟨reply, rfl⟩ := htrace.reply_first hnext hdecodes
    have hsent :
        sentTo conn (s.server.handle text (.recvMsg conn (some (.authReply reply)))).2.1 = _ :=
      sentTo_send_self conn _
    rw [hsent, List.cons_append]
    exact .authenticated hc hframes (List.forall_mem_nil _)
  | authenticated hc hbefore hafter =>
    obtain ⟨command, rfl⟩ := htrace.open_second hset hnext hdecodes
    rw [SRServerListener.handle, SRServerListener.handleRecvMsg, SRServerListener.handleOpenMsg]
    cases hintfs : s.server.interfaces with
    | none =>
      rw [show sentTo conn ([] : List (Effect Conn)) = [] from rfl, List.append_nil]
      exact .refused hc hbefore hafter
    | some intfs =>
      rw [sentTo_send_self, List.cons_append, List.append_assoc, List.cons_append]
      exact .informed hc hbefore hafter (h.suits intfs hintfs)
  | refused hc hbefore hafter =>
    -- the router has sent two messages only
    have hshort := htrace.outgoing_length_le hset (not_info_of_frames hbefore hafter)
    rw [List.getElem?_eq_none (hshort.trans (Nat.le_add_left 2 _))] at hnext
    cases hnext
  | informed hc hbefore hafter hserves =>
    rw [List.cons_append, List.append_assoc, List.cons_append, List.append_assoc, List.cons_append]
    exact .informed hc hbefore hafter hserves

/-- A message that the client takes preserves the invariant. -/
theorem Inv.clientTakes (h : s.Inv conn key table) {env : VnsEnv} {m : WireMessage}
    (he : Enabled p conn key table s (.clientTakes env m)) :
    (s.step text conn (.clientTakes env m)).Inv conn key table := by
  obtain ⟨henv, msg, hnext, htravels⟩ := he
  refine ⟨h.suits, h.known, h.shape, ?_⟩
  obtain ⟨delivered, waiting, hhistory, htook⟩ := h.received
  rw [hhistory, ← htook.length_eq, List.getElem?_append_right le_rfl, Nat.sub_self] at hnext
  obtain ⟨waiting', rfl⟩ : ∃ waiting', waiting = msg :: waiting' := by
    cases waiting with
    | nil => cases hnext
    | cons first waiting' => exact ⟨waiting', by rw [Option.some.inj hnext]⟩
  refine ⟨delivered ++ [msg], waiting', ?_, ?_⟩
  · rw [step, List.append_assoc]
    exact hhistory
  · exact List.rel_append htook (.cons ⟨htravels, henv⟩ .nil)

/-- Every event of a session preserves the invariant. -/
theorem Inv.step (hset : p.set.Ready p.start table) (h : s.Inv conn key table)
    {e : SessionEvent Conn} (he : Enabled p conn key table s e) :
    (s.step text conn e).Inv conn key table := by
  cases e with
  | server e => exact h.server he
  | serverTakes msg => exact h.serverTakes hset he
  | clientTakes env m => exact h.clientTakes he

/-- A frame that comes first overtakes the status. -/
theorem overtaken_frame {m : VnsMessage} (h : IsFrame m) (rest : List VnsMessage) :
    overtaken (m :: rest) = true := by
  obtain ⟨name, frame, rfl, -⟩ := isFrame_packet h
  rfl

omit [DecidableEq Conn] in
/-- With all three messages of the handshake the router has come up. -/
theorem cameUp_informed (hset : p.set.Ready p.start table) {salt text : List UInt8}
    {intfs : List VNSInterface} {waiting : List VnsMessage} {r r' r'' : VnsEnv × WireMessage}
    {rest : List (VnsEnv × WireMessage)} (h₁ : Took key (.authRequest ⟨salt⟩) r)
    (h₂ : Took key (.authStatus ⟨true, text⟩) r') (h₃ : Took key (.hardwareInfo ⟨intfs⟩) r'')
    (hserves : Servable table intfs) (l : SRServerListener Conn) (taken : Nat) :
    CameUp p
      (⟨l, .authRequest ⟨salt⟩ :: .authStatus ⟨true, text⟩ :: .hardwareInfo ⟨intfs⟩ :: waiting,
        r :: r' :: r'' :: rest, taken⟩ : Session Conn) := by
  have hready := hset.replied salt key
  obtain ⟨ifList, hup, hmatch⟩ := @Client.receive_hwinfo r''.1 p.handle
    ((p.start.replied salt key).opened p.set table) r''.2 p.set intfs hserves hset.noInterfaces h₃.1
  refine ⟨[r, r', r''], { (p.start.replied salt key).opened p.set table with
    sr := { ((p.start.replied salt key).opened p.set table).sr with ifList } }, intfs,
    ⟨rest, rfl⟩, ?_, by simp, ?_, hmatch⟩
  · rw [Program.process, Client.receiveAll_cons, Client.receive_authRequest h₁.2 h₁.1, Exec.ok_bind,
      Client.receiveAll_cons, Client.receive_authStatus hready h₂.1, Exec.ok_bind,
      Client.receiveAll_cons, hup]
    rfl
  · rintro rfl
    obtain ⟨rt, hrt⟩ := List.exists_mem_of_ne_nil _ hserves.table_ne
    obtain ⟨intf, hintf, -⟩ := hserves.routed rt hrt
    cases hmatch
    cases hintf

/-- The process takes its messages one after the other. -/
theorem process_cons (r : VnsEnv × WireMessage) (rest : List (VnsEnv × WireMessage)) :
    p.process (r :: rest) = Client.receive p.set p.handle r.1 ⟨.authRequest, p.start⟩ r.2 >>=
      fun c => Client.receiveAll p.set p.handle c rest :=
  Client.receiveAll_cons _ _ _ _ _

/-- A frame in the place of the status ends the program. -/
theorem not_cameUp_interrupted {salt : List UInt8} {m : VnsMessage} {r r' : VnsEnv × WireMessage}
    {rest before : List (VnsEnv × WireMessage)} (h₁ : Took key (.authRequest ⟨salt⟩) r)
    (h₂ : Took key m r') (hframe : IsFrame m) (hbefore : before <+: r :: r' :: rest)
    (vs : VnsSession) : p.process before ≠ .ok ⟨.running, vs⟩ := by
  cases before with
  | nil => exact nofun
  | cons b before =>
    obtain ⟨rfl, hrest⟩ := List.cons_prefix_cons.1 hbefore
    rw [process_cons, Client.receive_authRequest h₁.2 h₁.1, Exec.ok_bind]
    cases before with
    | nil => exact nofun
    | cons b before =>
      obtain ⟨rfl, -⟩ := List.cons_prefix_cons.1 hrest
      obtain ⟨name, frame, rfl, -⟩ := isFrame_packet hframe
      rw [Client.receiveAll_cons, Client.receive_frame_authStatus h₂.1, Exec.ok_bind,
        Client.receiveAll_ended]
      exact nofun

/-- A frame in the place of the hardware information stops it. -/
theorem not_cameUp_stopped (hset : p.set.Ready p.start table) {salt text : List UInt8}
    {m : VnsMessage} {r r' r'' : VnsEnv × WireMessage} {rest before : List (VnsEnv × WireMessage)}
    (h₁ : Took key (.authRequest ⟨salt⟩) r) (h₂ : Took key (.authStatus ⟨true, text⟩) r')
    (h₃ : Took key m r'') (hframe : IsFrame m) (hbefore : before <+: r :: r' :: r'' :: rest)
    {vs : VnsSession} (hifs : vs.sr.ifList ≠ []) : p.process before ≠ .ok ⟨.running, vs⟩ := by
  cases before with
  | nil => exact nofun
  | cons b before =>
    obtain ⟨rfl, hrest⟩ := List.cons_prefix_cons.1 hbefore
    rw [process_cons, Client.receive_authRequest h₁.2 h₁.1, Exec.ok_bind]
    cases before with
    | nil => exact nofun
    | cons b before =>
      obtain ⟨rfl, hlast⟩ := List.cons_prefix_cons.1 hrest
      rw [Client.receiveAll_cons, Client.receive_authStatus (hset.replied salt key) h₂.1,
        Exec.ok_bind]
      cases before with
      | nil =>
        intro hrun
        cases hrun
        exact hifs hset.noInterfaces
      | cons b before =>
        obtain ⟨rfl, -⟩ := List.cons_prefix_cons.1 hlast
        obtain ⟨name, frame, rfl, hlow, hhigh⟩ := isFrame_packet hframe
        have hopened : ((p.start.replied salt key).opened p.set table).sr.ifList = [] :=
          hset.noInterfaces
        rw [Client.receiveAll_cons, Client.receive_frame_noInterfaces hlow hhigh hopened h₃.1]
        exact nofun

/-- Everything that was sent has arrived. -/
structure Settled (p : Program) (s : Session Conn) : Prop where
  client : s.received.length = s.history.length
  server : s.taken = (p.outgoing s.received).length

/-- The server took the command to open the session without sending its interfaces. -/
def Refused (s : Session Conn) : Prop :=
  2 ≤ s.taken ∧ ∀ info, .hardwareInfo info ∉ s.history

omit [DecidableEq Conn] in
/-- Once everything has arrived, the router has come up, unless a frame stopped it or it was refused
its interfaces. -/
theorem Inv.cameUp_iff (hset : p.set.Ready p.start table) (h : s.Inv conn key table)
    (hsettled : s.Settled p) (hconnected : conn ∈ s.server.srclients) :
    CameUp p s ↔ overtaken s.history = false ∧ ¬s.Refused := by
  obtain ⟨l, history, received, taken⟩ := s
  have hshape : Shape table (conn ∈ l.srclients) history taken := h.shape
  have htrace : Trace key table history received := h.trace
  have hclient : received.length = history.length := hsettled.client
  have hserver : taken = (p.outgoing received).length := hsettled.server
  cases htrace with
  | waiting =>
    -- the server has sent its first message
    rw [List.length_eq_zero_iff.1 hclient.symm] at hshape
    cases hshape with
    | fresh hnot => exact absurd hconnected hnot
  | requested h₁ =>
    -- the reply is under way
    rw [List.length_eq_zero_iff.1 (Nat.succ.inj hclient).symm] at hshape
    rw [Program.outgoing, sentBy_authRequest h₁] at hserver
    exact absurd (hserver.symm.trans hshape.taken_request) (Nat.succ_ne_zero _)
  | interrupted h₁ h₂ hframe =>
    refine iff_of_false ?_ fun hc => ne_true_of_eq_false hc.1 (overtaken_frame hframe _)
    rintro ⟨before, vs, intfs, hbefore, hrun, -⟩
    exact not_cameUp_interrupted h₁ h₂ hframe hbefore vs hrun
  | @authenticated salt text waiting r r' h₁ h₂ =>
    -- the server has taken the opening message
    obtain rfl := List.length_eq_zero_iff.1 (Nat.succ.inj (Nat.succ.inj hclient)).symm
    rw [Program.outgoing, sentBy_authRequest h₁,
      sentBy_authStatus (hset.replied _ key) h₂] at hserver
    have hnone : ∀ info, .hardwareInfo info ∉
        [VnsMessage.authRequest ⟨salt⟩, .authStatus ⟨true, text⟩] :=
      not_info_of_frames (List.forall_mem_nil _) (List.forall_mem_nil _)
    refine iff_of_false ?_ fun hc => hc.2 ⟨hserver.ge, hnone⟩
    rintro ⟨before, vs, intfs, -, -, hmem, -⟩
    exact hnone _ hmem
  | stopped h₁ h₂ h₃ hframe =>
    refine iff_of_false ?_ fun hc => ne_true_of_eq_false hc.1 (overtaken_frame hframe _)
    rintro ⟨before, vs, intfs, hbefore, hrun, -, hifs, -⟩
    exact not_cameUp_stopped hset h₁ h₂ h₃ hframe hbefore hifs hrun
  | informed h₁ h₂ h₃ hserves =>
    refine iff_of_true (cameUp_informed hset h₁ h₂ h₃ hserves l taken) ⟨rfl, fun hrefused => ?_⟩
    exact hrefused.2 _ (List.mem_cons_of_mem _ (List.mem_cons_of_mem _ List.mem_cons_self))

/-- The messages of the server that are not a reply bring no interfaces. -/
theorem refused_server {e : ServerEvent Conn} (he : Surroundings conn table s.server e) :
    (s.handles text conn e).Refused ↔ s.Refused := by
  refine and_congr_right fun _ => forall_congr' fun info => not_congr ?_
  exact List.mem_append.trans (or_iff_left (surroundings_no_info he info))

/-- A session that was not refused yet is refused exactly when the server takes the command to open
it before it knows its interfaces. -/
theorem Inv.not_refused_step (hset : p.set.Ready p.start table) (h : s.Inv conn key table)
    (hnot : ¬s.Refused) {e : SessionEvent Conn} (he : Enabled p conn key table s e) :
    ¬(s.step text conn e).Refused ↔ s.KnowsInterfaces e := by
  cases e with
  | server e => exact iff_of_true (fun hr => hnot ((refused_server he).1 hr)) nofun
  | clientTakes env m => exact iff_of_true hnot nofun
  | serverTakes msg =>
    have htrace := h.trace
    have hshape := h.shape
    have hknown := h.known
    obtain ⟨bytes, hnext, hdecodes⟩ := he
    have hsent := @handleRecvMsg_info _ _ text conn s.server msg
    have hrefused : (s.step text conn (.serverTakes msg)).Refused ↔ 2 ≤ s.taken + 1 ∧
        (∀ info, .hardwareInfo info ∉ s.history) ∧
        ¬((∃ command, msg = .open command) ∧ s.server.interfaces ≠ none) := by
      rw [← hsent, not_exists, ← forall_and]
      refine and_congr_right fun _ => forall_congr' fun info => ?_
      exact (not_congr List.mem_append).trans not_or
    rw [hrefused]
    rw [Refused] at hnot
    generalize s.history = history at hshape htrace hknown hnot
    generalize s.taken = taken at hshape hnext hnot
    cases hshape with
    | fresh =>
      rw [htrace.received_nil] at hnext
      cases hnext
    | requested =>
      obtain ⟨reply, rfl⟩ := htrace.reply_first hnext hdecodes
      exact iff_of_true (fun hc => Nat.not_succ_le_self 1 hc.1) nofun
    | authenticated hc hbefore hafter =>
      obtain ⟨command, rfl⟩ := htrace.open_second hset hnext hdecodes
      constructor
      · intro hno command' heq hnone
        exact hno ⟨le_rfl, not_info_of_frames hbefore hafter, fun hknows => hknows.2 hnone⟩
      · exact fun hknows hc => hc.2.2 ⟨⟨command, rfl⟩, hknows command rfl⟩
    | refused hc hbefore hafter =>
      exact absurd ⟨Nat.le_add_left 2 _, not_info_of_frames hbefore hafter⟩ hnot
    | @informed salt text before after rest intfs n =>
      have hinfo : .hardwareInfo ⟨intfs⟩ ∈ VnsMessage.authRequest ⟨salt⟩ ::
          (before ++ .authStatus ⟨true, text⟩ :: (after ++ .hardwareInfo ⟨intfs⟩ :: rest)) :=
        List.mem_cons_of_mem _ (List.mem_append_right _
          (List.mem_cons_of_mem _ (List.mem_append_right _ List.mem_cons_self)))
      exact iff_of_true (fun hc => hc.2.1 _ hinfo) fun _ _ => hknown _ hinfo

/-- A session that was refused stays so. -/
theorem Inv.refused_step (hset : p.set.Ready p.start table) (h : s.Inv conn key table)
    (hr : s.Refused) {e : SessionEvent Conn} (he : Enabled p conn key table s e) :
    (s.step text conn e).Refused := by
  cases e with
  | server e => exact (refused_server he).2 hr
  | clientTakes env m => exact hr
  | serverTakes msg =>
    obtain ⟨bytes, hnext, -⟩ := he
    have hshort := h.trace.outgoing_length_le hset hr.2
    rw [List.getElem?_eq_none (hshort.trans hr.1)] at hnext
    cases hnext

/-- In every run from a server that the router has not connected to, such as one that has just been
started, once the router is connected and everything that was sent has arrived, it has come up
exactly when no frame was sent to it before its interfaces, and the server knew these whenever it
took a command to open a session. -/
theorem cameUp_iff_not_overtaken (hset : p.set.Ready p.start table) {l : SRServerListener Conn}
    (hsuits : Suits table l) (hnew : conn ∉ l.srclients) {events : List (SessionEvent Conn)}
    (hevents : (machine text p conn key table).Admissible (start l) events)
    (hrun : (machine text p conn key table).run (start l) events = .ok s)
    (hsettled : s.Settled p) (hconnected : conn ∈ s.server.srclients) :
    CameUp p s ↔ overtaken s.history = false ∧
      ((machine text p conn key table).restrict KnowsInterfaces).Admissible (start l) events := by
  have hstart : (start l).Inv conn key table :=
    ⟨hsuits, nofun, .fresh hnew, [], [], rfl, .nil⟩
  have hkeep (s : Session Conn) (e : SessionEvent Conn) (s' : Session Conn)
      (hs : s.Inv conn key table) (he : Enabled p conn key table s e)
      (hstep : (machine text p conn key table).step s e = .ok s') : s'.Inv conn key table := by
    cases hstep
    exact hs.step hset he
  have hknows := @Machine.run_good_iff _ _ _ (machine text p conn key table)
    (Inv conn key table) KnowsInterfaces (fun out => ∃ s, out = .ok s ∧ ¬s.Refused) hkeep ?_ ?_
    (start l) hstart ⟨start l, rfl, fun hr => nomatch hr.1⟩ events hevents
  · rw [(Machine.run_ok hkeep hstart hevents hrun).cameUp_iff hset hsettled hconnected, ← hknows]
    refine and_congr_right fun _ => ⟨fun hnot => ⟨s, hrun, hnot⟩, ?_⟩
    rintro ⟨s', hs', hnot⟩
    cases hrun.symm.trans hs'
    exact hnot
  · rintro s e hs ⟨_, hok, hnot⟩ he
    cases hok
    rw [← hs.not_refused_step hset hnot he]
    refine ⟨fun ⟨s', hs', hnot'⟩ => ?_, fun hnot' => ⟨_, rfl, hnot'⟩⟩
    cases hs'
    exact hnot'
  · rintro s e hs hbad he ⟨s', hs', hnot'⟩
    cases hs'
    have hr : s.Refused := not_not.1 fun hnot => hbad ⟨s, rfl, hnot⟩
    exact hnot' (hs.refused_step hset hr he)

/-- A server that knows its interfaces from the start knows them whenever it is asked. -/
theorem knowsInterfaces_of_known {l : SRServerListener Conn} (hsuits : Suits table l)
    (hknown : l.interfaces ≠ none) {events : List (SessionEvent Conn)}
    (hevents : (machine text p conn key table).Admissible (start l) events) :
    ((machine text p conn key table).restrict KnowsInterfaces).Admissible (start l) events := by
  refine @Machine.admissible_restrict _ _ _ (machine text p conn key table)
    (fun s => Suits table s.server ∧ s.server.interfaces ≠ none) KnowsInterfaces ?_
    (fun s e hs _ _ _ => hs.2) (start l) ⟨hsuits, hknown⟩ events hevents
  rintro s e s' ⟨hs, hk⟩ he hstep
  cases hstep
  cases e with
  | server e =>
    have hkept := @Suits.handle _ text conn table s.server e hs he
    exact ⟨hkept.1, hkept.2 hk⟩
  | serverTakes msg =>
    rw [step, handles, SRServerListener.handle, s.server.handleRecvMsg_fst]
    exact ⟨hs, hk⟩
  | clientTakes env m => exact ⟨hs, hk⟩

/-- A server that knows its interfaces; the first is at port 1. -/
def sampleServer : SRServerListener Nat :=
  ⟨[], fun _ => none, Function.update (fun _ => none) 1 (some [101, 116, 104, 49]),
    some sampleInterfaces⟩

/-- A router that drops every packet. -/
def sampleProgram : Program := ⟨sampleSettings, fun sr _ _ _ => .ok sr, sampleSession⟩

/-- The reply of the sample client. -/
def sampleReply : VnsMessage :=
  .authReply ⟨[], digestBytes (digest (List.replicate 20 7 ++ sampleKey.take 64))⟩

/-- The opening message of the sample client. -/
def sampleOpen : VnsMessage := .open ⟨0, sampleSettings.host.takeWhile (· != 0), [], []⟩

/-- The handshake without a frame between its messages. -/
def smoothEvents : List (SessionEvent Nat) :=
  [.server (.newClient 0 (List.replicate 20 7)), .clientTakes healthyEnv requestMessage,
    .serverTakes sampleReply, .clientTakes healthyEnv statusMessage, .serverTakes sampleOpen,
    .clientTakes healthyEnv infoMessage]

/-- A frame comes in at the port when the router has just connected. -/
def disturbedEvents : List (SessionEvent Nat) :=
  [.server (.newClient 0 (List.replicate 20 7)), .server (.packetIn (List.replicate 42 0) 1),
    .clientTakes healthyEnv requestMessage,
    .clientTakes healthyEnv (frameMessage [101, 116, 104, 49] (List.replicate 42 0) (by decide)),
    .serverTakes sampleReply, .clientTakes healthyEnv statusMessage]

/-- The handshake up to the opening message, with a server that has just been started. -/
def earlyEvents : List (SessionEvent Nat) :=
  [.server (.newClient 0 (List.replicate 20 7)), .clientTakes healthyEnv requestMessage,
    .serverTakes sampleReply, .clientTakes healthyEnv statusMessage, .serverTakes sampleOpen]

/-- The sample client takes the request. -/
theorem took_request : Took sampleKey (.authRequest ⟨List.replicate 20 7⟩)
    (healthyEnv, requestMessage) :=
  ⟨travels_requestMessage, healthyEnv_healthy⟩

/-- The sample client takes the status. -/
theorem took_status : Took sampleKey (.authStatus ⟨true, sampleStatus⟩)
    (healthyEnv, statusMessage) :=
  ⟨travels_statusMessage, healthyEnv_healthy⟩

/-- The settings of the sample program are ready. -/
theorem sampleProgram_ready : sampleProgram.set.Ready sampleProgram.start [sampleRoute] :=
  sampleSettings_ready

/-- The sample client sends its reply first. -/
theorem sampleReply_first (rest : List (VnsEnv × WireMessage)) : ∃ bytes,
    (sampleProgram.outgoing ((healthyEnv, requestMessage) :: rest))[0]? = some bytes ∧
      Decodes bytes sampleReply := by
  rw [Program.outgoing, sentBy_authRequest took_request]
  exact ⟨_, rfl, decodes_authReply (by decide) _⟩

/-- The sample client sends its opening message second. -/
theorem sampleOpen_second : ∃ bytes,
    (sampleProgram.outgoing [(healthyEnv, requestMessage), (healthyEnv, statusMessage)])[1]? =
      some bytes ∧ Decodes bytes sampleOpen := by
  rw [Program.outgoing, sentBy_authRequest took_request,
    sentBy_authStatus (sampleProgram_ready.replied _ _) took_status]
  exact ⟨_, rfl, decodes_open sampleSettings ⟨List.not_mem_nil, by decide⟩⟩

/-- The handshake is all the router has sent when it is up. -/
theorem smooth_outgoing : (sampleProgram.outgoing [(healthyEnv, requestMessage),
    (healthyEnv, statusMessage), (healthyEnv, infoMessage)]).length = 2 := by
  obtain ⟨ifList, hup, -⟩ := @Client.receive_hwinfo healthyEnv sampleProgram.handle
    ((sampleProgram.start.replied (List.replicate 20 7) sampleKey).opened sampleProgram.set
      [sampleRoute])
    infoMessage sampleProgram.set sampleInterfaces sampleInterfaces_servable rfl travels_infoMessage
  rw [Program.outgoing, sentBy_authRequest took_request,
    sentBy_authStatus (sampleProgram_ready.replied _ _) took_status, Client.sentBy_cons hup,
    Client.produced, List.drop_length, List.drop_length]
  rfl

/-- Reply and opening message are all that the sample client sends. -/
theorem early_outgoing : (sampleProgram.outgoing [(healthyEnv, requestMessage),
    (healthyEnv, statusMessage)]).length = 2 := by
  rw [Program.outgoing, sentBy_authRequest took_request,
    sentBy_authStatus (sampleProgram_ready.replied _ _) took_status]
  rfl

/-- A frame before the status leaves the reply alone. -/
theorem disturbed_outgoing : (sampleProgram.outgoing [(healthyEnv, requestMessage),
    (healthyEnv, frameMessage [101, 116, 104, 49] (List.replicate 42 0) (by decide)),
    (healthyEnv, statusMessage)]).length = 1 := by
  have hframe : IsFrame (.packet ⟨[101, 116, 104, 49], List.replicate 42 0⟩) :=
    ⟨by decide, by decide⟩
  have htook : Took sampleKey (.packet ⟨[101, 116, 104, 49], List.replicate 42 0⟩)
      (healthyEnv, frameMessage [101, 116, 104, 49] (List.replicate 42 0) (by decide)) :=
    ⟨travels_frameMessage _ _ (by decide), healthyEnv_healthy⟩
  rw [Program.outgoing, sentBy_authRequest took_request, sentBy_frame hframe htook]
  rfl

theorem admissible_cons {e : SessionEvent Conn} {events : List (SessionEvent Conn)}
    (he : Enabled p conn key table s e)
    (hevents : (machine text p conn key table).Admissible (s.step text conn e) events) :
    (machine text p conn key table).Admissible s (e :: events) :=
  Machine.admissible_of_ok (M := machine text p conn key table) he rfl hevents

theorem smoothEvents_admissible :
    (machine (fun _ => []) sampleProgram 0 sampleKey [sampleRoute]).Admissible (start sampleServer)
      smoothEvents :=
  admissible_cons ⟨nofun, rfl⟩ (admissible_cons ⟨healthyEnv_healthy, _, rfl, travels_requestMessage⟩
    (admissible_cons (sampleReply_first _)
      (admissible_cons ⟨healthyEnv_healthy, _, rfl, travels_statusMessage⟩
        (admissible_cons sampleOpen_second
          (admissible_cons ⟨healthyEnv_healthy, _, rfl, travels_infoMessage⟩ trivial)))))

theorem disturbedEvents_admissible :
    (machine (fun _ => []) sampleProgram 0 sampleKey [sampleRoute]).Admissible (start sampleServer)
      disturbedEvents :=
  admissible_cons ⟨nofun, rfl⟩ (admissible_cons ⟨by decide, by decide⟩
    (admissible_cons ⟨healthyEnv_healthy, _, rfl, travels_requestMessage⟩
      (admissible_cons ⟨healthyEnv_healthy, _, rfl, travels_frameMessage _ _ (by decide)⟩
        (admissible_cons (sampleReply_first _)
          (admissible_cons ⟨healthyEnv_healthy, _, rfl, travels_statusMessage⟩ trivial)))))

theorem earlyEvents_admissible :
    (machine (fun _ => []) sampleProgram 0 sampleKey [sampleRoute]).Admissible
      (start SRServerListener.init) earlyEvents :=
  admissible_cons ⟨nofun, rfl⟩ (admissible_cons ⟨healthyEnv_healthy, _, rfl, travels_requestMessage⟩
    (admissible_cons (sampleReply_first _)
      (admissible_cons ⟨healthyEnv_healthy, _, rfl, travels_statusMessage⟩
        (admissible_cons sampleOpen_second trivial))))

/-- The first session comes up. The second does not, because of a frame, nor does the third, because
the server has no interfaces yet. -/
theorem cameUp_iff_not_overtaken_samples :
    (∃ s, (machine (fun _ => []) sampleProgram 0 sampleKey [sampleRoute]).run (start sampleServer)
        smoothEvents = .ok s ∧ CameUp sampleProgram s) ∧
      (∃ s, (machine (fun _ => []) sampleProgram 0 sampleKey [sampleRoute]).run (start sampleServer)
        disturbedEvents = .ok s ∧ ¬CameUp sampleProgram s) ∧
      ∃ s, (machine (fun _ => []) sampleProgram 0 sampleKey [sampleRoute]).run
        (start SRServerListener.init) earlyEvents = .ok s ∧ ¬CameUp sampleProgram s := by
  have hsuits : Suits [sampleRoute] sampleServer := by
    intro intfs hintfs
    cases hintfs
    exact sampleInterfaces_servable
  refine ⟨⟨_, rfl, ?_⟩, ⟨_, rfl, fun hup => ?_⟩, ⟨_, rfl, fun hup => ?_⟩⟩
  · refine (cameUp_iff_not_overtaken sampleProgram_ready hsuits List.not_mem_nil
      smoothEvents_admissible rfl ⟨rfl, smooth_outgoing.symm⟩ List.mem_cons_self).2 ⟨rfl, ?_⟩
    exact knowsInterfaces_of_known hsuits (Option.some_ne_none _) smoothEvents_admissible
  · have hover := ((cameUp_iff_not_overtaken sampleProgram_ready hsuits List.not_mem_nil
      disturbedEvents_admissible rfl ⟨rfl, disturbed_outgoing.symm⟩ List.mem_cons_self).1 hup).1
    exact Bool.noConfusion (show true = false from hover)
  · have hinit : Suits [sampleRoute] (SRServerListener.init : SRServerListener Nat) := by
      intro intfs hintfs
      cases hintfs
    have hknows := ((cameUp_iff_not_overtaken sampleProgram_ready hinit List.not_mem_nil
      earlyEvents_admissible rfl ⟨rfl, early_outgoing.symm⟩ List.mem_cons_self).1 hup).2
    -- the last of the five events is the command to open the session
    have hlast := ((((hknows.2 _ rfl).2 _ rfl).2 _ rfl).2 _ rfl).1.2
    exact hlast _ rfl rfl

end Session

end ComputerNetworks.Router
