import ComputerNetworks.Vns.RoundTrip
import Mathlib.Logic.Function.Basic

/-!
# The server of the routers

`SRServerListener` of `srhandler.py`, between the OpenFlow switch and its routers:
for each event the new state, what the handler sends and raises, and the exception
that ends it. A dictionary is the function of its entries. A message of LTProtocol is
one call of `send`; the transports are not looked into.
-/

namespace ComputerNetworks.Vns

/-- The exceptions that leave a handler. -/
inductive HandlerError where
  /-- `ValueError` of `int` or `chr`. -/
  | value
  /-- `UnboundLocalError`. -/
  | unboundLocal
  /-- `AttributeError`. -/
  | attribute
  /-- An exception of a message class. -/
  | vns (e : VnsError)
  deriving DecidableEq, Repr

/-- `int(s, base)`: white space around the number, a sign, in base 16 the letters `0x`, and
digits. -/
def pyInt (base : Nat) (isDigit : UInt8 → Bool) (s : List UInt8) : Option Int :=
  let s := ((s.dropWhile isspace).reverse.dropWhile isspace).reverse
  let negative := s.head? = some 45
  let s := if s.head? = some 45 ∨ s.head? = some 43 then s.tail else s
  let s := if base = 16 ∧ (s.take 2 = [48, 120] ∨ s.take 2 = [48, 88]) then s.drop 2 else s
  if s ≠ [] ∧ s.all isDigit then
    some (if negative then -(numberOf base hexDigit s) else numberOf base hexDigit s)
  else none

/-- `chr`. -/
def pyChr (n : Int) : Option UInt8 := if 0 ≤ n ∧ n < 256 then some (UInt8.ofNat n.toNat) else none

/-- The octets of an address between separators. -/
def packOctets (base : Nat) (isDigit : UInt8 → Bool) (octets : List (List UInt8)) :
    Except HandlerError (List UInt8) :=
  ((octets.mapM fun octet => pyInt base isDigit octet >>= pyChr)).elim (.error .value) .ok

/-- `pack_mac`. -/
def packMac (macaddr : List UInt8) : Except HandlerError (List UInt8) :=
  packOctets 16 isxdigit (macaddr.splitOn 58)

/-- `pack_ip`. -/
def packIp (ipaddr : List UInt8) : Except HandlerError (List UInt8) :=
  packOctets 10 isdigit (ipaddr.splitOn 46)

/-- An entry of the dictionary of a `RouterInfo`: the address, the hardware address and the port. -/
structure PortInfo where
  ip : List UInt8
  mac : List UInt8
  port : Nat
  deriving DecidableEq, Repr

/-- What the listener and its surroundings tell each other. -/
inductive ServerEvent (Conn : Type) where
  | newClient (conn : Conn) (salt : List UInt8)
  | clientDisconnected (conn : Conn)
  /-- The entries of the dictionary, in the order of its keys. -/
  | routerInfo (info : List (List UInt8 × PortInfo))
  | packetIn (pkt : List UInt8) (port : Nat)
  /-- A message, or none where LTProtocol could make nothing of it. -/
  | recvMsg (conn : Conn) (msg : Option VnsMessage)
  deriving DecidableEq

/-- What a handler does to its surroundings. -/
inductive Effect (Conn : Type) where
  | send (conn : Conn) (msg : VnsMessage)
  /-- `send` of a text, which is no message. -/
  | sendText (conn : Conn) (text : List UInt8)
  | loseConnection (conn : Conn)
  | raisePacketOut (pkt : List UInt8) (port : Nat)
  deriving DecidableEq

/-- `SRServerListener`. The list of interfaces is an attribute only after the first `RouterInfo`. -/
structure SRServerListener (Conn : Type) where
  srclients : List Conn
  intfnameToPort : List UInt8 → Option Nat
  portToIntfname : Nat → Option (List UInt8)
  interfaces : Option (List VNSInterface)

variable {Conn : Type}

namespace SRServerListener

/-- The constructor. -/
def init : SRServerListener Conn := ⟨[], fun _ => none, fun _ => none, none⟩

/-- What a handler leaves: the state, the effects in their order, and the exception, if any. -/
abbrev Handled (Conn : Type) := SRServerListener Conn × List (Effect Conn) × Option HandlerError

/-- `broadcast`. -/
def broadcast (l : SRServerListener Conn) (message : VnsMessage) : List (Effect Conn) :=
  l.srclients.map fun client => .send client message

/-- `_handle_SRPacketIn`. -/
def handleSRPacketIn (l : SRServerListener Conn) (pkt : List UInt8) (port : Nat) : Handled Conn :=
  match l.portToIntfname port with
  | none => (l, [], none)
  | some intfname => (l, l.broadcast (.packet ⟨intfname, pkt⟩), none)

/-- The interface of an entry. -/
def interfaceOf (intf : List UInt8) (info : PortInfo) : Except HandlerError VNSInterface := do
  let ip ← packIp info.ip
  let mac ← packMac info.mac
  let mask ← packIp (dotted 255 255 255 255)
  match VNSInterface.init intf mac ip mask with
  | .error e => .error (.vns e)
  | .ok interface => pure interface

/-- The maps with an entry. -/
def assign (l : SRServerListener Conn) (intf : List UInt8) (port : Nat) : SRServerListener Conn :=
  { l with
    intfnameToPort := Function.update l.intfnameToPort intf (some port)
    portToIntfname := Function.update l.portToIntfname port (some intf) }

/-- The loop of `_handle_RouterInfo`. -/
def routerInfoLoop (l : SRServerListener Conn) (interfaces : List VNSInterface) :
    List (List UInt8 × PortInfo) → SRServerListener Conn × Except HandlerError (List VNSInterface)
  | [] => (l, .ok interfaces)
  | (intf, info) :: rest =>
    match interfaceOf intf info with
    | .error e => (l, .error e)
    | .ok interface => routerInfoLoop (l.assign intf info.port) (interfaces ++ [interface]) rest

/-- `_handle_RouterInfo`. -/
def handleRouterInfo (l : SRServerListener Conn) (info : List (List UInt8 × PortInfo)) :
    Handled Conn :=
  match l.routerInfoLoop [] info with
  | (l, .error e) => (l, [], some e)
  | (l, .ok interfaces) => ({ l with interfaces := some interfaces }, [], none)

/-- `_handle_auth_reply`; the text of a connection is that of `%s`. -/
def handleAuthReply (text : Conn → List UInt8) (conn : Conn) : List (Effect Conn) :=
  -- authenticated ... as user
  [.send conn (.authStatus ⟨true, [97, 117, 116, 104, 101, 110, 116, 105, 99, 97, 116,
    101, 100, 32] ++
    text conn ++ [32, 97, 115, 32, 117, 115, 101, 114]⟩)]

/-- `_handle_open_msg`. -/
def handleOpenMsg (l : SRServerListener Conn) (conn : Conn) : List (Effect Conn) :=
  match l.interfaces with
  | some interfaces => [.send conn (.hardwareInfo ⟨interfaces⟩)]
  | none => []

/-- `_handle_close_msg`. -/
def handleCloseMsg (conn : Conn) : List (Effect Conn) :=
  -- Goodbyte!
  [.sendText conn [71, 111, 111, 100, 98, 121, 116, 101, 33], .loseConnection conn]

/-- `_handle_packet_msg`. The handler of a `KeyError` uses a variable that was not assigned. -/
def handlePacketMsg (l : SRServerListener Conn) (msg : VNSPacket) : Handled Conn :=
  match l.intfnameToPort msg.intfName with
  | none => (l, [], some .unboundLocal)
  | some outPort => (l, [.raisePacketOut msg.ethernetFrame outPort], none)

/-- `_handle_recv_msg`. There is no `_handle_open_template_msg`. -/
def handleRecvMsg (text : Conn → List UInt8) (l : SRServerListener Conn) (conn : Conn) :
    Option VnsMessage → Handled Conn
  | none => (l, handleCloseMsg conn, none)
  | some (.authReply _) => (l, handleAuthReply text conn, none)
  | some (.open _) => (l, l.handleOpenMsg conn, none)
  | some (.close _) => (l, handleCloseMsg conn, none)
  | some (.packet msg) => l.handlePacketMsg msg
  | some (.openTemplate _) => (l, [], some .attribute)
  | some _ => (l, [], none)

/-- `_handle_new_client`. -/
def handleNewClient (l : SRServerListener Conn) (conn : Conn) (salt : List UInt8) : Handled Conn :=
  ({ l with srclients := l.srclients ++ [conn] }, [.send conn (.authRequest ⟨salt⟩)], none)

/-- The handler of an event. -/
def handle (text : Conn → List UInt8) (l : SRServerListener Conn) : ServerEvent Conn → Handled Conn
  | .newClient conn salt => l.handleNewClient conn salt
  | .clientDisconnected conn => (l, [.loseConnection conn], none)
  | .routerInfo info => l.handleRouterInfo info
  | .packetIn pkt port => l.handleSRPacketIn pkt port
  | .recvMsg conn msg => l.handleRecvMsg text conn msg

end SRServerListener

/-- A port of a switch: its name, the text of its hardware address, and its number. -/
structure OfPort where
  name : List UInt8
  hwAddr : List UInt8
  portNo : Nat
  deriving DecidableEq, Repr

/-- One round of the loop of `OFHandler`. -/
def addPort (routerIp : List UInt8 → Option (List UInt8))
    (swInfo : List UInt8 → Option PortInfo) (port : OfPort) : List UInt8 → Option PortInfo :=
  match port.name.splitOn 45 with
  | _ :: intfName :: _ =>
    match routerIp intfName with
    | some ip => Function.update swInfo intfName (some ⟨ip, port.hwAddr, port.portNo⟩)
    | none => swInfo
  | _ => swInfo

/-- The dictionary `sw_info` of `OFHandler`. -/
def swInfo (routerIp : List UInt8 → Option (List UInt8)) (ports : List OfPort) :
    List UInt8 → Option PortInfo :=
  ports.foldl (addPort routerIp) fun _ => none

end ComputerNetworks.Vns
