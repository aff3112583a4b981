import ComputerNetworks.Router.Packet

/-!
# Handling a packet

`sr_handlepacket` with `packet_type` and `find_rt_dest`, branch by branch. The
headers of a new frame are written through local pointers that the code never
assigns; `Locals` says what they hold, and the code runs with `Locals.declared`.
-/

namespace ComputerNetworks.Router

/-- `packet_type`: 1 for ARP, 9 for IP, 0 for neither. The field is not converted to host order. -/
def packetType (packet : List UInt8) : Exec RouterAssert Nat := do
  let etherType ← load16 packet 12
  pure (if etherType = 0x0806 then 1 else if etherType = 0x0800 then 9 else 0)

/-- The loop of `find_rt_dest`: the longest mask so far and its entry. -/
def findRtLoop (destIp : UInt32) : List SrRt → UInt32 → Pointer SrRt → UInt32 × Pointer SrRt
  | [], lpmMask, longest => (lpmMask, longest)
  | curr :: rest, lpmMask, longest =>
    if destIp = curr.mask &&& curr.dest ∧ lpmMask < curr.mask then
      findRtLoop destIp rest curr.mask (.into curr)
    else findRtLoop destIp rest lpmMask longest

/-- `find_rt_dest`. -/
def findRtDest (sr : SrInstance) (destIp : UInt32) : Pointer SrRt :=
  let (lpmMask, longest) := findRtLoop destIp sr.routingTable 0 .unassigned
  if lpmMask ≠ 0 then .null else longest

/-- What the local pointers lead to. -/
structure Locals where
  icmpHdr : Pointer (List UInt8)
  ipHdr : Pointer (List UInt8)
  ethHdr : Pointer (List UInt8)
  srPkt : Pointer Addr
  req : Pointer Addr
  deriving DecidableEq, Repr

/-- Declared and not assigned. -/
def Locals.declared : Locals := ⟨.unassigned, .unassigned, .unassigned, .unassigned, .unassigned⟩

/-- What `malloc` returned: the blocks for an ARP reply, an ICMP message and a datagram. -/
structure HandleMem where
  reply : Option (List UInt8)
  icmpMsg : Option (List UInt8)
  pkt : Option (List UInt8)
  deriving DecidableEq, Repr

/-- A block the allocator returned. -/
def allocated {Site : Type} : Option (List UInt8) → Exec Site (List UInt8)
  | none => .error .nullPointer
  | some block => .ok block

/-- The size of a pointer, which the code takes with `sizeof` for that of a header or a packet. -/
def pointerSize : Nat := 8

/-- What the four copies of the code that builds an ICMP message differ in: the type, the code if it
is set, whether data is copied, whether the Ethernet destination is set, and whether the interface
is looked up by the new header's destination. -/
structure IcmpCopy where
  type : UInt8
  code : Option UInt8
  data : Bool
  dhost : Bool
  bySource : Bool
  deriving DecidableEq, Repr

/-- The answer to an echo request. -/
def IcmpCopy.echoReply : IcmpCopy := ⟨0, none, false, true, false⟩

/-- The message for another protocol than ICMP. -/
def IcmpCopy.portUnreachable : IcmpCopy := ⟨3, some 3, true, true, false⟩

/-- The message for an expired time to live. -/
def IcmpCopy.timeExceeded : IcmpCopy := ⟨11, some 0, true, false, false⟩

/-- The message where no route is found. -/
def IcmpCopy.noRoute : IcmpCopy := ⟨3, some 3, false, true, true⟩

/-- The ICMP header of a message. -/
def fillIcmp (copy : IcmpCopy) (loc : Locals) (packet : List UInt8) :
    Exec RouterAssert (List UInt8) := do
  let hdr ← loc.icmpHdr.follow
  let hdr ← store8 hdr 0 copy.type
  let hdr ← match copy.code with
    | some code => store8 hdr 1 code
    | none => pure hdr
  let hdr ← if copy.data then memcpyAt hdr 8 (← readAt packet 14 pointerSize) else pure hdr
  let hdr ← store16 hdr 2 0
  store16 hdr 2 (← cksum hdr 0 icmpHdrSize)

/-- The IP header of a message, addressed to the sender of the packet. -/
def fillIp (loc : Locals) (packet : List UInt8) : Exec RouterAssert (List UInt8) := do
  let hdr ← loc.ipHdr.follow
  let hdr ← store8 hdr 1 (← load8 packet 15)
  let hdr ← store16 hdr 2 (htons pointerSize.toUInt16)
  let hdr ← store8 hdr 8 255
  let hdr ← store8 hdr 9 1
  let hdr ← store16 hdr 10 0
  let hdr ← store32 hdr 12 (← load32 packet 30)
  let hdr ← store32 hdr 16 (← load32 packet 26)
  store16 hdr 10 (← cksum hdr 0 ipHdrSize)

/-- The Ethernet header of a message. -/
def fillEthernet (copy : IcmpCopy) (loc : Locals) (packet : List UInt8) :
    Exec RouterAssert (List UInt8) := do
  let hdr ← loc.ethHdr.follow
  let hdr ← if copy.dhost then memcpyAt hdr 0 (← readAt packet 6 6) else pure hdr
  let hdr ← memcpyAt hdr 6 (← readAt packet 0 6)
  store16 hdr 12 (htons 0x0800)

/-- Build and send an ICMP message about a packet. -/
def sendIcmp (copy : IcmpCopy) (loc : Locals) (sr : SrInstance) (packet : List UInt8)
    (mem : HandleMem) : Exec RouterAssert SrInstance := do
  let icmp ← fillIcmp copy loc packet
  let ip ← fillIp loc packet
  let eth ← fillEthernet copy loc packet
  let msg ← allocated mem.icmpMsg
  let msg ← memcpyAt msg 0 (← readAt eth 0 ethernetHdrSize)
  let msg ← memcpyAt msg ethernetHdrSize (← readAt ip 0 ipHdrSize)
  let msg ← memcpyAt msg (ethernetHdrSize + ipHdrSize) (← readAt icmp 0 icmpHdrSize)
  let dest ← if copy.bySource then load32 ip 16 else load32 packet 30
  match getInterfaceFromIp sr dest with
  | none => .error .nullPointer
  | some newDest => do
    let (sr, _) ← sendPacket sr (some msg) (ethernetHdrSize + ipHdrSize + icmpHdrSize)
      (some newDest.name)
    pure sr

/-- The copies of the code that builds a datagram to forward; `curr` is the entry of the cache. The
new Ethernet header is filled, and then the received one is copied. -/
def rebuild (loc : Locals) (packet : List UInt8) (curr : Option ArpEntry) (mem : HandleMem) :
    Exec RouterAssert (List UInt8) := do
  let eth ← loc.ethHdr.follow
  let eth ← memcpyAt eth 6 (← readAt packet 0 1)
  let _ ← (store16 eth 12 (htons 0x0800) : Exec RouterAssert (List UInt8))
  let ip ← loc.ipHdr.follow
  let ip ← store8 ip 1 (← load8 packet 15)
  let ip ← store16 ip 2 (htons pointerSize.toUInt16)
  let ip ← store8 ip 8 255
  let ip ← store8 ip 9 (← load8 packet 23)
  let ip ← store16 ip 10 0
  let ip ← store32 ip 12 (← load32 packet 30)
  let ip ← match curr with
    | none => .error .nullPointer
    | some entry => store32 ip 16 entry.ip
  let ip ← store16 ip 10 (← cksum ip 0 ipHdrSize)
  let pkt ← allocated mem.pkt
  let pkt ← memcpyAt pkt 0 (← readAt packet 0 ethernetHdrSize)
  memcpyAt pkt ethernetHdrSize (← readAt ip 0 ipHdrSize)

/-- The name of the interface with an address. -/
def ifaceName (sr : SrInstance) (ip : UInt32) : Exec RouterAssert (List UInt8) :=
  match getInterfaceFromIp sr ip with
  | none => .error .nullPointer
  | some iface => .ok iface.name

/-- The branch for a next hop in the cache. One byte of the received packet is passed on, and the
packet, which points into the buffer of the caller, is freed. -/
def relay (loc : Locals) (sr : SrInstance) (packet : List UInt8) (route : SrRt) (curr : ArpEntry)
    (mem : HandleMem) : Exec RouterAssert SrInstance := do
  let _ ← rebuild loc packet (some curr) mem
  let name ← ifaceName sr route.dest
  let _ ← sendPacket sr (some packet) 1 (some name)
  .error .dangling

/-- The search for a pending request, in which `curr_req` never moves on. -/
def searchPending (reqs : Addr → Option ArpReq) (dest : UInt32) :
    Nat → Option Addr → Exec RouterAssert (Option Addr)
  | _, none => .ok none
  | 0, some _ => .error .outOfFuel
  | fuel + 1, some a => do
    let req ← deref reqs (some a)
    if req.ip = dest then pure (some a) else searchPending reqs dest fuel (some a)

/-- The last node of a list. -/
def lastNode {ν : Type} (next : ν → Option Addr) (heap : Addr → Option ν) :
    Nat → Addr → Exec RouterAssert Addr
  | 0, _ => .error .outOfFuel
  | fuel + 1, a => do
    let node ← deref heap (some a)
    match next node with
    | none => pure a
    | some a' => lastNode next heap fuel a'

/-- The node of a new packet to wait. -/
def newSrPacket (loc : Locals) (sr : SrInstance) (pkt : List UInt8) (ip : UInt32) :
    Exec RouterAssert (SrInstance × Addr) := do
  let p ← loc.srPkt.follow
  let name ← ifaceName sr ip
  let node : SrPacket := ⟨some pkt, ipHdrSize + ethernetHdrSize, some name, none⟩
  pure ({ sr with
    cache := { sr.cache with pkts := Function.update sr.cache.pkts p (some node) } }, p)

/-- The branch that adds a packet to a pending request, at the end of its packets. -/
def joinPending (loc : Locals) (sr : SrInstance) (packet : List UInt8) (a : Addr) (mem : HandleMem)
    (now : Int) : Exec RouterAssert SrInstance := do
  let req ← deref sr.cache.reqs (some a)
  let req := { req with sent := now, timesSent := req.timesSent + 1 }
  let sr := { sr with
    cache := { sr.cache with reqs := Function.update sr.cache.reqs a (some req) } }
  let pkt ← rebuild loc packet none mem
  let (sr, p) ← newSrPacket loc sr pkt req.ip
  match req.packets with
  | none => .error .nullPointer
  | some first => do
    let last ← lastNode SrPacket.next sr.cache.pkts sr.cache.nodes first
    let node ← deref sr.cache.pkts (some last)
    let pkts := Function.update sr.cache.pkts last (some { node with next := some p })
    pure { sr with cache := { sr.cache with pkts } }

/-- The branch that makes a new request, at the end of the queue. -/
def newPending (loc : Locals) (sr : SrInstance) (packet : List UInt8) (mem : HandleMem)
    (now : Int) : Exec RouterAssert SrInstance := do
  let pkt ← rebuild loc packet none mem
  let dest ← load32 pkt 30
  let (sr, p) ← newSrPacket loc sr pkt dest
  let a ← loc.req.follow
  let reqs := Function.update sr.cache.reqs a (some ⟨dest, now, 1, some p, none⟩)
  match sr.cache.requests with
  | none => pure { sr with cache := { sr.cache with reqs, requests := some a } }
  | some first => do
    let last ← lastNode ArpReq.next reqs sr.cache.nodes first
    let req ← deref reqs (some last)
    let reqs := Function.update reqs last (some { req with next := some a })
    pure { sr with cache := { sr.cache with reqs } }

/-- The branch for a route that was found. -/
def forwardTo (loc : Locals) (sr : SrInstance) (packet : List UInt8) (route : SrRt)
    (mem : HandleMem) (now : Int) : Exec RouterAssert SrInstance := do
  let dst ← load32 packet 30
  match arpcacheLookup sr.cache dst with
  | some curr => relay loc sr packet route curr mem
  | none => do
    match ← searchPending sr.cache.reqs route.dest (sr.cache.nodes + 1) sr.cache.requests with
    | some a => joinPending loc sr packet a mem now
    | none => newPending loc sr packet mem now

/-- The branch for a packet that is not addressed to the router. The time to live is a `uint8_t`,
and `find_rt_dest` may return a pointer that was never assigned. -/
def forward (loc : Locals) (sr : SrInstance) (packet : List UInt8) (mem : HandleMem) (now : Int) :
    Exec RouterAssert SrInstance := do
  let ttl ← load8 packet 22
  let packet ← store8 packet 22 (ttl - 1)
  if ttl - 1 ≤ 0 then sendIcmp .timeExceeded loc sr packet mem
  else do
    match findRtDest sr (← load32 packet 30) with
    | .unassigned => .error .indeterminate
    | .null => sendIcmp .noRoute loc sr packet mem
    | .into route => forwardTo loc sr packet route mem now

/-- The branch for a packet addressed to the router. The ICMP header is read where the IP header
stands. -/
def addressedToUs (loc : Locals) (sr : SrInstance) (packet : List UInt8) (mem : HandleMem) :
    Exec RouterAssert SrInstance := do
  if (← load8 packet 23) = 1 then
    if (← load8 packet 14) = 8 then sendIcmp .echoReply loc sr packet mem else pure sr
  else sendIcmp .portUnreachable loc sr packet mem

/-- `case 9` of the switch. -/
def ipCase (loc : Locals) (sr : SrInstance) (packet : List UInt8) (mem : HandleMem) (now : Int) :
    Exec RouterAssert SrInstance := do
  let ipLen ← load16 packet 16
  let sum ← cksum packet 14 ipLen.toNat
  assert (sum = (← load16 packet 24)) .checksum
  match getInterfaceFromIp sr (← load32 packet 30) with
  | some _ => addressedToUs loc sr packet mem
  | none => forward loc sr packet mem now

/-- The ARP request branch for an interface. The headers of the reply are written over those of the
packet. -/
def arpRequest (sr : SrInstance) (packet : List UInt8) (target : SrIf) (mem : HandleMem) :
    Exec RouterAssert (SrInstance × List UInt8) := do
  let packet ← memcpyAt packet 0 (← readAt packet 6 6)
  let packet ← memcpyAt packet 6 target.addr.bytes
  let packet ← store16 packet 12 (htons 0x0806)
  let reply ← allocated mem.reply
  let reply ← memcpyAt reply 0 (← readAt packet 0 ethernetHdrSize)
  let packet ← store16 packet 14 (htons 1)
  let packet ← store16 packet 16 (htons 0x0800)
  let packet ← store8 packet 18 (← load8 packet 18)
  let packet ← store8 packet 19 (← load8 packet 19)
  let packet ← store16 packet 20 (htons 2)
  let packet ← memcpyAt packet 22 target.addr.bytes
  let packet ← store32 packet 28 target.ip
  let packet ← memcpyAt packet 32 (← readAt packet 6 6)
  let packet ← store32 packet 38 (← load32 packet 28)
  let reply ← memcpyAt reply ethernetHdrSize (← readAt packet 14 arpHdrSize)
  let (sr, _) ← sendPacket sr (some reply) (ethernetHdrSize + arpHdrSize) (some target.name)
  pure (sr, packet)

/-- The loop over the packets that waited for a reply. Of the six bytes of the address one is
copied, and the length passed on is that of two headers. -/
def releasePackets (mac : UInt8) : Nat → SrInstance → Option Addr → Exec RouterAssert SrInstance
  | _, sr, none => .ok sr
  | 0, _, some _ => .error .outOfFuel
  | fuel + 1, sr, some p => do
    let pkt ← deref sr.cache.pkts (some p)
    let buf ← allocated pkt.buf
    let buf ← memcpyAt buf 0 [mac]
    -- the header is copied over itself
    let buf ← memcpyAt buf 0 (← readAt buf 0 ethernetHdrSize)
    let pkts := Function.update sr.cache.pkts p (some { pkt with buf := some buf })
    let sr := { sr with cache := { sr.cache with pkts } }
    let (sr, _) ← sendPacket sr (some buf) (ethernetHdrSize + ipHdrSize) pkt.iface
    let pkt ← deref sr.cache.pkts (some p)
    releasePackets mac fuel sr pkt.next

/-- The ARP reply branch for an interface. What is cached is the target of the reply. -/
def arpReply (sr : SrInstance) (packet : List UInt8) (target : SrIf) (now : Int) :
    Exec RouterAssert SrInstance := do
  let tha ← loadMac packet 32
  let (cache, inCache) ← arpcacheInsert sr.cache tha target.ip now
  let sr := { sr with cache }
  match inCache with
  | none => pure sr
  | some a => do
    let req ← deref sr.cache.reqs (some a)
    let sr ← releasePackets (← load8 packet 32) sr.cache.nodes sr req.packets
    let cache ← arpreqDestroy sr.cache (some a)
    pure { sr with cache }

/-- `case 1` of the switch: the router and the packet with which `case 9` goes on, or a return. -/
def arpCase (sr : SrInstance) (packet : List UInt8) (mem : HandleMem) (now : Int) :
    Exec RouterAssert (SrInstance × Option (List UInt8)) := do
  let op ← load16 packet 20
  if op = 1 then do
    match getInterfaceFromIp sr (← load32 packet 38) with
    | none => pure (sr, some packet)
    | some target => do
      let (sr, packet) ← arpRequest sr packet target mem
      pure (sr, some packet)
  else if op = 2 then do
    match getInterfaceFromIp sr (← load32 packet 38) with
    | none => pure (sr, some packet)
    | some target => do
      let sr ← arpReply sr packet target now
      pure (sr, some packet)
  else pure (sr, none)

/-- The switch. `case 1` has no `break`. -/
def handleType (loc : Locals) (result : Nat) (sr : SrInstance) (packet : List UInt8)
    (mem : HandleMem) (now : Int) : Exec RouterAssert SrInstance :=
  if result = 1 then do
    let (sr, packet) ← arpCase sr packet mem now
    match packet with
    | none => pure sr
    | some packet => ipCase loc sr packet mem now
  else if result = 9 then ipCase loc sr packet mem now
  else .ok sr

/-- `sr_handlepacket`, which only prints its `len`. -/
def handlepacket (sr : SrInstance) (packet interface : Option (List UInt8)) (mem : HandleMem)
    (now : Int) : Exec RouterAssert SrInstance :=
  match packet, interface with
  | none, _ => .error (.assertion .packet)
  | some _, none => .error (.assertion .interface)
  | some packet, some _ => do
    let result ← packetType packet
    assert (result ≠ 0) .packetType
    handleType .declared result sr packet mem now

end ComputerNetworks.Router
