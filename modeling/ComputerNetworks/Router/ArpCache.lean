import ComputerNetworks.Core.CString
import Mathlib.Logic.Function.Basic

/-!
# The ARP cache of the router

`sr_arpcache.c`: the table of IP to MAC mappings, and the queue of requests with
the packets that wait on each. Requests and packets are nodes of two heaps; a
packet owns the blocks of its frame and of its interface name. `nodes` counts
the nodes allocated so far and bounds the loops over them; it is no part of the
source. Each function runs under the lock of the cache, and each is given the
time it reads.
-/

namespace ComputerNetworks.Router

variable {Site : Type}

/-- The address of a request or of a packet. -/
abbrev Addr := Nat

/-- An Ethernet address, `unsigned char[ETHER_ADDR_LEN]`. -/
structure EtherAddr where
  b0 : UInt8
  b1 : UInt8
  b2 : UInt8
  b3 : UInt8
  b4 : UInt8
  b5 : UInt8
  deriving DecidableEq, Repr

/-- `SR_ARPCACHE_SZ`. -/
def arpcacheSize : Nat := 100

/-- `SR_ARPCACHE_TO`, in seconds. -/
def arpcacheTimeout : Int := 15

/-- `sr_IFACE_NAMELEN`. -/
def ifaceNamelen : Nat := 32

/-- `struct sr_packet`. -/
structure SrPacket where
  buf : Option (List UInt8)
  len : Nat
  iface : Option (List UInt8)
  next : Option Addr
  deriving DecidableEq, Repr

/-- `struct sr_arpentry`. -/
structure ArpEntry where
  mac : EtherAddr
  ip : UInt32
  added : Int
  valid : Bool
  deriving DecidableEq, Repr

/-- `struct sr_arpreq`. -/
structure ArpReq where
  ip : UInt32
  sent : Int
  timesSent : Nat
  packets : Option Addr
  next : Option Addr
  deriving DecidableEq, Repr

/-- `struct sr_arpcache` with the heaps its pointers lead to. -/
structure ArpCache where
  entries : List ArpEntry
  requests : Option Addr
  reqs : Addr → Option ArpReq
  pkts : Addr → Option SrPacket
  nodes : Nat

/-- `sr_arpcache_init`, in any heaps. -/
def arpcacheInit (reqs : Addr → Option ArpReq) (pkts : Addr → Option SrPacket) : ArpCache where
  entries := List.replicate arpcacheSize ⟨⟨0, 0, 0, 0, 0, 0⟩, 0, 0, false⟩
  requests := none
  reqs := reqs
  pkts := pkts
  nodes := 0

/-- Read a node through a pointer. -/
def deref {ν : Type} (heap : Addr → Option ν) : Option Addr → Exec Site ν
  | none => .error .nullPointer
  | some a =>
    match heap a with
    | none => .error .dangling
    | some n => .ok n

theorem deref_some {ν : Type} {heap : Addr → Option ν} {a : Addr} {n : ν} (h : heap a = some n) :
    (deref heap (some a) : Exec Site ν) = .ok n := by
  rw [deref, h]

/-- `sr_arpcache_lookup`: the copy of the last valid entry for the address. -/
def arpcacheLookup (cache : ArpCache) (ip : UInt32) : Option ArpEntry :=
  cache.entries.foldl (fun entry e => if e.valid = true ∧ e.ip = ip then some e else entry) none

/-- The part of `sr_arpcache_insert` on the table: the first free slot, if any, is filled. -/
def insertEntry (entries : List ArpEntry) (mac : EtherAddr) (ip : UInt32) (now : Int) :
    List ArpEntry :=
  match entries.findIdx? (fun e => !e.valid) with
  | none => entries
  | some i => entries.set i ⟨mac, ip, now, true⟩

/-- The part of `sr_arpcache_timeout` on the table. -/
def expireEntries (entries : List ArpEntry) (curtime : Int) : List ArpEntry :=
  entries.map fun e =>
    if e.valid = true ∧ curtime - e.added > arpcacheTimeout then { e with valid := false } else e

/-- The loop `for (req = cache->requests; req != NULL; req = req->next)` with its `prev`, up to the
first request that is looked for. -/
def findReq (reqs : Addr → Option ArpReq) (hit : Addr → ArpReq → Bool) :
    Nat → Option Addr → Option Addr → Exec Site (Option Addr × Option Addr)
  | _, prev, none => .ok (prev, none)
  | 0, _, some _ => .error .outOfFuel
  | fuel + 1, prev, some a => do
    let req ← deref reqs (some a)
    if hit a req then pure (prev, some a) else findReq reqs hit fuel (some a) req.next

/-- The unlinking of a request behind `prev`, or at the head. -/
def unlinkReq (cache : ArpCache) (prev : Option Addr) (a : Addr) : Exec Site ArpCache := do
  let req ← deref cache.reqs (some a)
  match prev with
  | some p => do
    let before ← deref cache.reqs (some p)
    pure { cache with reqs := Function.update cache.reqs p (some { before with next := req.next }) }
  | none => pure { cache with requests := req.next }

/-- The unlinking of the request the loop stopped at, if any. -/
def unlinkFound (cache : ArpCache) (prev : Option Addr) : Option Addr → Exec Site ArpCache
  | some a => unlinkReq cache prev a
  | none => .ok cache

/-- What the allocator returned to a call of `sr_arpcache_queuereq`: the cleared request, the packet
and its two blocks, whose bytes are arbitrary. -/
structure QueueMem where
  req : Option Addr
  pkt : Option Addr
  buf : Option (List UInt8)
  iface : Option (List UInt8)
  deriving DecidableEq, Repr

/-- A new request at the head of the queue. -/
def addReq (cache : ArpCache) (ip : UInt32) : Option Addr → Exec Site (ArpCache × Addr)
  | none => .error .nullPointer
  | some a => .ok ({ cache with
      requests := some a
      reqs := Function.update cache.reqs a (some ⟨ip, 0, 0, none, cache.requests⟩)
      nodes := cache.nodes + 1 }, a)

/-- A new packet at the head of a request's list. -/
def addPacket (cache : ArpCache) (a : Addr) (mem : QueueMem) (packet : List UInt8) (packetLen : Nat)
    (iface : List UInt8) : Exec Site ArpCache :=
  match mem.pkt, mem.buf, mem.iface with
  | some p, some buf, some name => do
    let buf ← memcpy buf packet packetLen
    let name ← strncpy name iface ifaceNamelen
    let req ← deref cache.reqs (some a)
    pure { cache with
      pkts := Function.update cache.pkts p (some ⟨some buf, packetLen, some name, req.packets⟩)
      reqs := Function.update cache.reqs a (some { req with packets := some p })
      nodes := cache.nodes + 1 }
  | _, _, _ => .error .nullPointer

/-- The request for the address: the one on the queue, or a new one. -/
def requestFor (cache : ArpCache) (ip : UInt32) (fresh : Option Addr) :
    Exec Site (ArpCache × Addr) := do
  let (_, req) ← findReq cache.reqs (fun _ n => n.ip == ip) cache.nodes none cache.requests
  match req with
  | some a => pure (cache, a)
  | none => addReq cache ip fresh

/-- `sr_arpcache_queuereq`. -/
def arpcacheQueuereq (cache : ArpCache) (ip : UInt32) (packet : Option (List UInt8))
    (packetLen : Nat) (iface : Option (List UInt8)) (mem : QueueMem) :
    Exec Site (ArpCache × Addr) := do
  let (cache, a) ← requestFor cache ip mem.req
  match packet, iface with
  | some packet, some iface =>
    if packetLen ≠ 0 then do
      let cache ← addPacket cache a mem packet packetLen iface
      pure (cache, a)
    else pure (cache, a)
  | _, _ => pure (cache, a)

/-- `sr_arpcache_insert`: the cache and the request that was waiting. -/
def arpcacheInsert (cache : ArpCache) (mac : EtherAddr) (ip : UInt32) (now : Int) :
    Exec Site (ArpCache × Option Addr) := do
  let (prev, req) ← findReq cache.reqs (fun _ n => n.ip == ip) cache.nodes none cache.requests
  let cache ← unlinkFound cache prev req
  pure ({ cache with entries := insertEntry cache.entries mac ip now }, req)

/-- The loop that frees the packets of a request. -/
def freePackets : Nat → (Addr → Option SrPacket) → Option Addr → Exec Site (Addr → Option SrPacket)
  | _, pkts, none => .ok pkts
  | 0, _, some _ => .error .outOfFuel
  | fuel + 1, pkts, some p => do
    let pkt ← deref pkts (some p)
    freePackets fuel (Function.update pkts p none) pkt.next

/-- The freeing of a request and its packets. -/
def freeReq (cache : ArpCache) (entry : Addr) : Exec Site ArpCache := do
  let node ← deref cache.reqs (some entry)
  let pkts ← freePackets cache.nodes cache.pkts node.packets
  pure { cache with reqs := Function.update cache.reqs entry none, pkts }

/-- `sr_arpreq_destroy`. -/
def arpreqDestroy (cache : ArpCache) : Option Addr → Exec Site ArpCache
  | none => .ok cache
  | some entry => do
    let (prev, req) ← findReq cache.reqs (fun a _ => a == entry) cache.nodes none cache.requests
    let cache ← unlinkFound cache prev req
    freeReq cache entry

/-- The branch of `handle_arpreq` that was taken. -/
inductive Handling where
  /-- Less than two seconds passed since the last send. -/
  | notDue
  /-- The request was sent five times; each waiting packet is visited. -/
  | gaveUp
  /-- The request is counted as sent. -/
  | counted
  deriving DecidableEq, Repr

/-- The loop over the packets of a request that is given up, which sends nothing yet. -/
def visitPackets (pkts : Addr → Option SrPacket) : Nat → Option Addr → Exec Site Unit
  | _, none => .ok ()
  | 0, some _ => .error .outOfFuel
  | fuel + 1, some p => do
    let pkt ← deref pkts (some p)
    visitPackets pkts fuel pkt.next

/-- `handle_arpreq` at the time `now`. -/
def handleArpreq (cache : ArpCache) (a : Addr) (now : Int) : Exec Site (ArpCache × Handling) := do
  let req ← deref cache.reqs (some a)
  if now - req.sent > 1 then
    if 5 ≤ req.timesSent then do
      visitPackets cache.pkts cache.nodes req.packets
      pure (cache, .gaveUp)
    else
      let req := if req.sent = 0 then { req with sent := now, timesSent := 1 }
        else { req with sent := now, timesSent := req.timesSent + 1 }
      pure ({ cache with reqs := Function.update cache.reqs a (some req) }, .counted)
  else pure (cache, .notDue)

/-- What a sweep did with a request: the request as it was found, the branch of `handle_arpreq`, and
whether it was destroyed. -/
structure Swept where
  addr : Addr
  found : ArpReq
  handling : Handling
  destroyed : Bool
  deriving DecidableEq, Repr

/-- The loop of `sr_arpcache_sweepreqs`, with a record of what it did. -/
def sweepFrom (now : Int) : Nat → ArpCache → Option Addr → Exec Site (ArpCache × List Swept)
  | _, cache, none => .ok (cache, [])
  | 0, _, some _ => .error .outOfFuel
  | fuel + 1, cache, some curr => do
    let found ← deref cache.reqs (some curr)
    let (cache, handling) ← handleArpreq cache curr now
    let req ← deref cache.reqs (some curr)
    let cache ← if 5 ≤ req.timesSent then arpreqDestroy cache (some curr) else pure cache
    -- `curr = curr->next`, read after the request may have been freed
    let req' ← deref cache.reqs (some curr)
    let (cache, swept) ← sweepFrom now fuel cache req'.next
    pure (cache, ⟨curr, found, handling, decide (5 ≤ req.timesSent)⟩ :: swept)

/-- `sr_arpcache_sweepreqs` at the time `now`. -/
def arpcacheSweepreqs (cache : ArpCache) (now : Int) : Exec Site (ArpCache × List Swept) :=
  sweepFrom now cache.nodes cache cache.requests

/-- A round of `sr_arpcache_timeout`, under the lock. -/
def arpcacheTimeoutRound (cache : ArpCache) (curtime now : Int) :
    Exec Site (ArpCache × List Swept) :=
  arpcacheSweepreqs { cache with entries := expireEntries cache.entries curtime } now

end ComputerNetworks.Router
