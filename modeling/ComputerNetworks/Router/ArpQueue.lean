import ComputerNetworks.Core.LinkedQueue
import ComputerNetworks.Core.Machine
import ComputerNetworks.Router.ArpCache

/-!
# The ARP request queue as a list

The links of the cache spell a list of requests, each with a list of packets.
`sr_arpcache_queuereq`, `sr_arpcache_insert` and `sr_arpreq_destroy` do on the
heap what plain list operations do on that list. A request that an insert took
off the queue stays allocated until its caller destroys it.
-/

namespace ComputerNetworks.Router

variable {Site : Type}

/-- A request in the heap with the packets its list links. -/
structure ReqCell where
  addr : Addr
  node : ArpReq
  packets : List (Addr × SrPacket)

/-- The request as a cell of the queue. -/
def ReqCell.cell (q : ReqCell) : Addr × ArpReq := (q.addr, q.node)

/-- The request apart from its link. -/
def ReqCell.data (q : ReqCell) : ReqCell := { q with node := { q.node with next := none } }

/-- The addresses of the packets of some requests. -/
def packetAddrs (live : List ReqCell) : List Addr :=
  live.flatMap fun q => q.packets.map Prod.fst

/-- These requests are allocated, with disjoint lists of packets, and the loops over them are
bounded by the count of nodes. -/
structure ArpCache.Live (c : ArpCache) (live : List ReqCell) : Prop where
  stored : ∀ q ∈ live, c.reqs q.addr = some q.node
  linked : ∀ q ∈ live, Chain SrPacket.next c.pkts q.node.packets q.packets
  nodup : (live.map ReqCell.addr).Nodup
  packets_nodup : (packetAddrs live).Nodup
  length_le : live.length ≤ c.nodes
  packets_le : ∀ q ∈ live, q.packets.length ≤ c.nodes

/-- The queue links the first requests; the others were taken off it and not destroyed yet. -/
structure ArpCache.Rep (c : ArpCache) (queued detached : List ReqCell) : Prop where
  chain : Chain ArpReq.next c.reqs c.requests (queued.map ReqCell.cell)
  live : c.Live (queued ++ detached)

theorem packetAddrs_cons (q : ReqCell) (l : List ReqCell) :
    packetAddrs (q :: l) = q.packets.map Prod.fst ++ packetAddrs l := List.flatMap_cons

theorem mem_packetAddrs {live : List ReqCell} {q : ReqCell} (hq : q ∈ live) {b : Addr}
    (hb : b ∈ q.packets.map Prod.fst) : b ∈ packetAddrs live :=
  List.mem_flatMap.2 ⟨q, hq, hb⟩

theorem map_addr_eq (live : List ReqCell) :
    live.map ReqCell.addr = (live.map ReqCell.cell).map Prod.fst := by
  rw [List.map_map]
  rfl

/-- Writing the first request keeps the links behind it. -/
theorem chain_tail_update {reqs : Addr → Option ArpReq} {p : Option Addr} {q : ReqCell}
    {queued : List ReqCell} (h : Chain ArpReq.next reqs p ((q :: queued).map ReqCell.cell))
    (hnodup : ((q :: queued).map ReqCell.addr).Nodup) (v : Option ArpReq) :
    Chain ArpReq.next (Function.update reqs q.addr v) q.node.next (queued.map ReqCell.cell) := by
  rw [map_addr_eq] at hnodup
  exact h.tail_update hnodup v

namespace ArpCache.Live

variable {c : ArpCache} {live l₁ l₂ : List ReqCell} {q : ReqCell}

/-- The order of the live requests plays no part. -/
theorem perm (h : c.Live live) {live' : List ReqCell} (hperm : live.Perm live') : c.Live live' where
  stored := fun q hq => h.stored q (hperm.mem_iff.2 hq)
  linked := fun q hq => h.linked q (hperm.mem_iff.2 hq)
  nodup := (hperm.map _).nodup_iff.1 h.nodup
  packets_nodup := (hperm.flatMap_right _).nodup_iff.1 h.packets_nodup
  length_le := hperm.length_eq ▸ h.length_le
  packets_le := fun q hq => h.packets_le q (hperm.mem_iff.2 hq)

/-- No other request has the address of this one. -/
theorem addr_ne (h : c.Live (q :: live)) {q' : ReqCell} (hq' : q' ∈ live) : q'.addr ≠ q.addr :=
  fun heq => (List.nodup_cons.1 h.nodup).1 (heq ▸ List.mem_map_of_mem hq')

/-- No live request stands in a free cell. -/
theorem addr_ne_of_fresh (h : c.Live live) {a : Addr} (ha : c.reqs a = none) {q' : ReqCell}
    (hq' : q' ∈ live) : q'.addr ≠ a := by
  rintro rfl
  exact nomatch ha.symm.trans (h.stored q' hq')

/-- The packets of a request are distinct, and none is one of another request. -/
theorem packets_cons (h : c.Live (q :: live)) :
    (q.packets.map Prod.fst).Nodup ∧ (packetAddrs live).Nodup ∧
      ∀ q' ∈ live, ∀ b ∈ q'.packets.map Prod.fst, b ∉ q.packets.map Prod.fst := by
  have hnodup := h.packets_nodup
  rw [packetAddrs_cons, List.nodup_append] at hnodup
  obtain ⟨hfirst, hrest, hdisj⟩ := hnodup
  refine ⟨hfirst, hrest, fun q' hq' b hb hmem => ?_⟩
  exact hdisj b hmem b (mem_packetAddrs hq' hb) rfl

/-- Writing the first request changes no other one. -/
theorem stored_update (h : c.Live (q :: live)) {q₀ : ReqCell} (haddr : q₀.addr = q.addr) :
    ∀ q' ∈ q₀ :: live,
      Function.update c.reqs q.addr (some q₀.node) q'.addr = some q'.node := by
  intro q' hq'
  rcases List.mem_cons.1 hq' with rfl | hq'
  · rw [haddr]
    exact Function.update_self ..
  · rw [← h.stored q' (List.mem_cons_of_mem _ hq')]
    exact Function.update_of_ne (h.addr_ne hq') _ _

/-- Writing the fields of a request other than its packets. -/
theorem setNode (h : c.Live (q :: live)) {node : ArpReq} (hnode : node.packets = q.node.packets) :
    ({ c with reqs := Function.update c.reqs q.addr (some node) } : ArpCache).Live
      ({ q with node } :: live) where
  stored := h.stored_update rfl
  linked := by
    intro q' hq'
    rcases List.mem_cons.1 hq' with rfl | hq'
    · exact hnode ▸ h.linked q List.mem_cons_self
    · exact h.linked q' (List.mem_cons_of_mem _ hq')
  nodup := h.nodup
  packets_nodup := h.packets_nodup
  length_le := h.length_le
  packets_le := by
    intro q' hq'
    rcases List.mem_cons.1 hq' with rfl | hq'
    · exact h.packets_le q List.mem_cons_self
    · exact h.packets_le q' (List.mem_cons_of_mem _ hq')

/-- A new request without packets. -/
theorem addReq (h : c.Live live) {a : Addr} (ha : c.reqs a = none) (ip : UInt32)
    (next : Option Addr) (requests : Option Addr) :
    ({ c with
      requests
      reqs := Function.update c.reqs a (some ⟨ip, 0, 0, none, next⟩)
      nodes := c.nodes + 1 } : ArpCache).Live (⟨a, ⟨ip, 0, 0, none, next⟩, []⟩ :: live) where
  stored := by
    intro q' hq'
    rcases List.mem_cons.1 hq' with rfl | hq'
    · exact Function.update_self ..
    · rw [← h.stored q' hq']
      exact Function.update_of_ne (h.addr_ne_of_fresh ha hq') _ _
  linked := by
    intro q' hq'
    rcases List.mem_cons.1 hq' with rfl | hq'
    · rfl
    · exact h.linked q' hq'
  nodup := by
    refine List.nodup_cons.2 ⟨fun hmem => ?_, h.nodup⟩
    obtain ⟨q', hq', heq⟩ := List.mem_map.1 hmem
    exact h.addr_ne_of_fresh ha hq' heq
  packets_nodup := h.packets_nodup
  length_le := Nat.succ_le_succ h.length_le
  packets_le := by
    intro q' hq'
    rcases List.mem_cons.1 hq' with rfl | hq'
    · exact Nat.zero_le _
    · exact (h.packets_le q' hq').trans (Nat.le_succ _)

/-- A new packet at the head of a request's list. -/
theorem addPacket (h : c.Live (q :: live)) {p : Addr} (hp : c.pkts p = none) {pkt : SrPacket}
    (hpkt : pkt.next = q.node.packets) :
    ({ c with
      pkts := Function.update c.pkts p (some pkt)
      reqs := Function.update c.reqs q.addr (some { q.node with packets := some p })
      nodes := c.nodes + 1 } : ArpCache).Live
      (⟨q.addr, { q.node with packets := some p }, (p, pkt) :: q.packets⟩ :: live) := by
  have hframe : ∀ q' ∈ q :: live, Chain SrPacket.next (Function.update c.pkts p (some pkt))
      q'.node.packets q'.packets := by
    intro q' hq'
    have hlinked := h.linked q' hq'
    refine hlinked.frame fun b hb => Function.update_of_ne ?_ _ _
    exact fun heq => hlinked.fresh_notMem hp (heq ▸ hb)
  constructor
  · exact h.stored_update rfl
  · intro q' hq'
    rcases List.mem_cons.1 hq' with rfl | hq'
    · exact ⟨rfl, Function.update_self .., hpkt ▸ hframe q List.mem_cons_self⟩
    · exact hframe q' (List.mem_cons_of_mem _ hq')
  · exact h.nodup
  · refine List.nodup_cons.2 ⟨fun hmem => ?_, h.packets_nodup⟩
    obtain ⟨q', hq', hb⟩ := List.mem_flatMap.1 (show p ∈ packetAddrs (q :: live) from hmem)
    exact (h.linked q' hq').fresh_notMem hp hb
  · exact h.length_le.trans (Nat.le_succ _)
  · intro q' hq'
    rcases List.mem_cons.1 hq' with rfl | hq'
    · exact Nat.succ_le_succ (h.packets_le q List.mem_cons_self)
    · exact (h.packets_le q' (List.mem_cons_of_mem _ hq')).trans (Nat.le_succ _)

/-- Writing the packets of a request apart from their links. -/
theorem setPackets (h : c.Live (q :: live)) {f : SrPacket → SrPacket}
    (hf : ∀ n, (f n).next = n.next) {pkts : Addr → Option SrPacket}
    (hcells : ∀ cell ∈ q.packets, pkts cell.1 = some (f cell.2))
    (hsame : ∀ b, b ∉ q.packets.map Prod.fst → pkts b = c.pkts b) :
    ({ c with pkts } : ArpCache).Live
      ({ q with packets := q.packets.map fun cell => (cell.1, f cell.2) } :: live) where
  stored := by
    intro q' hq'
    rcases List.mem_cons.1 hq' with rfl | hq'
    · exact h.stored q List.mem_cons_self
    · exact h.stored q' (List.mem_cons_of_mem _ hq')
  linked := by
    intro q' hq'
    rcases List.mem_cons.1 hq' with rfl | hq'
    · exact (h.linked q List.mem_cons_self).map hf hcells
    · refine (h.linked q' (List.mem_cons_of_mem _ hq')).frame fun b hb => hsame b ?_
      exact h.packets_cons.2.2 q' hq' b hb
  nodup := h.nodup
  packets_nodup := by
    have hnodup := h.packets_nodup
    rw [packetAddrs_cons] at hnodup ⊢
    rw [List.map_map]
    exact hnodup
  length_le := h.length_le
  packets_le := by
    intro q' hq'
    rcases List.mem_cons.1 hq' with rfl | hq'
    · rw [List.length_map]
      exact h.packets_le q List.mem_cons_self
    · exact h.packets_le q' (List.mem_cons_of_mem _ hq')

/-- Freeing a request and its packets. -/
theorem free (h : c.Live (q :: live)) {pkts : Addr → Option SrPacket}
    (hpkts : ∀ b, b ∉ q.packets.map Prod.fst → pkts b = c.pkts b) :
    ({ c with reqs := Function.update c.reqs q.addr none, pkts } : ArpCache).Live live where
  stored := by
    intro q' hq'
    rw [← h.stored q' (List.mem_cons_of_mem _ hq')]
    exact Function.update_of_ne (h.addr_ne hq') _ _
  linked := by
    intro q' hq'
    refine (h.linked q' (List.mem_cons_of_mem _ hq')).frame fun b hb => hpkts b ?_
    exact h.packets_cons.2.2 q' hq' b hb
  nodup := (List.nodup_cons.1 h.nodup).2
  packets_nodup := h.packets_cons.2.1
  length_le := (Nat.le_succ _).trans h.length_le
  packets_le := fun q' hq' => h.packets_le q' (List.mem_cons_of_mem _ hq')

end ArpCache.Live

/-- The last of the requests the loop has passed. -/
def lastAddr (prev : Option Addr) (front : List ReqCell) : Option Addr :=
  (front.map ReqCell.addr).getLast?.or prev

theorem lastAddr_append (prev : Option Addr) (front : List ReqCell) (q : ReqCell) :
    lastAddr prev (front ++ [q]) = some q.addr := by
  simp [lastAddr]

/-- The loop stops at the first request it looks for, or at the end of the queue. -/
theorem findReq_spec (Site : Type) {reqs : Addr → Option ArpReq} (hit : Addr → ArpReq → Bool)
    {fuel : Nat} (prev : Option Addr) {p : Option Addr} {queued : List ReqCell}
    (hchain : Chain ArpReq.next reqs p (queued.map ReqCell.cell)) (hfuel : queued.length ≤ fuel) :
    ((∀ q ∈ queued, hit q.addr q.node = false) ∧
      ∃ prev', (findReq reqs hit fuel prev p : Exec Site _) = .ok (prev', none)) ∨
    ∃ front q rest, queued = front ++ q :: rest ∧ (∀ q' ∈ front, hit q'.addr q'.node = false) ∧
      hit q.addr q.node = true ∧
      (findReq reqs hit fuel prev p : Exec Site _) = .ok (lastAddr prev front, some q.addr) := by
  let done (prev found : Option Addr) : Exec Site (Option Addr × Option Addr) := .ok (prev, found)
  have hend (fuel : Nat) (prev : Option Addr) :
      findReq reqs hit fuel prev none = done prev none := by
    unfold findReq
    rfl
  have hstop (fuel : Nat) (prev : Option Addr) (a : Addr) (n : ArpReq) (hheap : reqs a = some n)
      (hhit : hit a n = true) :
      findReq reqs hit (fuel + 1) prev (some a) = done prev (some a) := by
    rw [findReq, deref_some hheap, Exec.ok_bind, if_pos hhit]
    rfl
  have hnext (fuel : Nat) (prev : Option Addr) (a : Addr) (n : ArpReq) (hheap : reqs a = some n)
      (hmiss : ¬ hit a n = true) : (findReq reqs hit (fuel + 1) prev (some a) : Exec Site _) =
        findReq reqs hit fuel (some a) n.next := by
    rw [findReq, deref_some hheap, Exec.ok_bind, if_neg hmiss]
  have hlength : (queued.map ReqCell.cell).length ≤ fuel := by
    rw [List.length_map]
    exact hfuel
  have hmissed {passed : List ReqCell}
      (h : ∀ c ∈ passed.map ReqCell.cell, ¬ hit c.1 c.2 = true) :
      ∀ q ∈ passed, hit q.addr q.node = false := fun q hq =>
    Bool.eq_false_iff.2 (h _ (List.mem_map_of_mem hq))
  rcases hchain.search hend hstop hnext prev hlength with
    ⟨hmiss, hrun⟩ | ⟨front, a, n, rest, hcells, hmiss, hhit, hrun⟩
  · exact .inl ⟨hmissed hmiss, hrun⟩
  · obtain ⟨front, behind, rfl, rfl, hbehind⟩ := List.map_eq_append_iff.1 hcells
    obtain ⟨q, rest, rfl, hq, rfl⟩ := List.map_eq_cons_iff.1 hbehind
    cases hq
    refine .inr ⟨front, q, rest, rfl, hmissed hmiss, hhit, ?_⟩
    rw [hrun, lastAddr, Chain.lastPassed, List.map_map]
    rfl

/-- Unlinking a request moves it from the queue to those taken off it; of the others only a link
changes. -/
theorem unlinkReq_spec {c : ArpCache} {front rest detached : List ReqCell} {q : ReqCell}
    (h : c.Rep (front ++ q :: rest) detached) :
    ∃ c' front', (unlinkReq c (lastAddr none front) q.addr : Exec Site ArpCache) = .ok c' ∧
      c'.Rep (front' ++ rest) (q :: detached) ∧
      front'.map ReqCell.data = front.map ReqCell.data ∧
      c'.entries = c.entries ∧ c'.pkts = c.pkts ∧ c'.nodes = c.nodes := by
  obtain ⟨hchain, hlive⟩ := h
  have hq : c.reqs q.addr = some q.node := hlive.stored q (by simp)
  rcases List.eq_nil_or_concat' front with rfl | ⟨front, t, rfl⟩
  · have hperm : (([] ++ q :: rest) ++ detached).Perm (rest ++ q :: detached) :=
      List.perm_middle.symm
    refine ⟨{ c with requests := q.node.next }, [], ?_, ⟨hchain.2.2, ?_⟩, rfl, rfl, rfl, rfl⟩
    · simp only [unlinkReq, deref_some hq, Exec.ok_bind]
      rfl
    · have hlive' := hlive.perm hperm
      exact ⟨hlive'.1, hlive'.2, hlive'.3, hlive'.4, hlive'.5, hlive'.6⟩
  · let t' : ReqCell := { t with node := { t.node with next := q.node.next } }
    have ht : c.reqs t.addr = some t.node := hlive.stored t (by simp)
    have hperm : ((front ++ [t]) ++ q :: rest ++ detached).Perm
        (t :: (front ++ rest ++ q :: detached)) := by
      simp only [List.append_assoc, List.cons_append]
      refine List.perm_middle.trans (.cons _ (.append_left _ ?_))
      exact List.perm_middle.symm
    have hset := (hlive.perm hperm).setNode (show t'.node.packets = t.node.packets from rfl)
    have hagree : ∀ cells : List ReqCell, cells ⊆ front ++ rest →
        ∀ b ∈ (cells.map ReqCell.cell).map Prod.fst,
          Function.update c.reqs t.addr (some t'.node) b = c.reqs b := by
      intro cells hsub b hb
      rw [← map_addr_eq] at hb
      obtain ⟨q', hq', rfl⟩ := List.mem_map.1 hb
      exact Function.update_of_ne
        ((hlive.perm hperm).addr_ne (List.mem_append_left _ (hsub hq'))) _ _
    refine ⟨_, front ++ [t'], ?_, ⟨?_, hset.perm ?_⟩, ?_, rfl, rfl, rfl⟩
    · simp only [unlinkReq, deref_some hq, lastAddr_append, deref_some ht, Exec.ok_bind,
        Exec.pure_eq_ok]
      rfl
    · simp only [List.map_append, List.map_cons, List.append_assoc, List.singleton_append]
        at hchain ⊢
      have hrest : Chain ArpReq.next c.reqs q.node.next (rest.map ReqCell.cell) := hchain.rest.2.2
      refine hchain.splice (hagree front (List.subset_append_left _ _)) (Function.update_self ..) ?_
      exact hrest.frame (hagree rest (List.subset_append_right _ _))
    · simp only [List.append_assoc, List.singleton_append]
      exact List.perm_middle.symm
    · simp only [List.map_append, List.map_cons, List.map_nil]
      rfl

/-- The packets of a list are freed, and no others. -/
theorem freePackets_spec {pkts : Addr → Option SrPacket} {fuel : Nat} {p : Option Addr}
    {cells : List (Addr × SrPacket)} (hchain : Chain SrPacket.next pkts p cells)
    (hnodup : (cells.map Prod.fst).Nodup) (hfuel : cells.length ≤ fuel) :
    ∃ pkts', (freePackets fuel pkts p : Exec Site _) = .ok pkts' ∧
      ∀ b, b ∉ cells.map Prod.fst → pkts' b = pkts b := by
  induction cells generalizing pkts fuel p with
  | nil =>
    cases hchain
    refine ⟨pkts, ?_, fun _ _ => rfl⟩
    unfold freePackets
    rfl
  | cons cell cells ih =>
    have hframe := hchain.tail_update hnodup none
    obtain ⟨rfl, hheap, -⟩ := hchain
    obtain ⟨fuel, rfl⟩ := Nat.exists_eq_add_one_of_ne_zero (Nat.ne_zero_of_lt hfuel)
    obtain ⟨pkts', hrun, hsame⟩ := ih hframe (List.nodup_cons.1 hnodup).2
      (Nat.le_of_succ_le_succ hfuel)
    refine ⟨pkts', ?_, fun b hb => ?_⟩
    · rw [freePackets, deref_some hheap, Exec.ok_bind, hrun]
    · rw [List.map_cons, List.mem_cons, not_or] at hb
      rw [hsame b hb.2, Function.update_of_ne hb.1]

/-- A packet as it was queued: its bytes and the name of its interface. -/
structure QueuedPacket where
  buf : List UInt8
  name : List UInt8
  deriving DecidableEq, Repr

/-- A request and the packets waiting on it, the newest first. -/
structure Waiting where
  addr : Addr
  ip : UInt32
  sent : Int
  timesSent : Nat
  packets : List QueuedPacket
  deriving DecidableEq, Repr

/-- What `strncpy` makes of a name in a block of `sr_IFACE_NAMELEN` bytes. -/
def nameBlock (name : List UInt8) : List UInt8 :=
  (name ++ List.replicate ifaceNamelen 0).take ifaceNamelen

theorem nameBlock_length (name : List UInt8) : (nameBlock name).length = ifaceNamelen := by
  rw [nameBlock, List.length_take, List.length_append, List.length_replicate]
  omega

/-- A name of at most 31 characters stands in its block as it was given. -/
theorem nameBlock_cstrAt {name : List UInt8} (h : 0 ∉ name) (hlen : name.length < ifaceNamelen) :
    CStrAt (nameBlock name) 0 name := by
  obtain ⟨k, hk⟩ := Nat.exists_eq_add_of_lt hlen
  refine ⟨h, List.replicate k 0, ?_⟩
  rw [nameBlock, List.drop_zero, List.take_append, List.take_of_length_le hlen.le,
    List.take_replicate, List.append_assoc, List.singleton_append, ← List.replicate_succ]
  congr 2
  omega

/-- The node holds the bytes of the packet, their number and its name. -/
def SrPacket.Stores (n : SrPacket) (packet : QueuedPacket) : Prop :=
  n.buf = some packet.buf ∧ n.len = packet.buf.length ∧ n.iface = some (nameBlock packet.name)

/-- The request in the heap is this one, with exactly its packets. -/
def ReqCell.Stands (q : ReqCell) (w : Waiting) : Prop :=
  q.addr = w.addr ∧ q.node.ip = w.ip ∧ q.node.sent = w.sent ∧ q.node.timesSent = w.timesSent ∧
    List.Forall₂ (fun c packet => c.2.Stores packet) q.packets w.packets

/-- The queue spells the first list; the requests of the second were taken off it. -/
def ArpCache.Holds (c : ArpCache) (waiting taken : List Waiting) : Prop :=
  ∃ queued detached, c.Rep queued detached ∧ List.Forall₂ ReqCell.Stands queued waiting ∧
    List.Forall₂ ReqCell.Stands detached taken

namespace Waiting

/-- Put a packet in front of those of the request for an address. -/
def addTo (ip : UInt32) (packet : Option QueuedPacket) : List Waiting → List Waiting
  | [] => []
  | w :: ws =>
    if w.ip = ip then { w with packets := packet.toList ++ w.packets } :: ws
    else w :: addTo ip packet ws

/-- Queue a packet, if there is one, on the request for an address; a request that is not there yet
joins the queue at the front. -/
def push (ip : UInt32) (packet : Option QueuedPacket) (fresh : Addr) (ws : List Waiting) :
    List Waiting :=
  if ws.any (fun w => w.ip == ip) then addTo ip packet ws
  else ⟨fresh, ip, 0, 0, packet.toList⟩ :: ws

/-- Queueing a packet changes of the requests only their packets. -/
theorem map_addTo {β : Type} {f : Waiting → β} (hf : ∀ w packets, f { w with packets } = f w)
    (ip : UInt32) (packet : Option QueuedPacket) (ws : List Waiting) :
    (addTo ip packet ws).map f = ws.map f := by
  induction ws with
  | nil => rfl
  | cons w ws ih =>
    unfold addTo
    split
    · rw [List.map_cons, hf, List.map_cons]
    · rw [List.map_cons, ih, List.map_cons]

end Waiting

/-- A relation between lists, split at an element of the first. -/
theorem forall₂_split {α β : Type} {R : α → β → Prop} {l₁ l₂ : List α} {a : α} {ws : List β}
    (h : List.Forall₂ R (l₁ ++ a :: l₂) ws) :
    ∃ w₁ b w₂, ws = w₁ ++ b :: w₂ ∧ List.Forall₂ R l₁ w₁ ∧ R a b ∧ List.Forall₂ R l₂ w₂ := by
  induction l₁ generalizing ws with
  | nil =>
    cases h with
    | cons hab hrest => exact ⟨[], _, _, rfl, .nil, hab, hrest⟩
  | cons c l₁ ih =>
    cases h with
    | cons hc hrest =>
      obtain ⟨w₁, b, w₂, rfl, h₁, hab, h₂⟩ := ih hrest
      exact ⟨_ :: w₁, b, w₂, rfl, .cons hc h₁, hab, h₂⟩

/-- Only the data of a cell decides what it stands for. -/
theorem ReqCell.Stands.of_data {q q' : ReqCell} {w : Waiting} (h : q.Stands w)
    (hdata : q'.data = q.data) : q'.Stands w := by
  obtain ⟨addr, node, packets⟩ := q
  obtain ⟨addr', node', packets'⟩ := q'
  obtain ⟨ip, sent, timesSent, pkts, next⟩ := node
  obtain ⟨ip', sent', timesSent', pkts', next'⟩ := node'
  simp only [ReqCell.data, ReqCell.mk.injEq, ArpReq.mk.injEq] at hdata
  obtain ⟨rfl, ⟨rfl, rfl, rfl, rfl, -⟩, rfl⟩ := hdata
  exact h

/-- Only the data of the cells decide what the queue stands for. -/
theorem stands_of_map_data {l l' : List ReqCell} {ws : List Waiting}
    (h : List.Forall₂ ReqCell.Stands l ws) (hdata : l'.map ReqCell.data = l.map ReqCell.data) :
    List.Forall₂ ReqCell.Stands l' ws := by
  induction h generalizing l' with
  | nil =>
    rw [List.map_nil, List.map_eq_nil_iff] at hdata
    exact hdata ▸ .nil
  | cons hq _ ih =>
    obtain ⟨q', l', rfl, hq', hl'⟩ := List.map_eq_cons_iff.1 hdata
    exact .cons (hq.of_data hq') (ih hl')

/-- An element on the right has a partner on the left. -/
theorem forall₂_mem_right {α β : Type} {R : α → β → Prop} {l : List α} {ws : List β}
    (h : List.Forall₂ R l ws) {b : β} (hb : b ∈ ws) : ∃ a ∈ l, R a b := by
  induction h with
  | nil => exact absurd hb List.not_mem_nil
  | cons hab _ ih =>
    rcases List.mem_cons.1 hb with rfl | hb
    · exact ⟨_, List.mem_cons_self, hab⟩
    · obtain ⟨a, ha, hab⟩ := ih hb
      exact ⟨a, List.mem_cons_of_mem _ ha, hab⟩

/-- The requests on the queue. -/
def queueFrom (reqs : Addr → Option ArpReq) : Nat → Option Addr → List ArpReq
  | fuel + 1, some a =>
    match reqs a with
    | some req => req :: queueFrom reqs fuel req.next
    | none => []
  | _, _ => []

/-- The requests on the queue of a cache. -/
def ArpCache.queuedReqs (c : ArpCache) : List ArpReq := queueFrom c.reqs c.nodes c.requests

/-- Enough fuel reads the whole queue from its first cell. -/
theorem queueFrom_eq {reqs : Addr → Option ArpReq} {fuel : Nat} {p : Option Addr}
    {queued : List ReqCell} (hchain : Chain ArpReq.next reqs p (queued.map ReqCell.cell))
    (hfuel : queued.length ≤ fuel) : queueFrom reqs fuel p = queued.map ReqCell.node := by
  induction queued generalizing fuel p with
  | nil =>
    cases hchain
    cases fuel <;> rfl
  | cons q queued ih =>
    obtain ⟨rfl, hq, hrest⟩ := hchain
    obtain ⟨fuel, rfl⟩ := Nat.exists_eq_add_one_of_ne_zero (Nat.ne_zero_of_lt hfuel)
    have hq' : reqs q.addr = some q.node := hq
    rw [queueFrom, hq', List.map_cons]
    exact congrArg _ (ih hrest (Nat.le_of_succ_le_succ hfuel))

/-- The requests on the queue are distinct. -/
theorem ArpCache.Rep.nodup {c : ArpCache} {queued detached : List ReqCell}
    (h : c.Rep queued detached) : (queued.map ReqCell.addr).Nodup := by
  have hnodup := h.live.nodup
  rw [List.map_append, List.nodup_append] at hnodup
  exact hnodup.1

/-- There are no more queued requests than cells in use. -/
theorem ArpCache.Rep.length_le {c : ArpCache} {queued detached : List ReqCell}
    (h : c.Rep queued detached) : queued.length ≤ c.nodes := by
  have hle := h.live.length_le
  rw [List.length_append] at hle
  omega

/-- What the nodes on the queue and the waiting requests agree on is determined by the cache. -/
theorem ArpCache.Holds.map_queuedReqs {β : Type} {f : ArpReq → β} {g : Waiting → β} {c : ArpCache}
    {waiting taken : List Waiting} (h : c.Holds waiting taken)
    (hsame : ∀ q w, ReqCell.Stands q w → f q.node = g w) : c.queuedReqs.map f = waiting.map g := by
  obtain ⟨queued, detached, hrep, hqueued, -⟩ := h
  rw [ArpCache.queuedReqs, queueFrom_eq hrep.chain hrep.length_le, List.map_map]
  clear hrep
  induction hqueued with
  | nil => rfl
  | cons hq _ ih => rw [List.map_cons, ih, List.map_cons, Function.comp_apply, hsame _ _ hq]

/-- The loop over the queue finds the first waiting request that is looked for. -/
theorem findReq_holds (Site : Type) (hit : Addr → ArpReq → Bool) (wanted : Waiting → Bool)
    (hsame : ∀ q w, ReqCell.Stands q w → wanted w = hit q.addr q.node) {c : ArpCache}
    {waiting : List Waiting} {queued detached : List ReqCell} (hrep : c.Rep queued detached)
    (hstands : List.Forall₂ ReqCell.Stands queued waiting) :
    ((∀ w ∈ waiting, wanted w = false) ∧ ∃ prev,
      (findReq c.reqs hit c.nodes none c.requests : Exec Site _) = .ok (prev, none)) ∨
    ∃ front q rest front' w rest', queued = front ++ q :: rest ∧ waiting = front' ++ w :: rest' ∧
      List.Forall₂ ReqCell.Stands front front' ∧ q.Stands w ∧
      List.Forall₂ ReqCell.Stands rest rest' ∧ (∀ w' ∈ front', wanted w' = false) ∧
      wanted w = true ∧
      (findReq c.reqs hit c.nodes none c.requests : Exec Site _) =
        .ok (lastAddr none front, some q.addr) := by
  have hnone : ∀ {l : List ReqCell} {ws : List Waiting}, List.Forall₂ ReqCell.Stands l ws →
      (∀ q ∈ l, hit q.addr q.node = false) → ∀ w ∈ ws, wanted w = false := by
    intro l ws hl hmiss w hw
    obtain ⟨q, hq, hqw⟩ := forall₂_mem_right hl hw
    exact (hsame q w hqw).trans (hmiss q hq)
  rcases findReq_spec Site hit none hrep.chain hrep.length_le with
    ⟨hmiss, hrun⟩ | ⟨front, q, rest, rfl, hmiss, hhit, hrun⟩
  · exact .inl ⟨hnone hstands hmiss, hrun⟩
  · obtain ⟨front', w, rest', rfl, hfront, hq, hrest⟩ := forall₂_split hstands
    exact .inr ⟨front, q, rest, front', w, rest', rfl, rfl, hfront, hq, hrest, hnone hfront hmiss,
      (hsame q w hq).trans hhit, hrun⟩

/-- The first request that is looked for, and the others. -/
theorem find_erase_of_split {P : Waiting → Bool} {front : List Waiting} {w : Waiting}
    (rest : List Waiting) (hfront : ∀ w' ∈ front, P w' = false) (hw : P w = true) :
    (front ++ w :: rest).find? P = some w ∧ (front ++ w :: rest).eraseP P = front ++ rest := by
  constructor
  · rw [List.find?_append, List.find?_cons_of_pos hw]
    have hnone : front.find? P = none := List.find?_eq_none.2 fun w' hw' => by simp [hfront w' hw']
    rw [hnone]
    rfl
  · rw [List.eraseP_append_right _ fun w' hw' => by simp [hfront w' hw'],
      List.eraseP_cons_of_pos hw]

/-- Where no request fits, none is found and none is removed. -/
theorem find_erase_of_forall {P : Waiting → Bool} {ws : List Waiting}
    (h : ∀ w ∈ ws, P w = false) : ws.find? P = none ∧ ws.eraseP P = ws := by
  constructor
  · exact List.find?_eq_none.2 fun w hw => by simp [h w hw]
  · exact List.eraseP_of_forall_not fun w hw => by simp [h w hw]

/-- Erasing the first of its kind leaves none where there is one at most. -/
theorem eraseP_eq_filter_not {α : Type} {P : α → Bool} {l : List α}
    (h : (l.filter P).length ≤ 1) : l.eraseP P = l.filter fun a => !P a := by
  induction l with
  | nil => rfl
  | cons a l ih =>
    cases ha : P a with
    | true =>
      rw [List.filter_cons_of_pos ha, List.length_cons] at h
      have hnone : l.filter P = [] :=
        List.length_eq_zero_iff.1 (Nat.le_zero.1 (Nat.le_of_succ_le_succ h))
      rw [List.eraseP_cons_of_pos ha, List.filter_cons_of_neg (by simp [ha]), List.filter_eq_self.2]
      intro b hb
      simpa using List.filter_eq_nil_iff.1 hnone b hb
    | false =>
      rw [List.filter_cons_of_neg (by simp [ha])] at h
      rw [List.eraseP_cons_of_neg (by simp [ha]), List.filter_cons_of_pos (by simp [ha]), ih h]

/-- Only the table differs. -/
theorem ArpCache.Rep.setEntries {c : ArpCache} {queued detached : List ReqCell}
    (h : c.Rep queued detached) (entries : List ArpEntry) :
    ({ c with entries } : ArpCache).Rep queued detached :=
  ⟨h.chain, h.live.stored, h.live.linked, h.live.nodup, h.live.packets_nodup, h.live.length_le,
    h.live.packets_le⟩

/-- `sr_arpcache_insert` takes the request for the address off the queue and returns it. -/
theorem arpcacheInsert_spec {c : ArpCache} {waiting taken : List Waiting}
    (h : c.Holds waiting taken) (mac : EtherAddr) (ip : UInt32) (now : Int) :
    ∃ c', (arpcacheInsert c mac ip now : Exec Site _) =
        .ok (c', (waiting.find? fun w => w.ip == ip).map Waiting.addr) ∧
      c'.Holds (waiting.eraseP fun w => w.ip == ip)
        ((waiting.find? fun w => w.ip == ip).toList ++ taken) ∧
      c'.entries = insertEntry c.entries mac ip now := by
  obtain ⟨queued, detached, hrep, hqueued, hdetached⟩ := h
  rcases findReq_holds Site (fun _ n => n.ip == ip) (fun w => w.ip == ip)
      (fun q w hqw => by rw [hqw.2.1]) hrep hqueued with ⟨hmiss, prev, hrun⟩ |
    ⟨front, q, rest, front', w, rest', rfl, rfl, hfront, hq, hrest, hmiss, hw, hrun⟩
  · obtain ⟨hfind, herase⟩ := find_erase_of_forall hmiss
    rw [hfind, herase]
    refine ⟨{ c with entries := insertEntry c.entries mac ip now }, ?_,
      ⟨queued, detached, hrep.setEntries _, hqueued, hdetached⟩, rfl⟩
    simp only [arpcacheInsert, hrun, Exec.ok_bind, unlinkFound, Exec.pure_eq_ok, Option.map_none]
  · obtain ⟨hfind, herase⟩ := find_erase_of_split rest' hmiss hw
    rw [hfind, herase]
    obtain ⟨c', front₂, hunlink, hrep', hdata, hentries, -, -⟩ :=
      @unlinkReq_spec Site _ _ _ _ _ hrep
    refine ⟨{ c' with entries := insertEntry c'.entries mac ip now }, ?_,
      ⟨front₂ ++ rest, q :: detached, hrep'.setEntries _, ?_, .cons hq hdetached⟩, ?_⟩
    · simp only [arpcacheInsert, hrun, Exec.ok_bind, Exec.pure_eq_ok, Option.map_some, ← hq.1,
        unlinkFound, hunlink]
    · exact List.rel_append (stands_of_map_data hfront hdata) hrest
    · rw [hentries]

/-- Freeing a request that is off the queue. -/
theorem freeReq_spec {c : ArpCache} {queued d₁ d₂ : List ReqCell} {q : ReqCell}
    (h : c.Rep queued (d₁ ++ q :: d₂)) :
    ∃ c', (freeReq c q.addr : Exec Site ArpCache) = .ok c' ∧ c'.Rep queued (d₁ ++ d₂) ∧
      c'.entries = c.entries := by
  have hperm : (queued ++ (d₁ ++ q :: d₂)).Perm (q :: (queued ++ (d₁ ++ d₂))) := by
    rw [← List.append_assoc, ← List.append_assoc]
    exact List.perm_middle
  have hlive := h.live.perm hperm
  obtain ⟨pkts, hfree, hkeep⟩ := @freePackets_spec Site _ _ _ _ (hlive.linked q List.mem_cons_self)
    hlive.packets_cons.1 (hlive.packets_le q List.mem_cons_self)
  refine ⟨{ c with reqs := Function.update c.reqs q.addr none, pkts }, ?_, ⟨?_, hlive.free hkeep⟩,
    rfl⟩
  · simp only [freeReq, deref_some (hlive.stored q List.mem_cons_self), Exec.ok_bind, hfree,
      Exec.pure_eq_ok]
  · refine h.chain.frame fun b hb => Function.update_of_ne ?_ _ _
    rw [← map_addr_eq] at hb
    obtain ⟨q', hq', rfl⟩ := List.mem_map.1 hb
    exact hlive.addr_ne (List.mem_append_left _ hq')

/-- The addresses of the waiting requests are those of the nodes. -/
theorem map_addr_of_stands {l : List ReqCell} {ws : List Waiting}
    (h : List.Forall₂ ReqCell.Stands l ws) : ws.map Waiting.addr = l.map ReqCell.addr := by
  induction h with
  | nil => rfl
  | cons hq _ ih => rw [List.map_cons, List.map_cons, ih, hq.1]

/-- No two requests have one address. -/
theorem ArpCache.Holds.nodup_addr {c : ArpCache} {waiting taken : List Waiting}
    (h : c.Holds waiting taken) : ((waiting ++ taken).map Waiting.addr).Nodup := by
  obtain ⟨queued, detached, hrep, hqueued, hdetached⟩ := h
  rw [map_addr_of_stands (List.rel_append hqueued hdetached)]
  exact hrep.live.nodup

/-- `sr_arpreq_destroy` removes the given request, from the queue or from those taken off it, and
nothing else. -/
theorem arpreqDestroy_spec {c : ArpCache} {waiting taken : List Waiting} (h : c.Holds waiting taken)
    {a : Addr} (ha : a ∈ (waiting ++ taken).map Waiting.addr) :
    ∃ c', (arpreqDestroy c (some a) : Exec Site ArpCache) = .ok c' ∧
      c'.Holds (waiting.eraseP fun w => w.addr == a) (taken.eraseP fun w => w.addr == a) ∧
      c'.entries = c.entries := by
  have hnodup := h.nodup_addr
  obtain ⟨queued, detached, hrep, hqueued, hdetached⟩ := h
  rcases findReq_holds Site (fun b _ => b == a) (fun w => w.addr == a)
      (fun q w hqw => by rw [hqw.1]) hrep hqueued with ⟨hmiss, prev, hrun⟩ |
    ⟨front, q, rest, front', w, rest', rfl, rfl, hfront, hq, hrest, hmiss, hw, hrun⟩
  · -- off the queue already
    have hmem : a ∈ detached.map ReqCell.addr := by
      rw [List.map_append, List.mem_append] at ha
      rcases ha with ha | ha
      · obtain ⟨w, hw, rfl⟩ := List.mem_map.1 ha
        exact absurd (hmiss w hw) (by simp)
      · rwa [map_addr_of_stands hdetached] at ha
    obtain ⟨q, hq, rfl⟩ := List.mem_map.1 hmem
    obtain ⟨d₁, d₂, rfl⟩ := List.append_of_mem hq
    obtain ⟨t₁, w, t₂, rfl, ht₁, hqw, ht₂⟩ := forall₂_split hdetached
    have hfirst : ∀ w' ∈ t₁, (w'.addr == q.addr) = false := by
      intro w' hw'
      rw [beq_eq_false_iff_ne, hqw.1]
      intro heq
      rw [List.map_append, List.map_append, List.map_cons, ← List.append_assoc] at hnodup
      refine (List.nodup_append.1 hnodup).2.2 w'.addr ?_ w.addr List.mem_cons_self heq
      exact List.mem_append_right _ (List.mem_map_of_mem hw')
    obtain ⟨c', hfree, hrep', hentries⟩ := @freeReq_spec Site _ _ _ _ _ hrep
    refine ⟨c', ?_, ⟨queued, d₁ ++ d₂, hrep', ?_, ?_⟩, hentries⟩
    · simp only [arpreqDestroy, hrun, Exec.ok_bind, unlinkFound, hfree]
    · rw [(find_erase_of_forall hmiss).2]
      exact hqueued
    · rw [(find_erase_of_split t₂ hfirst (beq_iff_eq.2 hqw.1.symm)).2]
      exact List.rel_append ht₁ ht₂
  · -- still queued: it is unlinked first
    have haddr : q.addr = a := hq.1.trans (beq_iff_eq.1 hw)
    subst haddr
    have hother : ∀ w' ∈ taken, (w'.addr == q.addr) = false := by
      intro w' hw'
      rw [beq_eq_false_iff_ne, hq.1]
      intro heq
      rw [List.map_append] at hnodup
      refine (List.nodup_append.1 hnodup).2.2 w.addr ?_ w'.addr (List.mem_map_of_mem hw') heq.symm
      simp
    obtain ⟨c₁, front₂, hunlink, hrep₁, hdata, hentries₁, hpkts₁, hnodes₁⟩ :=
      @unlinkReq_spec Site _ _ _ _ _ hrep
    obtain ⟨c', hfree, hrep', hentries⟩ := @freeReq_spec Site c₁ _ [] _ _ hrep₁
    refine ⟨c', ?_, ⟨front₂ ++ rest, detached, hrep', ?_, ?_⟩, hentries.trans hentries₁⟩
    · simp only [arpreqDestroy, hrun, Exec.ok_bind, unlinkFound, hunlink, hfree]
    · rw [(find_erase_of_split rest' hmiss hw).2]
      exact List.rel_append (stands_of_map_data hfront hdata) hrest
    · rw [(find_erase_of_forall hother).2]
      exact hdetached

/-- The packet a call of `sr_arpcache_queuereq` queues, if any. -/
def queuedPacket (packet : Option (List UInt8)) (packetLen : Nat) (iface : Option (List UInt8)) :
    Option QueuedPacket :=
  match packet, iface with
  | some packet, some iface =>
    if packetLen ≠ 0 then some ⟨packet.take packetLen, iface.takeWhile (· != 0)⟩ else none
  | _, _ => none

/-- `calloc` and `malloc` succeed, with unused nodes and blocks of the sizes asked for. -/
def QueueMem.Fresh (c : ArpCache) (packetLen : Nat) (mem : QueueMem) : Prop :=
  (∃ a ∈ mem.req, c.reqs a = none) ∧ (∃ p ∈ mem.pkt, c.pkts p = none) ∧
    (∃ buf ∈ mem.buf, buf.length = packetLen) ∧ ∃ name ∈ mem.iface, name.length = ifaceNamelen

instance QueueMem.decidableFresh (c : ArpCache) (packetLen : Nat) (mem : QueueMem) :
    Decidable (mem.Fresh c packetLen) :=
  inferInstanceAs (Decidable (_ ∧ _ ∧ _ ∧ _))

/-- A new packet joins the list of its request at the front. -/
theorem addPacket_spec {c : ArpCache} {front rest detached : List ReqCell} {q : ReqCell}
    {w : Waiting} (h : c.Rep (front ++ q :: rest) detached) (hq : q.Stands w)
    {req : Option Addr} {p : Addr}
    (hp : c.pkts p = none) {buf name packet iface : List UInt8} {packetLen : Nat}
    (hbuf : buf.length = packetLen) (hname : name.length = ifaceNamelen)
    (hpacket : packetLen ≤ packet.length) (hiface : 0 ∈ iface) :
    ∃ c' q', (addPacket c q.addr ⟨req, some p, some buf, some name⟩ packet packetLen iface :
        Exec Site ArpCache) = .ok c' ∧ c'.Rep (front ++ q' :: rest) detached ∧
      q'.Stands { w with
        packets := ⟨packet.take packetLen, iface.takeWhile (· != 0)⟩ :: w.packets } ∧
      c'.entries = c.entries := by
  obtain ⟨hchain, hlive⟩ := h
  have hperm : (front ++ q :: rest ++ detached).Perm (q :: (front ++ rest ++ detached)) := by
    rw [List.append_assoc, List.append_assoc]
    exact List.perm_middle
  have hstr : CStrAt iface 0 (iface.takeWhile (· != 0)) := by
    have hcstr : (cstr iface 0 : Exec Site (List UInt8)) = .ok (iface.takeWhile (· != 0)) := by
      rw [cstr, List.drop_zero, if_pos hiface]
    exact cstrAt_of_cstr hcstr
  have hcopy : (memcpy buf packet packetLen : Exec Site (List UInt8)) =
      .ok (packet.take packetLen) := by
    rw [memcpy_eq hpacket hbuf.ge, ← hbuf, List.drop_length, List.append_nil]
  have hlive' := hlive.perm hperm
  let pkt : SrPacket := ⟨some (packet.take packetLen), packetLen,
    some (nameBlock (iface.takeWhile (· != 0))), q.node.packets⟩
  have hadd := hlive'.addPacket hp (show pkt.next = q.node.packets from rfl)
  refine ⟨_, ⟨q.addr, { q.node with packets := some p }, (p, pkt) :: q.packets⟩, ?_,
    ⟨?_, hadd.perm ?_⟩, ?_, rfl⟩
  · simp only [addPacket, hcopy, hstr.strncpy_eq hname, Exec.ok_bind,
      deref_some (hlive'.stored q List.mem_cons_self), Exec.pure_eq_ok]
    rfl
  · have hagree : ∀ cells : List ReqCell, cells ⊆ front ++ rest ++ detached →
        ∀ b ∈ (cells.map ReqCell.cell).map Prod.fst,
          Function.update c.reqs q.addr (some { q.node with packets := some p }) b = c.reqs b := by
      intro cells hsub b hb
      rw [← map_addr_eq] at hb
      obtain ⟨q', hq', rfl⟩ := List.mem_map.1 hb
      exact Function.update_of_ne (hlive'.addr_ne (hsub hq')) _ _
    rw [List.map_append, List.map_cons] at hchain ⊢
    refine hchain.splice (hagree front ?_) (Function.update_self ..)
      (hchain.rest.frame (hagree rest ?_))
    · exact List.Subset.trans (List.subset_append_left _ _) (List.subset_append_left _ _)
    · exact List.Subset.trans (List.subset_append_right _ _) (List.subset_append_left _ _)
  · rw [List.append_assoc, List.append_assoc]
    exact List.perm_middle.symm
  · obtain ⟨haddr, hip, hsent, htimes, hpackets⟩ := hq
    refine ⟨haddr, hip, hsent, htimes, .cons ⟨rfl, ?_, rfl⟩ hpackets⟩
    simp [pkt, hpacket]

/-- A new request joins the queue at the front. -/
theorem addReq_spec {c : ArpCache} {queued detached : List ReqCell} (h : c.Rep queued detached)
    {a : Addr} (ha : c.reqs a = none) (ip : UInt32) :
    ∃ c' q, (addReq c ip (some a) : Exec Site _) = .ok (c', a) ∧ c'.Rep (q :: queued) detached ∧
      q.Stands ⟨a, ip, 0, 0, []⟩ ∧ c'.entries = c.entries ∧ c'.pkts = c.pkts := by
  have hlive := h.live.addReq ha ip c.requests (some a)
  refine ⟨_, ⟨a, ⟨ip, 0, 0, none, c.requests⟩, []⟩, rfl,
    ⟨⟨rfl, Function.update_self .., ?_⟩, hlive⟩, ⟨rfl, rfl, rfl, rfl, .nil⟩, rfl, rfl⟩
  refine h.chain.frame fun b hb => Function.update_of_ne ?_ _ _
  exact fun heq => h.chain.fresh_notMem ha (heq ▸ hb)

/-- Where the request for an address stands first, the packet is put in front of its packets. -/
theorem Waiting.addTo_of_split {ip : UInt32} {front : List Waiting} {w : Waiting}
    (packet : Option QueuedPacket) (rest : List Waiting)
    (hfront : ∀ w' ∈ front, (w'.ip == ip) = false) (hw : (w.ip == ip) = true) :
    addTo ip packet (front ++ w :: rest) =
      front ++ { w with packets := packet.toList ++ w.packets } :: rest := by
  induction front with
  | nil => exact if_pos (beq_iff_eq.1 hw)
  | cons w' front ih =>
    obtain ⟨hw', hfront⟩ := List.forall_mem_cons.1 hfront
    have hne : ¬w'.ip = ip := beq_eq_false_iff_ne.1 hw'
    rw [List.cons_append, addTo, if_neg hne, ih hfront, List.cons_append]

/-- The request for an address, found on the queue or put at its front. -/
theorem requestFor_spec {c : ArpCache} {waiting : List Waiting} {queued detached : List ReqCell}
    (hrep : c.Rep queued detached) (hqueued : List.Forall₂ ReqCell.Stands queued waiting)
    {r : Addr} (hr : c.reqs r = none) (ip : UInt32) :
    ∃ c' front q rest front' w rest', (requestFor c ip (some r) : Exec Site _) = .ok (c', q.addr) ∧
      c'.Rep (front ++ q :: rest) detached ∧ List.Forall₂ ReqCell.Stands front front' ∧
      q.Stands w ∧ List.Forall₂ ReqCell.Stands rest rest' ∧
      (∀ packet, Waiting.push ip packet r waiting =
        front' ++ { w with packets := packet.toList ++ w.packets } :: rest') ∧
      c'.pkts = c.pkts ∧ c'.entries = c.entries := by
  rcases findReq_holds Site (fun _ n => n.ip == ip) (fun w => w.ip == ip)
      (fun q w hqw => by rw [hqw.2.1]) hrep hqueued with ⟨hmiss, prev, hrun⟩ |
    ⟨front, q, rest, front', w, rest', rfl, rfl, hfront, hq, hrest, hmiss, hw, hrun⟩
  · obtain ⟨c', q, hadd, hrep', hq, hentries, hpkts⟩ := @addReq_spec Site _ _ _ hrep _ hr ip
    refine ⟨c', [], q, queued, [], ⟨r, ip, 0, 0, []⟩, waiting, ?_, hrep', .nil, hq, hqueued, ?_,
      hpkts, hentries⟩
    · simp only [requestFor, hrun, Exec.ok_bind, hadd, hq.1]
    · intro packet
      have hany : ¬waiting.any (fun w => w.ip == ip) = true := by simpa using hmiss
      rw [Waiting.push, if_neg hany, List.append_nil]
      rfl
  · refine ⟨c, front, q, rest, front', w, rest', ?_, hrep, hfront, hq, hrest, ?_, rfl, rfl⟩
    · simp only [requestFor, hrun, Exec.ok_bind, Exec.pure_eq_ok]
    · intro packet
      have hany : (front' ++ w :: rest').any (fun w => w.ip == ip) = true := by
        simp only [List.any_append, List.any_cons, hw, Bool.true_or, Bool.or_true]
      rw [Waiting.push, if_pos hany, Waiting.addTo_of_split packet rest' hmiss hw]

/-- `sr_arpcache_queuereq` queues its packet on the request for the address. -/
theorem arpcacheQueuereq_spec {c : ArpCache} {waiting taken : List Waiting}
    (h : c.Holds waiting taken) (ip : UInt32) {packet : Option (List UInt8)} {packetLen : Nat}
    {iface : Option (List UInt8)} {mem : QueueMem} (hmem : mem.Fresh c packetLen)
    (hpacket : ∀ block ∈ packet, packetLen ≤ block.length) (hiface : ∀ block ∈ iface, 0 ∈ block) :
    ∃ c' a, (arpcacheQueuereq c ip packet packetLen iface mem : Exec Site _) = .ok (c', a) ∧
      c'.Holds (Waiting.push ip (queuedPacket packet packetLen iface) (mem.req.getD 0) waiting)
        taken ∧
      c'.entries = c.entries := by
  obtain ⟨⟨r, hr, hrfree⟩, ⟨p, hp, hpfree⟩, ⟨buf, hbuf, hbuflen⟩, name, hname, hnamelen⟩ := hmem
  obtain ⟨mreq, mpkt, mbuf, mname⟩ := mem
  cases hr
  cases hp
  cases hbuf
  cases hname
  obtain ⟨queued, detached, hrep, hqueued, hdetached⟩ := h
  obtain ⟨c₁, front, q, rest, front', w, rest', hreq, hrep₁, hfront, hq, hrest, hpush, hpkts,
    hentries₁⟩ := @requestFor_spec Site _ _ _ _ hrep hqueued _ hrfree ip
  simp only [arpcacheQueuereq, hreq, Exec.ok_bind, Option.getD_some, hpush]
  -- without a packet only the request is queued
  have hbare : queuedPacket packet packetLen iface = none → c₁.Holds
      (front' ++ { w with
        packets := (queuedPacket packet packetLen iface).toList ++ w.packets } :: rest') taken := by
    intro hnone
    rw [hnone]
    exact ⟨_, detached, hrep₁, List.rel_append hfront (.cons hq hrest), hdetached⟩
  cases packet with
  | none => exact ⟨c₁, q.addr, rfl, hbare rfl, hentries₁⟩
  | some packet =>
    cases iface with
    | none => exact ⟨c₁, q.addr, rfl, hbare rfl, hentries₁⟩
    | some iface =>
      by_cases hlen : packetLen ≠ 0
      · obtain ⟨c', q', hadd, hrep', hq', hentries⟩ := @addPacket_spec Site _ _ _ _ _ _ hrep₁ hq
          (some r) p (hpkts ▸ hpfree) buf name packet iface packetLen hbuflen hnamelen
          (hpacket packet rfl) (hiface iface rfl)
        refine ⟨c', q.addr, ?_, ⟨_, detached, hrep', ?_, hdetached⟩, hentries.trans hentries₁⟩
        · simp only [if_pos hlen, hadd, Exec.ok_bind, Exec.pure_eq_ok]
        · simp only [queuedPacket, if_pos hlen]
          exact List.rel_append hfront (.cons hq' hrest)
      · have hnone : queuedPacket (some packet) packetLen (some iface) = none := if_neg hlen
        refine ⟨c₁, q.addr, ?_, hbare hnone, hentries₁⟩
        simp only [if_neg hlen, Exec.pure_eq_ok]

end ComputerNetworks.Router
