import ComputerNetworks.Router.ArpQueue
import ComputerNetworks.Router.ArpTable
import ComputerNetworks.Router.IpPath

/-!
# The path of an ARP reply

A reply for an interface takes the request for its *target* off the queue, caches
the target, passes 34 bytes of each packet on with one byte of its address
replaced, and goes on to `case 9`. For which replies this does what is asked of
one, for the sender of the reply, is determined exactly.
-/

namespace ComputerNetworks.Router

/-- A comparison that stays inside both blocks comes to an answer. -/
theorem strncmpSame_of_le {Site : Type} {a b : List UInt8} {n : Nat} (ha : n ≤ a.length)
    (hb : n ≤ b.length) : ∃ same, (strncmpSame a b n : Exec Site Bool) = .ok same := by
  induction n generalizing a b with
  | zero => exact ⟨true, by rw [strncmpSame]⟩
  | succ n ih =>
    obtain ⟨x, a, rfl⟩ := List.exists_cons_of_length_pos (Nat.zero_lt_of_lt ha)
    obtain ⟨y, b, rfl⟩ := List.exists_cons_of_length_pos (Nat.zero_lt_of_lt hb)
    rw [strncmpSame]
    split
    · split
      · exact ⟨true, rfl⟩
      · exact ih (Nat.le_of_succ_le_succ ha) (Nat.le_of_succ_le_succ hb)
    · exact ⟨false, rfl⟩

/-- The search for an interface comes to an answer on a full name block. -/
theorem srGetInterface_of_le {Site : Type} {name : List UInt8} (hname : ifaceNamelen ≤ name.length)
    (ifList : List SrIf) : ∃ found, (srGetInterface name ifList : Exec Site _) = .ok found := by
  induction ifList with
  | nil => exact ⟨none, rfl⟩
  | cons i rest ih =>
    obtain ⟨same, hsame⟩ := @strncmpSame_of_le Site _ _ _ i.name_length.ge hname
    rw [srGetInterface, hsame, Exec.ok_bind]
    cases same with
    | true => exact ⟨some i, rfl⟩
    | false => exact ih

/-- What `sr_send_packet` does with a frame that fits its block: it is written exactly where its
source address is that of the first interface with the name. -/
theorem sendPacket_copied (sr : SrInstance) {buf iface name : List UInt8} {len : Nat}
    {found : Option SrIf} (hlen : ethernetHdrSize ≤ len) (hbuf : len ≤ buf.length)
    (hname : (strncpy (List.replicate 16 0) iface 16 : Exec RouterAssert _) = .ok name)
    (hfound : (srGetInterface iface sr.ifList : Exec RouterAssert _) = .ok found) :
    sendPacket sr (some buf) len (some iface) = .ok
      (if found.map SrIf.addr = some (macAt (buf.take len) 6) then
        ({ sr with calls := sr.calls ++ [⟨buf.take len, iface⟩],
                   wire := sr.wire ++ [vnsMessage name (buf.take len)] }, 0)
      else ({ sr with calls := sr.calls ++ [⟨buf.take len, iface⟩] }, -1)) := by
  have hread : (readAt buf 0 len : Exec RouterAssert (List UInt8)) = .ok (buf.take len) :=
    readAt_of_le (by omega)
  have hmac : (loadMac (buf.take len) 6 : Exec RouterAssert EtherAddr) =
      .ok (macAt (buf.take len) 6) := by
    refine loadField_of_le ?_
    rw [List.length_take, Nat.min_eq_left hbuf]
    unfold ethernetHdrSize at hlen
    omega
  simp only [sendPacket, if_neg (Nat.not_lt.2 hlen), hname, Exec.ok_bind, hread,
    etherAddrsMatchInterface, hfound]
  cases found with
  | none => rfl
  | some i =>
    have hsame : (macAt (buf.take len) 6 == i.addr) =
        decide (some i.addr = some (macAt (buf.take len) 6)) := by
      rw [Bool.eq_iff_iff, beq_iff_eq, decide_eq_true_iff, Option.some.injEq, eq_comm]
    simp only [hmac, Exec.ok_bind, Exec.pure_eq_ok, hsame, decide_eq_true_iff, Option.map_some]
    split
    · rfl
    · rfl

/-- Sending a frame of an existing interface writes it out. -/
theorem sendPacket_eq (sr : SrInstance) {buf iface : List UInt8} {len : Nat} {found : Option SrIf}
    (hlen : ethernetHdrSize ≤ len) (hbuf : len ≤ buf.length) (hiface : iface.length = ifaceNamelen)
    (hfound : (srGetInterface iface sr.ifList : Exec RouterAssert _) = .ok found) :
    sendPacket sr (some buf) len (some iface) = .ok
      (if found.map SrIf.addr = some (macAt (buf.take len) 6) then
        ({ sr with calls := sr.calls ++ [⟨buf.take len, iface⟩],
                   wire := sr.wire ++ [sentOn iface (buf.take len)] }, 0)
      else ({ sr with calls := sr.calls ++ [⟨buf.take len, iface⟩] }, -1)) := by
  have hname : 16 ≤ iface.length := by
    rw [hiface]
    decide
  exact sendPacket_copied sr hlen hbuf (strncpy_eq_of_le hname List.length_replicate) hfound

/-- A frame that fits its block is taken, whether or not it goes out. -/
theorem sendPacket_spec (sr : SrInstance) {buf iface : List UInt8} {len : Nat}
    (hlen : ethernetHdrSize ≤ len) (hbuf : len ≤ buf.length)
    (hiface : iface.length = ifaceNamelen) :
    ∃ wire result, sendPacket sr (some buf) len (some iface) =
      .ok ({ sr with calls := sr.calls ++ [⟨buf.take len, iface⟩], wire }, result) := by
  obtain ⟨found, hfound⟩ := @srGetInterface_of_le RouterAssert _ hiface.ge sr.ifList
  rw [sendPacket_eq sr hlen hbuf hiface hfound]
  split
  · exact ⟨_, 0, rfl⟩
  · exact ⟨sr.wire, -1, rfl⟩

/-- A frame that does not fit its block is not taken. -/
theorem sendPacket_fits {sr : SrInstance} {buf iface : List UInt8} {len : Nat}
    {out : SrInstance × Int} (hlen : ethernetHdrSize ≤ len)
    (h : sendPacket sr (some buf) len (some iface) = .ok out) : len ≤ buf.length := by
  simp only [sendPacket, if_neg (Nat.not_lt.2 hlen)] at h
  obtain ⟨name, -, h⟩ := Exec.bind_eq_ok.1 h
  obtain ⟨frame, hread, -⟩ := Exec.bind_eq_ok.1 h
  unfold readAt at hread
  split at hread
  · omega
  · cases hread

/-- The number of bytes that are passed on of each packet. -/
def releasedSize : Nat := ethernetHdrSize + ipHdrSize

/-- What is passed on of a packet. -/
def QueuedPacket.relayed (mac : UInt8) (packet : QueuedPacket) : SendCall :=
  ⟨(mac :: packet.buf.drop 1).take releasedSize, nameBlock packet.name⟩

/-- The node of a packet that was passed on. -/
def SrPacket.readdressed (mac : UInt8) (n : SrPacket) : SrPacket :=
  { n with buf := n.buf.map fun buf => mac :: buf.drop 1 }

/-- The router after it passed packets on. -/
def SrInstance.passedOn (sr : SrInstance) (pkts : Addr → Option SrPacket) (calls : List SendCall)
    (wire : List (List UInt8)) : SrInstance :=
  { sr with cache := { sr.cache with pkts }, calls := sr.calls ++ calls, wire }

/-- The first byte is replaced, and the header copied over itself. -/
theorem copyOver {Site : Type} {buf : List UInt8} (hlen : ethernetHdrSize ≤ buf.length) :
    ∃ header, (readAt buf 0 ethernetHdrSize : Exec Site (List UInt8)) = .ok header ∧
      (memcpyAt buf 0 header : Exec Site (List UInt8)) = .ok buf := by
  have hread : (readAt buf 0 ethernetHdrSize : Exec Site (List UInt8)) =
      .ok (buf.take ethernetHdrSize) := readAt_of_le (by omega)
  have htake : (buf.take ethernetHdrSize).length = ethernetHdrSize := by
    rw [List.length_take, Nat.min_eq_left hlen]
  refine ⟨_, hread, ?_⟩
  rw [memcpyAt_zero (htake.trans_le hlen), htake, List.take_append_drop]

/-- A round of the loop up to the call that sends the packet. -/
theorem releasePackets_succ {sr : SrInstance} {p : Addr} {n : SrPacket} {packet : QueuedPacket}
    (hp : sr.cache.pkts p = some n) (hstores : n.Stores packet)
    (hlen : ethernetHdrSize ≤ packet.buf.length) (mac : UInt8) (fuel : Nat) :
    releasePackets mac (fuel + 1) sr (some p) = (do
      let (sr, _) ← sendPacket
        { sr with cache := { sr.cache with
            pkts := Function.update sr.cache.pkts p (some (n.readdressed mac)) } }
        (some (mac :: packet.buf.drop 1)) releasedSize (some (nameBlock packet.name))
      let pkt ← deref sr.cache.pkts (some p)
      releasePackets mac fuel sr pkt.next) := by
  obtain ⟨hbuf, -, hiface⟩ := hstores
  have hnode : n.readdressed mac = { n with buf := some (mac :: packet.buf.drop 1) } := by
    rw [SrPacket.readdressed, hbuf]
    rfl
  have hpos : 1 ≤ packet.buf.length := Nat.le_trans (by decide) hlen
  have hone : (memcpyAt packet.buf 0 [mac] : Exec RouterAssert (List UInt8)) =
      .ok (mac :: packet.buf.drop 1) := memcpyAt_zero hpos
  have hlen' : ethernetHdrSize ≤ (mac :: packet.buf.drop 1).length := by
    rw [List.length_cons, List.length_drop]
    omega
  obtain ⟨header, hread, hcopy⟩ := @copyOver RouterAssert _ hlen'
  simp only [releasePackets, deref_some hp, hbuf, allocated, Exec.ok_bind, hone, hread, hcopy,
    hiface, hnode]
  rfl

/-- A round of the loop, for a packet that is long enough. -/
theorem releasePackets_step {sr : SrInstance} {p : Addr} {n : SrPacket} {packet : QueuedPacket}
    (hp : sr.cache.pkts p = some n) (hstores : n.Stores packet)
    (hlen : releasedSize ≤ packet.buf.length) (mac : UInt8) (fuel : Nat) :
    ∃ wire, releasePackets mac (fuel + 1) sr (some p) = releasePackets mac fuel
      (sr.passedOn (Function.update sr.cache.pkts p (some (n.readdressed mac)))
        [packet.relayed mac] wire) n.next := by
  have hfits : releasedSize ≤ (mac :: packet.buf.drop 1).length := by
    rw [List.length_cons, List.length_drop]
    omega
  obtain ⟨wire, result, hsend⟩ := sendPacket_spec
    { sr with cache := { sr.cache with
        pkts := Function.update sr.cache.pkts p (some (n.readdressed mac)) } }
    (show ethernetHdrSize ≤ releasedSize by decide) hfits (nameBlock_length packet.name)
  have hnew : Function.update sr.cache.pkts p (some (n.readdressed mac)) p =
      some (n.readdressed mac) := Function.update_self ..
  refine ⟨wire, ?_⟩
  rw [releasePackets_succ hp hstores (Nat.le_trans (by decide) hlen), hsend]
  simp only [Exec.ok_bind, deref_some hnew]
  rfl

variable {sr : SrInstance} {p : Option Addr} {cells : List (Addr × SrPacket)}
  {packets : List QueuedPacket}

/-- Packets that are long enough are passed on in their order, and no other node is touched. -/
theorem releasePackets_ok (hchain : Chain SrPacket.next sr.cache.pkts p cells)
    (hnodup : (cells.map Prod.fst).Nodup)
    (hstores : List.Forall₂ (fun c packet => c.2.Stores packet) cells packets)
    (hlong : ∀ packet ∈ packets, releasedSize ≤ packet.buf.length) {fuel : Nat}
    (hfuel : cells.length ≤ fuel) (mac : UInt8) :
    ∃ pkts wire, releasePackets mac fuel sr p =
        .ok (sr.passedOn pkts (packets.map (QueuedPacket.relayed mac)) wire) ∧
      (∀ c ∈ cells, pkts c.1 = some (c.2.readdressed mac)) ∧
      ∀ b, b ∉ cells.map Prod.fst → pkts b = sr.cache.pkts b := by
  induction hstores generalizing sr p fuel with
  | nil =>
    cases hchain
    refine ⟨sr.cache.pkts, sr.wire, ?_, nofun, fun _ _ => rfl⟩
    rw [List.map_nil, SrInstance.passedOn, List.append_nil]
    unfold releasePackets
    rfl
  | @cons cell packet cells packets hstores _ ih =>
    have hframe := hchain.tail_update hnodup (some (cell.2.readdressed mac))
    obtain ⟨rfl, hheap, -⟩ := hchain
    obtain ⟨fuel, rfl⟩ := Nat.exists_eq_add_one_of_ne_zero (Nat.ne_zero_of_lt hfuel)
    obtain ⟨hnotMem, hnodup⟩ := List.nodup_cons.1 hnodup
    obtain ⟨hlen, hlong⟩ := List.forall_mem_cons.1 hlong
    obtain ⟨wire₁, hstep⟩ := releasePackets_step hheap hstores hlen mac fuel
    obtain ⟨pkts, wire, hrun, hcells, hsame⟩ := @ih
      (sr.passedOn (Function.update sr.cache.pkts cell.1 (some (cell.2.readdressed mac)))
        [packet.relayed mac] wire₁)
      _ hframe hnodup hlong fuel (Nat.le_of_succ_le_succ hfuel)
    refine ⟨pkts, wire, ?_, ?_, fun b hb => ?_⟩
    · rw [hstep, hrun, List.map_cons]
      simp only [SrInstance.passedOn, List.append_assoc, List.singleton_append]
    · refine List.forall_mem_cons.2 ⟨?_, hcells⟩
      rw [hsame _ hnotMem]
      exact Function.update_self ..
    · rw [List.map_cons, List.mem_cons, not_or] at hb
      rw [hsame b hb.2]
      exact Function.update_of_ne hb.1 _ _

/-- A round of the loop that sends its packet. -/
theorem releasedSize_le {n : SrPacket} {packet : QueuedPacket} {a : Addr}
    (ha : sr.cache.pkts a = some n) (hstores : n.Stores packet) {mac : UInt8} {fuel : Nat}
    {sr' : SrInstance} (h : releasePackets mac (fuel + 1) sr (some a) = .ok sr') :
    releasedSize ≤ packet.buf.length := by
  obtain ⟨hbuf, -, hiface⟩ := hstores
  simp only [releasePackets, deref_some ha, Exec.ok_bind, hbuf, allocated, hiface] at h
  obtain ⟨buf₁, hone, h⟩ := Exec.bind_eq_ok.1 h
  obtain ⟨header, -, h⟩ := Exec.bind_eq_ok.1 h
  obtain ⟨buf₂, hcopy, h⟩ := Exec.bind_eq_ok.1 h
  obtain ⟨out, hsend, -⟩ := Exec.bind_eq_ok.1 h
  rw [← memcpyAt_length hone, ← memcpyAt_length hcopy]
  exact sendPacket_fits (by decide) hsend

/-- The loop does not return where a packet is shorter than what is passed on of it. -/
theorem releasePackets_long (hchain : Chain SrPacket.next sr.cache.pkts p cells)
    (hnodup : (cells.map Prod.fst).Nodup)
    (hstores : List.Forall₂ (fun c packet => c.2.Stores packet) cells packets) {mac : UInt8}
    {fuel : Nat} {sr' : SrInstance} (h : releasePackets mac fuel sr p = .ok sr') :
    ∀ packet ∈ packets, releasedSize ≤ packet.buf.length := by
  induction hstores generalizing sr p fuel with
  | nil => exact nofun
  | @cons cell packet cells packets hstores _ ih =>
    have hframe := hchain.tail_update hnodup (some (cell.2.readdressed mac))
    obtain ⟨rfl, hheap, -⟩ := hchain
    cases fuel with
    | zero => cases h
    | succ fuel =>
      have hlen := releasedSize_le hheap hstores h
      obtain ⟨wire, hstep⟩ := releasePackets_step hheap hstores hlen mac fuel
      rw [hstep] at h
      exact List.forall_mem_cons.2 ⟨hlen, ih hframe (List.nodup_cons.1 hnodup).2 h⟩

/-- A waiting packet that is addressed anew stores its new bytes. -/
theorem SrPacket.Stores.readdressed {n : SrPacket} {packet : QueuedPacket} (h : n.Stores packet)
    (hlen : releasedSize ≤ packet.buf.length) (mac : UInt8) :
    (n.readdressed mac).Stores { packet with buf := mac :: packet.buf.drop 1 } := by
  have hpos : 1 ≤ packet.buf.length := Nat.le_trans (by decide) hlen
  obtain ⟨hbuf, hcount, hiface⟩ := h
  refine ⟨?_, ?_, hiface⟩
  · rw [SrPacket.readdressed, hbuf]
    rfl
  · rw [List.length_cons, List.length_drop, Nat.sub_add_cancel hpos]
    exact hcount

/-- All waiting packets of a request are addressed anew. -/
theorem forall₂_readdressed {cells : List (Addr × SrPacket)} {packets : List QueuedPacket}
    (h : List.Forall₂ (fun c packet => c.2.Stores packet) cells packets)
    (hlong : ∀ packet ∈ packets, releasedSize ≤ packet.buf.length) (mac : UInt8) :
    List.Forall₂ (fun c packet => c.2.Stores packet)
      (cells.map fun c => (c.1, c.2.readdressed mac))
      (packets.map fun packet => { packet with buf := mac :: packet.buf.drop 1 }) := by
  induction h with
  | nil => exact .nil
  | cons hstores _ ih =>
    obtain ⟨hlen, hlong⟩ := List.forall_mem_cons.1 hlong
    exact .cons (hstores.readdressed hlen mac) (ih hlong)

variable {waiting taken : List Waiting} {w : Waiting}

/-- The node of a request that was taken off the queue, and its packets. -/
theorem ArpCache.Holds.exists_cells {c : ArpCache} (h : c.Holds waiting (w :: taken)) :
    ∃ q queued detached, c.Rep queued (q :: detached) ∧ q.Stands w ∧
      List.Forall₂ ReqCell.Stands queued waiting ∧ List.Forall₂ ReqCell.Stands detached taken ∧
      c.reqs w.addr = some q.node ∧ c.Live (q :: (queued ++ detached)) := by
  obtain ⟨queued, _, hrep, hqueued, hdetached⟩ := h
  cases hdetached with
  | @cons q _ detached _ hq hdetached =>
    have hlive := hrep.live.perm List.perm_middle
    refine ⟨q, queued, detached, hrep, hq, hqueued, hdetached, ?_, hlive⟩
    rw [← hq.1]
    exact hlive.stored q List.mem_cons_self

/-- The packets of a request that was taken off the queue are passed on. -/
theorem releaseTaken_ok (h : sr.cache.Holds waiting (w :: taken))
    (hlong : ∀ packet ∈ w.packets, releasedSize ≤ packet.buf.length) (mac : UInt8) :
    ∃ req pkts wire w', sr.cache.reqs w.addr = some req ∧
      releasePackets mac sr.cache.nodes sr req.packets =
        .ok (sr.passedOn pkts (w.packets.map (QueuedPacket.relayed mac)) wire) ∧
      w'.addr = w.addr ∧ ({ sr.cache with pkts } : ArpCache).Holds waiting (w' :: taken) := by
  obtain ⟨q, queued, detached, hrep, hq, hqueued, hdetached, hreq, hlive⟩ := h.exists_cells
  obtain ⟨pkts, wire, hrun, hcells, hsame⟩ := releasePackets_ok (hlive.linked q List.mem_cons_self)
    hlive.packets_cons.1 hq.2.2.2.2 hlong (hlive.packets_le q List.mem_cons_self) mac
  have hlive' := hlive.setPackets (fun n => show (n.readdressed mac).next = n.next from rfl)
    hcells hsame
  refine ⟨q.node, pkts, wire, { w with packets := w.packets.map fun packet =>
    { packet with buf := mac :: packet.buf.drop 1 } }, hreq, hrun, rfl, queued,
    { q with packets := q.packets.map fun cell => (cell.1, cell.2.readdressed mac) } :: detached,
    ⟨hrep.chain, hlive'.perm List.perm_middle.symm⟩, hqueued, .cons ?_ hdetached⟩
  obtain ⟨haddr, hip, hsent, htimes, hpackets⟩ := hq
  exact ⟨haddr, hip, hsent, htimes, forall₂_readdressed hpackets hlong mac⟩

/-- A request that was taken off the queue is destroyed alone. -/
theorem destroyTaken {Site : Type} {c : ArpCache} (h : c.Holds waiting (w :: taken)) :
    ∃ c', (arpreqDestroy c (some w.addr) : Exec Site ArpCache) = .ok c' ∧ c'.Holds waiting taken ∧
      c'.entries = c.entries := by
  have hnodup := h.nodup_addr
  rw [List.map_append, List.map_cons, List.nodup_append] at hnodup
  have hother : ∀ w' ∈ waiting, (w'.addr == w.addr) = false := by
    intro w' hw'
    rw [beq_eq_false_iff_ne]
    exact hnodup.2.2 w'.addr (List.mem_map_of_mem hw') w.addr List.mem_cons_self
  have hmem : w.addr ∈ (waiting ++ w :: taken).map Waiting.addr :=
    List.mem_map_of_mem (List.mem_append_right _ List.mem_cons_self)
  obtain ⟨c', hrun, hholds, hentries⟩ := @arpreqDestroy_spec Site _ _ _ h _ hmem
  have hself : (w.addr == w.addr) = true := beq_self_eq_true _
  rw [(find_erase_of_forall hother).2, List.eraseP_cons, hself] at hholds
  exact ⟨c', hrun, hholds, hentries⟩

/-- The packets of the request that an insert of the address takes off the queue. -/
def foundPackets (ip : UInt32) (waiting : List Waiting) : List QueuedPacket :=
  ((waiting.find? fun w => w.ip == ip).map Waiting.packets).getD []

/-- A reply for an interface caches its target and passes on what waited for that. -/
theorem arpReply_ok (h : sr.cache.Holds waiting taken) {packet : List UInt8}
    (hlength : 42 ≤ packet.length) (target : SrIf) (now : Int)
    (hlong : ∀ q ∈ foundPackets target.ip waiting, releasedSize ≤ q.buf.length) :
    ∃ cache wire, arpReply sr packet target now = .ok
        { sr with
          cache
          calls := sr.calls ++
            (foundPackets target.ip waiting).map (QueuedPacket.relayed (byteAt packet 32))
          wire } ∧
      cache.Holds (waiting.eraseP fun w => w.ip == target.ip) taken ∧
      cache.entries = insertEntry sr.cache.entries (macAt packet 32) target.ip now := by
  have htha : (loadMac packet 32 : Exec RouterAssert EtherAddr) = .ok (macAt packet 32) :=
    loadField_of_le (by omega)
  have hmac : (load8 packet 32 : Exec RouterAssert UInt8) = .ok (byteAt packet 32) :=
    loadField_of_le (by omega)
  obtain ⟨cache, hinsert, hholds, hentries⟩ :=
    @arpcacheInsert_spec RouterAssert _ _ _ h (macAt packet 32) target.ip now
  unfold foundPackets at hlong ⊢
  cases hfind : waiting.find? fun w => w.ip == target.ip with
  | none =>
    rw [hfind] at hinsert hholds
    refine ⟨cache, sr.wire, ?_, hholds, hentries⟩
    simp only [arpReply, htha, Exec.ok_bind, hinsert, Option.map_none, Option.getD_none,
      List.map_nil, List.append_nil, Exec.pure_eq_ok]
  | some w =>
    rw [hfind] at hinsert hholds hlong
    obtain ⟨req, pkts, wire, w', hreq, hrelease, haddr, hholds'⟩ :=
      @releaseTaken_ok { sr with cache } _ _ w hholds hlong (byteAt packet 32)
    obtain ⟨cache', hdestroy, hholds'', hentries'⟩ := @destroyTaken _ _ _ RouterAssert _ hholds'
    refine ⟨cache', wire, ?_, hholds'', hentries'.trans hentries⟩
    rw [haddr] at hdestroy
    simp only [arpReply, htha, Exec.ok_bind, hinsert, Option.map_some, deref_some hreq, hmac,
      hrelease, SrInstance.passedOn, hdestroy, Exec.pure_eq_ok, Option.getD_some]

/-- A reply for an interface is not handled where a packet that waited for its target is shorter
than what is passed on of it. -/
theorem arpReply_long (h : sr.cache.Holds waiting taken) {packet : List UInt8} {target : SrIf}
    {now : Int} {sr' : SrInstance} (hrun : arpReply sr packet target now = .ok sr') :
    ∀ q ∈ foundPackets target.ip waiting, releasedSize ≤ q.buf.length := by
  obtain ⟨tha, -, hrun⟩ := Exec.bind_eq_ok.1 hrun
  obtain ⟨cache, hinsert, hholds, -⟩ := @arpcacheInsert_spec RouterAssert _ _ _ h tha target.ip now
  simp only [hinsert, Exec.ok_bind] at hrun
  unfold foundPackets
  cases hfind : waiting.find? fun w => w.ip == target.ip with
  | none => exact nofun
  | some w =>
    rw [hfind] at hrun hholds
    obtain ⟨q, queued, detached, -, hq, -, -, hreq, hlive⟩ := hholds.exists_cells
    simp only [Option.map_some, deref_some hreq, Exec.ok_bind] at hrun
    obtain ⟨mac, -, hrun⟩ := Exec.bind_eq_ok.1 hrun
    obtain ⟨sr₁, hrelease, -⟩ := Exec.bind_eq_ok.1 hrun
    exact releasePackets_long (hlive.linked q List.mem_cons_self) hlive.packets_cons.1
      hq.2.2.2.2 hrelease

/-- The frame enters the reply branch, for an interface of the router. -/
structure EntersReply (sr : SrInstance) (packet : List UInt8) (target : SrIf) : Prop where
  length : 42 ≤ packet.length
  etherType : word16 packet 12 = 0x0806
  op : word16 packet 20 = 2
  target_eq : getInterfaceFromIp sr (word32 packet 38) = some target

variable {packet : List UInt8} {target : SrIf}

/-- The branch of a reply is entered on an ARP reply to one of the router's own addresses. -/
theorem entersReply_iff : EntersReply sr packet target ↔
    42 ≤ packet.length ∧ word16 packet 12 = 0x0806 ∧ word16 packet 20 = 2 ∧
      getInterfaceFromIp sr (word32 packet 38) = some target :=
  ⟨fun h => ⟨h.length, h.etherType, h.op, h.target_eq⟩, fun ⟨h₁, h₂, h₃, h₄⟩ => ⟨h₁, h₂, h₃, h₄⟩⟩

instance EntersReply.decidable (sr : SrInstance) (packet : List UInt8) (target : SrIf) :
    Decidable (EntersReply sr packet target) :=
  decidable_of_iff _ entersReply_iff.symm

/-- The interface that is found has the target address of the packet. -/
theorem EntersReply.target_ip (h : EntersReply sr packet target) :
    target.ip = word32 packet 38 := by
  have hfound := h.target_eq
  unfold getInterfaceFromIp at hfound
  simpa using List.find?_some hfound

/-- Behind the reply branch `case 9` runs on the same packet. -/
theorem handlepacket_of_reply (h : EntersReply sr packet target) (interface : List UInt8)
    (mem : HandleMem) (now : Int) :
    handlepacket sr (some packet) (some interface) mem now =
      (arpReply sr packet target now >>= fun sr => ipCase .declared sr packet mem now) := by
  have hlength := h.length
  have htype : (load16 packet 12 : Exec RouterAssert UInt16) = .ok 0x0806 := by
    rw [← h.etherType]
    exact loadField_of_le (by omega)
  have hop : (load16 packet 20 : Exec RouterAssert UInt16) = .ok 2 := by
    rw [← h.op]
    exact loadField_of_le (by omega)
  have htip : (load32 packet 38 : Exec RouterAssert UInt32) = .ok (word32 packet 38) :=
    loadField_of_le (by omega)
  have hresult : packetType packet = .ok 1 := by
    rw [packetType, htype]
    rfl
  have hcase : arpCase sr packet mem now =
      (arpReply sr packet target now >>= fun sr => pure (sr, some packet)) := by
    simp only [arpCase, hop, Exec.ok_bind, htip, h.target_eq]
    rfl
  simp only [handlepacket, hresult, Exec.ok_bind, handleType, hcase, bind_assoc, pure_bind]
  rfl

/-- The call returns exactly where `case 9` does nothing and the reply branch returns. -/
theorem handlepacket_reply_eq_ok (h : EntersReply sr packet target)
    (hholds : sr.cache.Holds waiting taken) {interface : List UInt8} {mem : HandleMem} {now : Int}
    {sr' : SrInstance} :
    handlepacket sr (some packet) (some interface) mem now = .ok sr' ↔
      Ignored sr packet ∧ arpReply sr packet target now = .ok sr' := by
  rw [handlepacket_of_reply h, Exec.bind_eq_ok]
  -- the reply branch changes no interface
  have hsame : ∀ {sr₁ : SrInstance}, arpReply sr packet target now = .ok sr₁ →
      (Ignored sr₁ packet ↔ Ignored sr packet) := by
    intro sr₁ hrun
    obtain ⟨cache, wire, hrun', -, -⟩ :=
      arpReply_ok hholds h.length target now (arpReply_long hholds hrun)
    cases hrun.symm.trans hrun'
    exact Iff.rfl
  constructor
  · rintro ⟨sr₁, hrun, hip⟩
    obtain ⟨rfl, hignored⟩ := (ipCase_eq_ok mem now).1 hip
    exact ⟨(hsame hrun).1 hignored, hrun⟩
  · rintro ⟨hignored, hrun⟩
    exact ⟨sr', hrun, (ipCase_eq_ok mem now).2 ⟨rfl, (hsame hrun).2 hignored⟩⟩

/-- The packet with the address of the host it waited for, to the name it was queued with. -/
def QueuedPacket.addressed (sha : EtherAddr) (packet : QueuedPacket) : SendCall :=
  ⟨sha.bytes ++ packet.buf.drop 6, nameBlock packet.name⟩

/-- The packets that wait for an address. -/
def packetsFor (ip : UInt32) (waiting : List Waiting) : List QueuedPacket :=
  (waiting.filter fun w => w.ip == ip).flatMap Waiting.packets

/-- The address of a host is cached, the packets that waited for it were passed on once each with
that address, and the other requests are as they were. -/
structure Delivered (waiting taken : List Waiting) (sip : UInt32) (sha : EtherAddr)
    (cache : ArpCache) (calls : List SendCall) : Prop where
  cached : (arpcacheLookup cache sip).map ArpEntry.mac = some sha
  calls_perm : calls.Perm ((packetsFor sip waiting).map (QueuedPacket.addressed sha))
  holds : cache.Holds (waiting.filter fun w => w.ip != sip) taken

/-- What is asked where a reply comes in, for its sender. -/
def ReleasesRight (sr : SrInstance) (waiting taken : List Waiting) (packet : List UInt8)
    (outcome : Exec RouterAssert SrInstance) : Prop :=
  ∃ sr' calls, outcome = .ok sr' ∧ sr'.calls = sr.calls ++ calls ∧
    Delivered waiting taken (word32 packet 28) (macAt packet 22) sr'.cache calls

/-- The packet has the size that is passed on, and the address from its second byte on. -/
def QueuedPacket.Prepared (tha sha : EtherAddr) (packet : QueuedPacket) : Prop :=
  packet.buf.length = releasedSize ∧ tha.b0 = sha.b0 ∧
    (packet.buf.drop 1).take 5 = sha.bytes.drop 1

/-- The lookup returns the address of the sender once the target is cached for it, at most one
request waits for it, and the packets are prepared. -/
def TargetReplies (cache : ArpCache) (waiting : List Waiting) (ip : UInt32) (tha sha : EtherAddr) :
    Prop :=
  (if cache.FreeLast ip then some tha else (arpcacheLookup cache ip).map ArpEntry.mac) = some sha ∧
  (waiting.filter fun w => w.ip == ip).length ≤ 1 ∧
  ∀ packet ∈ packetsFor ip waiting, packet.Prepared tha sha

/-- The sender is cached already, and nothing waits for it or for the target. -/
def SenderKnown (cache : ArpCache) (waiting : List Waiting) (sip tip : UInt32) (sha : EtherAddr) :
    Prop :=
  (arpcacheLookup cache sip).map ArpEntry.mac = some sha ∧
    ∀ w ∈ waiting, w.ip ≠ sip ∧ w.ip ≠ tip

/-- A packet that is passed on with the address of its host. -/
theorem relayed_eq_addressed {mac : UInt8} {sha : EtherAddr} {p p' : QueuedPacket}
    (hp' : releasedSize ≤ p'.buf.length) (h : p.relayed mac = p'.addressed sha) :
    p'.buf.length = releasedSize ∧ mac = sha.b0 ∧ (p.buf.drop 1).take 5 = sha.bytes.drop 1 := by
  have hframe : (mac :: p.buf.drop 1).take releasedSize = sha.bytes ++ p'.buf.drop 6 :=
    congrArg SendCall.frame h
  have hbytes : sha.bytes.length = 6 := rfl
  have hlength := congrArg List.length hframe
  have hhead := congrArg (List.take 6) hframe
  rw [List.length_take, List.length_cons, List.length_drop, List.length_append, List.length_drop,
    hbytes] at hlength
  rw [List.take_take, List.take_left' hbytes] at hhead
  have hsix : 6 ≤ releasedSize := by decide
  obtain ⟨hmac, hrest⟩ := List.cons.inj hhead
  exact ⟨by omega, hmac, hrest⟩

/-- A prepared packet leaves with the addresses it should have. -/
theorem QueuedPacket.Prepared.relayed_eq {tha sha : EtherAddr} {p : QueuedPacket}
    (h : p.Prepared tha sha) : p.relayed tha.b0 = p.addressed sha := by
  obtain ⟨hlength, hmac, hrest⟩ := h
  have hlength' : (tha.b0 :: p.buf.drop 1).length ≤ releasedSize := by
    rw [List.length_cons, List.length_drop, hlength]
    decide
  have hframe : p.buf.drop 1 = sha.bytes.drop 1 ++ p.buf.drop 6 := by
    rw [← hrest]
    calc p.buf.drop 1 = (p.buf.drop 1).take 5 ++ (p.buf.drop 1).drop 5 :=
          (List.take_append_drop ..).symm
      _ = (p.buf.drop 1).take 5 ++ p.buf.drop 6 := by rw [List.drop_drop]
  rw [QueuedPacket.relayed, QueuedPacket.addressed, List.take_of_length_le hlength', hframe, hmac]
  rfl

/-- The packets are passed on as asked exactly where each of them is prepared. -/
theorem perm_relayed_iff {tha sha : EtherAddr} {packets : List QueuedPacket}
    (hlong : ∀ p ∈ packets, releasedSize ≤ p.buf.length) :
    (packets.map (QueuedPacket.relayed tha.b0)).Perm (packets.map (QueuedPacket.addressed sha)) ↔
      ∀ p ∈ packets, p.Prepared tha sha := by
  constructor
  · intro hperm p hp
    obtain ⟨p₁, hp₁, heq₁⟩ := List.mem_map.1 (hperm.mem_iff.2 (List.mem_map_of_mem hp))
    obtain ⟨p₂, hp₂, heq₂⟩ := List.mem_map.1 (hperm.mem_iff.1 (List.mem_map_of_mem hp))
    obtain ⟨hlength, hmac, -⟩ := relayed_eq_addressed (hlong p hp) heq₁
    obtain ⟨-, -, hrest⟩ := relayed_eq_addressed (hlong p₂ hp₂) heq₂.symm
    exact ⟨hlength, hmac, hrest⟩
  · intro hprepared
    rw [List.map_congr_left fun p hp => (hprepared p hp).relayed_eq]

/-- Where one request at most waits for the address, it is the one that is found. -/
theorem foundPackets_eq {ip : UInt32} (h : (waiting.filter fun w => w.ip == ip).length ≤ 1) :
    foundPackets ip waiting = packetsFor ip waiting := by
  rw [foundPackets, packetsFor, ← List.head?_filter]
  cases hfilter : waiting.filter fun w => w.ip == ip with
  | nil => rfl
  | cons w rest =>
    rw [hfilter, List.length_cons] at h
    cases List.length_eq_zero_iff.1 (Nat.le_zero.1 (Nat.le_of_succ_le_succ h))
    simp

/-- Only with one request at most is none left for the address. -/
theorem length_le_of_map_ip {ip : UInt32}
    (h : (waiting.eraseP fun w => w.ip == ip).map Waiting.ip =
      (waiting.filter fun w => w.ip != ip).map Waiting.ip) :
    (waiting.filter fun w => w.ip == ip).length ≤ 1 := by
  have hlength := congrArg List.length h
  rw [List.length_map, List.length_map, List.length_eraseP] at hlength
  have hsplit : waiting.length = (waiting.filter fun w => w.ip == ip).length +
      (waiting.filter fun w => w.ip != ip).length := List.length_eq_length_filter_add _
  split at hlength <;> omega

/-- Taking off the request for one address leaves none for another exactly where there is none for
either. -/
theorem forall_ne_of_map_ip {sip tip : UInt32} (hne : sip ≠ tip)
    (h : (waiting.eraseP fun w => w.ip == tip).map Waiting.ip =
      (waiting.filter fun w => w.ip != sip).map Waiting.ip) :
    ∀ w ∈ waiting, w.ip ≠ sip ∧ w.ip ≠ tip := by
  have hsip : ∀ w ∈ waiting, w.ip ≠ sip := by
    rintro w hw rfl
    have hother : ¬(w.ip == tip) = true := by simpa using hne
    have hkeep : w ∈ waiting.eraseP fun w => w.ip == tip :=
      (@List.mem_eraseP_of_neg _ (fun w : Waiting => w.ip == tip) _ _ hother).2 hw
    have hmem := List.mem_map_of_mem (f := Waiting.ip) hkeep
    rw [h] at hmem
    obtain ⟨w', hw', heq⟩ := List.mem_map.1 hmem
    have hkept := (List.mem_filter.1 hw').2
    rw [heq] at hkept
    simp at hkept
  have hall : (waiting.filter fun w => w.ip != sip) = waiting :=
    List.filter_eq_self.2 fun w hw => by simpa using hsip w hw
  refine fun w hw => ⟨hsip w hw, ?_⟩
  rintro rfl
  have hany : waiting.any (fun w' => w'.ip == w.ip) = true := List.any_eq_true.2 ⟨w, hw, by simp⟩
  have hlength := congrArg List.length h
  have hpos := List.length_pos_of_mem hw
  rw [hall, List.length_map, List.length_map, List.length_eraseP, if_pos hany] at hlength
  omega

/-- What a lookup of the sender returns once the target is cached. -/
theorem lookup_sender {c c' : ArpCache} {tip : UInt32} {tha : EtherAddr} {now : Int}
    (h : c'.entries = insertEntry c.entries tha tip now) (sip : UInt32) :
    (arpcacheLookup c' sip).map ArpEntry.mac =
      if sip = tip ∧ c.FreeLast sip then some tha else (arpcacheLookup c sip).map ArpEntry.mac := by
  have hentries : arpcacheLookup c' sip =
      arpcacheLookup { c with entries := insertEntry c.entries tha tip now } sip := by
    rw [arpcacheLookup_eq, h, arpcacheLookup_eq]
  rw [hentries]
  by_cases heq : sip = tip
  · subst heq
    rw [lookup_insertEntry_eq]
    simp
  · rw [lookup_insertEntry_ne c tha (Ne.symm heq) now, if_neg fun hand => heq hand.1]

section Delivered

variable {c c' : ArpCache} {sip tip : UInt32} {tha sha : EtherAddr} {now : Int}

/-- Two lists of requests that a cache holds have the same addresses. -/
theorem ArpCache.Holds.map_ip_eq {waiting' taken' : List Waiting} (h : c.Holds waiting taken)
    (h' : c.Holds waiting' taken') : waiting.map Waiting.ip = waiting'.map Waiting.ip := by
  rw [← h.map_queuedReqs fun q w hqw => hqw.2.1, ← h'.map_queuedReqs fun q w hqw => hqw.2.1]

/-- What the branch leaves behind, where the sender has the address of the target. -/
theorem delivered_target_iff
    (hlong : ∀ q ∈ foundPackets sip waiting, releasedSize ≤ q.buf.length)
    (hholds : c'.Holds (waiting.eraseP fun w => w.ip == sip) taken)
    (hentries : c'.entries = insertEntry c.entries tha sip now) :
    Delivered waiting taken sip sha c'
        ((foundPackets sip waiting).map (QueuedPacket.relayed tha.b0)) ↔
      TargetReplies c waiting sip tha sha := by
  have hlookup := lookup_sender hentries sip
  simp only [true_and] at hlookup
  constructor
  · rintro ⟨hcached, hcalls, hholds'⟩
    have hone := length_le_of_map_ip (hholds.map_ip_eq hholds')
    rw [foundPackets_eq hone] at hcalls hlong
    exact ⟨hlookup.symm.trans hcached, hone, (perm_relayed_iff hlong).1 hcalls⟩
  · rintro ⟨hcached, hone, hprepared⟩
    rw [foundPackets_eq hone] at hlong ⊢
    constructor
    · exact hlookup.trans hcached
    · exact (perm_relayed_iff hlong).2 hprepared
    · exact eraseP_eq_filter_not hone ▸ hholds

/-- What the branch leaves behind, where the sender has another address. -/
theorem delivered_other_iff (hne : sip ≠ tip)
    (hholds : c'.Holds (waiting.eraseP fun w => w.ip == tip) taken)
    (hentries : c'.entries = insertEntry c.entries tha tip now) :
    Delivered waiting taken sip sha c'
        ((foundPackets tip waiting).map (QueuedPacket.relayed tha.b0)) ↔
      SenderKnown c waiting sip tip sha := by
  have hlookup := lookup_sender hentries sip
  rw [if_neg fun hand => hne hand.1] at hlookup
  constructor
  · rintro ⟨hcached, -, hholds'⟩
    exact ⟨hlookup.symm.trans hcached, forall_ne_of_map_ip hne (hholds.map_ip_eq hholds')⟩
  · rintro ⟨hcached, hnone⟩
    have htip : ∀ w ∈ waiting, (w.ip == tip) = false := fun w hw => by simpa using (hnone w hw).2
    have hsip : ∀ w ∈ waiting, ¬(w.ip == sip) = true := fun w hw => by simpa using (hnone w hw).1
    have hall : (waiting.filter fun w => w.ip != sip) = waiting :=
      List.filter_eq_self.2 fun w hw => by simpa using (hnone w hw).1
    obtain ⟨hfind, herase⟩ := find_erase_of_forall htip
    rw [herase] at hholds
    constructor
    · exact hlookup.trans hcached
    · rw [foundPackets, hfind, packetsFor, List.filter_eq_nil_iff.2 hsip]
      exact .nil
    · exact hall.symm ▸ hholds

end Delivered

/-- Where the handling of a reply does what is asked, in terms of the frame, the table and the
requests: the frame is ignored as a datagram, and either the sender has the address of the target or
it was known and awaited by nothing. -/
def ReplyWorks (sr : SrInstance) (waiting : List Waiting) (packet : List UInt8) : Prop :=
  Ignored sr packet ∧
    if word32 packet 28 = word32 packet 38 then
      TargetReplies sr.cache waiting (word32 packet 28) (macAt packet 32) (macAt packet 22)
    else SenderKnown sr.cache waiting (word32 packet 28) (word32 packet 38) (macAt packet 22)

/-- What waited is long enough to be passed on, where the handling does what is asked. -/
theorem ReplyWorks.long (h : ReplyWorks sr waiting packet) :
    ∀ q ∈ foundPackets (word32 packet 38) waiting, releasedSize ≤ q.buf.length := by
  obtain ⟨-, h⟩ := h
  split at h
  · rename_i heq
    obtain ⟨-, hone, hprepared⟩ := h
    rw [← heq, foundPackets_eq hone]
    exact fun q hq => (hprepared q hq).1.ge
  · have htip : ∀ w ∈ waiting, (w.ip == word32 packet 38) = false :=
      fun w hw => by simpa using (h.2 w hw).2
    rw [foundPackets, (find_erase_of_forall htip).1]
    exact nofun

/-- What the branch leaves behind is as asked exactly under the conditions on the addresses. -/
theorem delivered_iff {c : ArpCache} {now : Int}
    (hlong : ∀ q ∈ foundPackets (word32 packet 38) waiting, releasedSize ≤ q.buf.length)
    (hholds : c.Holds (waiting.eraseP fun w => w.ip == word32 packet 38) taken)
    (hentries : c.entries =
      insertEntry sr.cache.entries (macAt packet 32) (word32 packet 38) now) :
    Delivered waiting taken (word32 packet 28) (macAt packet 22) c
        ((foundPackets (word32 packet 38) waiting).map
          (QueuedPacket.relayed (byteAt packet 32))) ↔
      if word32 packet 28 = word32 packet 38 then
        TargetReplies sr.cache waiting (word32 packet 28) (macAt packet 32) (macAt packet 22)
      else SenderKnown sr.cache waiting (word32 packet 28) (word32 packet 38)
        (macAt packet 22) := by
  split
  · rename_i heq
    rw [← heq] at hlong hholds hentries ⊢
    exact delivered_target_iff hlong hholds hentries
  · rename_i hne
    exact delivered_other_iff hne hholds hentries

/-- The handling of a reply for an interface does what is asked exactly under these conditions. -/
theorem releasesRight_iff (h : EntersReply sr packet target) (hholds : sr.cache.Holds waiting taken)
    (interface : List UInt8) (mem : HandleMem) (now : Int) :
    ReleasesRight sr waiting taken packet
        (handlepacket sr (some packet) (some interface) mem now) ↔
      ReplyWorks sr waiting packet := by
  constructor
  · rintro ⟨sr', calls, hrun, hcalls, hdelivered⟩
    obtain ⟨hignored, hreply⟩ := (handlepacket_reply_eq_ok h hholds).1 hrun
    have hlong := arpReply_long hholds hreply
    obtain ⟨cache, wire, hreply', hleft, hentries⟩ := arpReply_ok hholds h.length target now hlong
    cases hreply.symm.trans hreply'
    rw [h.target_ip] at hlong hleft hentries hcalls
    cases List.append_cancel_left hcalls
    exact ⟨hignored, (delivered_iff hlong hleft hentries).1 hdelivered⟩
  · intro hworks
    have hlong := hworks.long
    rw [← h.target_ip] at hlong
    obtain ⟨cache, wire, hreply, hleft, hentries⟩ := arpReply_ok hholds h.length target now hlong
    rw [h.target_ip] at hlong hleft hentries
    refine ⟨_, _, (handlepacket_reply_eq_ok h hholds).2 ⟨hworks.1, hreply⟩, rfl, ?_⟩
    rw [h.target_ip]
    exact (delivered_iff hlong hleft hentries).2 hworks.2

/-- A datagram of 98 bytes that waits. -/
def waitingPacket : QueuedPacket := ⟨List.replicate 98 7, [101, 116, 104, 49]⟩

/-- The request for 10.0.0.9 on which it waits. -/
def waitingRequest : Waiting := ⟨1, 0x0900000a, 0, 1, [waitingPacket]⟩

/-- The sample router with that request on its queue, and one host in its table. -/
def waitingRouter : SrInstance :=
  { sampleRouter with
    cache := {
      entries :=
        [⟨⟨2, 1, 0xef, 0xfa, 0, 0⟩, 0x000a000a, 0, true⟩, ⟨⟨0, 0, 0, 0, 0, 0⟩, 0, 0, false⟩]
      requests := some 1
      reqs := Function.update (fun _ => none) 1 (some ⟨0x0900000a, 0, 1, some 1, none⟩)
      pkts := Function.update (fun _ => none) 1
        (some ⟨some waitingPacket.buf, 98, some (nameBlock waitingPacket.name), none⟩)
      nodes := 2 } }

/-- The cells of the router below hold its waiting request. -/
theorem waitingRouter_holds : waitingRouter.cache.Holds [waitingRequest] [] := by
  refine ⟨[⟨1, ⟨0x0900000a, 0, 1, some 1, none⟩,
    [(1, ⟨some waitingPacket.buf, 98, some (nameBlock waitingPacket.name), none⟩)]⟩], [],
    ⟨⟨rfl, rfl, rfl⟩, ?_⟩, .cons ⟨rfl, rfl, rfl, rfl, .cons ⟨rfl, rfl, rfl⟩ .nil⟩ .nil, .nil⟩
  constructor
  · exact fun q hq => List.mem_singleton.1 hq ▸ rfl
  · exact fun q hq => List.mem_singleton.1 hq ▸ ⟨rfl, rfl, rfl⟩
  · exact List.nodup_singleton _
  · exact List.nodup_singleton _
  · decide
  · exact fun q hq => List.mem_singleton.1 hq ▸ by decide

/-- An ARP reply to 10.0.0.1 that enters the branch. -/
def replyFrame (sha sip tha : List UInt8) : List UInt8 :=
  [2, 0, 0, 0, 0, 1, 2, 0, 0, 0, 0, 9, 6, 8] ++ [0, 1, 8, 0, 6, 4, 2, 0] ++ sha ++ sip ++ tha ++
    [10, 0, 0, 1]

/-- A reply from the host in the table, with addresses that make it a datagram to ignore. -/
def knownReply : List UInt8 :=
  replyFrame [2, 1, 0xef, 0xfa, 0, 0] [10, 0, 10, 0] [0, 1, 0, 0, 0, 1]

theorem releasesRight_iff_sample :
    ReleasesRight waitingRouter [waitingRequest] [] knownReply
      (handlepacket waitingRouter (some knownReply) (some (ethName 0)) ⟨none, none, none⟩ 0) := by
  have henters : EntersReply waitingRouter knownReply sampleEth0 := by decide +kernel
  have hignored : Ignored waitingRouter knownReply := by decide +kernel
  have hother : word32 knownReply 28 ≠ word32 knownReply 38 := by decide +kernel
  apply (releasesRight_iff henters waitingRouter_holds _ _ _).2
  constructor
  · exact hignored
  · rw [if_neg hother]
    constructor
    · decide +kernel
    · intro w hw
      cases List.mem_singleton.1 hw
      decide +kernel

/-- The reply of the host for which a packet waits. -/
def hostReply : List UInt8 := replyFrame [2, 0, 0, 0, 0, 9] [10, 0, 0, 9] [2, 0, 0, 0, 0, 1]

/-- The sender of the reply is not cached, the packet is not passed on, the request stays, and the
frame then fails the checksum of a datagram. -/
theorem not_released :
    EntersReply waitingRouter hostReply sampleEth0 ∧
      waitingRouter.cache.Holds [waitingRequest] [] ∧
      (arpReply waitingRouter hostReply sampleEth0 0).toOption.map (fun sr =>
        (arpcacheLookup sr.cache 0x0900000a, sr.calls, sr.cache.queuedReqs.map ArpReq.ip)) =
          some (none, [], [0x0900000a]) ∧
      handlepacket waitingRouter (some hostReply) (some (ethName 0)) ⟨none, none, none⟩ 0 =
        .error (.assertion .checksum) ∧
      ¬ReleasesRight waitingRouter [waitingRequest] [] hostReply
        (handlepacket waitingRouter (some hostReply) (some (ethName 0)) ⟨none, none, none⟩ 0) := by
  have hrun : handlepacket waitingRouter (some hostReply) (some (ethName 0)) ⟨none, none, none⟩ 0 =
      .error (.assertion .checksum) := by decide +kernel
  refine ⟨by decide +kernel, waitingRouter_holds, by decide +kernel, hrun, ?_⟩
  rintro ⟨sr', calls, hok, -⟩
  cases hrun.symm.trans hok

end ComputerNetworks.Router
