import ComputerNetworks.Router.ArpRequest
import ComputerNetworks.Router.ArpTable
import ComputerNetworks.Router.Dispatch

/-!
# The running router

The frames that `sr_handlepacket` is given and the rounds of `sr_arpcache_timeout`
come in any order. No request is ever queued, so every frame has its effect alone:
a run that returns is determined by the interfaces and by its operations. What it
sends are ARP replies, one for each request it answers, and no datagram.
-/

namespace ComputerNetworks.Router

variable {packet : List UInt8}

/-- Writing on, where the bytes before the offset have been written. -/
theorem memcpyAt_next {Site : Type} {done src : List UInt8} {off : Nat} (hoff : done.length = off)
    (hfits : off + src.length ≤ packet.length) :
    (memcpyAt (done ++ packet.drop off) off src : Exec Site (List UInt8)) =
      .ok (done ++ src ++ packet.drop (off + src.length)) := by
  have hrest : src.length ≤ (packet.drop off).length := by
    rw [List.length_drop]
    omega
  have hcopy := @memcpyAt_append Site done (packet.drop off) src hrest
  rwa [hoff, List.drop_drop] at hcopy

/-- More bytes behind a block change no reading of it. -/
theorem readAt_append {Site : Type} {block part : List UInt8} {off n : Nat}
    (h : (readAt block off n : Exec Site (List UInt8)) = .ok part) (rest : List UInt8) :
    (readAt (block ++ rest) off n : Exec Site (List UInt8)) = .ok part := by
  unfold readAt at h
  split at h
  · next hfits =>
    cases h
    rw [readAt_of_le (by rw [List.length_append]; omega), List.drop_append_of_le_length (by omega),
      List.take_append_of_le_length (by rw [List.length_drop]; omega)]
  · cases h

/-- The Ethernet header of a reply: from the interface to the sender of the packet. -/
def replyEthernet (packet : List UInt8) (out : SrIf) : List UInt8 :=
  (macAt packet 6).bytes ++ out.addr.bytes ++ [8, 6]

/-- The ARP header of a reply: the interface is its source and its target, and the sizes of the
addresses are those of the packet. -/
def replyArp (packet : List UInt8) (out : SrIf) : List UInt8 :=
  [0, 1] ++ [8, 0] ++ [byteAt packet 18] ++ [byteAt packet 19] ++ [0, 2] ++ out.addr.bytes ++
    bytes32 out.ip ++ out.addr.bytes ++ bytes32 out.ip

/-- The bytes of an address in a block. -/
theorem take_macAt {off : Nat} (h : off + 6 ≤ packet.length) :
    (packet.drop off).take 6 = (macAt packet off).bytes := by
  have hlen : 6 ≤ (packet.drop off).length := by
    rw [List.length_drop]
    omega
  rw [show macAt packet off = macAt (packet.drop off) 0 from (macAt_drop packet off 0).symm]
  match packet.drop off, hlen with
  | _ :: _ :: _ :: _ :: _ :: _ :: _, _ => rfl

/-- What has not been written yet. -/
theorem load8_next {Site : Type} {done : List UInt8} {off : Nat} (hoff : done.length = off)
    (h : off + 1 ≤ packet.length) :
    (load8 (done ++ packet.drop off) off : Exec Site UInt8) = .ok (byteAt packet off) := by
  have hbyte : byteAt (done ++ packet.drop off) off = byteAt packet off := by
    rw [byteAt, byteAt, List.getElem?_append_right hoff.le, List.getElem?_drop, hoff, Nat.sub_self,
      Nat.add_zero]
  rw [← hbyte]
  apply loadField_of_le
  rw [List.length_append, List.length_drop]
  omega

/-- An address that has been written. -/
theorem load32_bytes32 {Site : Type} {done : List UInt8} {off : Nat} (hoff : done.length = off)
    (ip : UInt32) (rest : List UInt8) :
    (load32 (done ++ bytes32 ip ++ rest) off : Exec Site UInt32) = .ok ip := by
  have hip : (bytes32 ip).length = 4 := rfl
  have hfits : off + 4 ≤ (done ++ bytes32 ip ++ rest).length := by
    rw [List.length_append, List.length_append, hip]
    omega
  rw [load32, loadField_of_le hfits, word32_bytes32 hoff]

/-- The composed header replaces the first 14 bytes. -/
theorem composeEthernet_eq (hlength : 14 ≤ packet.length) (out : SrIf) :
    composeEthernet packet out = .ok (replyEthernet packet out ++ packet.drop 14) := by
  have hread : (readAt packet 6 6 : Exec RouterAssert _) = .ok (macAt packet 6).bytes := by
    rw [readAt_of_le (by omega), take_macAt (by omega)]
  have hdhost : (memcpyAt packet 0 (macAt packet 6).bytes : Exec RouterAssert _) =
      .ok ((macAt packet 6).bytes ++ packet.drop 6) :=
    memcpyAt_zero (by rw [EtherAddr.bytes_length]; omega)
  have hshost := @memcpyAt_next packet RouterAssert (macAt packet 6).bytes out.addr.bytes 6 rfl
    (by rw [EtherAddr.bytes_length]; omega)
  have htype := @memcpyAt_next packet RouterAssert ((macAt packet 6).bytes ++ out.addr.bytes)
    [8, 6] 12 rfl hlength
  rw [composeEthernet, hread, Exec.ok_bind, hdhost, Exec.ok_bind, hshost, Exec.ok_bind]
  exact htype

/-- The composed ARP header stands behind the Ethernet header. -/
theorem composeArp_eq (hlength : 42 ≤ packet.length) {header : List UInt8} {out : SrIf}
    (h14 : header.length = 14)
    (hsource : (readAt header 6 6 : Exec RouterAssert _) = .ok out.addr.bytes) :
    composeArp (header ++ packet.drop 14) out =
      .ok (header ++ replyArp packet out ++ packet.drop 42) := by
  have hmac : out.addr.bytes.length = 6 := rfl
  have hip : (bytes32 out.ip).length = 4 := rfl
  -- the fields in the order in which they are written
  let p₁ := header ++ [0, 1]
  let p₂ := p₁ ++ [8, 0]
  let p₃ := p₂ ++ [byteAt packet 18]
  let p₄ := p₃ ++ [byteAt packet 19]
  let p₅ := p₄ ++ [0, 2]
  let p₆ := p₅ ++ out.addr.bytes
  let p₇ := p₆ ++ bytes32 out.ip
  let p₈ := p₇ ++ out.addr.bytes
  have h16 : p₁.length = 16 := by simp [p₁, h14]
  have h18 : p₂.length = 18 := by simp [p₂, h16]
  have h19 : p₃.length = 19 := by simp [p₃, h18]
  have h20 : p₄.length = 20 := by simp [p₄, h19]
  have h22 : p₅.length = 22 := by simp [p₅, h20]
  have h28 : p₆.length = 28 := by simp [p₆, h22, hmac]
  have h32 : p₇.length = 32 := by simp [p₇, h28, hip]
  have h38 : p₈.length = 38 := by simp [p₈, h32, hmac]
  have s₁ : (store16 (header ++ packet.drop 14) 14 (htons 1) : Exec RouterAssert _) =
      .ok (p₁ ++ packet.drop 16) := @memcpyAt_next packet _ header [0, 1] 14 h14 (by simp; omega)
  have s₂ : (store16 (p₁ ++ packet.drop 16) 16 (htons 0x0800) : Exec RouterAssert _) =
      .ok (p₂ ++ packet.drop 18) := @memcpyAt_next packet _ p₁ [8, 0] 16 h16 (by simp; omega)
  have s₃ : (store8 (p₂ ++ packet.drop 18) 18 (byteAt packet 18) : Exec RouterAssert _) =
      .ok (p₃ ++ packet.drop 19) := @memcpyAt_next packet _ p₂ [_] 18 h18 (by simp; omega)
  have s₄ : (store8 (p₃ ++ packet.drop 19) 19 (byteAt packet 19) : Exec RouterAssert _) =
      .ok (p₄ ++ packet.drop 20) := @memcpyAt_next packet _ p₃ [_] 19 h19 (by simp; omega)
  have s₅ : (store16 (p₄ ++ packet.drop 20) 20 (htons 2) : Exec RouterAssert _) =
      .ok (p₅ ++ packet.drop 22) := @memcpyAt_next packet _ p₄ [0, 2] 20 h20 (by simp; omega)
  have s₆ : (memcpyAt (p₅ ++ packet.drop 22) 22 out.addr.bytes : Exec RouterAssert _) =
      .ok (p₆ ++ packet.drop 28) := @memcpyAt_next packet _ p₅ _ 22 h22 (by rw [hmac]; omega)
  have s₇ : (store32 (p₆ ++ packet.drop 28) 28 out.ip : Exec RouterAssert _) =
      .ok (p₇ ++ packet.drop 32) :=
    @memcpyAt_next packet _ p₆ (bytes32 out.ip) 28 h28 (by rw [hip]; omega)
  have s₈ : (memcpyAt (p₇ ++ packet.drop 32) 32 out.addr.bytes : Exec RouterAssert _) =
      .ok (p₈ ++ packet.drop 38) := @memcpyAt_next packet _ p₇ _ 32 h32 (by rw [hmac]; omega)
  have s₉ : (store32 (p₈ ++ packet.drop 38) 38 out.ip : Exec RouterAssert _) =
      .ok (p₈ ++ bytes32 out.ip ++ packet.drop 42) :=
    @memcpyAt_next packet _ p₈ (bytes32 out.ip) 38 h38 (by rw [hip]; omega)
  have hhln := @load8_next packet RouterAssert p₂ 18 h18 (by omega)
  have hpln := @load8_next packet RouterAssert p₃ 19 h19 (by omega)
  have hshost : (readAt (p₇ ++ packet.drop 32) 6 6 : Exec RouterAssert _) = .ok out.addr.bytes := by
    simp only [p₇, p₆, p₅, p₄, p₃, p₂, p₁, List.append_assoc header]
    exact readAt_append hsource _
  have hsip : (load32 (p₈ ++ packet.drop 38) 28 : Exec RouterAssert _) = .ok out.ip := by
    simp only [p₈, p₇, List.append_assoc _ out.addr.bytes]
    exact load32_bytes32 h28 out.ip _
  calc composeArp (header ++ packet.drop 14) out
      = .ok (p₈ ++ bytes32 out.ip ++ packet.drop 42) := by
        simp only [composeArp, s₁, s₂, hhln, s₃, hpln, s₄, s₅, s₆, s₇, hshost, s₈, hsip, s₉,
          Exec.ok_bind]
    _ = .ok (header ++ replyArp packet out ++ packet.drop 42) := by
        simp only [p₈, p₇, p₆, p₅, p₄, p₃, p₂, p₁, replyArp, List.append_assoc]

/-- The reply to a request, from an interface. -/
def answer (packet : List UInt8) (out : SrIf) : List UInt8 :=
  replyEthernet packet out ++ replyArp packet out

/-- The branch for a request sends the reply, and goes on with it in the place of the request. -/
theorem arpRequest_answer (hlength : 42 ≤ packet.length) {block : List UInt8} {mem : HandleMem}
    (hreply : mem.reply = some block) (hblock : block.length = 42) (sr : SrInstance) (out : SrIf) :
    arpRequest sr packet out mem = (do
      let (sr, _) ← sendPacket sr (some (answer packet out)) 42 (some out.name)
      pure (sr, answer packet out ++ packet.drop 42)) := by
  have hheader : (readAt (replyEthernet packet out ++ packet.drop 14) 0 14 : Exec RouterAssert _) =
      .ok (replyEthernet packet out) := readAt_prefix (replyEthernet packet out) _
  have hfirst : (memcpyAt block 0 (replyEthernet packet out) : Exec RouterAssert _) =
      .ok (replyEthernet packet out ++ block.drop 14) := by
    apply memcpyAt_zero
    rw [hblock]
    exact Nat.le_add_right 14 28
  have harp : (readAt (replyEthernet packet out ++ replyArp packet out ++ packet.drop 42) 14 28 :
      Exec RouterAssert _) = .ok (replyArp packet out) := by
    rw [readAt_of_le]
    · rfl
    · rw [List.length_append]
      exact Nat.le_add_right 42 _
  have hsecond : (memcpyAt (replyEthernet packet out ++ block.drop 14) 14 (replyArp packet out) :
      Exec RouterAssert _) = .ok (answer packet out) := by
    have hcopy := @memcpyAt_next block RouterAssert (replyEthernet packet out)
        (replyArp packet out) 14
      rfl hblock.ge
    have hrest : block.drop (14 + (replyArp packet out).length) = [] :=
      List.drop_of_length_le hblock.le
    rwa [hrest, List.append_nil] at hcopy
  simp only [arpRequest_eq, composeEthernet_eq (Nat.le_trans (by decide) hlength),
    hreply, allocated,
    ethernetHdrSize, arpHdrSize, hheader, hfirst,
    composeArp_eq hlength (rfl : (replyEthernet packet out).length = 14) rfl, harp, hsecond,
    Exec.ok_bind]
  rfl

/-- What the two threads do to the router: a frame of the server with what `malloc` returns for it,
or a round of `sr_arpcache_timeout`. -/
inductive RouterOp where
  | frame (packet interface : List UInt8) (mem : HandleMem) (now : Int)
  | round (curtime now : Int)

/-- A block for a reply has the size that was asked for. -/
def RouterOp.Allocates : RouterOp → Prop
  | .frame _ _ mem _ => ∀ block, mem.reply = some block → block.length = 42
  | .round _ _ => True

/-- The router: frames and rounds in any order. -/
def routerMachine : Machine RouterAssert SrInstance RouterOp where
  enabled := fun _ op => op.Allocates
  step := fun sr op =>
    match op with
    | .frame packet interface mem now => handlepacket sr (some packet) (some interface) mem now
    | .round curtime now => do
      let (cache, _) ← arpcacheTimeoutRound sr.cache curtime now
      pure { sr with cache }

namespace SrInstance

variable (sr : SrInstance)

/-- The interface whose address an ARP packet of an operation is about. -/
def arpTarget (op : UInt16) (packet : List UInt8) : Option SrIf :=
  if word16 packet 12 = 0x0806 ∧ word16 packet 20 = op then
    getInterfaceFromIp sr (word32 packet 38)
  else none

/-- What `sr_send_packet` is called with: the answer to a request. -/
def answers : RouterOp → Option SendCall
  | .frame packet _ _ _ => (sr.arpTarget 1 packet).map fun out => ⟨answer packet out, out.name⟩
  | .round _ _ => none

/-- A frame goes out where its source address is that of the first interface with the name. -/
def transmits (call : SendCall) : Option (List UInt8) :=
  match (srGetInterface call.iface sr.ifList : Exec RouterAssert _) with
  | .ok (some i) => if i.addr = macAt call.frame 6 then some (sentOn call.iface call.frame) else
    none
  | _ => none

/-- The table of addresses: the target of a reply enters it, and a round frees what is too old. -/
def tables (entries : List ArpEntry) : RouterOp → List ArpEntry
  | .frame packet _ _ now =>
    match sr.arpTarget 2 packet with
    | some out => insertEntry entries (macAt packet 32) out.ip now
    | none => entries
  | .round curtime _ => expireEntries entries curtime

/-- The router behind some operations. -/
def after (ops : List RouterOp) : SrInstance :=
  { sr with
    cache := { sr.cache with entries := ops.foldl sr.tables sr.cache.entries }
    calls := sr.calls ++ ops.filterMap sr.answers
    wire := sr.wire ++ (ops.filterMap sr.answers).filterMap sr.transmits }

/-- Where the router goes on. A datagram must be one that `case 9` ignores; an ARP packet for the
router, or for no interface, must be one too, a request in the form of its answer. -/
inductive Survives : RouterOp → Prop
  | round (curtime now : Int) : Survives (.round curtime now)
  | ip {packet interface : List UInt8} {mem : HandleMem} {now : Int}
      (etherType : word16 packet 12 = 0x0800) (ignored : Ignored sr packet) :
      Survives (.frame packet interface mem now)
  | other {packet interface : List UInt8} {mem : HandleMem} {now : Int}
      (length : 22 ≤ packet.length) (etherType : word16 packet 12 = 0x0806)
      (request : word16 packet 20 ≠ 1) (reply : word16 packet 20 ≠ 2) :
      Survives (.frame packet interface mem now)
  | passed {packet interface : List UInt8} {mem : HandleMem} {now : Int}
      (length : 42 ≤ packet.length) (etherType : word16 packet 12 = 0x0806)
      (op : word16 packet 20 = 1 ∨ word16 packet 20 = 2) (target : sr.arpTarget 1 packet = none)
      (ignored : Ignored sr packet) : Survives (.frame packet interface mem now)
  | answered {packet interface : List UInt8} {mem : HandleMem} {now : Int} {out : SrIf}
      (length : 42 ≤ packet.length) (target : sr.arpTarget 1 packet = some out)
      (memory : mem.reply ≠ none) (ignored : Ignored sr (answer packet out ++ packet.drop 42)) :
      Survives (.frame packet interface mem now)

end SrInstance

variable {sr sr' : SrInstance} {interface : List UInt8} {mem : HandleMem} {now : Int}

/-- A frame without an Ethernet header is read past its end. -/
theorem handlepacket_short (h : packet.length < 14) :
    handlepacket sr (some packet) (some interface) mem now = .error .outOfBounds := by
  have hload : (load16 packet 12 : Exec RouterAssert UInt16) = .error .outOfBounds :=
    if_neg (by omega)
  simp only [handlepacket, packetType, hload, Exec.error_bind]

/-- A frame taken for ARP goes to `case 1`, and from there to `case 9`. -/
theorem handlepacket_of_arp (hlength : 14 ≤ packet.length) (hether : word16 packet 12 = 0x0806) :
    handlepacket sr (some packet) (some interface) mem now = (do
      let (sr, packet) ← arpCase sr packet mem now
      match packet with
      | none => pure sr
      | some packet => ipCase .declared sr packet mem now) := by
  simp only [handlepacket, packetType_eq hlength, if_pos hether, Exec.ok_bind]
  rfl

/-- `case 1` reads the operation, and for a request or a reply the address it is about. -/
theorem arpCase_length {out : SrInstance × Option (List UInt8)}
    (h : arpCase sr packet mem now = .ok out) :
    22 ≤ packet.length ∧ (word16 packet 20 = 1 ∨ word16 packet 20 = 2 → 42 ≤ packet.length) := by
  obtain ⟨op, hop, h⟩ := Exec.bind_eq_ok.1 h
  obtain ⟨hlength, rfl⟩ := loadField_eq_ok hop
  refine ⟨hlength, fun hknown => ?_⟩
  by_cases hrequest : word16 packet 20 = 1
  · rw [if_pos hrequest] at h
    obtain ⟨tip, htip, -⟩ := Exec.bind_eq_ok.1 h
    exact (loadField_eq_ok htip).1
  · rw [if_neg hrequest, if_pos (hknown.resolve_left hrequest)] at h
    obtain ⟨tip, htip, -⟩ := Exec.bind_eq_ok.1 h
    exact (loadField_eq_ok htip).1

/-- An ARP packet of another operation is dropped. -/
theorem arpCase_other (hlength : 22 ≤ packet.length) (hrequest : word16 packet 20 ≠ 1)
    (hreply : word16 packet 20 ≠ 2) : arpCase sr packet mem now = .ok (sr, none) := by
  have hop : (load16 packet 20 : Exec RouterAssert UInt16) = .ok (word16 packet 20) :=
    loadField_of_le hlength
  simp only [arpCase, hop, Exec.ok_bind, if_neg hrequest, if_neg hreply, Exec.pure_eq_ok]

/-- A reply for an address that no interface has changes nothing. -/
theorem arpCase_reply_none (hlength : 42 ≤ packet.length) (hop : word16 packet 20 = 2)
    (htarget : getInterfaceFromIp sr (word32 packet 38) = none) :
    arpCase sr packet mem now = .ok (sr, some packet) := by
  simp only [arpCase, load_op hlength, hop, Exec.ok_bind, load_tip hlength, htarget]
  rfl

/-- Without requests in the queue a reply only enters the table. -/
theorem arpCase_reply_empty (hempty : sr.cache.requests = none) (hlength : 42 ≤ packet.length)
    (hop : word16 packet 20 = 2) {out : SrIf}
    (htarget : getInterfaceFromIp sr (word32 packet 38) = some out) :
    arpCase sr packet mem now = .ok ({ sr with cache := { sr.cache with
      entries := insertEntry sr.cache.entries (macAt packet 32) out.ip now } }, some packet) := by
  have htha : (loadMac packet 32 : Exec RouterAssert EtherAddr) = .ok (macAt packet 32) :=
    loadField_of_le (by omega)
  simp only [arpCase, load_op hlength, hop, Exec.ok_bind, load_tip hlength, htarget, arpReply, htha,
    arpcacheInsert_of_empty hempty]
  rfl

/-- The answer to a request, and whether it goes out. -/
theorem arpCase_answer (hlength : 42 ≤ packet.length) (hop : word16 packet 20 = 1) {out : SrIf}
    (htarget : getInterfaceFromIp sr (word32 packet 38) = some out) {block : List UInt8}
    (hreply : mem.reply = some block) (hblock : block.length = 42) :
    arpCase sr packet mem now = .ok
      ({ sr with
          calls := sr.calls ++ [⟨answer packet out, out.name⟩]
          wire := sr.wire ++ (sr.transmits ⟨answer packet out, out.name⟩).toList },
        some (answer packet out ++ packet.drop 42)) := by
  obtain ⟨found, hfound⟩ := @srGetInterface_of_le RouterAssert _ out.name_length.ge sr.ifList
  have hlen : (answer packet out).length = 42 := rfl
  have hsend := sendPacket_eq sr (show ethernetHdrSize ≤ 42 by decide) hlen.ge
      out.name_length hfound
  rw [List.take_of_length_le hlen.le] at hsend
  simp only [arpCase, load_op hlength, hop, Exec.ok_bind, load_tip hlength, htarget, if_true,
    arpRequest_answer hlength hreply hblock, hsend, SrInstance.transmits, hfound, Exec.pure_eq_ok]
  cases found with
  | none => simp
  | some i =>
    by_cases hmac : i.addr = macAt (answer packet out) 6
    · simp [hmac]
    · simp [hmac]

/-- Only the interfaces decide whether a packet is ignored. -/
theorem Ignored.congr {sr₁ : SrInstance} (h : sr₁.ifList = sr.ifList) :
    Ignored sr₁ packet ↔ Ignored sr packet := by
  simp only [Ignored, getInterfaceFromIp, h]

theorem arpTarget_of_arp (hether : word16 packet 12 = 0x0806) {op : UInt16}
    (hop : word16 packet 20 = op) :
    sr.arpTarget op packet = getInterfaceFromIp sr (word32 packet 38) := if_pos ⟨hether, hop⟩

/-- A packet with a target is an ARP packet of the operation for that interface. -/
theorem arpTarget_eq_some {op : UInt16} {out : SrIf} (h : sr.arpTarget op packet = some out) :
    (word16 packet 12 = 0x0806 ∧ word16 packet 20 = op) ∧
      getInterfaceFromIp sr (word32 packet 38) = some out := by
  unfold SrInstance.arpTarget at h
  split at h
  · next hop => exact ⟨hop, h⟩
  · cases h

theorem arpTarget_of_ne {op : UInt16} (h : ¬(word16 packet 12 = 0x0806 ∧ word16 packet 20 = op)) :
    sr.arpTarget op packet = none := if_neg h

/-- A frame that is neither answered nor entered changes nothing. -/
theorem after_quiet (hanswer : sr.arpTarget 1 packet = none)
    (henter : sr.arpTarget 2 packet = none) :
    sr.after [.frame packet interface mem now] = sr := by
  simp [SrInstance.after, SrInstance.answers, SrInstance.tables, hanswer, henter]

section Frame

variable (hempty : sr.cache.requests = none)
  (hmem : ∀ block, mem.reply = some block → block.length = 42)
include hempty hmem

/-- A frame that the router survives has its effect. -/
theorem SrInstance.Survives.handlepacket_eq (h : sr.Survives (.frame packet interface mem now)) :
    handlepacket sr (some packet) (some interface) mem now =
      .ok (sr.after [.frame packet interface mem now]) := by
  cases h with
  | ip etherType ignored =>
    have hne : ¬word16 packet 12 = 0x0806 := by
      rw [etherType]
      decide
    rw [handlepacket_of_ip (Nat.le_trans (by decide) ignored.1) etherType, ipCase_eq_ok,
      after_quiet (arpTarget_of_ne fun h => hne h.1) (arpTarget_of_ne fun h => hne h.1)]
    exact ⟨rfl, ignored⟩
  | other length etherType request reply =>
    rw [handlepacket_of_arp (Nat.le_trans (by decide) length) etherType,
      arpCase_other length request reply,
      after_quiet (arpTarget_of_ne fun h => request h.2) (arpTarget_of_ne fun h => reply h.2)]
    rfl
  | passed length etherType op target ignored =>
    rw [handlepacket_of_arp (Nat.le_trans (by decide) length) etherType]
    rcases op with hrequest | hreply
    · have hnone := (arpTarget_of_arp etherType hrequest).symm.trans target
      have hne : ¬word16 packet 20 = 2 := by
        rw [hrequest]
        decide
      rw [arpCase_request_none length hrequest hnone,
        after_quiet target (arpTarget_of_ne fun h => hne h.2)]
      exact (ipCase_eq_ok mem now).2 ⟨rfl, ignored⟩
    · cases htarget : getInterfaceFromIp sr (word32 packet 38) with
      | none =>
        rw [arpCase_reply_none length hreply htarget,
          after_quiet target ((arpTarget_of_arp etherType hreply).trans htarget)]
        exact (ipCase_eq_ok mem now).2 ⟨rfl, ignored⟩
      | some out =>
        have henter := (arpTarget_of_arp etherType hreply).trans htarget
        have hafter : sr.after [.frame packet interface mem now] =
            { sr with cache := { sr.cache with
            entries := insertEntry sr.cache.entries (macAt packet 32) out.ip now } } := by
          simp [SrInstance.after, SrInstance.answers, SrInstance.tables, target, henter]
        rw [arpCase_reply_empty hempty length hreply htarget, hafter]
        exact (ipCase_eq_ok mem now).2 ⟨rfl, (Ignored.congr rfl).2 ignored⟩
  | @answered _ _ _ _ out length target memory ignored =>
    obtain ⟨block, hreply⟩ := Option.ne_none_iff_exists'.1 memory
    obtain ⟨⟨etherType, op⟩, htarget⟩ := arpTarget_eq_some target
    have hne : ¬word16 packet 20 = 2 := by
      rw [op]
      decide
    have henter : sr.arpTarget 2 packet = none := arpTarget_of_ne fun h => hne h.2
    have hafter : sr.after [.frame packet interface mem now] = { sr with
        calls := sr.calls ++ [⟨answer packet out, out.name⟩]
        wire := sr.wire ++ (sr.transmits ⟨answer packet out, out.name⟩).toList } := by
      simp only [SrInstance.after, List.foldl_cons, List.foldl_nil, SrInstance.tables, henter,
        List.filterMap_cons, List.filterMap_nil, SrInstance.answers, target, Option.map_some]
      cases sr.transmits ⟨answer packet out, out.name⟩ with
      | none => rfl
      | some message => rfl
    rw [handlepacket_of_arp (Nat.le_trans (by decide) length) etherType,
      arpCase_answer length op htarget hreply (hmem block hreply), hafter, Exec.ok_bind]
    exact (ipCase_eq_ok mem now).2 ⟨rfl, (Ignored.congr rfl).2 ignored⟩

/-- The router survives every frame for which the call returns. -/
theorem survives_of_ok
    (h : handlepacket sr (some packet) (some interface) mem now = .ok sr') :
    sr.Survives (.frame packet interface mem now) := by
  by_cases hlength : 14 ≤ packet.length
  swap
  · rw [handlepacket_short (Nat.lt_of_not_le hlength)] at h
    cases h
  by_cases harp : word16 packet 12 = 0x0806
  swap
  · by_cases hip : word16 packet 12 = 0x0800
    · rw [handlepacket_of_ip hlength hip, ipCase_eq_ok] at h
      exact .ip hip h.2
    · rw [handlepacket_of_neither hlength harp hip] at h
      cases h
  rw [handlepacket_of_arp hlength harp] at h
  obtain ⟨⟨sr₁, rest⟩, hcase, hrest⟩ := Exec.bind_eq_ok.1 h
  obtain ⟨h22, h42⟩ := arpCase_length hcase
  by_cases hrequest : word16 packet 20 = 1
  · have hlong := h42 (.inl hrequest)
    have harpTarget := @arpTarget_of_arp packet sr harp _ hrequest
    cases htarget : getInterfaceFromIp sr (word32 packet 38) with
    | none =>
      cases hcase.symm.trans (arpCase_request_none hlong hrequest htarget now)
      exact .passed hlong harp (.inl hrequest) (harpTarget.trans htarget)
        ((ipCase_eq_ok mem now).1 hrest).2
    | some out =>
      cases hreply : mem.reply with
      | none => cases hcase.symm.trans (arpCase_request_null hlong hrequest htarget hreply now)
      | some block =>
        cases hcase.symm.trans (arpCase_answer hlong hrequest htarget hreply (hmem block hreply))
        refine .answered hlong (harpTarget.trans htarget) (hreply ▸ Option.some_ne_none block) ?_
        exact (Ignored.congr rfl).1 ((ipCase_eq_ok mem now).1 hrest).2
  · have hnone : sr.arpTarget 1 packet = none := arpTarget_of_ne fun h => hrequest h.2
    by_cases hreply : word16 packet 20 = 2
    · have hlong := h42 (.inr hreply)
      refine .passed hlong harp (.inr hreply) hnone ?_
      cases htarget : getInterfaceFromIp sr (word32 packet 38) with
      | none =>
        cases hcase.symm.trans (arpCase_reply_none hlong hreply htarget)
        exact ((ipCase_eq_ok mem now).1 hrest).2
      | some out =>
        cases hcase.symm.trans (arpCase_reply_empty hempty hlong hreply htarget)
        exact (Ignored.congr rfl).1 ((ipCase_eq_ok mem now).1 hrest).2
    · exact .other h22 harp hrequest hreply

end Frame

/-- What the router survives is a matter of its interfaces. -/
theorem SrInstance.Survives.congr {sr₁ : SrInstance} (hif : sr₁.ifList = sr.ifList) {op : RouterOp}
    (h : sr.Survives op) : sr₁.Survives op := by
  have htarget : ∀ op packet, sr₁.arpTarget op packet = sr.arpTarget op packet := by
    intro op packet
    rw [SrInstance.arpTarget, SrInstance.arpTarget, getInterfaceFromIp, getInterfaceFromIp, hif]
  cases h with
  | round curtime now => exact .round curtime now
  | ip etherType ignored => exact .ip etherType ((Ignored.congr hif).2 ignored)
  | other length etherType request reply => exact .other length etherType request reply
  | passed length etherType op target ignored =>
    exact .passed length etherType op ((htarget 1 _).trans target) ((Ignored.congr hif).2 ignored)
  | answered length target memory ignored =>
    exact .answered length ((htarget 1 _).trans target) memory ((Ignored.congr hif).2 ignored)

/-- One operation of the router. -/
theorem routerMachine_step (hempty : sr.cache.requests = none) {op : RouterOp}
    (hop : op.Allocates) :
    routerMachine.step sr op = .ok sr' ↔ sr' = sr.after [op] ∧ sr.Survives op := by
  cases op with
  | frame packet interface mem now =>
    constructor
    · intro h
      have hsurvives : sr.Survives (.frame packet interface mem now) := survives_of_ok hempty hop h
      exact ⟨Except.ok.inj (h.symm.trans (hsurvives.handlepacket_eq hempty hop)), hsurvives⟩
    · rintro ⟨rfl, hsurvives⟩
      exact hsurvives.handlepacket_eq hempty hop
  | round curtime now =>
    have hround : routerMachine.step sr (.round curtime now) = .ok
        (sr.after [.round curtime now]) := by
      simp [routerMachine, arpcacheTimeoutRound_of_empty hempty, SrInstance.after,
        SrInstance.tables,
        SrInstance.answers]
    rw [hround, Except.ok.injEq, eq_comm]
    exact (and_iff_left (SrInstance.Survives.round curtime now)).symm

/-- The operations act on their own, in the same way at every time. -/
theorem after_cons (op : RouterOp) (ops : List RouterOp) :
    sr.after (op :: ops) = (sr.after [op]).after ops := by
  have hanswers : (op :: ops).filterMap sr.answers =
      [op].filterMap sr.answers ++ ops.filterMap sr.answers :=
    List.filterMap_append (l := [op])
  simp only [SrInstance.after, hanswers, List.filterMap_append, List.append_assoc]
  rfl

theorem after_nil : sr.after [] = sr := by
  simp [SrInstance.after]

/-- A run returns exactly where each of its operations is survived, and leaves what these do on
their own. -/
theorem routerMachine_run {ops : List RouterOp} (hempty : sr.cache.requests = none)
    (hops : ∀ op ∈ ops, op.Allocates) :
    routerMachine.run sr ops = .ok sr' ↔ sr' = sr.after ops ∧ ∀ op ∈ ops, sr.Survives op := by
  induction ops generalizing sr with
  | nil =>
    rw [Machine.run, Except.ok.injEq, after_nil, eq_comm]
    exact (and_iff_left (List.forall_mem_nil _)).symm
  | cons first ops ih =>
    obtain ⟨hfirst, hops⟩ := List.forall_mem_cons.1 hops
    have hif : (sr.after [first]).ifList = sr.ifList := rfl
    have hrest : ∀ op, (sr.after [first]).Survives op ↔ sr.Survives op :=
      fun op => ⟨.congr hif.symm, .congr hif⟩
    have hrun := @ih (sr.after [first]) hempty hops
    simp only [hrest, ← after_cons] at hrun
    rw [Machine.run, Exec.bind_eq_ok, List.forall_mem_cons]
    constructor
    · rintro ⟨sr₁, hstep, htail⟩
      obtain ⟨rfl, hsurvives⟩ := (routerMachine_step hempty hfirst).1 hstep
      obtain ⟨hafter, hall⟩ := hrun.1 htail
      exact ⟨hafter, hsurvives, hall⟩
    · rintro ⟨hafter, hsurvives, hall⟩
      exact ⟨sr.after [first], (routerMachine_step hempty hfirst).2 ⟨rfl, hsurvives⟩,
        hrun.2 ⟨hafter, hall⟩⟩

/-- An answer is itself taken for a datagram, whose protocol is the second byte of the hardware
address: with another value than that of ICMP there the router survives no request it answers. -/
theorem SrInstance.Survives.answers_eq {op : RouterOp} (h : sr.Survives op)
    (hprotocol : ∀ out ∈ sr.ifList, out.addr.b1 ≠ 1) : sr.answers op = none := by
  cases h with
  | round => rfl
  | @ip packet _ _ _ etherType ignored =>
    have hne : ¬word16 packet 12 = 0x0806 := by
      rw [etherType]
      decide
    rw [SrInstance.answers, arpTarget_of_ne fun h => hne h.1, Option.map_none]
  | other length etherType request reply =>
    rw [SrInstance.answers, arpTarget_of_ne fun h => request h.2, Option.map_none]
  | passed length etherType op target ignored => rw [SrInstance.answers, target, Option.map_none]
  | @answered packet _ _ _ out length target memory ignored =>
    have hout := (getInterfaceFromIp_eq_some (arpTarget_eq_some target).2).1
    have hbyte : byteAt (answer packet out ++ packet.drop 42) 23 = out.addr.b1 := rfl
    obtain ⟨-, -, -, hicmp, -⟩ := ignored
    exact absurd (hbyte.symm.trans hicmp) (hprotocol out hout)

/-- In every run of frames and rounds, in any order, the router goes on exactly where it survives
each operation, and is left as these leave it on their own: what it sends are its answers to
requests, in their order, and no datagram. Where no interface has the number of ICMP for the second
byte of its hardware address, it sends nothing in any run it survives. -/
theorem router_run {ops : List RouterOp} (hempty : sr.cache.requests = none)
    (hops : ∀ op ∈ ops, op.Allocates) :
    (∀ sr', routerMachine.run sr ops = .ok sr' ↔
      sr' = sr.after ops ∧ ∀ op ∈ ops, sr.Survives op) ∧
    ((∀ out ∈ sr.ifList, out.addr.b1 ≠ 1) → ∀ sr', routerMachine.run sr ops = .ok sr' →
      sr'.wire = sr.wire ∧ sr'.calls = sr.calls) := by
  refine ⟨fun sr' => routerMachine_run hempty hops, fun hprotocol sr' hrun => ?_⟩
  obtain ⟨rfl, hall⟩ := (routerMachine_run hempty hops).1 hrun
  have hnone : ops.filterMap sr.answers = [] := by
    apply List.filterMap_eq_nil_iff.2
    exact fun op hop => (hall op hop).answers_eq hprotocol
  simp [SrInstance.after, hnone]

theorem ethName_length (digit : UInt8) : (ethName digit).length = ifaceNamelen := rfl

/-- An interface with the address 10.0.192.168. -/
def lastingEth0 : SrIf := ⟨ethName 0, ⟨2, 1, 0xf1, 0xf8, 0, 1⟩, 0xa8c0000a, ethName_length 0⟩

/-- A router with this interface and 192.168.2.1, whose answers on `eth0` are taken for datagrams
that it ignores. -/
def lastingRouter : SrInstance where
  ifList := [lastingEth0, ⟨ethName 1, ⟨2, 0, 0, 0, 0, 8⟩, 0x0102a8c0, ethName_length 1⟩]
  routingTable := []
  cache := arpcacheInit (fun _ => none) fun _ => none
  calls := []
  wire := []

/-- A request for the address of `eth0`. -/
def lastingRequest : List UInt8 := sampleRequest.take 38 ++ [10, 0, 192, 168]

/-- The request, a round, and the request once more. -/
def lastingOps : List RouterOp :=
  [.frame lastingRequest (ethName 0) replyBlock 0, .round 1 1,
    .frame lastingRequest (ethName 0) replyBlock 2]

theorem lastingRouter_survives (interface : List UInt8) (now : Int) :
    lastingRouter.Survives (.frame lastingRequest interface replyBlock now) := by
  apply @SrInstance.Survives.answered lastingRouter _ _ _ _ lastingEth0
  all_goals decide +kernel

theorem router_run_lasting :
    routerMachine.run lastingRouter lastingOps = .ok (lastingRouter.after lastingOps) := by
  apply ((router_run rfl ?_).1 _).2
  · refine ⟨rfl, ?_⟩
    simp only [lastingOps, List.forall_mem_cons]
    exact ⟨lastingRouter_survives _ 0, .round 1 1, lastingRouter_survives _ 2,
      List.forall_mem_nil _⟩
  · simp only [lastingOps, List.forall_mem_cons]
    exact ⟨replyBlock_length, trivial, replyBlock_length, List.forall_mem_nil _⟩

end ComputerNetworks.Router
