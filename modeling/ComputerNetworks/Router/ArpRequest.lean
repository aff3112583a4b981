import ComputerNetworks.Router.ArpReply

/-!
# The path of an ARP request

The reply to a request is composed over the request itself. The source address
of the frame and the sender's IP address are overwritten before they are read, so
the reply names the interface where it is to name the requester.
-/

namespace ComputerNetworks.Router

variable {sr : SrInstance} {packet : List UInt8} {mem : HandleMem}

/-- A copy replaces the bytes of its range and no others. -/
theorem memcpyAt_bytes {b src : List UInt8} {off : Nat} (h : off + src.length ≤ b.length) :
    ∃ b', (memcpyAt b off src : Exec RouterAssert (List UInt8)) = .ok b' ∧ b'.length = b.length ∧
      ∀ i, byteAt b' i =
        if off ≤ i ∧ i < off + src.length then byteAt src (i - off) else byteAt b i := by
  obtain ⟨b', hcopy, hlength, hbytes⟩ := @memcpyAt_spec RouterAssert _ _ _ h
  refine ⟨b', hcopy, hlength, fun i => ?_⟩
  rw [byteAt, hbytes i]
  split
  · rfl
  · rfl

/-- A copy from one block to another. -/
theorem copy_bytes {dst src : List UInt8} {off from' n : Nat} (hsrc : from' + n ≤ src.length)
    (hdst : off + n ≤ dst.length) :
    ∃ bytes dst', (readAt src from' n : Exec RouterAssert (List UInt8)) = .ok bytes ∧
      (memcpyAt dst off bytes : Exec RouterAssert (List UInt8)) = .ok dst' ∧
      dst'.length = dst.length ∧
      ∀ i, byteAt dst' i =
        if off ≤ i ∧ i < off + n then byteAt src (from' + (i - off)) else byteAt dst i := by
  have hlen : ((src.drop from').take n).length = n := by
    rw [List.length_take, List.length_drop]
    omega
  obtain ⟨dst', hcopy, hlength, hbytes⟩ := @memcpyAt_bytes dst ((src.drop from').take n) off
    (by omega)
  refine ⟨_, dst', readAt_of_le hsrc, hcopy, hlength, fun i => ?_⟩
  rw [hbytes i, hlen]
  split
  · rename_i hi
    rw [byteAt, byteAt, List.getElem?_take_of_lt (by omega), List.getElem?_drop]
  · rfl

theorem EtherAddr.bytes_length (mac : EtherAddr) : mac.bytes.length = 6 := rfl

/-- A stored byte changes its own place only. -/
theorem store8_bytes {b : List UInt8} {off : Nat} {v : UInt8} (h : off + 1 ≤ b.length) :
    ∃ b', (store8 b off v : Exec RouterAssert (List UInt8)) = .ok b' ∧ b'.length = b.length ∧
      ∀ i, byteAt b' i = if off ≤ i ∧ i < off + 1 then byteAt [v] (i - off) else byteAt b i :=
  memcpyAt_bytes h

/-- A stored halfword changes its own two bytes only. -/
theorem store16_bytes {b : List UInt8} {off : Nat} {v : UInt16} (h : off + 2 ≤ b.length) :
    ∃ b', (store16 b off v : Exec RouterAssert (List UInt8)) = .ok b' ∧ b'.length = b.length ∧
      ∀ i, byteAt b' i =
        if off ≤ i ∧ i < off + 2 then byteAt [v.toUInt8, (v >>> 8).toUInt8] (i - off)
        else byteAt b i :=
  memcpyAt_bytes h

/-- A stored word changes its own four bytes only. -/
theorem store32_bytes {b : List UInt8} {off : Nat} {v : UInt32} (h : off + 4 ≤ b.length) :
    ∃ b', (store32 b off v : Exec RouterAssert (List UInt8)) = .ok b' ∧ b'.length = b.length ∧
      ∀ i, byteAt b' i = if off ≤ i ∧ i < off + 4 then
          byteAt [v.toUInt8, (v >>> 8).toUInt8, (v >>> 16).toUInt8, (v >>> 24).toUInt8] (i - off)
        else byteAt b i :=
  memcpyAt_bytes h

/-- A block that starts with the header of a frame from an interface. -/
structure EthernetHeader (frame : List UInt8) (out : SrIf) (dhost : EtherAddr) : Prop where
  dhost : macAt frame 0 = dhost
  shost : macAt frame 6 = out.addr
  etherType : word16 frame 12 = htons 0x0806

/-- Behind the Ethernet header stands the ARP header of a reply. -/
structure ArpHeader (frame : List UInt8) (out : SrIf) (tha : EtherAddr) (tip : UInt32) : Prop where
  hrd : word16 frame 14 = htons 1
  pro : word16 frame 16 = htons 0x0800
  op : word16 frame 20 = htons 2
  sha : macAt frame 22 = out.addr
  sip : word32 frame 28 = out.ip
  tha : macAt frame 32 = tha
  tip : word32 frame 38 = tip

/-- Only the first 14 bytes decide the Ethernet header. -/
theorem EthernetHeader.congr {frame frame' : List UInt8} {out : SrIf} {dhost : EtherAddr}
    (h : EthernetHeader frame' out dhost) (hsame : SameBytes frame frame' 0 14) :
    EthernetHeader frame out dhost where
  dhost := (hsame.macAt (by decide) (by decide)).trans h.dhost
  shost := (hsame.macAt (by decide) (by decide)).trans h.shost
  etherType := (hsame.word16 (by decide) (by decide)).trans h.etherType

/-- Only the bytes of the ARP header decide it. -/
theorem ArpHeader.congr {frame frame' : List UInt8} {out : SrIf} {tha : EtherAddr} {tip : UInt32}
    (h : ArpHeader frame' out tha tip) (hsame : SameBytes frame frame' 14 42) :
    ArpHeader frame out tha tip where
  hrd := (hsame.word16 (by decide) (by decide)).trans h.hrd
  pro := (hsame.word16 (by decide) (by decide)).trans h.pro
  op := (hsame.word16 (by decide) (by decide)).trans h.op
  sha := (hsame.macAt (by decide) (by decide)).trans h.sha
  sip := (hsame.word32 (by decide) (by decide)).trans h.sip
  tha := (hsame.macAt (by decide) (by decide)).trans h.tha
  tip := (hsame.word32 (by decide) (by decide)).trans h.tip

/-- The Ethernet header of a reply, written over that of the request. -/
def composeEthernet (packet : List UInt8) (target : SrIf) : Exec RouterAssert (List UInt8) := do
  let packet ← memcpyAt packet 0 (← readAt packet 6 6)
  let packet ← memcpyAt packet 6 target.addr.bytes
  store16 packet 12 (htons 0x0806)

/-- The ARP header of a reply, written over that of the request. -/
def composeArp (packet : List UInt8) (target : SrIf) : Exec RouterAssert (List UInt8) := do
  let packet ← store16 packet 14 (htons 1)
  let packet ← store16 packet 16 (htons 0x0800)
  let packet ← store8 packet 18 (← load8 packet 18)
  let packet ← store8 packet 19 (← load8 packet 19)
  let packet ← store16 packet 20 (htons 2)
  let packet ← memcpyAt packet 22 target.addr.bytes
  let packet ← store32 packet 28 target.ip
  let packet ← memcpyAt packet 32 (← readAt packet 6 6)
  store32 packet 38 (← load32 packet 28)

/-- The composed header goes from the interface to the sender of the packet. -/
theorem composeEthernet_spec (hlength : 42 ≤ packet.length) (target : SrIf) :
    ∃ packet', composeEthernet packet target = .ok packet' ∧ packet'.length = packet.length ∧
      EthernetHeader packet' target (macAt packet 6) := by
  obtain ⟨_, p₁, hr₁, hc₁, hl₁, hb₁⟩ := @copy_bytes packet packet 0 6 6 (by omega) (by omega)
  obtain ⟨p₂, hc₂, hl₂, hb₂⟩ := @memcpyAt_bytes p₁ target.addr.bytes 6
    (by rw [EtherAddr.bytes_length]; omega)
  obtain ⟨p₃, hc₃, hl₃, hb₃⟩ := @store16_bytes p₂ 12 (htons 0x0806) (by omega)
  refine ⟨p₃, ?_, by omega, ?_, ?_, ?_⟩
  · simp only [composeEthernet, hr₁, hc₁, hc₂, hc₃, Exec.ok_bind]
  · simp [macAt, hb₃, hb₂, hb₁]
  · simp [macAt, hb₃, hb₂, EtherAddr.bytes]
  · apply word16_eq_of_bytes
    all_goals simp [hb₃]

/-- When the target's addresses are filled in, those of the requester are overwritten. -/
theorem composeArp_spec (hlength : 42 ≤ packet.length) {target : SrIf} {dhost : EtherAddr}
    (hether : EthernetHeader packet target dhost) :
    ∃ packet', composeArp packet target = .ok packet' ∧ packet'.length = packet.length ∧
      ArpHeader packet' target target.addr target.ip := by
  obtain ⟨p₁, hc₁, hl₁, hb₁⟩ := @store16_bytes packet 14 (htons 1) (by omega)
  obtain ⟨p₂, hc₂, hl₂, hb₂⟩ := @store16_bytes p₁ 16 (htons 0x0800) (by omega)
  obtain ⟨p₃, hc₃, hl₃, hb₃⟩ := @store8_bytes p₂ 18 (byteAt p₂ 18) (by omega)
  obtain ⟨p₄, hc₄, hl₄, hb₄⟩ := @store8_bytes p₃ 19 (byteAt p₃ 19) (by omega)
  obtain ⟨p₅, hc₅, hl₅, hb₅⟩ := @store16_bytes p₄ 20 (htons 2) (by omega)
  obtain ⟨p₆, hc₆, hl₆, hb₆⟩ := @memcpyAt_bytes p₅ target.addr.bytes 22
    (by rw [EtherAddr.bytes_length]; omega)
  obtain ⟨p₇, hc₇, hl₇, hb₇⟩ := @store32_bytes p₆ 28 target.ip (by omega)
  obtain ⟨_, p₈, hr₈, hc₈, hl₈, hb₈⟩ := @copy_bytes p₇ p₇ 32 6 6 (by omega) (by omega)
  obtain ⟨p₉, hc₉, hl₉, hb₉⟩ := @store32_bytes p₈ 38 (word32 p₈ 28) (by omega)
  have hload₁₈ : (load8 p₂ 18 : Exec RouterAssert UInt8) = .ok (byteAt p₂ 18) :=
    loadField_of_le (by omega)
  have hload₁₉ : (load8 p₃ 19 : Exec RouterAssert UInt8) = .ok (byteAt p₃ 19) :=
    loadField_of_le (by omega)
  have hload₂₈ : (load32 p₈ 28 : Exec RouterAssert UInt32) = .ok (word32 p₈ 28) :=
    loadField_of_le (by omega)
  -- the source of the frame is now that of the reply
  have hshost : macAt p₇ 6 = target.addr := by
    rw [← hether.shost]
    simp [macAt, hb₇, hb₆, hb₅, hb₄, hb₃, hb₂, hb₁]
  have hsip : word32 p₈ 28 = target.ip := by
    apply word32_eq_of_bytes
    all_goals simp [hb₈, hb₇]
  refine ⟨p₉, ?_, by omega, ?_, ?_, ?_, ?_, ?_, ?_, ?_⟩
  · simp only [composeArp, hc₁, hc₂, hload₁₈, hc₃, hload₁₉, hc₄, hc₅, hc₆, hc₇, hr₈, hc₈, hload₂₈,
      hc₉, Exec.ok_bind]
  · apply word16_eq_of_bytes
    all_goals simp [hb₉, hb₈, hb₇, hb₆, hb₅, hb₄, hb₃, hb₂, hb₁]
  · apply word16_eq_of_bytes
    all_goals simp [hb₉, hb₈, hb₇, hb₆, hb₅, hb₄, hb₃, hb₂]
  · apply word16_eq_of_bytes
    all_goals simp [hb₉, hb₈, hb₇, hb₆, hb₅]
  · simp [macAt, hb₉, hb₈, hb₇, hb₆, EtherAddr.bytes]
  · rw [← hsip]
    have hsame : SameBytes p₉ p₈ 0 38 := by
      intro k _ hk
      rw [hb₉, if_neg (by omega)]
    exact hsame.word32 (by decide) (by decide)
  · rw [← hshost]
    simp [macAt, hb₉, hb₈]
  · apply word32_eq_of_bytes
    all_goals simp [hb₉, hsip]

/-- The branch of a request as one chain of its steps. -/
theorem arpRequest_eq (sr : SrInstance) (packet : List UInt8) (target : SrIf) (mem : HandleMem) :
    arpRequest sr packet target mem = (do
      let packet ← composeEthernet packet target
      let reply ← allocated mem.reply
      let reply ← memcpyAt reply 0 (← readAt packet 0 ethernetHdrSize)
      let packet ← composeArp packet target
      let reply ← memcpyAt reply ethernetHdrSize (← readAt packet 14 arpHdrSize)
      let (sr, _) ← sendPacket sr (some reply) (ethernetHdrSize + arpHdrSize) (some target.name)
      pure (sr, packet)) := by
  simp only [arpRequest, composeEthernet, composeArp, bind_assoc]

/-- The branch sends the reply it composed. -/
theorem arpRequest_spec (hlength : 42 ≤ packet.length) {block : List UInt8}
    (hreply : mem.reply = some block) (hblock : block.length = 42) (sr : SrInstance)
    (target : SrIf) :
    ∃ reply rest, reply.length = 42 ∧ EthernetHeader reply target (macAt packet 6) ∧
      ArpHeader reply target target.addr target.ip ∧
      arpRequest sr packet target mem = (do
        let (sr, _) ← sendPacket sr (some reply) 42 (some target.name)
        pure (sr, rest)) := by
  obtain ⟨p₁, hc₁, hl₁, hether⟩ := composeEthernet_spec hlength target
  obtain ⟨p₂, hc₂, hl₂, harp⟩ := composeArp_spec (hlength.trans hl₁.ge) hether
  obtain ⟨_, r₁, hr₃, hc₃, hl₃, hb₃⟩ := @copy_bytes block p₁ 0 0 14 (by omega) (by omega)
  obtain ⟨_, r₂, hr₄, hc₄, hl₄, hb₄⟩ := @copy_bytes r₁ p₂ 14 14 28 (by omega) (by omega)
  have hfront : SameBytes r₂ p₁ 0 14 := by
    intro k _ hk
    rw [hb₄, if_neg (by omega), hb₃, if_pos (by omega), Nat.sub_zero, Nat.zero_add]
  have hback : SameBytes r₂ p₂ 14 42 := by
    intro k hlow hhigh
    rw [hb₄, if_pos ⟨hlow, by omega⟩, Nat.add_sub_cancel' hlow]
  refine ⟨r₂, p₂, by omega, hether.congr hfront, harp.congr hback, ?_⟩
  simp only [arpRequest_eq, hc₁, hreply, allocated, ethernetHdrSize, arpHdrSize, hr₃, hc₃, hc₂,
      hr₄, hc₄, Exec.ok_bind]

/-- A reply of an interface to a request: 42 bytes, addressed to the sender of the request under the
addresses it has there. -/
structure RepliesTo (packet frame : List UInt8) (out : SrIf) : Prop where
  length : frame.length = 42
  ethernet : EthernetHeader frame out (macAt packet 6)
  arp : ArpHeader frame out (macAt packet 6) (word32 packet 28)

/-- What is asked of the request branch: nothing is sent for an address that no interface has, and
for another one the reply of an interface with the address. -/
def AnswersRequest (sr : SrInstance) (packet : List UInt8)
    (outcome : Exec RouterAssert (SrInstance × Option (List UInt8))) : Prop :=
  ∃ sr' rest, outcome = .ok (sr', rest) ∧
    ((∀ out ∈ sr.ifList, out.ip ≠ word32 packet 38) → sr'.wire = sr.wire) ∧
    ((∃ out ∈ sr.ifList, out.ip = word32 packet 38) →
      ∃ out ∈ sr.ifList, out.ip = word32 packet 38 ∧ ∃ frame,
        sr'.wire = sr.wire ++ [sentOn out.name frame] ∧ RepliesTo packet frame out)

/-- Where an interface has the target address, the requester has both addresses of that interface;
there is memory for the reply, and the first interface of that name has the hardware address too. -/
def FromInterface (sr : SrInstance) (packet : List UInt8) (mem : HandleMem) : Prop :=
  ∀ target, getInterfaceFromIp sr (word32 packet 38) = some target →
    mem.reply ≠ none ∧ macAt packet 6 = target.addr ∧ word32 packet 28 = target.ip ∧
      ∃ i, (srGetInterface target.name sr.ifList : Exec RouterAssert _) = .ok (some i) ∧
        i.addr = target.addr

/-- No interface is found exactly if none has the address. -/
theorem getInterfaceFromIp_eq_none {ip : UInt32} :
    getInterfaceFromIp sr ip = none ↔ ∀ out ∈ sr.ifList, out.ip ≠ ip := by
  rw [getInterfaceFromIp, List.find?_eq_none]
  simp only [beq_iff_eq, ne_eq]

/-- An interface that is found is one of the router's and has the address. -/
theorem getInterfaceFromIp_eq_some {ip : UInt32} {out : SrIf}
    (h : getInterfaceFromIp sr ip = some out) : out ∈ sr.ifList ∧ out.ip = ip := by
  constructor
  · exact List.mem_of_find?_eq_some h
  · have hip := List.find?_some h
    simpa using hip

/-- The frame of a message. -/
theorem drop_sentOn (name frame : List UInt8) : (sentOn name frame).drop 24 = frame := by
  have hname : ((name.takeWhile (· != 0) ++ List.replicate 16 0).take 16).length = 16 := by
    rw [List.length_take, List.length_append, List.length_replicate]
    omega
  rw [sentOn, vnsMessage, List.drop_left']
  simp only [List.length_append, hname]
  rfl

theorem load_op (hlength : 42 ≤ packet.length) :
    (load16 packet 20 : Exec RouterAssert UInt16) = .ok (word16 packet 20) :=
  loadField_of_le (by omega)

theorem load_tip (hlength : 42 ≤ packet.length) :
    (load32 packet 38 : Exec RouterAssert UInt32) = .ok (word32 packet 38) :=
  loadField_of_le hlength

/-- The state behind the branch for an interface with the target address. -/
theorem arpCase_request (hlength : 42 ≤ packet.length) (hop : word16 packet 20 = 1)
    {target : SrIf} (htarget : getInterfaceFromIp sr (word32 packet 38) = some target)
    {block : List UInt8} (hreply : mem.reply = some block) (hblock : block.length = 42)
    {found : Option SrIf}
    (hfound : (srGetInterface target.name sr.ifList : Exec RouterAssert _) = .ok found)
    (now : Int) :
    ∃ sr' rest reply, arpCase sr packet mem now = .ok (sr', rest) ∧ reply.length = 42 ∧
      EthernetHeader reply target (macAt packet 6) ∧
      ArpHeader reply target target.addr target.ip ∧
      sr'.wire = if found.map SrIf.addr = some target.addr then
        sr.wire ++ [sentOn target.name reply] else sr.wire := by
  obtain ⟨reply, rest, hlen, hether, harp, hrun⟩ := arpRequest_spec hlength hreply hblock sr target
  have htake : reply.take 42 = reply := List.take_of_length_le hlen.le
  have hsend :=
    sendPacket_eq sr (show ethernetHdrSize ≤ 42 by decide) hlen.ge target.name_length hfound
  rw [htake, hether.shost] at hsend
  have hcase : arpCase sr packet mem now =
      arpRequest sr packet target mem >>= fun out => pure (out.1, some out.2) := by
    simp only [arpCase, load_op hlength, hop, Exec.ok_bind, load_tip hlength, htarget, if_true]
  by_cases hmatch : found.map SrIf.addr = some target.addr
  · simp only [if_pos hmatch] at hsend ⊢
    exact ⟨_, some rest, reply, by rw [hcase, hrun, hsend]; rfl, hlen, hether, harp, rfl⟩
  · simp only [if_neg hmatch] at hsend ⊢
    exact ⟨{ sr with calls := sr.calls ++ [⟨reply, target.name⟩] }, some rest, reply,
      by rw [hcase, hrun, hsend]; rfl, hlen, hether, harp, rfl⟩

/-- A request for an address that no interface has changes nothing. -/
theorem arpCase_request_none (hlength : 42 ≤ packet.length) (hop : word16 packet 20 = 1)
    (htarget : getInterfaceFromIp sr (word32 packet 38) = none) (now : Int) :
    arpCase sr packet mem now = .ok (sr, some packet) := by
  simp only [arpCase, load_op hlength, hop, Exec.ok_bind, load_tip hlength, htarget, if_true]
  rfl

/-- Without memory for the reply the branch writes through a null pointer. -/
theorem arpCase_request_null (hlength : 42 ≤ packet.length) (hop : word16 packet 20 = 1)
    {target : SrIf} (htarget : getInterfaceFromIp sr (word32 packet 38) = some target)
    (hreply : mem.reply = none) (now : Int) :
    arpCase sr packet mem now = .error .nullPointer := by
  obtain ⟨p₁, hc₁, -, -⟩ := composeEthernet_spec hlength target
  simp only [arpCase, load_op hlength, hop, Exec.ok_bind, load_tip hlength, htarget, if_true,
    arpRequest_eq, hc₁, hreply, allocated, Exec.error_bind]

section Answers

variable (hlength : 42 ≤ packet.length) (hop : word16 packet 20 = 1)
  (hmem : ∀ block, mem.reply = some block → block.length = 42) {now : Int}
include hlength hop hmem

/-- A reply that names the requester names the interface. -/
theorem AnswersRequest.fromInterface (h : AnswersRequest sr packet (arpCase sr packet mem now)) :
    FromInterface sr packet mem := by
  intro target htarget
  obtain ⟨sr'', rest', hrun', -, hsent⟩ := h
  cases hreply : mem.reply with
  | none => cases (arpCase_request_null hlength hop htarget hreply now).symm.trans hrun'
  | some block =>
    obtain ⟨found, hfound⟩ := @srGetInterface_of_le RouterAssert _ target.name_length.ge sr.ifList
    obtain ⟨sr', rest, reply, hrun, -, -, harp, hwire⟩ :=
      arpCase_request hlength hop htarget hreply (hmem block hreply) hfound now
    cases hrun.symm.trans hrun'
    obtain ⟨out, -, -, frame, hwire', hreplies⟩ :=
      hsent ⟨target, getInterfaceFromIp_eq_some htarget⟩
    rw [hwire] at hwire'
    split at hwire'
    · rename_i hmatch
      have hmessage := List.head_eq_of_cons_eq (List.append_cancel_left hwire')
      have hframe : reply = frame := by rw [← drop_sentOn target.name reply, hmessage, drop_sentOn]
      subst hframe
      obtain ⟨i, rfl, haddr⟩ := Option.map_eq_some_iff.1 hmatch
      refine ⟨Option.some_ne_none block, ?_, ?_, i, hfound, haddr⟩
      · exact hreplies.arp.tha.symm.trans harp.tha
      · exact hreplies.arp.tip.symm.trans harp.tip
    · exact absurd hwire' (ne_append_singleton _ _)

/-- A request of the interface itself is answered. -/
theorem FromInterface.answersRequest (h : FromInterface sr packet mem) :
    AnswersRequest sr packet (arpCase sr packet mem now) := by
  cases htarget : getInterfaceFromIp sr (word32 packet 38) with
  | none =>
    refine ⟨sr, some packet, arpCase_request_none hlength hop htarget now, fun _ => rfl, ?_⟩
    rintro ⟨out, hout, hip⟩
    exact absurd hip (getInterfaceFromIp_eq_none.1 htarget out hout)
  | some target =>
    obtain ⟨hreply, hmac, hip, i, hfound, haddr⟩ := h target htarget
    obtain ⟨block, hreply⟩ := Option.ne_none_iff_exists'.1 hreply
    obtain ⟨hin, htip⟩ := getInterfaceFromIp_eq_some htarget
    obtain ⟨sr', rest, reply, hrun, hlen, hether, harp, hwire⟩ :=
      arpCase_request hlength hop htarget hreply (hmem block hreply) hfound now
    rw [Option.map_some, haddr, if_pos rfl] at hwire
    rw [← hmac, ← hip] at harp
    refine ⟨sr', rest, hrun, ?_, ?_⟩
    · exact fun hnone => absurd htip (hnone target hin)
    · exact fun _ => ⟨target, hin, htip, reply, hwire, hlen, hether, harp⟩

/-- A request is answered as asked exactly where no interface has the address it asks for, or where
it comes from that interface itself. -/
theorem answersRequest_iff :
    AnswersRequest sr packet (arpCase sr packet mem now) ↔ FromInterface sr packet mem := by
  constructor
  · exact AnswersRequest.fromInterface hlength hop hmem
  · exact FromInterface.answersRequest hlength hop hmem

end Answers

/-- A request of 10.0.0.2 for the address of the first interface. -/
def sampleRequest : List UInt8 :=
  [255, 255, 255, 255, 255, 255, 2, 0, 0, 0, 0, 2, 6, 8] ++ [1, 0, 0, 8, 6, 4, 1, 0] ++
    [2, 0, 0, 0, 0, 2, 10, 0, 0, 2] ++ [0, 0, 0, 0, 0, 0, 10, 0, 0, 1]

/-- The block for a reply. -/
def replyBlock : HandleMem := ⟨some (List.replicate 42 0), none, none⟩

theorem replyBlock_length (block : List UInt8) (h : replyBlock.reply = some block) :
    block.length = 42 := by
  cases h
  rfl

theorem answersRequest_iff_sample :
    AnswersRequest sampleRouter sampleRequest (arpCase sampleRouter sampleRequest replyBlock 0) ↔
      FromInterface sampleRouter sampleRequest replyBlock :=
  answersRequest_iff (by decide +kernel) (by decide +kernel) replyBlock_length

/-- The reply to the request of another host is addressed to it and names the interface. -/
theorem not_answersRequest :
    packetType sampleRequest = .ok 1 ∧ word16 sampleRequest 20 = 1 ∧
      getInterfaceFromIp sampleRouter (word32 sampleRequest 38) = some sampleEth0 ∧
      ¬AnswersRequest sampleRouter sampleRequest
        (arpCase sampleRouter sampleRequest replyBlock 0) := by
  have htarget : getInterfaceFromIp sampleRouter (word32 sampleRequest 38) = some sampleEth0 := by
    decide +kernel
  refine ⟨by decide +kernel, by decide +kernel, htarget, fun h => ?_⟩
  have hfrom := h.fromInterface (by decide +kernel) (by decide +kernel) replyBlock_length
  obtain ⟨-, hmac, -⟩ := hfrom sampleEth0 htarget
  exact absurd hmac (by decide +kernel)

end ComputerNetworks.Router
