import ComputerNetworks.Core.OnesComplement
import ComputerNetworks.Router.HandlePacket

/-!
# The path of an IP packet

Behind the checks of `case 9` every branch but one writes through a pointer that
was never assigned: the router sends nothing for an IP packet. What it is to send
is stated here, for packets to forward and for those that call for an ICMP
message, beside what the code does.
-/

namespace ComputerNetworks.Router

variable {sr sr' : SrInstance} {packet : List UInt8}

/-- No ICMP message is ever completed. -/
theorem sendIcmp_declared (copy : IcmpCopy) (sr : SrInstance) (packet : List UInt8)
    (mem : HandleMem) : sendIcmp copy .declared sr packet mem = .error .indeterminate := rfl

/-- No datagram is ever completed. -/
theorem rebuild_declared (packet : List UInt8) (curr : Option ArpEntry) (mem : HandleMem) :
    rebuild .declared packet curr mem = .error .indeterminate := rfl

/-- With its pointers as they are declared, forwarding never returns. -/
theorem forwardTo_ne_ok (route : SrRt) (mem : HandleMem) (now : Int) :
    forwardTo .declared sr packet route mem now ≠ .ok sr' := by
  intro h
  unfold forwardTo at h
  obtain ⟨dst, -, h⟩ := Exec.bind_eq_ok.1 h
  cases hlookup : arpcacheLookup sr.cache dst with
  | some curr =>
    simp only [hlookup, relay, rebuild_declared, Exec.error_bind] at h
    cases h
  | none =>
    rw [hlookup] at h
    obtain ⟨found, -, h⟩ := Exec.bind_eq_ok.1 h
    cases found with
    | none =>
      simp only [newPending, rebuild_declared, Exec.error_bind] at h
      cases h
    | some a =>
      obtain ⟨req, -, h⟩ := Exec.bind_eq_ok.1 h
      simp only [rebuild_declared, Exec.error_bind] at h
      cases h

/-- Nothing is forwarded. -/
theorem forward_ne_ok (mem : HandleMem) (now : Int) :
    forward .declared sr packet mem now ≠ .ok sr' := by
  intro h
  obtain ⟨ttl, -, h⟩ := Exec.bind_eq_ok.1 h
  obtain ⟨packet', -, h⟩ := Exec.bind_eq_ok.1 h
  split at h
  · rw [sendIcmp_declared] at h
    cases h
  · obtain ⟨dst, -, h⟩ := Exec.bind_eq_ok.1 h
    split at h
    · cases h
    · rw [sendIcmp_declared] at h
      cases h
    · exact forwardTo_ne_ok _ _ _ h

/-- The packet passes the check of its header, is addressed to an interface, has the protocol of
ICMP, and its first header byte is not 8. -/
def Ignored (sr : SrInstance) (packet : List UInt8) : Prop :=
  34 ≤ packet.length ∧
    (cksum packet 14 (word16 packet 16).toNat : Exec RouterAssert UInt16) = .ok (word16 packet 24) ∧
    (getInterfaceFromIp sr (word32 packet 30)).isSome = true ∧ byteAt packet 23 = 1 ∧
    byteAt packet 14 ≠ 8

instance Ignored.decidable (sr : SrInstance) (packet : List UInt8) :
    Decidable (Ignored sr packet) :=
  inferInstanceAs (Decidable (_ ∧ _ ∧ _ ∧ _ ∧ _))

/-- `case 9` returns exactly where it does nothing. -/
theorem ipCase_eq_ok (mem : HandleMem) (now : Int) :
    ipCase .declared sr packet mem now = .ok sr' ↔ sr' = sr ∧ Ignored sr packet := by
  constructor
  · intro h
    obtain ⟨ipLen, hlen, h⟩ := Exec.bind_eq_ok.1 h
    obtain ⟨sum, hsum, h⟩ := Exec.bind_eq_ok.1 h
    obtain ⟨ipSum, hipSum, h⟩ := Exec.bind_eq_ok.1 h
    obtain ⟨_, hassert, h⟩ := Exec.bind_eq_ok.1 h
    obtain ⟨dst, hdst, h⟩ := Exec.bind_eq_ok.1 h
    obtain ⟨-, rfl⟩ := loadField_eq_ok hlen
    obtain ⟨-, rfl⟩ := loadField_eq_ok hipSum
    obtain ⟨hbound, rfl⟩ := loadField_eq_ok hdst
    have hcheck : sum = word16 packet 24 := assert_eq_ok.1 hassert
    cases htarget : getInterfaceFromIp sr (word32 packet 30) with
    | none =>
      rw [htarget] at h
      exact absurd h (forward_ne_ok mem now)
    | some target =>
      rw [htarget] at h
      obtain ⟨proto, hproto, h⟩ := Exec.bind_eq_ok.1 h
      obtain ⟨-, rfl⟩ := loadField_eq_ok hproto
      split at h
      · rename_i hicmp
        obtain ⟨type, htype, h⟩ := Exec.bind_eq_ok.1 h
        obtain ⟨-, rfl⟩ := loadField_eq_ok htype
        split at h
        · rw [sendIcmp_declared] at h
          cases h
        · rename_i hne
          cases h
          exact ⟨rfl, hbound, hcheck ▸ hsum, by rw [htarget]; rfl, hicmp, hne⟩
      · rw [sendIcmp_declared] at h
        cases h
  · rintro ⟨rfl, hbound, hsum, htarget, hicmp, hne⟩
    obtain ⟨target, htarget⟩ := Option.isSome_iff_exists.1 htarget
    have hlen : (load16 packet 16 : Exec RouterAssert UInt16) = .ok (word16 packet 16) :=
      loadField_of_le (by omega)
    have hipSum : (load16 packet 24 : Exec RouterAssert UInt16) = .ok (word16 packet 24) :=
      loadField_of_le (by omega)
    have hdst : (load32 packet 30 : Exec RouterAssert UInt32) = .ok (word32 packet 30) :=
      loadField_of_le (by omega)
    have hproto : (load8 packet 23 : Exec RouterAssert UInt8) = .ok (byteAt packet 23) :=
      loadField_of_le (by omega)
    have htype : (load8 packet 14 : Exec RouterAssert UInt8) = .ok (byteAt packet 14) :=
      loadField_of_le (by omega)
    simp only [ipCase, hlen, hsum, hipSum, hdst, Exec.ok_bind, assert_of, htarget, addressedToUs,
      hproto, if_pos hicmp, htype, if_neg hne, Exec.pure_eq_ok]

/-- For a frame that is not taken for ARP, `sr_handlepacket` changes nothing and sends nothing. -/
theorem handlepacket_eq_self (hether : word16 packet 12 ≠ 0x0806) {interface : Option (List UInt8)}
    {mem : HandleMem} {now : Int} (h : handlepacket sr (some packet) interface mem now = .ok sr') :
    sr' = sr := by
  cases interface with
  | none => cases h
  | some interface =>
    obtain ⟨result, hresult, h⟩ := Exec.bind_eq_ok.1 h
    obtain ⟨_, hassert, h⟩ := Exec.bind_eq_ok.1 h
    obtain ⟨etherType, htype, hresult⟩ := Exec.bind_eq_ok.1 hresult
    obtain ⟨-, rfl⟩ := loadField_eq_ok htype
    cases hresult
    have hknown := assert_eq_ok.1 hassert
    rw [if_neg hether] at h hknown
    split at h
    · exact ((ipCase_eq_ok mem now).1 h).1
    · rename_i hother
      exact absurd (if_neg hother) hknown

/-- A frame taken for IP goes to `case 9`. -/
theorem handlepacket_of_ip (hlength : 14 ≤ packet.length) (hether : word16 packet 12 = 0x0800)
    (sr : SrInstance) (interface : List UInt8) (mem : HandleMem) (now : Int) :
    handlepacket sr (some packet) (some interface) mem now =
      ipCase .declared sr packet mem now := by
  have hload : (load16 packet 12 : Exec RouterAssert UInt16) = .ok 0x0800 := by
    rw [← hether]
    exact loadField_of_le hlength
  have htype : packetType packet = .ok 9 := by
    rw [packetType, hload]
    rfl
  simp only [handlepacket, htype, Exec.ok_bind, handleType]
  rfl

/-- The route matches the address. -/
def SrRt.Matches (rt : SrRt) (ip : UInt32) : Prop := ip &&& rt.mask = rt.dest &&& rt.mask

instance SrRt.decidableMatches (rt : SrRt) (ip : UInt32) : Decidable (rt.Matches ip) :=
  inferInstanceAs (Decidable (_ = _))

/-- The length of the prefix of a route. -/
def SrRt.maskLen (rt : SrRt) : Nat := (List.range 32).countP fun i => rt.mask.toNat.testBit i

/-- The route is one with the longest prefix that matches. -/
def SrInstance.Route (sr : SrInstance) (ip : UInt32) (rt : SrRt) : Prop :=
  rt ∈ sr.routingTable ∧ rt.Matches ip ∧
    ∀ rt' ∈ sr.routingTable, rt'.Matches ip → rt'.maskLen ≤ rt.maskLen

instance SrInstance.decidableRoute (sr : SrInstance) (ip : UInt32) (rt : SrRt) :
    Decidable (sr.Route ip rt) :=
  inferInstanceAs (Decidable (_ ∧ _ ∧ _))

/-- What is asked of the lookup: a route with the longest prefix that matches, and null exactly
where none matches. -/
def LongestPrefixMatch (sr : SrInstance) (ip : UInt32) (found : Pointer SrRt) : Prop :=
  (∃ rt, found = .into rt ∧ sr.Route ip rt) ∨
    (found = .null ∧ ∀ rt ∈ sr.routingTable, ¬rt.Matches ip)

/-- An entry the loop takes for a match is one. -/
theorem SrRt.matches_of_eq {rt : SrRt} {ip : UInt32} (h : ip = rt.mask &&& rt.dest) :
    rt.Matches ip := by
  rw [SrRt.Matches, h, UInt32.and_comm rt.mask rt.dest, UInt32.and_assoc, UInt32.and_self]

/-- The loop ends with the mask and the entry it started with, or with those of an entry it took. -/
theorem findRtLoop_cases (ip : UInt32) (table : List SrRt) (lpmMask : UInt32)
    (longest : Pointer SrRt) :
    findRtLoop ip table lpmMask longest = (lpmMask, longest) ∨
      ∃ rt ∈ table, ip = rt.mask &&& rt.dest ∧ lpmMask < rt.mask ∧
        findRtLoop ip table lpmMask longest = (rt.mask, .into rt) := by
  induction table generalizing lpmMask longest with
  | nil => exact Or.inl rfl
  | cons curr rest ih =>
    by_cases htaken : ip = curr.mask &&& curr.dest ∧ lpmMask < curr.mask
    · rw [findRtLoop, if_pos htaken]
      rcases ih curr.mask (.into curr) with hstart | ⟨rt, hmem, hmatch, hlonger, hloop⟩
      · exact Or.inr ⟨curr, List.mem_cons_self, htaken.1, htaken.2, hstart⟩
      · exact Or.inr ⟨rt, List.mem_cons_of_mem _ hmem, hmatch,
          UInt32.lt_trans htaken.2 hlonger, hloop⟩
    · rw [findRtLoop, if_neg htaken]
      rcases ih lpmMask longest with hstart | ⟨rt, hmem, hmatch, hlonger, hloop⟩
      · exact Or.inl hstart
      · exact Or.inr ⟨rt, List.mem_cons_of_mem _ hmem, hmatch, hlonger, hloop⟩

/-- The test of the mask at the end is the wrong way round: the lookup returns null where an entry
matches, and else the pointer it never assigned. -/
theorem findRtDest_cases (sr : SrInstance) (ip : UInt32) :
    findRtDest sr ip = .unassigned ∨
      findRtDest sr ip = .null ∧ ∃ rt ∈ sr.routingTable, rt.Matches ip := by
  rcases findRtLoop_cases ip sr.routingTable 0 .unassigned with
    hstart | ⟨rt, hmem, hmatch, hmask, hloop⟩
  · left
    rw [findRtDest, hstart]
    rfl
  · right
    constructor
    · rw [findRtDest, hloop]
      exact if_pos (UInt32.pos_iff_ne_zero.1 hmask)
    · exact ⟨rt, hmem, SrRt.matches_of_eq hmatch⟩

/-- The lookup answers as asked for no table and no address. -/
theorem not_longestPrefixMatch (sr : SrInstance) (ip : UInt32) :
    ¬LongestPrefixMatch sr ip (findRtDest sr ip) := by
  rintro (⟨rt, hfound, -⟩ | ⟨hnull, hnone⟩)
  · rcases findRtDest_cases sr ip with h | ⟨h, -⟩
    · cases h.symm.trans hfound
    · cases h.symm.trans hfound
  · rcases findRtDest_cases sr ip with h | ⟨-, rt, hmem, hmatch⟩
    · cases h.symm.trans hnull
    · exact hnone rt hmem hmatch

/-- The message with a frame on an interface. -/
def sentOn (name frame : List UInt8) : List UInt8 :=
  vnsMessage ((name.takeWhile (· != 0) ++ List.replicate 16 0).take 16) frame

/-- The words of the bytes sum to all ones. -/
def Verifies (bytes : List UInt8) : Prop :=
  OnesComplement.sum (OnesComplement.bigEndianWords bytes) = 65535

instance Verifies.decidable (bytes : List UInt8) : Decidable (Verifies bytes) :=
  inferInstanceAs (Decidable (_ = _))

/-- The length of the IP header of a packet. -/
def ipHeaderLength (packet : List UInt8) : Nat := 4 * (byteAt packet 14 &&& 15).toNat

/-- The packet gets to the forwarding branch: it is taken for IP, passes the check of its header and
is not addressed to an interface. -/
structure ReachesForwarding (sr : SrInstance) (packet : List UInt8) : Prop where
  etherType : word16 packet 12 = 0x0800
  length : 34 ≤ packet.length
  checked : (cksum packet 14 (word16 packet 16).toNat : Exec RouterAssert UInt16) =
    .ok (word16 packet 24)
  notOurs : getInterfaceFromIp sr (word32 packet 30) = none

/-- Forwarding is reached by a valid datagram that is for none of the interfaces. -/
theorem reachesForwarding_iff : ReachesForwarding sr packet ↔
    word16 packet 12 = 0x0800 ∧ 34 ≤ packet.length ∧
      (cksum packet 14 (word16 packet 16).toNat : Exec RouterAssert UInt16) =
        .ok (word16 packet 24) ∧
      getInterfaceFromIp sr (word32 packet 30) = none :=
  ⟨fun h => ⟨h.etherType, h.length, h.checked, h.notOurs⟩, fun ⟨h₁, h₂, h₃, h₄⟩ => ⟨h₁, h₂, h₃, h₄⟩⟩

instance ReachesForwarding.decidable (sr : SrInstance) (packet : List UInt8) :
    Decidable (ReachesForwarding sr packet) :=
  decidable_of_iff _ reachesForwarding_iff.symm

/-- The packet has a time to live of at least 2, a route, and a next hop in the cache. -/
def ToForward (sr : SrInstance) (packet : List UInt8) : Prop :=
  2 ≤ byteAt packet 22 ∧ ∃ rt entry, sr.Route (word32 packet 30) rt ∧
    arpcacheLookup sr.cache rt.gw = some entry

/-- The frame that passes a packet on along a route, to a cached address and from an interface. -/
structure PassesOn (packet frame : List UInt8) (entry : ArpEntry) (out : SrIf) : Prop where
  length : frame.length = packet.length
  /-- The addresses and the payload. -/
  datagram : frame.drop 26 = packet.drop 26
  ttl : byteAt frame 22 = byteAt packet 22 - 1
  verifies : Verifies ((frame.drop 14).take (ipHeaderLength packet))
  dhost : macAt frame 0 = entry.mac
  shost : macAt frame 6 = out.addr

/-- What is asked of the forwarding of a packet: it is passed on once along its route where it is to
be, and not at all where its time to live has run out. -/
def ForwardsRight (sr : SrInstance) (packet : List UInt8) (outcome : Exec RouterAssert SrInstance) :
    Prop :=
  (∀ rt entry, 2 ≤ byteAt packet 22 → sr.Route (word32 packet 30) rt →
    arpcacheLookup sr.cache rt.gw = some entry →
    ∃ sr' frame out, outcome = .ok sr' ∧ sr'.wire = sr.wire ++ [sentOn rt.interface frame] ∧
      out ∈ sr.ifList ∧ out.name.takeWhile (· != 0) = rt.interface.takeWhile (· != 0) ∧
      PassesOn packet frame entry out) ∧
  (byteAt packet 22 < 2 → ∀ sr', outcome = .ok sr' → ∀ message ∈ sr'.wire.drop sr.wire.length,
    (message.drop 24).drop 26 ≠ packet.drop 26)

theorem ne_append_singleton {α : Type} (l : List α) (a : α) : l ≠ l ++ [a] := by
  intro h
  have hlength := congrArg List.length h
  rw [List.length_append, List.length_singleton] at hlength
  omega

/-- A packet that reaches the forwarding branch is treated as asked exactly where it is not to be
forwarded. -/
theorem forwardsRight_iff (h : ReachesForwarding sr packet) (interface : Option (List UInt8))
    (mem : HandleMem) (now : Int) :
    ForwardsRight sr packet (handlepacket sr (some packet) interface mem now) ↔
      ¬ToForward sr packet := by
  have hether : word16 packet 12 ≠ 0x0806 := by
    rw [h.etherType]
    decide
  constructor
  · rintro ⟨hforward, -⟩ ⟨httl, rt, entry, hroute, hentry⟩
    obtain ⟨sr', frame, out, hrun, hwire, -⟩ := hforward rt entry httl hroute hentry
    rw [handlepacket_eq_self hether hrun] at hwire
    exact ne_append_singleton _ _ hwire
  · intro hnot
    constructor
    · intro rt entry httl hroute hentry
      exact absurd ⟨httl, rt, entry, hroute, hentry⟩ hnot
    · intro _ sr' hrun message hmessage
      rw [handlepacket_eq_self hether hrun, List.drop_length] at hmessage
      cases hmessage

/-- The name of an interface, `eth` and a digit. -/
def ethName (digit : UInt8) : List UInt8 := [101, 116, 104, 48 + digit] ++ List.replicate 28 0

/-- The interface with the address 10.0.0.1. -/
def sampleEth0 : SrIf := ⟨ethName 0, ⟨2, 0, 0, 0, 0, 1⟩, 0x0100000a, rfl⟩

/-- A router with the interfaces 10.0.0.1 and 10.0.0.8, a route to 10.0.0.9, and that host in its
cache. -/
def sampleRouter : SrInstance where
  ifList := [sampleEth0, ⟨ethName 1, ⟨2, 0, 0, 0, 0, 8⟩, 0x0800000a, rfl⟩]
  routingTable := [⟨0x0900000a, 0x0900000a, 0xffffffff, ethName 1⟩]
  cache := { arpcacheInit (fun _ => none) fun _ => none with
    entries := [⟨⟨2, 0, 0, 0, 0, 9⟩, 0x0900000a, 0, true⟩] }
  calls := []
  wire := []

/-- For the host with a route of its own the lookup returns null. -/
theorem findRtDest_null :
    (⟨0x0900000a, 0x0900000a, 0xffffffff, ethName 1⟩ : SrRt) ∈ sampleRouter.routingTable ∧
      SrRt.Matches ⟨0x0900000a, 0x0900000a, 0xffffffff, ethName 1⟩ 0x0900000a ∧
      findRtDest sampleRouter 0x0900000a = .null ∧
      ¬LongestPrefixMatch sampleRouter 0x0900000a (findRtDest sampleRouter 0x0900000a) := by
  have hmem : (⟨0x0900000a, 0x0900000a, 0xffffffff, ethName 1⟩ : SrRt) ∈
      sampleRouter.routingTable := List.mem_singleton_self _
  have hmatch : SrRt.Matches ⟨0x0900000a, 0x0900000a, 0xffffffff, ethName 1⟩ 0x0900000a := rfl
  have hnull : findRtDest sampleRouter 0x0900000a = .null := by decide +kernel
  refine ⟨hmem, hmatch, hnull, ?_⟩
  rintro (⟨rt, hfound, -⟩ | ⟨-, hnone⟩)
  · cases hnull.symm.trans hfound
  · exact hnone _ hmem hmatch

/-- A datagram of 512 bytes from 10.0.0.2 with a correct header checksum, to a host of that net. -/
def sampleFrame (id protocol host : UInt8) (payload : List UInt8) : List UInt8 :=
  [2, 0, 0, 0, 0, 1, 2, 0, 0, 0, 0, 2, 0, 8] ++
    [0x45, 0, 2, 0, 0xa9, id, 0, 0, 64, protocol, 0xba, 0xff] ++ [10, 0, 0, 2, 10, 0, 0, host] ++
    payload

/-- A datagram to the host for which there is a route. -/
def frameToForward : List UInt8 := sampleFrame 0xe3 17 9 (List.replicate 492 7)

theorem forwardsRight_iff_sample :
    ForwardsRight sampleRouter frameToForward
        (handlepacket sampleRouter (some frameToForward) (some (ethName 0)) ⟨none, none, none⟩ 0) ↔
      ¬ToForward sampleRouter frameToForward :=
  forwardsRight_iff (by decide +kernel) _ _ _

/-- The datagram is to be forwarded, and the router writes through a pointer it never assigned. -/
theorem not_forwarded :
    ReachesForwarding sampleRouter frameToForward ∧ ToForward sampleRouter frameToForward ∧
      Verifies ((frameToForward.drop 14).take 20) ∧
      handlepacket sampleRouter (some frameToForward) (some (ethName 0)) ⟨none, none, none⟩ 0 =
        .error .indeterminate ∧
      ¬ForwardsRight sampleRouter frameToForward
        (handlepacket sampleRouter (some frameToForward) (some (ethName 0))
          ⟨none, none, none⟩ 0) := by
  have httl : 2 ≤ byteAt frameToForward 22 := by decide +kernel
  have hroute : sampleRouter.Route (word32 frameToForward 30)
      ⟨0x0900000a, 0x0900000a, 0xffffffff, ethName 1⟩ := by decide +kernel
  have hrun : handlepacket sampleRouter (some frameToForward) (some (ethName 0))
      ⟨none, none, none⟩ 0 = .error .indeterminate := by decide +kernel
  refine ⟨by decide +kernel, ⟨httl, _, _, hroute, rfl⟩, by decide +kernel, hrun, ?_⟩
  rintro ⟨hforward, -⟩
  obtain ⟨sr', frame, out, hok, -⟩ := hforward _ _ httl hroute rfl
  cases hrun.symm.trans hok

/-- The packets that call for an ICMP message. -/
inductive IcmpKind where
  | echo
  | protocol
  | expired
  | noRoute
  deriving DecidableEq, Repr

/-- The type and code of the message. -/
def IcmpKind.typeCode : IcmpKind → UInt8 × UInt8
  | echo => (0, 0)
  | protocol => (3, 3)
  | expired => (11, 0)
  | noRoute => (3, 0)

/-- The packet calls for the message. -/
def Triggers (sr : SrInstance) (packet : List UInt8) : IcmpKind → Prop
  | .echo => (getInterfaceFromIp sr (word32 packet 30)).isSome = true ∧ byteAt packet 23 = 1 ∧
    byteAt packet (14 + ipHeaderLength packet) = 8
  | .protocol => (getInterfaceFromIp sr (word32 packet 30)).isSome = true ∧ byteAt packet 23 ≠ 1
  | .expired => getInterfaceFromIp sr (word32 packet 30) = none ∧ byteAt packet 22 < 2
  | .noRoute => getInterfaceFromIp sr (word32 packet 30) = none ∧ 2 ≤ byteAt packet 22 ∧
    ∀ rt ∈ sr.routingTable, ¬rt.Matches (word32 packet 30)

instance Triggers.decidable (sr : SrInstance) (packet : List UInt8) :
    (kind : IcmpKind) → Decidable (Triggers sr packet kind)
  | .echo => inferInstanceAs (Decidable (_ ∧ _ ∧ _))
  | .protocol => inferInstanceAs (Decidable (_ ∧ _))
  | .expired => inferInstanceAs (Decidable (_ ∧ _))
  | .noRoute => inferInstanceAs (Decidable (_ ∧ _ ∧ _))

/-- The data of the message: that of the echo request, or the start of the datagram. -/
def IcmpKind.Carries (packet frame : List UInt8) : IcmpKind → Prop
  | echo => frame.drop 42 = packet.drop (14 + ipHeaderLength packet + 8)
  | _ => (frame.drop 42).take 28 = (packet.drop 14).take 28

/-- A message of its kind about a packet. -/
structure Answers (kind : IcmpKind) (packet frame : List UInt8) : Prop where
  typeCode : (byteAt frame 34, byteAt frame 35) = kind.typeCode
  /-- Version 4 and five words of header. -/
  version : byteAt frame 14 = 0x45
  ipLen : (htons (word16 frame 16)).toNat = frame.length - 14
  ipVerifies : Verifies ((frame.drop 14).take 20)
  icmpVerifies : Verifies (frame.drop 34)
  dst : word32 frame 30 = word32 packet 26
  carries : kind.Carries packet frame

/-- What is asked where a packet calls for a message: it alone is sent, on an interface. -/
def Responds (kind : IcmpKind) (sr : SrInstance) (packet : List UInt8)
    (outcome : Exec RouterAssert SrInstance) : Prop :=
  ∃ sr' frame, ∃ out ∈ sr.ifList, outcome = .ok sr' ∧
    sr'.wire = sr.wire ++ [sentOn out.name frame] ∧ Answers kind packet frame

/-- Of the frames not taken for ARP, those are answered as asked that call for no message: no
message is ever sent. -/
theorem responds_iff (hether : word16 packet 12 ≠ 0x0806) (sr : SrInstance)
    (interface : Option (List UInt8)) (mem : HandleMem) (now : Int) :
    (∀ kind, Triggers sr packet kind →
      Responds kind sr packet (handlepacket sr (some packet) interface mem now)) ↔
      ∀ kind, ¬Triggers sr packet kind := by
  constructor
  · intro hresponds kind htriggers
    obtain ⟨sr', frame, out, -, hrun, hwire, -⟩ := hresponds kind htriggers
    rw [handlepacket_eq_self hether hrun] at hwire
    exact ne_append_singleton _ _ hwire
  · exact fun hnot kind htriggers => absurd htriggers (hnot kind)

/-- An echo request to the router, with a correct checksum. -/
def echoRequest : List UInt8 := sampleFrame 0xfb 1 1 ([8, 0, 0xf7, 0xff] ++ List.replicate 488 0)

theorem responds_iff_sample :
    (∀ kind, Triggers sampleRouter echoRequest kind → Responds kind sampleRouter echoRequest
        (handlepacket sampleRouter (some echoRequest) (some (ethName 0)) ⟨none, none, none⟩ 0)) ↔
      ∀ kind, ¬Triggers sampleRouter echoRequest kind :=
  responds_iff (by decide +kernel) _ _ _ _

/-- A datagram of another protocol to the router. -/
def udpFrame : List UInt8 := sampleFrame 0xeb 17 1 (List.replicate 492 7)

/-- The echo request is ignored, and a datagram of another protocol ends in a write through a
pointer that was never assigned. -/
theorem not_answered :
    Triggers sampleRouter echoRequest .echo ∧ Verifies (echoRequest.drop 34) ∧
      handlepacket sampleRouter (some echoRequest) (some (ethName 0)) ⟨none, none, none⟩ 0 =
        .ok sampleRouter ∧
      ¬Responds .echo sampleRouter echoRequest
        (handlepacket sampleRouter (some echoRequest) (some (ethName 0)) ⟨none, none, none⟩ 0) ∧
      Triggers sampleRouter udpFrame .protocol ∧
      handlepacket sampleRouter (some udpFrame) (some (ethName 0)) ⟨none, none, none⟩ 0 =
        .error .indeterminate := by
  have hignored : Ignored sampleRouter echoRequest := by decide +kernel
  have hrun : handlepacket sampleRouter (some echoRequest) (some (ethName 0)) ⟨none, none, none⟩ 0 =
      .ok sampleRouter := by
    rw [handlepacket_of_ip (by decide +kernel) (by decide +kernel), ipCase_eq_ok]
    exact ⟨rfl, hignored⟩
  refine ⟨by decide +kernel, by decide +kernel, hrun, ?_, by decide +kernel⟩
  rintro ⟨sr', frame, out, -, hok, hwire, -⟩
  cases hrun.symm.trans hok
  exact ne_append_singleton _ _ hwire

end ComputerNetworks.Router
