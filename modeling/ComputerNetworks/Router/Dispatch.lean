import ComputerNetworks.Router.IpPath

/-!
# The branch of a frame

`sr_utils.c` reads the type of a frame in host order and `packet_type` does not
convert it. On a little-endian host the two agree on no frame of interest: each
type of the network falls to the assertion behind `packet_type`, and the frames
that pass it have another type.
-/

namespace ComputerNetworks.Router

variable {packet : List UInt8}

/-- `ethertype` of `sr_utils.c`. -/
def ethertype (buf : List UInt8) : Exec RouterAssert UInt16 := do
  let etherType ← load16 buf 12
  pure (htons etherType)

/-- What is asked of the dispatch of a frame: `packet_type` names the type of the frame, ARP and IP
frames run their own branch alone, and any other frame leaves the router as it was. -/
structure RunsItsBranch (sr : SrInstance) (packet interface : List UInt8) (mem : HandleMem)
    (now : Int) : Prop where
  isArp : packetType packet = .ok 1 ↔ ethertype packet = .ok 0x0806
  isIp : packetType packet = .ok 9 ↔ ethertype packet = .ok 0x0800
  arp : ethertype packet = .ok 0x0806 →
    handlepacket sr (some packet) (some interface) mem now = Prod.fst <$> arpCase sr packet mem now
  ip : ethertype packet = .ok 0x0800 →
    handlepacket sr (some packet) (some interface) mem now = ipCase .declared sr packet mem now
  other : ethertype packet ≠ .ok 0x0806 → ethertype packet ≠ .ok 0x0800 →
    handlepacket sr (some packet) (some interface) mem now = .ok sr

/-- The packet type of a full header depends on its type field alone. -/
theorem packetType_eq (hlength : 14 ≤ packet.length) : packetType packet =
    .ok (if word16 packet 12 = 0x0806 then 1 else if word16 packet 12 = 0x0800 then 9 else 0) := by
  have hload : (load16 packet 12 : Exec RouterAssert UInt16) = .ok (word16 packet 12) :=
    loadField_of_le hlength
  rw [packetType, hload]
  rfl

/-- The type field is read from network byte order. -/
theorem ethertype_eq (hlength : 14 ≤ packet.length) :
    ethertype packet = .ok (htons (word16 packet 12)) := by
  have hload : (load16 packet 12 : Exec RouterAssert UInt16) = .ok (word16 packet 12) :=
    loadField_of_le hlength
  rw [ethertype, hload]
  rfl

/-- A frame whose unconverted type is neither of the two ends the program. -/
theorem handlepacket_of_neither (hlength : 14 ≤ packet.length) (harp : word16 packet 12 ≠ 0x0806)
    (hip : word16 packet 12 ≠ 0x0800) (sr : SrInstance) (interface : List UInt8) (mem : HandleMem)
    (now : Int) :
    handlepacket sr (some packet) (some interface) mem now = .error (.assertion .packetType) := by
  simp only [handlepacket, packetType_eq hlength, if_neg harp, if_neg hip, Exec.ok_bind]
  rfl

/-- No frame is dispatched as asked. -/
theorem not_runsItsBranch (hlength : 14 ≤ packet.length) (sr : SrInstance) (interface : List UInt8)
    (mem : HandleMem) (now : Int) : ¬RunsItsBranch sr packet interface mem now := by
  rintro ⟨hisArp, hisIp, -, -, hother⟩
  rw [packetType_eq hlength, ethertype_eq hlength] at hisArp hisIp
  by_cases harp : word16 packet 12 = 0x0806
  · -- taken for ARP, and of the type 0x0608
    rw [harp] at hisArp
    have hconverted : htons 0x0806 = 0x0806 := Except.ok.inj (hisArp.1 rfl)
    exact absurd hconverted (by decide)
  · by_cases hip : word16 packet 12 = 0x0800
    · rw [hip] at hisIp
      have hconverted : htons 0x0800 = 0x0800 := Except.ok.inj (hisIp.1 rfl)
      exact absurd hconverted (by decide)
    · -- taken for neither: either it is one of them, or the abort is not a return
      rw [if_neg harp, if_neg hip] at hisArp hisIp
      have hnotArp : ethertype packet ≠ .ok 0x0806 := by
        intro h
        cases hisArp.2 ((ethertype_eq hlength).symm.trans h)
      have hnotIp : ethertype packet ≠ .ok 0x0800 := by
        intro h
        cases hisIp.2 ((ethertype_eq hlength).symm.trans h)
      have hreturns := hother hnotArp hnotIp
      rw [handlepacket_of_neither hlength harp hip] at hreturns
      cases hreturns

/-- A datagram with its type in network order. -/
def networkFrame : List UInt8 :=
  [2, 0, 0, 0, 0, 1, 2, 0, 0, 0, 0, 2, 8, 0] ++ frameToForward.drop 14

theorem not_runsItsBranch_networkFrame :
    14 ≤ networkFrame.length ∧
      ¬RunsItsBranch sampleRouter networkFrame (ethName 0) ⟨none, none, none⟩ 0 :=
  ⟨by decide +kernel, not_runsItsBranch (by decide +kernel) _ _ _ _⟩

/-- An IP frame is taken for neither ARP nor IP, and ends the program. -/
theorem networkFrame_aborts :
    ethertype networkFrame = .ok 0x0800 ∧ packetType networkFrame = .ok 0 ∧
      handlepacket sampleRouter (some networkFrame) (some (ethName 0)) ⟨none, none, none⟩ 0 =
        .error (.assertion .packetType) ∧
      ¬RunsItsBranch sampleRouter networkFrame (ethName 0) ⟨none, none, none⟩ 0 := by
  have htype : ethertype networkFrame = .ok 0x0800 := by decide +kernel
  have htaken : packetType networkFrame = .ok 0 := by decide +kernel
  refine ⟨htype, htaken, by decide +kernel, ?_⟩
  intro h
  cases htaken.symm.trans (h.isIp.2 htype)

end ComputerNetworks.Router
