import ComputerNetworks.Router.ArpReply
import ComputerNetworks.Router.VnsReader

/-!
# Frames on the link to the server

A frame goes to the server and comes from it inside a `VNSPacket` behind the name
of an interface. The message that `sr_send_packet` writes is one the server
decodes to this frame, and the message the server encodes makes the reader pass
this frame to `sr_handlepacket`.
-/

namespace ComputerNetworks.Router

open Vns

variable {Site : Type} {iface name frame rest : List UInt8}

namespace SrIf

/-- The array of the interface holds the name. -/
def hasName (name : List UInt8) (i : SrIf) : Bool := (name ++ [0]).isPrefixOf i.name

theorem hasName_of_cstrAt {i : SrIf} (h : CStrAt i.name 0 name) : i.hasName name = true :=
  List.isPrefixOf_iff_prefix.2 h.2

end SrIf

/-- A string is compared with an array up to its NUL. -/
theorem strncmpSame_string {a b : List UInt8} {n : Nat} (h : CStrAt b 0 name) (hn : name.length < n)
    (ha : n ≤ a.length) :
    (strncmpSame a b n : Exec Site Bool) = .ok ((name ++ [0]).isPrefixOf a) := by
  obtain ⟨post, hb⟩ := h.eq_append
  rw [List.drop_zero] at hb
  subst hb
  replace h := h.1
  induction n generalizing a name with
  | zero => cases hn
  | succ n ih =>
    obtain ⟨x, a, rfl⟩ := List.exists_cons_of_length_pos (Nat.zero_lt_of_lt ha)
    cases name with
    | nil =>
      rw [List.nil_append, strncmpSame]
      by_cases hx : x = 0
      · subst hx
        rfl
      · rw [if_neg hx, List.nil_append, List.isPrefixOf_cons_cons, beq_false_of_ne (Ne.symm hx)]
        rfl
    | cons c name =>
      rw [List.mem_cons, not_or] at h
      rw [List.cons_append, strncmpSame, List.cons_append, List.isPrefixOf_cons_cons]
      by_cases hx : x = c
      · subst hx
        rw [if_pos rfl, if_neg (Ne.symm h.1), ih (Nat.lt_of_succ_lt_succ hn)
          (Nat.le_of_succ_le_succ ha) h.2, beq_self_eq_true, Bool.true_and]
      · rw [if_neg hx, beq_false_of_ne (Ne.symm hx), Bool.false_and]

/-- A packet is its name in 16 bytes and its frame. -/
theorem pack_packet (name frame : List UInt8) :
    (VNSPacket.mk name frame).pack = .ok (padded 16 name ++ frame) := by
  have hfits : StructFits VNSPacket.headerFormat (name, ()) := ⟨trivial, trivial⟩
  have hbytes : structBytes VNSPacket.headerFormat (name, ()) = padded 16 name := List.append_nil _
  rw [VNSPacket.pack, orStruct_pack hfits, hbytes]
  rfl

/-- The message with a frame on the wire. -/
def frameMessage (name frame : List UInt8) (h : frame.length ≤ 9976) : WireMessage where
  type := vnsPacket
  body := padded 16 name ++ frame
  size_le := by
    rw [List.length_append, padded_length]
    omega

/-- The log with the start of a frame, if there is a log. -/
def VnsSession.logging (vs : VnsSession) (frame : List UInt8) : VnsSession :=
  { vs with log := vs.log.map (· ++ [frame.take 1024]) }

/-- A frame of the size that fits is logged. -/
theorem logPacket_eq {vs : VnsSession} (hframe : frame.length ≤ 9976) :
    logPacket vs frame (UInt32.ofNat frame.length).toInt32 = .ok (vs.logging frame) := by
  have hval : (UInt32.ofNat frame.length).toNat = frame.length :=
    UInt32.toNat_ofNat_of_lt' (hframe.trans_lt (by decide))
  have hint : (UInt32.ofNat frame.length).toInt32.toInt = frame.length := by
    rw [toInt32_of_lt (by omega), hval]
  unfold logPacket VnsSession.logging
  cases hlog : vs.log with
  | none =>
    obtain ⟨sr, user, log, files, sent, isOpen⟩ := vs
    cases hlog
    rfl
  | some log =>
    have h1024 : (1024 : Int32).toInt = 1024 := rfl
    have hsize : (if 1024 < (UInt32.ofNat frame.length).toInt32 then 1024
        else (UInt32.ofNat frame.length).toInt32).toUInt32.toNat = min 1024 frame.length := by
      split
      · next hlong =>
          rw [Int32.lt_iff_toInt_lt, hint, h1024] at hlong
          show 1024 = _
          omega
      · next hshort =>
          rw [Int32.lt_iff_toInt_lt, hint, h1024] at hshort
          rw [UInt32.toUInt32_toInt32, hval]
          omega
    have hread : (readAt frame 0 (min 1024 frame.length) : Exec VnsAssert (List UInt8)) =
        .ok (frame.take 1024) := by
      rw [readAt_of_le (by omega), List.drop_zero]
      congr 1
      rw [List.take_eq_take_iff]
      omega
    dsimp only
    rw [hsize, hread]
    rfl

/-- The length of a frame wraps for a message too short for the header of a packet. -/
theorem frameLength_toNat {len : Nat} (h : len ≤ 10000) :
    (frameLength len).toNat = if 24 ≤ len then len - 24 else len + (2 ^ 32 - 24) := by
  have h38 : (38 : UInt64).toNat = 38 := rfl
  have h14 : (14 : UInt64).toNat = 14 := rfl
  have hlen : (UInt64.ofNat len).toNat = len := UInt64.toNat_ofNat_of_lt' (h.trans_lt (by decide))
  rw [frameLength, UInt64.toNat_toUInt32, UInt64.toNat_add, UInt64.toNat_sub, hlen, h38, h14]
  split <;> omega

/-- Behind 24 header bytes the length is that of the frame. -/
theorem frameLength_eq {n : Nat} (h : n ≤ 9976) : frameLength (n + 24) = UInt32.ofNat n := by
  apply UInt32.toNat.inj
  rw [frameLength_toNat (by omega), if_pos (Nat.le_add_left _ _), Nat.add_sub_cancel,
    UInt32.toNat_ofNat']
  omega

/-- The length the reader derives for the log from the field of the message. -/
theorem logLength_eq {n : Nat} (h : n ≤ 9976) :
    ((UInt32.ofNat (n + 24)).toUInt64 - 24).toUInt32 = UInt32.ofNat n := by
  have h24 : (24 : UInt64).toNat = 24 := rfl
  have hfit : (UInt32.ofNat (n + 24)).toUInt64.toNat = n + 24 := by
    rw [UInt32.toNat_toUInt64, UInt32.toNat_ofNat']
    omega
  have hle : (24 : UInt64) ≤ (UInt32.ofNat (n + 24)).toUInt64 := by
    rw [UInt64.le_iff_toNat_le, hfit, h24]
    omega
  apply UInt32.toNat.inj
  rw [UInt64.toNat_toUInt32, UInt64.toNat_sub_of_le _ _ hle, hfit, h24, UInt32.toNat_ofNat']
  omega

/-- The case of a packet, for the message with a frame. -/
theorem packetCase_eq (handle : PacketHandler) (vs : VnsSession) (hhigh : frame.length ≤ 9976) :
    packetCase handle vs (frameMessage name frame hhigh).len
      (frameMessage name frame hhigh).buffer =
      (do
        if ← arpReqNotForUs vs.sr frame (UInt32.ofNat frame.length) (padded 16 name ++ frame) then
          pure vs
        else do
          let sr ← (handle vs.sr frame (UInt32.ofNat frame.length) (padded 16 name ++ frame)).within
            .router
          pure { vs.logging frame with sr }) := by
  have hlen : (frameMessage name frame hhigh).len = frame.length + 24 := by
    rw [WireMessage.len, frameMessage, List.length_append, padded_length]
    omega
  have hname : (frameMessage name frame hhigh).buffer.drop 8 = padded 16 name ++ frame :=
    WireMessage.drop_buffer _
  have hframe : (frameMessage name frame hhigh).buffer.drop 24 = frame := by
    rw [← List.drop_drop (i := 16) (j := 8), hname]
    exact List.drop_left' (padded_length 16 name)
  rw [packetCase, hframe, hname, WireMessage.loadNet32_buffer, hlen, frameLength_eq hhigh]
  simp only [Exec.ok_bind, logLength_eq hhigh, logPacket_eq hhigh]
  rfl

end ComputerNetworks.Router
