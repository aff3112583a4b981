import ComputerNetworks.Router.ArpCache

/-!
# Frames and the wire

The headers of `sr_protocol.h` as bytes of a frame on a little-endian host, the
checksum of `sr_utils.c`, the interfaces of `sr_if.c` and `sr_send_packet`. A
multi-byte field is read and written as the native word at its offset; addresses
and lengths stay in network order until the code converts them.
-/

namespace ComputerNetworks.Router

/-- The assertions on the path of a packet. -/
inductive RouterAssert where
  /-- `assert(packet)`. -/
  | packet
  /-- `assert(interface)`. -/
  | interface
  /-- `assert(result != 0)` on the type of a packet. -/
  | packetType
  /-- `assert(cksum(iphdr, iphdr->ip_len) == iphdr->ip_sum)`. -/
  | checksum
  /-- `assert(buf)` in `sr_send_packet`. -/
  | sendBuf
  /-- `assert(iface)` in `sr_send_packet`. -/
  | sendIface
  deriving DecidableEq, Repr

variable {Site : Type}

/-- The byte at an offset. -/
def byteAt (b : List UInt8) (i : Nat) : UInt8 := b[i]?.getD 0

/-- The native `uint16_t` at an offset. -/
def word16 (b : List UInt8) (i : Nat) : UInt16 :=
  (byteAt b i).toUInt16 ||| ((byteAt b (i + 1)).toUInt16 <<< 8)

/-- The native `uint32_t` at an offset. -/
def word32 (b : List UInt8) (i : Nat) : UInt32 :=
  (word16 b i).toUInt32 ||| ((word16 b (i + 2)).toUInt32 <<< 16)

/-- The Ethernet address at an offset. -/
def macAt (b : List UInt8) (i : Nat) : EtherAddr :=
  ⟨byteAt b i, byteAt b (i + 1), byteAt b (i + 2), byteAt b (i + 3), byteAt b (i + 4),
    byteAt b (i + 5)⟩

/-- Read a field of `n` bytes at an offset. -/
def loadField {α : Type} (field : List UInt8 → Nat → α) (n : Nat) (b : List UInt8) (i : Nat) :
    Exec Site α :=
  if i + n ≤ b.length then .ok (field b i) else .error .outOfBounds

/-- Read a byte. -/
def load8 (b : List UInt8) (i : Nat) : Exec Site UInt8 := loadField byteAt 1 b i

/-- Read a `uint16_t`. -/
def load16 (b : List UInt8) (i : Nat) : Exec Site UInt16 := loadField word16 2 b i

/-- Read a `uint32_t`. -/
def load32 (b : List UInt8) (i : Nat) : Exec Site UInt32 := loadField word32 4 b i

/-- Read an Ethernet address. -/
def loadMac (b : List UInt8) (i : Nat) : Exec Site EtherAddr := loadField macAt 6 b i

/-- The bytes of an Ethernet address. -/
def EtherAddr.bytes (mac : EtherAddr) : List UInt8 :=
  [mac.b0, mac.b1, mac.b2, mac.b3, mac.b4, mac.b5]

/-- Write a byte. -/
def store8 (b : List UInt8) (i : Nat) (v : UInt8) : Exec Site (List UInt8) := memcpyAt b i [v]

/-- Write a `uint16_t`. -/
def store16 (b : List UInt8) (i : Nat) (v : UInt16) : Exec Site (List UInt8) :=
  memcpyAt b i [v.toUInt8, (v >>> 8).toUInt8]

/-- Write a `uint32_t`. -/
def store32 (b : List UInt8) (i : Nat) (v : UInt32) : Exec Site (List UInt8) :=
  memcpyAt b i [v.toUInt8, (v >>> 8).toUInt8, (v >>> 16).toUInt8, (v >>> 24).toUInt8]

/-- `htons`, which is `ntohs`. -/
def htons (v : UInt16) : UInt16 := (v <<< 8) ||| (v >>> 8)

/-- A field inside the block is read. -/
theorem loadField_of_le {α : Type} {field : List UInt8 → Nat → α} {n i : Nat} {b : List UInt8}
    (h : i + n ≤ b.length) : (loadField field n b i : Exec Site α) = .ok (field b i) := if_pos h

/-- A field that is read lies inside the block. -/
theorem loadField_eq_ok {α : Type} {field : List UInt8 → Nat → α} {n i : Nat} {b : List UInt8}
    {v : α} (h : (loadField field n b i : Exec Site α) = .ok v) :
    i + n ≤ b.length ∧ v = field b i := by
  unfold loadField at h
  split at h
  · cases h
    exact ⟨‹_›, rfl⟩
  · cases h

/-- A halfword is little-endian. -/
theorem word16_toNat (b : List UInt8) (i : Nat) :
    (word16 b i).toNat = (byteAt b i).toNat + 256 * (byteAt b (i + 1)).toNat := by
  have hlow := (byteAt b i).toNat_lt
  have hhigh := (byteAt b (i + 1)).toNat_lt
  have hshift : ((byteAt b (i + 1)).toUInt16 <<< 8).toNat = (byteAt b (i + 1)).toNat <<< 8 := by
    rw [UInt16.toNat_shiftLeft, UInt8.toNat_toUInt16]
    refine Nat.mod_eq_of_lt ?_
    have h8 : (8 : UInt16).toNat % 16 = 8 := rfl
    rw [h8, Nat.shiftLeft_eq]
    omega
  rw [word16, UInt16.toNat_or, UInt8.toNat_toUInt16, hshift, Nat.or_comm,
    ← Nat.shiftLeft_add_eq_or_of_lt hlow, Nat.shiftLeft_eq]
  omega

/-- A word is two halfwords, the lower one first. -/
theorem word32_toNat (b : List UInt8) (i : Nat) :
    (word32 b i).toNat = (word16 b i).toNat + 65536 * (word16 b (i + 2)).toNat := by
  have hlow := (word16 b i).toNat_lt
  have hhigh := (word16 b (i + 2)).toNat_lt
  have hshift : ((word16 b (i + 2)).toUInt32 <<< 16).toNat = (word16 b (i + 2)).toNat <<< 16 := by
    rw [UInt32.toNat_shiftLeft, UInt16.toNat_toUInt32]
    refine Nat.mod_eq_of_lt ?_
    have h16 : (16 : UInt32).toNat % 32 = 16 := rfl
    rw [h16, Nat.shiftLeft_eq]
    omega
  rw [word32, UInt32.toNat_or, UInt16.toNat_toUInt32, hshift, Nat.or_comm,
    ← Nat.shiftLeft_add_eq_or_of_lt hlow, Nat.shiftLeft_eq]
  omega

/-- The bytes of a `uint16_t` in memory. -/
theorem word16_eq_of_bytes {b : List UInt8} {i : Nat} {v : UInt16} (h0 : byteAt b i = v.toUInt8)
    (h1 : byteAt b (i + 1) = (v >>> 8).toUInt8) : word16 b i = v := by
  apply UInt16.toNat.inj
  have h8 : (8 : UInt16).toNat % 16 = 8 := rfl
  have hlt := v.toNat_lt
  rw [word16_toNat, h0, h1, UInt16.toNat_toUInt8, UInt16.toNat_toUInt8, UInt16.toNat_shiftRight, h8,
    Nat.shiftRight_eq_div_pow]
  omega

/-- The bytes of a `uint32_t` in memory. -/
theorem word32_eq_of_bytes {b : List UInt8} {i : Nat} {v : UInt32} (h0 : byteAt b i = v.toUInt8)
    (h1 : byteAt b (i + 1) = (v >>> 8).toUInt8) (h2 : byteAt b (i + 2) = (v >>> 16).toUInt8)
    (h3 : byteAt b (i + 3) = (v >>> 24).toUInt8) : word32 b i = v := by
  apply UInt32.toNat.inj
  rw [word32_toNat, word16_toNat, word16_toNat, h0, h1, h2, h3]
  simp only [UInt32.toNat_toUInt8, UInt32.toNat_shiftRight, Nat.shiftRight_eq_div_pow]
  have hlt := v.toNat_lt
  have h8 : (8 : UInt32).toNat % 32 = 8 := rfl
  have h16 : (16 : UInt32).toNat % 32 = 16 := rfl
  have h24 : (24 : UInt32).toNat % 32 = 24 := rfl
  rw [h8, h16, h24]
  omega

/-- The bytes of a word that was read. -/
theorem bytes_word32 (a b c d : UInt8) {v : UInt32} (hv : v = word32 [a, b, c, d] 0) :
    [v.toUInt8, (v >>> 8).toUInt8, (v >>> 16).toUInt8, (v >>> 24).toUInt8] = [a, b, c, d] := by
  have ha := a.toNat_lt
  have hb := b.toNat_lt
  have hc := c.toNat_lt
  have hd := d.toNat_lt
  have h8 : (8 : UInt32).toNat % 32 = 8 := rfl
  have h16 : (16 : UInt32).toNat % 32 = 16 := rfl
  have h24 : (24 : UInt32).toNat % 32 = 24 := rfl
  have hval : v.toNat = a.toNat + 256 * b.toNat + 65536 * (c.toNat + 256 * d.toNat) := by
    rw [hv, word32_toNat, word16_toNat, word16_toNat]
    rfl
  simp only [List.cons.injEq, and_true, ← UInt8.toNat_inj, UInt32.toNat_toUInt8,
    UInt32.toNat_shiftRight, h8, h16, h24, Nat.shiftRight_eq_div_pow, hval]
  omega

@[simp] theorem byteAt_cons_zero (c : UInt8) (b : List UInt8) : byteAt (c :: b) 0 = c := rfl

@[simp] theorem byteAt_cons_succ (c : UInt8) (b : List UInt8) (i : Nat) :
    byteAt (c :: b) (i + 1) = byteAt b i := rfl

/-- Two blocks have the same bytes between two offsets. -/
def SameBytes (b b' : List UInt8) (lo hi : Nat) : Prop :=
  ∀ k, lo ≤ k → k < hi → byteAt b k = byteAt b' k

section SameBytes

variable {b b' : List UInt8} {lo hi i : Nat}

/-- The same bytes hold the same Ethernet address. -/
theorem SameBytes.macAt (h : SameBytes b b' lo hi) (hlo : lo ≤ i) (hhi : i + 6 ≤ hi) :
    macAt b i = macAt b' i := by
  rw [Router.macAt, Router.macAt, h i hlo (by omega), h (i + 1) (by omega) (by omega),
    h (i + 2) (by omega) (by omega), h (i + 3) (by omega) (by omega),
    h (i + 4) (by omega) (by omega), h (i + 5) (by omega) (by omega)]

/-- The same bytes hold the same halfword. -/
theorem SameBytes.word16 (h : SameBytes b b' lo hi) (hlo : lo ≤ i) (hhi : i + 2 ≤ hi) :
    word16 b i = word16 b' i := by
  rw [Router.word16, Router.word16, h i hlo (by omega), h (i + 1) (by omega) (by omega)]

/-- The same bytes hold the same word. -/
theorem SameBytes.word32 (h : SameBytes b b' lo hi) (hlo : lo ≤ i) (hhi : i + 4 ≤ hi) :
    word32 b i = word32 b' i := by
  rw [Router.word32, Router.word32, h.word16 hlo (by omega), h.word16 (by omega) (by omega)]

end SameBytes

/-- A byte of a tail is a byte further on in the block. -/
theorem byteAt_drop (b : List UInt8) (off i : Nat) :
    byteAt (b.drop off) i = byteAt b (off + i) := by
  rw [byteAt, byteAt, List.getElem?_drop]

/-- A word of a tail is a word further on in the block. -/
theorem word32_drop (b : List UInt8) (off i : Nat) :
    word32 (b.drop off) i = word32 b (off + i) := by
  simp only [word32, word16, byteAt_drop, Nat.add_assoc]

/-- An address of a tail is an address further on in the block. -/
theorem macAt_drop (b : List UInt8) (off i : Nat) : macAt (b.drop off) i = macAt b (off + i) := by
  simp only [macAt, byteAt_drop, Nat.add_assoc]

/-- A `uint16_t` in memory. -/
def bytes16 (v : UInt16) : List UInt8 := [v.toUInt8, (v >>> 8).toUInt8]

/-- A `uint32_t` in memory. -/
def bytes32 (v : UInt32) : List UInt8 :=
  [v.toUInt8, (v >>> 8).toUInt8, (v >>> 16).toUInt8, (v >>> 24).toUInt8]

theorem bytes32_length (v : UInt32) : (bytes32 v).length = 4 := rfl

/-- A `uint16_t` that was written is read. -/
theorem word16_bytes16 {done : List UInt8} {off : Nat} (hoff : done.length = off) (v : UInt16)
    (rest : List UInt8) : word16 (done ++ bytes16 v ++ rest) off = v := by
  have hdrop : ∀ i, byteAt (done ++ bytes16 v ++ rest) (off + i) =
      byteAt (bytes16 v ++ rest) i := by
    intro i
    rw [List.append_assoc, ← byteAt_drop, List.drop_left' hoff]
  exact word16_eq_of_bytes (hdrop 0) (hdrop 1)

/-- A stored word is read back. -/
theorem word32_bytes32 {done : List UInt8} {off : Nat} (hoff : done.length = off) (v : UInt32)
    (rest : List UInt8) : word32 (done ++ bytes32 v ++ rest) off = v := by
  have hdrop : ∀ i, byteAt (done ++ bytes32 v ++ rest) (off + i) =
      byteAt (bytes32 v ++ rest) i := by
    intro i
    rw [List.append_assoc, ← byteAt_drop, List.drop_left' hoff]
  exact word32_eq_of_bytes (hdrop 0) (hdrop 1) (hdrop 2) (hdrop 3)

/-- Appending leaves the bytes of a block as they are. -/
theorem sameBytes_append (b rest : List UInt8) : SameBytes (b ++ rest) b 0 b.length := by
  intro k _ hk
  rw [byteAt, byteAt, List.getElem?_append_left hk]

/-- The loop of `cksum` over `n` big-endian pairs of bytes from an offset on. -/
def sumPairs (b : List UInt8) : Nat → Nat → UInt32 → Exec Site UInt32
  | 0, _, sum => .ok sum
  | n + 1, off, sum => do
    let high ← load8 b off
    let low ← load8 b (off + 1)
    sumPairs b n (off + 2) (sum + ((high.toUInt32 <<< 8) ||| low.toUInt32))

/-- The odd last byte. -/
def sumLast (b : List UInt8) (off len : Nat) (sum : UInt32) : Exec Site UInt32 :=
  if len % 2 = 1 then do
    let high ← load8 b (off + len - 1)
    pure (sum + (high.toUInt32 <<< 8))
  else .ok sum

/-- The loop that folds the carries; the bound is never reached. -/
def foldCarries : Nat → UInt32 → Exec Site UInt32
  | fuel, sum =>
    if 0xffff < sum then
      match fuel with
      | 0 => .error .outOfFuel
      | fuel + 1 => foldCarries fuel ((sum >>> 16) + (sum &&& 0xffff))
    else .ok sum

/-- `cksum` of `len` bytes from an offset on. -/
def cksum (b : List UInt8) (off len : Nat) : Exec Site UInt16 := do
  let sum ← sumPairs b (len / 2) off 0
  let sum ← sumLast b off len sum
  let sum ← foldCarries 4 sum
  let sum := htons (~~~sum).toUInt16
  pure (if sum = 0 then 0xffff else sum)

/-- `struct sr_if`. -/
structure SrIf where
  name : List UInt8
  addr : EtherAddr
  ip : UInt32
  /-- The name is an array of `sr_IFACE_NAMELEN` bytes. -/
  name_length : name.length = ifaceNamelen
  deriving DecidableEq

/-- `struct sr_rt`. -/
structure SrRt where
  dest : UInt32
  gw : UInt32
  mask : UInt32
  interface : List UInt8
  deriving DecidableEq, Repr

/-- What `sr_send_packet` was passed: the bytes and the name of the interface. -/
structure SendCall where
  frame : List UInt8
  iface : List UInt8
  deriving DecidableEq, Repr

/-- `struct sr_instance`, with the calls of `sr_send_packet` and the messages written to the server
so far. -/
structure SrInstance where
  ifList : List SrIf
  routingTable : List SrRt
  cache : ArpCache
  calls : List SendCall
  wire : List (List UInt8)

/-- `get_interface_from_ip`. -/
def getInterfaceFromIp (sr : SrInstance) (ip : UInt32) : Option SrIf :=
  sr.ifList.find? fun i => i.ip == ip

/-- `strncmp(a, b, n) == 0`: the characters are compared up to a difference or a NUL. -/
def strncmpSame : List UInt8 → List UInt8 → Nat → Exec Site Bool
  | _, _, 0 => .ok true
  | x :: a, y :: b, n + 1 =>
    if x = y then if x = 0 then .ok true else strncmpSame a b n else .ok false
  | _, _, _ + 1 => .error .outOfBounds

/-- `sr_get_interface`. -/
def srGetInterface (name : List UInt8) : List SrIf → Exec Site (Option SrIf)
  | [] => .ok none
  | i :: rest => do
    if ← strncmpSame i.name name ifaceNamelen then pure (some i) else srGetInterface name rest

/-- `sr_ether_addrs_match_interface`. -/
def etherAddrsMatchInterface (sr : SrInstance) (buf name : List UInt8) : Exec Site Bool := do
  match ← srGetInterface name sr.ifList with
  | none => pure false
  | some iface => pure ((← loadMac buf 6) == iface.addr)

/-- The size of `struct sr_ethernet_hdr`. -/
def ethernetHdrSize : Nat := 14

/-- The size of `struct sr_ip_hdr`. -/
def ipHdrSize : Nat := 20

/-- The size of `struct sr_icmp_hdr`. -/
def icmpHdrSize : Nat := 36

/-- The size of `struct sr_arp_hdr`. -/
def arpHdrSize : Nat := 28

/-- A `uint32_t` after `htonl`. -/
def be32 (v : Nat) : List UInt8 :=
  [UInt8.ofNat (v / 2 ^ 24), UInt8.ofNat (v / 2 ^ 16), UInt8.ofNat (v / 2 ^ 8), UInt8.ofNat v]

/-- The message with a frame: `c_packet_header`, with `VNSPACKET` for its type, and the frame. -/
def vnsMessage (name frame : List UInt8) : List UInt8 :=
  be32 (frame.length + 24) ++ be32 4 ++ name ++ frame

/-- `sr_send_packet`; the allocator and the socket do what they are asked to. -/
def sendPacket (sr : SrInstance) (buf : Option (List UInt8)) (len : Nat)
    (iface : Option (List UInt8)) : Exec RouterAssert (SrInstance × Int) :=
  match buf, iface with
  | none, _ => .error (.assertion .sendBuf)
  | some _, none => .error (.assertion .sendIface)
  | some buf, some iface =>
    let sr := { sr with calls := sr.calls ++ [⟨buf.take len, iface⟩] }
    if len < ethernetHdrSize then .ok (sr, -1)
    else do
      let name ← strncpy (List.replicate 16 0) iface 16
      let frame ← readAt buf 0 len
      if ← etherAddrsMatchInterface sr frame iface then
        pure ({ sr with wire := sr.wire ++ [vnsMessage name frame] }, 0)
      else pure (sr, -1)

end ComputerNetworks.Router
