import ComputerNetworks.Core.Memory

/-!
# Mysocket contexts

The parts of a mysocket's context that the modelled functions read or write: the
flags and descriptors of `mysock_context_t`, the peer of `network_context_t` and
the sockets of the TCP layer behind it.
-/

namespace ComputerNetworks.Mysock

/-- `sizeof(struct tcphdr)`. -/
def headerSize : Nat := 20

/-- `MAX_IP_PAYLOAD_LEN`, the size of a packet buffer. -/
def maxIpPayloadLen : Nat := 1500

/-- `AF_INET`. -/
def afInet : UInt16 := 2

/-- The bytes of a `uint32_t` in memory. -/
def le32 (v : UInt32) : List UInt8 :=
  [v.toUInt8, (v >>> 8).toUInt8, (v >>> 16).toUInt8, (v >>> 24).toUInt8]

/-- The sixteen bytes of a `struct sockaddr`, under the names of `struct sockaddr_in`. Port and
address are in network byte order. -/
structure Sockaddr where
  family : UInt16
  port : UInt16
  addr : UInt32
  zero : UInt64
  deriving DecidableEq, Repr

/-- A `struct sockaddr` in memory. -/
def Sockaddr.bytes (a : Sockaddr) : List UInt8 :=
  [a.family.toUInt8, (a.family >>> 8).toUInt8, a.port.toUInt8, (a.port >>> 8).toUInt8] ++
    le32 a.addr ++ le32 a.zero.toUInt32 ++ le32 (a.zero >>> 32).toUInt32

/-- The four bytes of a number determine it. -/
theorem le32_injective {v w : UInt32} (h : le32 v = le32 w) : v = w := by
  simp only [le32, List.cons.injEq, and_true] at h
  obtain ⟨h0, h1, h2, h3⟩ := h
  apply UInt32.toNat_inj.1
  have hv := v.toNat_lt
  have hw := w.toNat_lt
  replace h0 := congrArg UInt8.toNat h0
  replace h1 := congrArg UInt8.toNat h1
  replace h2 := congrArg UInt8.toNat h2
  replace h3 := congrArg UInt8.toNat h3
  simp [Nat.shiftRight_eq_div_pow] at h0 h1 h2 h3
  omega

/-- Its two bytes determine a short number. -/
theorem le16_injective {v w : UInt16} (h0 : v.toUInt8 = w.toUInt8)
    (h1 : (v >>> 8).toUInt8 = (w >>> 8).toUInt8) : v = w := by
  apply UInt16.toNat_inj.1
  have hv := v.toNat_lt
  have hw := w.toNat_lt
  replace h0 := congrArg UInt8.toNat h0
  replace h1 := congrArg UInt8.toNat h1
  simp [Nat.shiftRight_eq_div_pow] at h0 h1
  omega

/-- Its two halves determine a long number. -/
theorem halves_injective {v w : UInt64} (h0 : v.toUInt32 = w.toUInt32)
    (h1 : (v >>> 32).toUInt32 = (w >>> 32).toUInt32) : v = w := by
  apply UInt64.toNat_inj.1
  have hv := v.toNat_lt
  have hw := w.toNat_lt
  replace h0 := congrArg UInt32.toNat h0
  replace h1 := congrArg UInt32.toNat h1
  simp [Nat.shiftRight_eq_div_pow] at h0 h1
  omega

/-- Addresses with the same bytes are the same. -/
theorem Sockaddr.bytes_injective {a b : Sockaddr} (h : a.bytes = b.bytes) : a = b := by
  obtain ⟨family, port, addr, zero⟩ := a
  obtain ⟨family', port', addr', zero'⟩ := b
  simp only [Sockaddr.bytes, List.append_assoc] at h
  obtain ⟨hnames, h⟩ := List.append_inj h rfl
  obtain ⟨haddr, h⟩ := List.append_inj h rfl
  obtain ⟨hlow, hhigh⟩ := List.append_inj h rfl
  simp only [List.cons.injEq, and_true] at hnames
  obtain ⟨hf0, hf1, hp0, hp1⟩ := hnames
  rw [le16_injective hf0 hf1, le16_injective hp0 hp1, le32_injective haddr,
    halves_injective (le32_injective hlow) (le32_injective hhigh)]

theorem Sockaddr.bytes_length (a : Sockaddr) : a.bytes.length = 16 := rfl

/-- `network_context_t` with the TCP layer's `network_context_socket_tcp_t`; a closed or missing
socket is `-1`. -/
structure NetworkContext where
  peerAddr : Sockaddr
  peerAddrLen : Nat
  peerAddrValid : Bool
  socket : Int
  newSocket : Int
  connected : Bool
  deriving DecidableEq, Repr

/-- The peer of the connection is set, as every connected context has it. -/
structure NetworkContext.PeerKnown (ctx : NetworkContext) : Prop where
  valid : ctx.peerAddrValid = true
  len : 0 < ctx.peerAddrLen
  family : ctx.peerAddr.family = afInet

/-- `mysock_context_t`. The receive queue stands for the packets it holds. -/
structure MysockContext where
  isActive : Bool
  network : NetworkContext
  bound : Bool
  listening : Bool
  mySd : Int
  listenSd : Int
  blocking : Bool
  networkRecvQueue : List (List UInt8)
  deriving DecidableEq, Repr

instance (ctx : NetworkContext) : Decidable ctx.PeerKnown :=
  decidable_of_iff (ctx.peerAddrValid = true ∧ 0 < ctx.peerAddrLen ∧ ctx.peerAddr.family = afInet)
    ⟨fun h => ⟨h.1, h.2.1, h.2.2⟩, fun h => ⟨h.valid, h.len, h.family⟩⟩

end ComputerNetworks.Mysock
