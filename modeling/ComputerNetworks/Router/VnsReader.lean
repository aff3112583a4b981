import ComputerNetworks.Router.HwInfo

/-!
# The reader in step with the stream

However the bytes of a message arrive, one call of `sr_read_from_server_expect`
takes exactly that message off the stream and dispatches on its type with its
bytes, the type in host order. So each of a run of calls gets its own message.
-/

namespace ComputerNetworks.Router

open Vns

variable {Site : Type} {env : VnsEnv} {handle : PacketHandler} {vs : VnsSession} {s : ByteStream}

/-- A message of a declared length between 8 and 10000. -/
structure WireMessage where
  type : UInt32
  body : List UInt8
  size_le : 8 + body.length ≤ 10000
  deriving DecidableEq

namespace WireMessage

/-- The declared length. -/
def len (m : WireMessage) : Nat := 8 + m.body.length

/-- The bytes on the wire. -/
def bytes (m : WireMessage) : List UInt8 := ltFrame m.type.toNat m.body

/-- The block with which the command is dispatched: the type is in host order. -/
def buffer (m : WireMessage) : List UInt8 :=
  bigEndian 4 m.len ++ ([m.type.toUInt8, (m.type >>> 8).toUInt8, (m.type >>> 16).toUInt8,
    (m.type >>> 24).toUInt8] ++ m.body)

theorem len_le (m : WireMessage) : m.len ≤ 10000 := m.size_le

theorem len_toNat (m : WireMessage) : (UInt32.ofNat m.len).toNat = m.len :=
  UInt32.toNat_ofNat_of_lt' (m.len_le.trans_lt (by decide))

/-- The buffer holds the message exactly. -/
theorem buffer_length (m : WireMessage) : m.buffer.length = m.len := by
  rw [buffer, List.length_append, List.length_append, bigEndian_length, len]
  simp only [List.length_cons, List.length_nil]
  omega

/-- Behind the header stands the body. -/
theorem drop_buffer (m : WireMessage) : m.buffer.drop 8 = m.body := by
  rw [buffer, ← List.append_assoc]
  apply List.drop_left'
  rw [List.length_append, bigEndian_length]
  rfl

/-- The first word of the buffer is the length. -/
theorem loadNet32_buffer (m : WireMessage) :
    (loadNet32 m.buffer 0 : Exec Site UInt32) = .ok (UInt32.ofNat m.len) := by
  have hsize := m.len_le
  have hlen : m.buffer.drop 0 = bigEndian 4 m.len ++ _ := rfl
  rw [loadNet32, loadField_of_le, netWord32_of_drop hlen (by omega)]
  rw [buffer_length, len]
  omega

end WireMessage

/-- A length of at most 10000 passes the check. -/
theorem length_passes {n : Nat} (h : n ≤ 10000) :
    ¬(10000 < (UInt32.ofNat n).toInt32 ∨ (UInt32.ofNat n).toInt32 < 0) := by
  have hval : (UInt32.ofNat n).toNat = n := UInt32.toNat_ofNat_of_lt' (h.trans_lt (by decide))
  have hint : (UInt32.ofNat n).toInt32.toInt = n := by rw [toInt32_of_lt (by omega), hval]
  have hbound : (10000 : Int32).toInt = 10000 := rfl
  have hzero : (0 : Int32).toInt = 0 := rfl
  rw [Int32.lt_iff_toInt_lt, Int32.lt_iff_toInt_lt, hint, hbound, hzero]
  omega

/-- The loops put the length and what follows it in the block. -/
theorem readBody_block {len : Nat} {content rest : List UInt8} {fuel : Nat} {expected : UInt32}
    (hlen : 4 ≤ len) (hcontent : content.length = len - 4) (hpending : s.pending = content ++ rest)
    (hsteady : s.Steady) (hfuel : len ≤ fuel) :
    ∃ s', s'.pending = rest ∧ s'.Steady ∧ readBody env handle fuel expected vs s len = (do
      let command ← loadNet32 (bigEndian 4 len ++ content) 4
      let buf ← store32 (bigEndian 4 len ++ content) 4 command
      let (ret, vs) ← dispatch env handle expected vs len command buf
      pure (ret, vs, s')) := by
  have hblock := env.block_length len
  have hcopy : (memcpyAt (env.block len) 0 (bigEndian 4 len) : Exec VnsAssert _) =
      .ok (bigEndian 4 len ++ (env.block len).drop 4) := by
    rw [memcpyAt_zero, bigEndian_length]
    rw [bigEndian_length, hblock]
    exact hlen
  obtain ⟨s', hrun, hrest, hsteady'⟩ := @ByteStream.readLoop_eq VnsAssert (len - 4) fuel s
    (bigEndian 4 len) ((env.block len).drop 4) hsteady
    (by rw [hpending, List.length_append]; omega) (by omega) (by rw [List.length_drop, hblock])
  have hall : ((env.block len).drop 4).drop (len - 4) = [] := by
    apply List.drop_of_length_le
    rw [List.length_drop, hblock]
  rw [hpending, List.drop_left' hcontent] at hrest
  rw [bigEndian_length, hpending, List.take_left' hcontent, hall, List.append_nil] at hrun
  refine ⟨s', hrest, hsteady', ?_⟩
  simp only [readBody, hcopy, Exec.ok_bind, hrun, Bool.not_true, Bool.false_eq_true, if_false]

/-- The body of a message is read to its end. -/
theorem readBody_eq {m : WireMessage} {rest : List UInt8} {fuel : Nat} {expected : UInt32}
    (hpending : s.pending = bigEndian 4 m.type.toNat ++ (m.body ++ rest)) (hsteady : s.Steady)
    (hfuel : 10000 ≤ fuel) :
    ∃ s', s'.pending = rest ∧ s'.Steady ∧ readBody env handle fuel expected vs s m.len = (do
      let (ret, vs) ← dispatch env handle expected vs m.len m.type m.buffer
      pure (ret, vs, s')) := by
  have hcontent : (bigEndian 4 m.type.toNat ++ m.body).length = m.len - 4 := by
    rw [List.length_append, bigEndian_length, WireMessage.len]
    omega
  rw [← List.append_assoc] at hpending
  obtain ⟨s', hrest, hsteady', hrun⟩ := @readBody_block env handle vs s m.len _ rest fuel expected
    (by rw [WireMessage.len]; omega) hcontent hpending hsteady (m.len_le.trans hfuel)
  have hload : (loadNet32 (bigEndian 4 m.len ++ (bigEndian 4 m.type.toNat ++ m.body)) 4 :
      Exec VnsAssert UInt32) = .ok m.type := by
    have hdrop : (bigEndian 4 m.len ++ (bigEndian 4 m.type.toNat ++ m.body)).drop 4 =
        bigEndian 4 m.type.toNat ++ m.body := List.drop_left' (bigEndian_length 4 m.len)
    rw [loadNet32, loadField_of_le, netWord32_of_drop hdrop m.type.toNat_lt, UInt32.ofNat_toNat]
    simp only [List.length_append, bigEndian_length]
    omega
  have hstore : (store32 (bigEndian 4 m.len ++ (bigEndian 4 m.type.toNat ++ m.body)) 4 m.type :
      Exec VnsAssert _) = .ok m.buffer := by
    have happend :=
      @memcpyAt_append VnsAssert (bigEndian 4 m.len) (bigEndian 4 m.type.toNat ++ m.body)
        [m.type.toUInt8, (m.type >>> 8).toUInt8, (m.type >>> 16).toUInt8, (m.type >>> 24).toUInt8]
        (by rw [List.length_append, bigEndian_length]; exact Nat.le_add_right _ _)
    have hrest : (bigEndian 4 m.type.toNat ++ m.body).drop 4 = m.body :=
      List.drop_left' (bigEndian_length 4 m.type.toNat)
    rw [bigEndian_length] at happend
    rw [store32, happend, WireMessage.buffer, List.append_assoc]
    exact congrArg (fun body => Except.ok (bigEndian 4 m.len ++ (_ ++ body))) hrest
  refine ⟨s', hrest, hsteady', ?_⟩
  rw [hrun, hload, Exec.ok_bind, hstore, Exec.ok_bind]

/-- The length is read, passes its check, and the reader goes on to the body. -/
theorem readFromServerExpect_length {len : Nat} {rest : List UInt8} {fuel : Nat} {expected : UInt32}
    (hlen : len ≤ 10000) (hpending : s.pending = bigEndian 4 len ++ rest) (hsteady : s.Steady)
    (hfuel : 4 ≤ fuel) :
    ∃ s', s'.pending = rest ∧ s'.Steady ∧ readFromServerExpect env handle fuel expected vs s =
      readBody env handle fuel expected vs s' len := by
  have hblock := env.block_length 4
  obtain ⟨s', hrun, hpending', hsteady'⟩ :=
    @ByteStream.readLoop_eq VnsAssert 4 fuel s [] (env.block 4)
      hsteady (by rw [hpending, List.length_append, bigEndian_length]; exact Nat.le_add_right _ _)
      hfuel hblock.ge
  have htake : s.pending.take 4 = bigEndian 4 len := by
    rw [hpending, List.take_left' (bigEndian_length _ _)]
  have hload : (loadNet32 (bigEndian 4 len) 0 : Exec VnsAssert UInt32) =
      .ok (UInt32.ofNat len) := by
    rw [loadNet32, loadField_of_le (bigEndian_length 4 len).ge,
      netWord32_of_drop (List.append_nil _).symm (by omega)]
  have hval : (UInt32.ofNat len).toNat = len :=
    UInt32.toNat_ofNat_of_lt' (hlen.trans_lt (by decide))
  refine ⟨s', ?_, hsteady', ?_⟩
  · rw [hpending', hpending, List.drop_left' (bigEndian_length _ _)]
  · rw [List.nil_append, List.nil_append, htake, List.drop_of_length_le hblock.le,
      List.append_nil, List.length_nil] at hrun
    simp only [readFromServerExpect, hrun, Exec.ok_bind, Bool.not_true,
      Bool.false_eq_true, if_false, hload, if_neg (length_passes hlen), hval]

/-- One call takes its message off the stream and dispatches on its type. -/
theorem readFromServerExpect_eq {m : WireMessage} {rest : List UInt8} {fuel : Nat}
    {expected : UInt32} (hpending : s.pending = m.bytes ++ rest) (hsteady : s.Steady)
    (hfuel : 10000 ≤ fuel) :
    ∃ s', s'.pending = rest ∧ s'.Steady ∧ readFromServerExpect env handle fuel expected vs s = (do
      let (ret, vs) ← dispatch env handle expected vs m.len m.type m.buffer
      pure (ret, vs, s')) := by
  rw [WireMessage.bytes, ltFrame, List.append_assoc, List.append_assoc] at hpending
  obtain ⟨s₁, hpending₁, hsteady₁, hlength⟩ :=
    @readFromServerExpect_length env handle vs s m.len _ fuel expected m.len_le hpending hsteady
      (by omega)
  obtain ⟨s', hrest, hsteady', hbody⟩ :=
    @readBody_eq env handle vs s₁ m rest fuel expected hpending₁ hsteady₁ hfuel
  exact ⟨s', hrest, hsteady', hlength.trans hbody⟩

/-- A router without interfaces, before the first message. -/
def sampleSession : VnsSession :=
  ⟨⟨[], [], arpcacheInit (fun _ => none) (fun _ => none), [], []⟩, [], none, [], [], true⟩

end ComputerNetworks.Router
