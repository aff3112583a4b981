import ComputerNetworks.Core.Bounds
import ComputerNetworks.Router.VnsReader

/-!
# When the reader ends

Once the peer has closed the connection every call returns 0, which neither loop
of `sr_read_from_server_expect` takes for an end. The reader ends exactly on the
streams that fail some call, hold a length that is refused, or hold the whole of
the message.
-/

namespace ComputerNetworks.Router

open Vns Exec

variable {Site : Type} {env : VnsEnv} {vs : VnsSession} {s : ByteStream}

theorem ends_loadField {α : Type} (field : List UInt8 → Nat → α) (n : Nat) (b : List UInt8)
    (i : Nat) : Ends (loadField field n b i : Exec Site α) :=
  ends_ite (ends_ok _) nofun

/-- The comparison of two names comes to an end. -/
theorem ends_strncmpSame (a b : List UInt8) (n : Nat) :
    Ends (strncmpSame a b n : Exec Site Bool) := by
  fun_induction strncmpSame a b n with
  | case1 => exact ends_ok _
  | case2 => exact ends_ok _
  | case3 _ _ _ _ _ ih => exact ih
  | case4 => exact ends_ok _
  | case5 => exact nofun

/-- The search for an interface comes to an end. -/
theorem ends_srGetInterface (name : List UInt8) (ifList : List SrIf) :
    Ends (srGetInterface name ifList : Exec Site (Option SrIf)) := by
  induction ifList with
  | nil => exact ends_ok _
  | cons i ifList ih =>
    exact (ends_strncmpSame _ _ _).bind fun same => ends_ite (ends_ok _) ih

/-- The check of the table comes to an end. -/
theorem ends_verifyRoutingTable (sr : SrInstance) : Ends (verifyRoutingTable sr) := by
  have hexists : ∀ (rt : SrRt) (ifList : List SrIf), Ends (ifaceExists rt ifList) := by
    intro rt ifList
    induction ifList with
    | nil => exact ends_ok _
    | cons i ifList ih =>
      exact (ends_strncmpSame _ _ _).bind fun same => ends_ite (ends_ok _) ih
  have hloop : ∀ (routes : List SrRt) (ret : Nat), Ends (verifyLoop sr.ifList routes ret) := by
    intro routes
    induction routes with
    | nil => exact fun ret => ends_ok _
    | cons rt routes ih => exact fun ret => (hexists rt _).bind fun found => ih _
  exact ends_ite (ends_ok _) (hloop _ _)

theorem ends_setLast (sr : SrInstance) (f : SrIf → SrIf) : Ends (setLast sr f) :=
  (ends_assert _ _).bind fun _ => ends_ok _

/-- Adding an interface comes to an end. -/
theorem ends_addInterface (env : VnsEnv) (sr : SrInstance) (name : List UInt8) :
    Ends (addInterface env sr name) := by
  unfold addInterface
  split
  · rename_i fault hfault
    have hends := @ends_strncpy VnsAssert (List.replicate ifaceNamelen 0) name ifaceNamelen
    rw [hfault] at hends
    exact fun h => hends (congrArg Except.error (Except.error.inj h))
  · exact ends_ok _

/-- The entries of a `VNSHWINFO` message are counted before the loop. -/
theorem ends_handleHwinfo (env : VnsEnv) (sr : SrInstance) (hwinfo : List UInt8) :
    Ends (handleHwinfo env sr hwinfo) := by
  have hentry : ∀ (sr : SrInstance) (off : Nat), Ends (hwEntry env sr hwinfo off) := by
    intro sr off
    refine (ends_loadField _ _ _ _).bind fun key => ends_ite (ends_addInterface _ _ _) ?_
    refine ends_ite ((ends_loadField _ _ _ _).bind fun ip => ends_setLast _ _) ?_
    exact ends_ite ((ends_loadField _ _ _ _).bind fun addr => ends_setLast _ _) (ends_ok _)
  have hloop : ∀ (n off : Nat) (sr : SrInstance), Ends (hwLoop env hwinfo n off sr) := by
    intro n
    induction n with
    | zero => exact fun off sr => ends_ok _
    | succ n ih => exact fun off sr => (hentry sr off).bind fun sr => ih _ _
  exact (ends_loadField _ _ _ _).bind fun mLen => (hloop _ _ _).bind fun sr => ends_ok _

/-- Handling a table comes to an end. -/
theorem ends_handleRtable (env : VnsEnv) (vs : VnsSession) (rtable : List UInt8) :
    Ends (handleRtable env vs rtable) := by
  refine (ends_memcpyAt _ _ _).bind fun fn => (ends_cstr _ _).bind fun host => ?_
  refine (ends_memcpyAt _ _ _).bind fun _ => ends_ite ?_ (ends_ok _)
  exact (ends_loadField _ _ _ _).bind fun mLen => (ends_readAt _ _ _).bind fun table => ends_ok _

/-- Handling an authentication request comes to an end. -/
theorem ends_handleAuthRequest (env : VnsEnv) (vs : VnsSession) (req : List UInt8) :
    Ends (handleAuthRequest env vs req) := by
  unfold handleAuthRequest
  split
  · exact ends_ok _
  · exact ends_ok _
  · refine (ends_loadField _ _ _ _).bind fun mLen => (ends_readAt _ _ _).bind fun salt => ?_
    refine (ends_readAt _ _ _).bind fun key => ?_
    split
    · exact ends_ok _
    · exact ends_ite (ends_ok _) (ends_ok _)

theorem ends_handleAuthStatus (status : List UInt8) : Ends (handleAuthStatus status) :=
  (ends_loadField _ _ _ _).bind fun _ =>
    ends_ite (ends_ok _) ((ends_cstr _ _).bind fun _ => ends_ok _)

/-- Handlers of packets that end. -/
def PacketHandler.Ends (handle : PacketHandler) : Prop :=
  ∀ sr packet len interface, Exec.Ends (handle sr packet len interface)

/-- Handling a packet comes to an end if the packet handler does. -/
theorem ends_packetCase {handle : PacketHandler} (hhandle : handle.Ends) (vs : VnsSession)
    (len : Nat) (buf : List UInt8) : Exec.Ends (packetCase handle vs len buf) := by
  have hother : ∀ packet interface,
      Exec.Ends (arpReqNotForUs vs.sr packet (frameLength len) interface) := by
    intro packet interface
    refine (ends_srGetInterface _ _).bind fun iface => ends_ite (ends_ok _) ?_
    cases iface with
    | none => exact nofun
    | some iface =>
      refine (ends_loadField _ _ _ _).bind fun type => ends_ite ?_ (ends_ok _)
      refine (ends_loadField _ _ _ _).bind fun op => ends_ite ?_ (ends_ok _)
      exact (ends_loadField _ _ _ _).bind fun tip => ends_ok _
  have hlog : ∀ (frame : List UInt8) (n : Int32), Exec.Ends (logPacket vs frame n) := by
    intro frame n
    unfold logPacket
    split
    · exact ends_ok _
    · exact (ends_readAt _ _ _).bind fun bytes => ends_ok _
  refine (hother _ _).bind fun drop => ends_ite (ends_ok _) ?_
  refine (ends_loadField _ _ _ _).bind fun mLen => (hlog _ _).bind fun vs' => ?_
  exact (hhandle _ _ _ _).within.bind fun sr => ends_ok _

/-- Behind the reading of a message the reader always ends. -/
theorem ends_dispatch {handle : PacketHandler} (hhandle : handle.Ends) (env : VnsEnv)
    (expected : UInt32) (vs : VnsSession) (len : Nat) (command : UInt32) (buf : List UInt8) :
    Exec.Ends (dispatch env handle expected vs len command buf) := by
  refine ends_ite (ends_ok _) (ends_ite ?_ (ends_ite ?_ (ends_ite ?_ (ends_ite ?_ (ends_ite ?_
    (ends_ite ?_ (ends_ite ?_ (ends_ok _))))))))
  · exact (ends_packetCase hhandle _ _ _).bind fun _ => ends_ok _
  · exact (ends_cstr _ _).bind fun _ => ends_ok _
  · exact (ends_cstr _ _).bind fun _ => ends_ok _
  · refine (ends_handleHwinfo _ _ _).bind fun _ => (ends_verifyRoutingTable _).bind fun _ => ?_
    exact ends_ite (ends_ok _) (ends_ok _)
  · exact (ends_handleRtable _ _ _).bind fun _ => ends_ok _
  · exact (ends_handleAuthRequest _ _ _).bind fun _ => ends_ok _
  · exact (ends_handleAuthStatus _).bind fun _ => ends_ok _

/-- Four pending bytes are read as one word. -/
theorem loadNet32_take (pending : List UInt8) (h : 4 ≤ pending.length) :
    (loadNet32 (pending.take 4) 0 : Exec Site UInt32) = .ok (netWord32 pending 0) := by
  have hlen : (pending.take 4).length = 4 := List.length_take_of_le h
  rw [loadNet32, loadField_of_le (by omega), netWord32, netWord32, List.drop_zero, List.drop_zero,
    List.take_take, Nat.min_self]

/-- The body of a message is read to an end where the loop over it ends. -/
theorem ends_readBody {handle : PacketHandler} (hhandle : handle.Ends) {fuel len : Nat}
    (expected : UInt32) (vs : VnsSession)
    (hloop : ∀ buf : List UInt8, buf.length = len →
      Exec.Ends (s.readLoop fuel buf 4 (len - 4) : Exec VnsAssert _)) :
    Exec.Ends (readBody env handle fuel expected vs s len) := by
  refine bind_ne_error.2 ⟨ends_memcpyAt _ _ _, fun buf hbuf => ?_⟩
  refine Ends.bind (hloop buf ((memcpyAt_length hbuf).trans (env.block_length len))) fun out => ?_
  refine ends_ite (ends_ok _) ((ends_loadField _ _ _ _).bind fun command => ?_)
  refine (ends_memcpyAt _ _ _).bind fun buf' => ?_
  exact (ends_dispatch hhandle _ _ _ _ _ _).bind fun _ => ends_ok _

/-- Some call fails, or the length of the message is there, and it is refused or all of the message
is there. -/
def Settled (s : ByteStream) : Prop :=
  .failed ∈ s.arrivals ∨ 4 ≤ s.pending.length ∧
    (10000 < (netWord32 s.pending 0).toInt32 ∨ (netWord32 s.pending 0).toInt32 < 0 ∨
      (netWord32 s.pending 0).toNat ≤ s.pending.length)

/-- With a failure ahead both loops end. -/
theorem reader_ends_of_failed {handle : PacketHandler} (hhandle : handle.Ends) (env : VnsEnv)
    (expected : UInt32) (vs : VnsSession) (hfailed : .failed ∈ s.arrivals) :
    Exec.Ends (readFromServerExpect env handle s.arrivals.length expected vs s) := by
  obtain ⟨all, s₁, lenBuf, hrun, -, hall⟩ := @ByteStream.readLoop_failing VnsAssert 4 _ 0 s
    (env.block 4) hfailed le_rfl (env.block_length 4).ge
  rw [readFromServerExpect, hrun, Exec.ok_bind]
  cases all with
  | false => exact ends_ok _
  | true =>
    obtain ⟨hahead, hless⟩ := hall rfl
    refine (ends_loadField _ _ _ _).bind fun len => ends_ite (ends_ok _) ?_
    refine ends_readBody hhandle _ _ fun buf hbuf => ?_
    by_cases hshort : len.toNat ≤ 4
    · rw [Nat.sub_eq_zero_of_le hshort, ByteStream.readLoop]
      exact ends_ok _
    · obtain ⟨_, _, _, hrun', -⟩ :=
        @ByteStream.readLoop_failing VnsAssert (len.toNat - 4) _ 4 s₁ buf hahead hless (by omega)
      rw [hrun']
      exact ends_ok _

/-- Where no call fails, the reader ends on a whole message, and on a length that is refused. -/
theorem reader_ends_of_whole {handle : PacketHandler} (hhandle : handle.Ends) (env : VnsEnv)
    (expected : UInt32) (vs : VnsSession) (hsteady : s.Steady) (hlength : 4 ≤ s.pending.length)
    (hwhole : 10000 < (netWord32 s.pending 0).toInt32 ∨ (netWord32 s.pending 0).toInt32 < 0 ∨
      (netWord32 s.pending 0).toNat ≤ s.pending.length) :
    Exec.Ends (readFromServerExpect env handle (4 + s.pending.length) expected vs s) := by
  have hblock := env.block_length 4
  obtain ⟨s₁, hrun, hpending₁, hsteady₁⟩ := @ByteStream.readLoop_eq VnsAssert 4
    (4 + s.pending.length) s [] (env.block 4) hsteady hlength (Nat.le_add_right _ _) hblock.ge
  rw [List.nil_append, List.nil_append, List.drop_of_length_le hblock.le, List.append_nil,
    List.length_nil] at hrun
  rw [readFromServerExpect, hrun, Exec.ok_bind]
  dsimp only
  rw [Bool.not_true, if_neg Bool.false_ne_true, loadNet32_take _ hlength, Exec.ok_bind]
  split
  · exact ends_ok _
  · rename_i hrange
    have hfits := (or_assoc.2 hwhole).resolve_left hrange
    refine ends_readBody hhandle _ _ fun buf hbuf => ?_
    by_cases hshort : (netWord32 s.pending 0).toNat ≤ 4
    · rw [Nat.sub_eq_zero_of_le hshort, ByteStream.readLoop]
      exact ends_ok _
    · obtain ⟨_, hrun', -⟩ := @ByteStream.readLoop_eq VnsAssert ((netWord32 s.pending 0).toNat - 4)
        (4 + s.pending.length) s₁ (buf.take 4) (buf.drop 4) hsteady₁
        (by rw [hpending₁, List.length_drop]; omega) (by omega)
        (by rw [List.length_drop, hbuf])
      rw [List.take_append_drop, List.length_take_of_le (by omega)] at hrun'
      rw [hrun']
      exact ends_ok _

/-- On a stream that fails no call a reader that ends has found the length, and refused it or found
the whole message. -/
theorem whole_of_ends {handle : PacketHandler} {fuel : Nat} {expected : UInt32}
    (hsteady : s.Steady)
    (hends : Exec.Ends (readFromServerExpect env handle fuel expected vs s)) :
    4 ≤ s.pending.length ∧
      (10000 < (netWord32 s.pending 0).toInt32 ∨ (netWord32 s.pending 0).toInt32 < 0 ∨
        (netWord32 s.pending 0).toNat ≤ s.pending.length) := by
  have hblock := env.block_length 4
  obtain ⟨hfirst, hrest⟩ := bind_ne_error.1 hends
  obtain ⟨hlength, s₁, hrun, hpending₁, hsteady₁⟩ :=
    @ByteStream.readLoop_of_ends VnsAssert 4 fuel s [] (env.block 4) hsteady hblock.ge hfirst
  refine ⟨hlength, or_assoc.1 (or_iff_not_imp_left.2 fun hrange => ?_)⟩
  have hbody := hrest _ hrun
  rw [List.nil_append, List.drop_of_length_le hblock.le, List.append_nil] at hbody
  dsimp only at hbody
  rw [Bool.not_true, if_neg Bool.false_ne_true, loadNet32_take _ hlength, Exec.ok_bind,
    if_neg hrange] at hbody
  by_cases hshort : (netWord32 s.pending 0).toNat ≤ 4
  · exact hshort.trans hlength
  · have hblock' := env.block_length (netWord32 s.pending 0).toNat
    have hsize := bigEndian_length 4 (netWord32 s.pending 0).toNat
    have hcopy : (memcpyAt (env.block (netWord32 s.pending 0).toNat) 0
        (bigEndian 4 (netWord32 s.pending 0).toNat) : Exec VnsAssert _) =
        .ok (bigEndian 4 (netWord32 s.pending 0).toNat ++
          (env.block (netWord32 s.pending 0).toNat).drop 4) := by
      rw [memcpyAt_zero, hsize]
      omega
    rw [readBody, hcopy, Exec.ok_bind] at hbody
    have hloop := (bind_ne_error.1 hbody).1
    have hpos : 4 = (bigEndian 4 (netWord32 s.pending 0).toNat).length := hsize.symm
    rw [hpos] at hloop
    have hfits := (@ByteStream.readLoop_of_ends VnsAssert _ fuel s₁ _ _ hsteady₁
      (by rw [List.length_drop]; omega) hloop).1
    rw [hpending₁, List.length_drop] at hfits
    omega

/-- The reader ends on every handler of packets that does, exactly on the settled streams: a peer
that closes the connection in the middle of a message keeps it in its loops for ever. -/
theorem reader_ends_iff (env : VnsEnv) (expected : UInt32) (vs : VnsSession) (s : ByteStream) :
    (∀ handle : PacketHandler, handle.Ends →
        ∃ fuel, Exec.Ends (readFromServerExpect env handle fuel expected vs s)) ↔ Settled s := by
  by_cases hfailed : .failed ∈ s.arrivals
  · exact iff_of_true (fun handle hhandle =>
      ⟨_, reader_ends_of_failed hhandle env expected vs hfailed⟩) (.inl hfailed)
  · refine ⟨fun h => .inr ?_, fun h handle hhandle => ?_⟩
    · obtain ⟨fuel, hends⟩ := h (fun sr _ _ _ => .ok sr) fun _ _ _ _ => ends_ok _
      exact whole_of_ends hfailed hends
    · obtain ⟨hlength, hwhole⟩ := h.resolve_left hfailed
      exact ⟨_, reader_ends_of_whole hhandle env expected vs hfailed hlength hwhole⟩

/-- The server closes the connection behind two bytes of the length. -/
theorem reader_stays :
    ¬Settled ⟨[0, 0], [.bytes 0, .interrupted]⟩ ∧
      ∀ fuel, readFromServerExpect sampleEnv (fun sr _ _ _ => .ok sr) fuel 0 sampleSession
        ⟨[0, 0], [.bytes 0, .interrupted]⟩ = .error .outOfFuel := by
  have hsteady : ByteStream.Steady ⟨[0, 0], [.bytes 0, .interrupted]⟩ := by decide
  have hshort : ¬4 ≤ ([0, 0] : List UInt8).length := by decide
  refine ⟨?_, fun fuel => ?_⟩
  · rintro (hfailed | ⟨hlength, -⟩)
    · exact hsteady hfailed
    · exact hshort hlength
  · by_contra hends
    exact hshort (whole_of_ends hsteady hends).1

end ComputerNetworks.Router
