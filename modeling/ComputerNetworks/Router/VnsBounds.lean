import ComputerNetworks.Core.Bounds
import ComputerNetworks.Router.VnsLink

/-!
# What a message makes the reader read

The reader and its handlers take what a message declares and contains without a
check of their own, beyond that of the length against 10000. For which messages
they stay inside the block, and derive only lengths that do not wrap, is
determined exactly.
-/

namespace ComputerNetworks.Router

open Vns Exec

variable {Site : Type} {env : VnsEnv} {vs : VnsSession} {sr : SrInstance} {buf : List UInt8}

/-- A field is read inside its block exactly if it lies there. -/
@[simp] theorem inside_loadField {α : Type} {field : List UInt8 → Nat → α} {n i : Nat}
    {b : List UInt8} : Inside (loadField field n b i : Exec Site α) ↔ i + n ≤ b.length := by
  unfold loadField
  split
  · next h => exact iff_of_true (inside_ok _) h
  · next h => exact iff_of_false not_inside h

/-- A comparison with an array stays inside a text that has a NUL, is long enough or differs. -/
theorem inside_strncmpSame {a b : List UInt8} {n : Nat} (ha : n ≤ a.length) :
    Inside (strncmpSame a b n : Exec Site Bool) ↔ 0 ∈ b ∨ n ≤ b.length ∨ ¬b <+: a := by
  induction n generalizing a b with
  | zero =>
    rw [strncmpSame]
    exact iff_of_true (inside_ok _) (Or.inr (Or.inl (Nat.zero_le _)))
  | succ n ih =>
    obtain ⟨x, a, rfl⟩ := List.exists_cons_of_length_pos (Nat.zero_lt_of_lt ha)
    cases b with
    | nil =>
      rw [strncmpSame]
      · refine iff_of_false not_inside ?_
        rintro (h | h | h)
        · cases h
        · cases h
        · exact h List.nil_prefix
      · intro _ _ _ _ _ hb
        cases hb
    | cons y b =>
      rw [strncmpSame]
      by_cases hxy : x = y
      · subst hxy
        rw [if_pos rfl]
        by_cases hx : x = 0
        · subst hx
          rw [if_pos rfl]
          exact iff_of_true (inside_ok _) (Or.inl List.mem_cons_self)
        · rw [if_neg hx, ih (Nat.le_of_succ_le_succ ha), List.mem_cons, List.length_cons,
            List.cons_prefix_cons, Nat.succ_le_succ_iff]
          have hne : ¬(0 : UInt8) = x := Ne.symm hx
          simp only [hne, false_or, true_and]
      · rw [if_neg hxy]
        refine iff_of_true (inside_ok _) (Or.inr (Or.inr fun h => hxy ?_))
        exact (List.cons_prefix_cons.1 h).1.symm

/-- A text without a NUL that is too short is told from an array only by a difference. -/
theorem strncmpSame_differs {a b : List UInt8} {n : Nat} (ha : n ≤ a.length) (hzero : 0 ∉ b)
    (hlen : ¬n ≤ b.length) (hdiffers : ¬b <+: a) :
    (strncmpSame a b n : Exec Site Bool) = .ok false := by
  induction n generalizing a b with
  | zero => exact absurd (Nat.zero_le _) hlen
  | succ n ih =>
    obtain ⟨x, a, rfl⟩ := List.exists_cons_of_length_pos (Nat.zero_lt_of_lt ha)
    cases b with
    | nil => exact absurd List.nil_prefix hdiffers
    | cons y b =>
      rw [List.mem_cons, not_or] at hzero
      rw [strncmpSame]
      by_cases hxy : x = y
      · subst hxy
        rw [if_pos rfl, if_neg (Ne.symm hzero.1)]
        apply ih (Nat.le_of_succ_le_succ ha) hzero.2
        · exact fun h => hlen (Nat.succ_le_succ h)
        · exact fun h => hdiffers (List.cons_prefix_cons.2 ⟨rfl, h⟩)
      · rw [if_neg hxy]

/-- The lookup of a name stays inside it where it has a NUL, is long enough or is not the start of
the name of an interface. -/
theorem inside_srGetInterface {name : List UInt8} (ifList : List SrIf) :
    Inside (srGetInterface name ifList : Exec Site (Option SrIf)) ↔
      0 ∈ name ∨ ifaceNamelen ≤ name.length ∨ ∀ i ∈ ifList, ¬name <+: i.name := by
  induction ifList with
  | nil => exact iff_of_true (inside_ok _) (Or.inr (Or.inr (List.forall_mem_nil _)))
  | cons i ifList ih =>
    rw [srGetInterface, inside_bind, inside_strncmpSame i.name_length.ge, List.forall_mem_cons]
    by_cases hends : 0 ∈ name ∨ ifaceNamelen ≤ name.length
    · have hall : ∀ p : Prop, 0 ∈ name ∨ ifaceNamelen ≤ name.length ∨ p :=
        fun p => or_assoc.1 (Or.inl hends)
      refine iff_of_true ⟨hall _, fun same _ => ?_⟩ (hall _)
      cases same with
      | true => exact inside_ok _
      | false => exact ih.2 (hall _)
    · obtain ⟨hzero, hlen⟩ := not_or.1 hends
      simp only [hzero, hlen, false_or] at ih ⊢
      refine and_congr_right fun hdiffers => ?_
      have hsame : (strncmpSame i.name name ifaceNamelen : Exec Site Bool) = .ok false :=
        strncmpSame_differs i.name_length.ge hzero hlen hdiffers
      simp only [hsame, Except.ok.injEq, forall_eq', Bool.false_eq_true, if_false]
      exact ih

/-- The routes name their interfaces in arrays of `sr_IFACE_NAMELEN` bytes. -/
def SrInstance.RoutesNamed (sr : SrInstance) : Prop :=
  ∀ rt ∈ sr.routingTable, rt.interface.length = ifaceNamelen

/-- The check of a table with names that end stays inside. -/
theorem inside_verifyRoutingTable (h : sr.RoutesNamed) : Inside (verifyRoutingTable sr) := by
  have hexists : ∀ rt : SrRt, rt.interface.length = ifaceNamelen → ∀ ifList : List SrIf,
      Inside (ifaceExists rt ifList) := by
    intro rt hrt ifList
    induction ifList with
    | nil => exact inside_ok _
    | cons i ifList ih =>
      rw [ifaceExists]
      apply Inside.bind
      · exact (inside_strncmpSame i.name_length.ge).2 (Or.inr (Or.inl hrt.ge))
      · intro same _
        cases same with
        | true => exact inside_ok _
        | false => exact ih
  have hloop : ∀ routes : List SrRt, (∀ rt ∈ routes, rt.interface.length = ifaceNamelen) →
      ∀ ret, Inside (verifyLoop sr.ifList routes ret) := by
    intro routes hroutes
    induction routes with
    | nil => exact fun ret => inside_ok ret
    | cons rt routes ih =>
      intro ret
      obtain ⟨hrt, hroutes⟩ := List.forall_mem_cons.1 hroutes
      exact Inside.bind (hexists rt hrt sr.ifList) fun _ _ => ih hroutes _
  unfold verifyRoutingTable
  split
  · exact inside_ok _
  · exact hloop sr.routingTable h 0

theorem inside_setLast (f : SrIf → SrIf) : Inside (setLast sr f) :=
  Inside.bind (inside_assert _ _) fun _ _ => inside_ok _

/-- An interface is added inside a full name block. -/
theorem inside_addInterface {name : List UInt8} (h : ifaceNamelen ≤ name.length) :
    Inside (addInterface env sr name) := by
  have hcopy := @strncpy_eq_of_le VnsAssert (List.replicate ifaceNamelen 0) name ifaceNamelen h
    List.length_replicate
  rw [addInterface_eq hcopy (strncpy_length hcopy)]
  exact inside_ok _

/-- An entry is read inside the body it lies in. -/
theorem inside_hwEntry {off : Nat} (h : off + hwEntrySize ≤ buf.length) :
    Inside (hwEntry env sr buf off) := by
  unfold hwEntrySize at h
  apply Inside.bind
  · exact inside_loadField.2 (by omega)
  · intro key _
    split
    · apply inside_addInterface
      rw [List.length_drop, ifaceNamelen]
      omega
    · split
      · exact Inside.bind (inside_loadField.2 (by omega)) fun _ _ => inside_setLast _
      · split
        · exact Inside.bind (inside_loadField.2 (by omega)) fun _ _ => inside_setLast _
        · exact inside_ok _

/-- All entries are read inside the body they lie in. -/
theorem inside_hwLoop {n off : Nat} (h : off + hwEntrySize * n ≤ buf.length) :
    Inside (hwLoop env buf n off sr) := by
  unfold hwEntrySize at h
  induction n generalizing off sr with
  | zero => exact inside_ok _
  | succ n ih =>
    apply Inside.bind
    · apply inside_hwEntry
      rw [hwEntrySize]
      omega
    · intro sr' _
      apply ih
      rw [hwEntrySize]
      omega

/-- The entries that are counted lie in the message. -/
theorem numEntries_message (m : WireMessage) :
    numEntries (UInt32.ofNat m.len) = ((m.len - 8) / 36 : Nat) := by
  have hsize := m.len_le
  have hlow : 8 ≤ m.len := Nat.le_add_right _ _
  rw [numEntries_eq, m.len_toNat]
  · rw [m.len_toNat]
    exact hlow
  · rw [m.len_toNat]
    omega

/-- No hardware description is read past its end. -/
theorem inside_handleHwinfo (m : WireMessage) : Inside (handleHwinfo env sr m.buffer) := by
  have hlow : 8 ≤ m.len := Nat.le_add_right _ _
  rw [handleHwinfo, m.loadNet32_buffer, Exec.ok_bind, numEntries_message]
  dsimp only
  rw [Int.toNat_natCast]
  apply Inside.bind
  · apply inside_hwLoop
    rw [m.buffer_length, hwEntrySize]
    omega
  · exact fun _ _ => inside_ok _

/-- The interfaces are all that the hardware information changes. -/
theorem hwEntry_routingTable {off : Nat} {out : SrInstance} (h : hwEntry env sr buf off = .ok out) :
    out.routingTable = sr.routingTable := by
  have hset : ∀ {f : SrIf → SrIf} {out : SrInstance}, setLast sr f = .ok out →
      out.routingTable = sr.routingTable := by
    intro f out hset
    obtain ⟨_, _, hset⟩ := Exec.bind_eq_ok.1 hset
    cases hset
    rfl
  obtain ⟨key, -, h⟩ := Exec.bind_eq_ok.1 h
  split at h
  · unfold addInterface at h
    split at h
    · cases h
    · cases h
      rfl
  · split at h
    · obtain ⟨ip, -, h⟩ := Exec.bind_eq_ok.1 h
      exact hset h
    · split at h
      · obtain ⟨mac, -, h⟩ := Exec.bind_eq_ok.1 h
        exact hset h
      · cases h
        rfl

/-- A hardware description leaves the routes as they are. -/
theorem handleHwinfo_routingTable {out : SrInstance × Int} (h : handleHwinfo env sr buf = .ok out) :
    out.1.routingTable = sr.routingTable := by
  have hloop : ∀ n off (sr : SrInstance) out, hwLoop env buf n off sr = .ok out →
      out.routingTable = sr.routingTable := by
    intro n
    induction n with
    | zero =>
      intro off sr out h
      cases h
      rfl
    | succ n ih =>
      intro off sr out h
      obtain ⟨sr', hentry, h⟩ := Exec.bind_eq_ok.1 h
      exact (ih _ _ _ h).trans (hwEntry_routingTable hentry)
  obtain ⟨len, -, h⟩ := Exec.bind_eq_ok.1 h
  obtain ⟨sr', hrun, h⟩ := Exec.bind_eq_ok.1 h
  cases h
  exact hloop _ _ _ _ hrun

/-- The name of a host in a message, up to its NUL. -/
def WireMessage.host (m : WireMessage) : List UInt8 := m.body.takeWhile (· != 0)

/-- The length of a table wraps for a message too short for the name of its host. -/
theorem rtableLength_toNat (m : WireMessage) :
    (rtableLength (UInt32.ofNat m.len)).toNat =
      if 40 ≤ m.len then m.len - 40 else m.len + (2 ^ 32 - 40) := by
  have hsize := m.len_le
  have h8 : (8 : UInt32).toNat = 8 := rfl
  have h32 : (32 : UInt32).toNat = 32 := rfl
  rw [rtableLength, UInt32.toNat_sub, UInt32.toNat_sub, m.len_toNat, h8, h32]
  split <;> omega

/-- The handler of a routing table needs a host that ends and fits its array, and a message with
room for its field. -/
theorem inside_handleRtable (m : WireMessage) : Inside (handleRtable env vs m.buffer) ↔
    0 ∈ m.body ∧ m.host.length ≤ 32 ∧ (env.opens (rtablePrefix ++ m.host) = true → 40 ≤ m.len) := by
  have hsize := m.len_le
  obtain ⟨fn, hfn, hlen, -⟩ := @memcpyAt_spec VnsAssert (env.block 40) (rtablePrefix ++ [0]) 0
    (by rw [env.block_length]; decide)
  rw [env.block_length] at hlen
  rw [handleRtable, hfn, Exec.ok_bind, inside_bind, inside_cstr, m.drop_buffer]
  refine and_congr_right fun hzero => ?_
  have hhost : (cstr m.buffer 8 : Exec VnsAssert (List UInt8)) = .ok m.host := by
    rw [cstr, m.drop_buffer, if_pos hzero]
    rfl
  simp only [hhost, Except.ok.injEq, forall_eq']
  have hread : Inside (readAt m.buffer 40 (rtableLength (UInt32.ofNat m.len)).toNat :
      Exec VnsAssert (List UInt8)) ↔ 40 ≤ m.len := by
    rw [inside_readAt, m.buffer_length, rtableLength_toNat]
    split <;> omega
  rw [inside_bind, inside_memcpyAt, hlen, List.length_append, List.length_singleton]
  constructor
  · rintro ⟨hfits, hrest⟩
    obtain ⟨fn', hcopy, -⟩ := @memcpyAt_spec VnsAssert fn (m.host ++ [0]) 7
      (by rw [hlen, List.length_append]; exact hfits)
    refine ⟨by omega, fun hopens => ?_⟩
    have htable := hrest fn' hcopy
    rw [if_pos hopens, m.loadNet32_buffer, Exec.ok_bind, inside_bind, hread] at htable
    exact htable.1
  · rintro ⟨hfits, hlong⟩
    refine ⟨by omega, fun fn' _ => ?_⟩
    split
    · next hopens =>
        rw [m.loadNet32_buffer, Exec.ok_bind]
        exact Inside.bind (hread.2 (hlong hopens)) fun _ _ => inside_ok _
    · exact inside_ok _

/-- The salt is what follows the two header words. -/
theorem saltLength_toNat (m : WireMessage) :
    (saltLength (UInt32.ofNat m.len)).toNat = m.len - 8 := by
  have hsize := m.len_le
  have hlow : 8 ≤ m.len := Nat.le_add_right _ _
  have h8 : (8 : UInt64).toNat = 8 := rfl
  have hlen : (UInt32.ofNat m.len).toUInt64.toNat = m.len := by
    rw [UInt32.toNat_toUInt64, m.len_toNat]
  rw [saltLength, UInt64.toNat_toUInt32, UInt64.toNat_sub, hlen, h8]
  omega

/-- No authentication request is read past its end. -/
theorem inside_handleAuthRequest (m : WireMessage) :
    Inside (handleAuthRequest env vs m.buffer) := by
  have hlow : 8 ≤ m.len := Nat.le_add_right _ _
  unfold handleAuthRequest
  split
  · exact inside_ok _
  · exact inside_ok _
  · next key hkey _ =>
      rw [m.loadNet32_buffer, Exec.ok_bind]
      apply Inside.bind
      · rw [inside_readAt, m.buffer_length, saltLength_toNat]
        omega
      · intro salt _
        apply Inside.bind
        · rw [inside_readAt, hkey]
          decide
        · intro key _
          split
          · exact inside_ok _
          · split
            · exact inside_ok _
            · exact inside_ok _

/-- The handler of a status needs the status and, behind a rejection, its reason with a NUL. -/
theorem inside_handleAuthStatus (m : WireMessage) : Inside (handleAuthStatus m.buffer) ↔
    9 ≤ m.len ∧ (m.body.head? = some 0 → 0 ∈ m.body.tail) := by
  rw [handleAuthStatus, inside_bind, load8, inside_loadField, m.buffer_length]
  refine and_congr_right fun hlong => ?_
  obtain ⟨c, msg, hbody⟩ : ∃ c msg, m.body = c :: msg := by
    apply List.exists_cons_of_length_pos
    rw [WireMessage.len] at hlong
    omega
  have hstatus : (loadField byteAt 1 m.buffer 8 : Exec VnsAssert UInt8) = .ok c := by
    rw [loadField_of_le (by rw [m.buffer_length]; exact hlong), ← byteAt_drop _ 8 0,
      m.drop_buffer, hbody]
    rfl
  have hmsg : m.buffer.drop 9 = msg := by
    rw [← List.drop_drop (i := 1) (j := 8), m.drop_buffer, hbody]
    rfl
  simp only [hstatus, Except.ok.injEq, forall_eq', hbody, List.head?_cons, Option.some.injEq,
    List.tail_cons]
  by_cases hc : c = 0
  · rw [if_neg (not_not.2 hc), inside_bind, inside_cstr, hmsg]
    simp [hc]
  · rw [if_pos hc]
    exact iff_of_true (inside_ok _) fun h => absurd h hc

/-- A frame is looked at inside the message, if the name of its interface is. -/
theorem inside_arpReqNotForUs {m : WireMessage} (hlong : 24 ≤ m.len) :
    Inside (arpReqNotForUs sr (m.buffer.drop 24) (frameLength m.len) (m.buffer.drop 8)) ↔
      Inside (srGetInterface m.body sr.ifList : Exec VnsAssert (Option SrIf)) := by
  have hframe : (m.buffer.drop 24).length = m.len - 24 := by
    rw [List.length_drop, m.buffer_length]
  rw [arpReqNotForUs, m.drop_buffer, inside_bind]
  refine and_iff_left fun found _ => ?_
  split
  · exact inside_ok _
  · next hsize =>
      have h42 : (42 : UInt32).toNat = 42 := rfl
      rw [UInt32.lt_iff_toNat_lt, frameLength_toNat m.len_le, if_pos hlong,
        h42] at hsize
      split
      · exact inside_assertion _
      · apply Inside.bind
        · exact inside_loadField.2 (by omega)
        · intro type _
          split
          · apply Inside.bind
            · exact inside_loadField.2 (by omega)
            · intro op _
              split
              · exact Inside.bind (inside_loadField.2 (by omega)) fun _ _ => inside_ok _
              · exact inside_ok _
          · exact inside_ok _

/-- The log takes no more than the frame. -/
theorem inside_logPacket {m : WireMessage} (hlong : 24 ≤ m.len) :
    Inside (logPacket vs (m.buffer.drop 24)
      ((UInt32.ofNat m.len).toUInt64 - 24).toUInt32.toInt32) := by
  have hsize := m.len_le
  have hframe : (m.buffer.drop 24).length = m.len - 24 := by
    rw [List.length_drop, m.buffer_length]
  obtain ⟨n, hn⟩ : ∃ n, m.len = n + 24 := ⟨m.len - 24, by omega⟩
  have hlog : ((UInt32.ofNat m.len).toUInt64 - 24).toUInt32 =
      UInt32.ofNat (m.buffer.drop 24).length := by
    rw [hframe, hn, logLength_eq (by omega), Nat.add_sub_cancel]
  rw [hlog, logPacket_eq (by omega)]
  exact inside_ok _

/-- Handlers of packets whose own accesses are inside. -/
def PacketHandler.StaysInside (handle : PacketHandler) : Prop :=
  ∀ sr packet len interface, Inside (handle sr packet len interface)

/-- A packet with a full header is handled inside exactly if its interface is found inside. -/
theorem inside_packetCase {handle : PacketHandler} (hhandle : handle.StaysInside) {m : WireMessage}
    (hlong : 24 ≤ m.len) : Inside (packetCase handle vs m.len m.buffer) ↔
      Inside (srGetInterface m.body vs.sr.ifList : Exec VnsAssert (Option SrIf)) := by
  rw [packetCase, inside_bind, inside_arpReqNotForUs hlong]
  refine and_iff_left fun drop _ => ?_
  split
  · exact inside_ok _
  · rw [m.loadNet32_buffer, Exec.ok_bind]
    apply Inside.bind (inside_logPacket hlong)
    intro vs' _
    exact Inside.bind (inside_within.2 (hhandle _ _ _ _)) fun _ _ => inside_ok _

/-- The reader goes on to the switch. -/
def Dispatches (expected type : UInt32) : Prop := expected = 0 ∨ type = expected ∨ type = vnsClose

/-- A message from which the reader and its handlers take nothing that is not there. -/
structure Suffices (env : VnsEnv) (expected : UInt32) (vs : VnsSession) (len : Nat) (type : UInt32)
    (body : List UInt8) : Prop where
  /-- There are a length and a type. -/
  header : 8 ≤ len
  /-- A packet has its header, and its name is told from those of the interfaces. -/
  packet : Dispatches expected type → type = vnsPacket →
    24 ≤ len ∧ (0 ∈ body ∨ 40 ≤ len ∨ ∀ i ∈ vs.sr.ifList, ¬body <+: i.name)
  /-- A text ends. -/
  text : Dispatches expected type → type = vnsClose ∨ type = vnsBanner → 0 ∈ body
  /-- The name of a host ends and fits the array, and there is all of its field. -/
  rtable : Dispatches expected type → type = vnsRtable →
    0 ∈ body ∧ (body.takeWhile (· != 0)).length ≤ 32 ∧
      (env.opens (rtablePrefix ++ body.takeWhile (· != 0)) = true → 40 ≤ len)
  /-- There is a status, and the reason of a rejection ends. -/
  status : Dispatches expected type → type = vnsAuthStatus →
    9 ≤ len ∧ (body.head? = some 0 → 0 ∈ body.tail)

/-- The lengths that are derived of a message, each with the number it stands for. -/
def derivedLengths (env : VnsEnv) (len : Nat) (type : UInt32) (body : List UInt8) :
    List (Int × Int) :=
  if type = vnsPacket then [((frameLength len).toNat, (len : Int) - 24)]
  else if type = vnsHwinfo then [(numEntries (UInt32.ofNat len), ((len : Int) - 8) / 36)]
  else if type = vnsRtable then
    if env.opens (rtablePrefix ++ body.takeWhile (· != 0)) then
      [((rtableLength (UInt32.ofNat len)).toNat, (len : Int) - 40)]
    else []
  else if type = vnsAuthRequest then [((saltLength (UInt32.ofNat len)).toNat, (len : Int) - 8)]
  else []

/-- The reader stays inside the message, whatever handler of packets does, and derives no length
that is negative or wraps. -/
structure LooksInside (env : VnsEnv) (fuel : Nat) (expected : UInt32) (vs : VnsSession)
    (s : ByteStream) (len : Nat) (type : UInt32) (body : List UInt8) : Prop where
  reads : ∀ handle : PacketHandler, handle.StaysInside →
    Inside (readFromServerExpect env handle fuel expected vs s)
  lengths : Dispatches expected type →
    ∀ p ∈ derivedLengths env len type body, 0 ≤ p.2 ∧ p.1 = p.2

/-- The commands are told apart. -/
theorem inside_switchCommand {handle : PacketHandler} (hhandle : handle.StaysInside)
    (hroutes : vs.sr.RoutesNamed) {m : WireMessage} (hlong : m.type = vnsPacket → 24 ≤ m.len) :
    Inside (switchCommand env handle vs m.len m.type m.buffer) ↔
      (m.type = vnsPacket →
        0 ∈ m.body ∨ 40 ≤ m.len ∨ ∀ i ∈ vs.sr.ifList, ¬m.body <+: i.name) ∧
      (m.type = vnsClose ∨ m.type = vnsBanner → 0 ∈ m.body) ∧
      (m.type = vnsRtable → 0 ∈ m.body ∧ m.host.length ≤ 32 ∧
        (env.opens (rtablePrefix ++ m.host) = true → 40 ≤ m.len)) ∧
      (m.type = vnsAuthStatus → 9 ≤ m.len ∧ (m.body.head? = some 0 → 0 ∈ m.body.tail)) := by
  have htext : ∀ ret : Int, Inside ((do
      let _ ← cstr m.buffer 8
      pure (ret, vs)) : Exec VnsAssert (Int × VnsSession)) ↔ 0 ∈ m.body := by
    intro ret
    rw [inside_bind_pure, inside_cstr, m.drop_buffer]
  have hname : ifaceNamelen ≤ m.body.length ↔ 40 ≤ m.len := by
    rw [ifaceNamelen, WireMessage.len]
    omega
  unfold switchCommand
  by_cases hpacket : m.type = vnsPacket
  · rw [if_pos hpacket, inside_bind_pure, inside_packetCase hhandle (hlong hpacket),
      inside_srGetInterface, hname, hpacket]
    simp [vnsPacket, vnsClose, vnsBanner, vnsRtable, vnsAuthStatus]
  rw [if_neg hpacket]
  by_cases hclose : m.type = vnsClose
  · rw [if_pos hclose, htext, hclose]
    simp [vnsPacket, vnsClose, vnsRtable, vnsAuthStatus]
  rw [if_neg hclose]
  by_cases hbanner : m.type = vnsBanner
  · rw [if_pos hbanner, htext, hbanner]
    simp [vnsPacket, vnsBanner, vnsRtable, vnsAuthStatus]
  rw [if_neg hbanner]
  simp only [hpacket, hclose, hbanner, false_imp_iff, or_self, true_and]
  by_cases hhwinfo : m.type = vnsHwinfo
  · rw [if_pos hhwinfo, hhwinfo]
    refine iff_of_true ?_ ⟨fun h => absurd h (by decide), fun h => absurd h (by decide)⟩
    apply Inside.bind (inside_handleHwinfo m)
    intro out hout
    apply Inside.bind
    · apply inside_verifyRoutingTable
      unfold SrInstance.RoutesNamed
      rw [handleHwinfo_routingTable hout]
      exact hroutes
    · intro ret _
      split
      · exact inside_ok _
      · exact inside_ok _
  rw [if_neg hhwinfo]
  by_cases hrtable : m.type = vnsRtable
  · rw [if_pos hrtable, inside_bind_pure, inside_handleRtable, hrtable]
    simp [vnsRtable, vnsAuthStatus]
  rw [if_neg hrtable]
  simp only [hrtable, false_imp_iff, true_and]
  by_cases hrequest : m.type = vnsAuthRequest
  · rw [if_pos hrequest, inside_bind_pure, hrequest]
    exact iff_of_true (inside_handleAuthRequest m) fun h => absurd h (by decide)
  rw [if_neg hrequest]
  by_cases hstatus : m.type = vnsAuthStatus
  · rw [if_pos hstatus, inside_bind_pure, inside_handleAuthStatus]
    exact ⟨fun h _ => h, fun h => h hstatus⟩
  · rw [if_neg hstatus]
    exact iff_of_true (inside_ok _) fun h => absurd h hstatus

/-- The lengths of a packet and of a routing table may wrap, the others do not. -/
theorem derivedLengths_iff (m : WireMessage) :
    (∀ p ∈ derivedLengths env m.len m.type m.body, 0 ≤ p.2 ∧ p.1 = p.2) ↔
      (m.type = vnsPacket → 24 ≤ m.len) ∧
      (m.type = vnsRtable → env.opens (rtablePrefix ++ m.host) = true → 40 ≤ m.len) := by
  have hsize := m.len_le
  have hlow : 8 ≤ m.len := Nat.le_add_right _ _
  have hhost : m.body.takeWhile (· != 0) = m.host := rfl
  unfold derivedLengths
  by_cases hpacket : m.type = vnsPacket
  · rw [if_pos hpacket, List.forall_mem_singleton, frameLength_toNat hsize, hpacket]
    have hne : ¬vnsPacket = vnsRtable := by decide
    simp only [hne, false_imp_iff, and_true, true_imp_iff]
    split <;> omega
  rw [if_neg hpacket]
  simp only [hpacket, false_imp_iff, true_and]
  by_cases hhwinfo : m.type = vnsHwinfo
  · rw [if_pos hhwinfo, List.forall_mem_singleton, numEntries_message, hhwinfo]
    refine iff_of_true ?_ fun h => absurd h (by decide)
    constructor
    · omega
    · omega
  rw [if_neg hhwinfo]
  by_cases hrtable : m.type = vnsRtable
  · rw [if_pos hrtable, hhost]
    simp only [hrtable, true_imp_iff]
    split
    · next hopens =>
        rw [List.forall_mem_singleton, rtableLength_toNat]
        simp only [hopens, true_imp_iff]
        split <;> omega
    · next hopens => exact iff_of_true (List.forall_mem_nil _) fun h => absurd h hopens
  rw [if_neg hrtable]
  simp only [hrtable, false_imp_iff, iff_true]
  split
  · rw [List.forall_mem_singleton, saltLength_toNat]
    omega
  · exact List.forall_mem_nil _

/-- A message without room for its length and its type is written or read outside its block. -/
theorem not_inside_readBody {handle : PacketHandler} {fuel len : Nat} {expected : UInt32}
    {s : ByteStream} {content rest : List UInt8} (hlen : len < 8)
    (hcontent : content.length = len - 4)
    (hpending : s.pending = content ++ rest) (hsteady : s.Steady) (hfuel : len ≤ fuel) :
    ¬Inside (readBody env handle fuel expected vs s len) := by
  intro hinside
  by_cases hheader : 4 ≤ len
  · obtain ⟨s', -, -, hrun⟩ :=
      @readBody_block env handle vs s len content rest fuel expected hheader
        hcontent hpending hsteady hfuel
    rw [hrun, inside_bind, loadNet32, inside_loadField, List.length_append, bigEndian_length,
      hcontent] at hinside
    omega
  · rw [readBody, inside_bind, inside_memcpyAt, bigEndian_length, env.block_length,
      Nat.zero_add] at hinside
    exact hheader hinside.1

/-- What follows the length is the type and the body. -/
theorem bytes_of_content {content : List UInt8} (h : 4 ≤ content.length) :
    bigEndian 4 (netWord32 content 0).toNat ++ content.drop 4 = content := by
  have htake : (content.take 4).length = 4 := by
    rw [List.length_take]
    omega
  have htype := bigEndian_ofBigEndian (content.take 4)
  rw [htake] at htype
  rw [netWord32_toNat, List.drop_zero, htype, List.take_append_drop]

/-- Messages of 8 bytes or more reach the switch. -/
theorem looksInside_message {m : WireMessage} {s : ByteStream} {rest : List UInt8} {fuel : Nat}
    {expected : UInt32} (hpending : s.pending = m.bytes ++ rest) (hsteady : s.Steady)
    (hfuel : 10000 ≤ fuel) (hroutes : vs.sr.RoutesNamed) :
    LooksInside env fuel expected vs s m.len m.type m.body ↔
      Suffices env expected vs m.len m.type m.body := by
  have hlow : 8 ≤ m.len := Nat.le_add_right _ _
  have hrun : ∀ handle, Inside (readFromServerExpect env handle fuel expected vs s) ↔
      Inside (dispatch env handle expected vs m.len m.type m.buffer) := by
    intro handle
    obtain ⟨s', -, -, hcall⟩ :=
      @readFromServerExpect_eq env handle vs s m rest fuel expected hpending hsteady hfuel
    rw [hcall]
    exact inside_bind_pure
  by_cases hdispatch : Dispatches expected m.type
  · have hswitch : ∀ handle : PacketHandler,
        dispatch env handle expected vs m.len m.type m.buffer =
          switchCommand env handle vs m.len m.type m.buffer := by
      intro handle
      rw [dispatch, if_neg]
      rintro ⟨hexpected, htype, hclose⟩
      rcases hdispatch with h | h | h
      · exact hexpected h
      · exact htype h
      · exact hclose h
    constructor
    · intro h
      obtain ⟨hlong, hopens⟩ := (derivedLengths_iff m).1 (h.lengths hdispatch)
      have hstays : PacketHandler.StaysInside fun sr _ _ _ => .ok sr := fun _ _ _ _ => inside_ok _
      have hinside := (hrun _).1 (h.reads _ hstays)
      rw [hswitch, inside_switchCommand hstays hroutes hlong] at hinside
      obtain ⟨hname, htext, hrtable, hstatus⟩ := hinside
      exact ⟨hlow, fun _ htype => ⟨hlong htype, hname htype⟩, fun _ => htext, fun _ => hrtable,
        fun _ => hstatus⟩
    · intro h
      have hlong : m.type = vnsPacket → 24 ≤ m.len := fun htype => (h.packet hdispatch htype).1
      constructor
      · intro handle hhandle
        rw [hrun, hswitch, inside_switchCommand hhandle hroutes hlong]
        exact ⟨fun htype => (h.packet hdispatch htype).2, h.text hdispatch, h.rtable hdispatch,
          h.status hdispatch⟩
      · intro _
        exact (derivedLengths_iff m).2 ⟨hlong, fun htype => (h.rtable hdispatch htype).2.2⟩
  · have hskip : ∀ handle : PacketHandler,
        dispatch env handle expected vs m.len m.type m.buffer = .ok (-1, vs) := by
      intro handle
      unfold Dispatches at hdispatch
      rw [not_or, not_or] at hdispatch
      rw [dispatch, if_pos hdispatch]
    refine iff_of_true ⟨fun handle _ => ?_, fun h => absurd h hdispatch⟩ ⟨hlow, ?_, ?_, ?_, ?_⟩
    · rw [hrun, hskip]
      exact inside_ok _
    all_goals exact fun h => absurd h hdispatch

/-- For a message whose length passes the check, the reader and its handlers stay inside it, and
derive no length that wraps, exactly where the message suffices for what they take from it. -/
theorem looksInside_iff {len : Nat} {content rest : List UInt8} {s : ByteStream} {fuel : Nat}
    {expected : UInt32} (hlen : len ≤ 10000) (hcontent : content.length = len - 4)
    (hpending : s.pending = bigEndian 4 len ++ (content ++ rest)) (hsteady : s.Steady)
    (hfuel : 10000 ≤ fuel) (hroutes : vs.sr.RoutesNamed) :
    LooksInside env fuel expected vs s len (netWord32 content 0) (content.drop 4) ↔
      Suffices env expected vs len (netWord32 content 0) (content.drop 4) := by
  by_cases hlow : 8 ≤ len
  · have hbody : (content.drop 4).length = len - 8 := by
      rw [List.length_drop, hcontent]
      omega
    obtain ⟨m, rfl, htype, hmessage⟩ : ∃ m : WireMessage, len = m.len ∧
        netWord32 content 0 = m.type ∧ content.drop 4 = m.body :=
      ⟨⟨netWord32 content 0, content.drop 4, by omega⟩,
        by show len = 8 + (content.drop 4).length; omega, rfl, rfl⟩
    have hbytes : bigEndian 4 m.type.toNat ++ m.body = content := by
      rw [← htype, ← hmessage, bytes_of_content (by omega)]
    rw [htype, hmessage]
    apply looksInside_message _ hsteady hfuel hroutes
    · exact rest
    · rw [hpending, ← hbytes, WireMessage.bytes, ltFrame, List.append_assoc]
      rfl
  · refine iff_of_false (fun h => ?_) fun h => hlow h.header
    have hstays : PacketHandler.StaysInside fun sr _ _ _ => .ok sr := fun _ _ _ _ => inside_ok _
    obtain ⟨s', hpending', hsteady', hrun⟩ := @readFromServerExpect_length env
      (fun sr _ _ _ => .ok sr) vs s len _ fuel expected hlen hpending hsteady (by omega)
    have hbody := h.reads _ hstays
    rw [hrun] at hbody
    exact not_inside_readBody (Nat.lt_of_not_le hlow) hcontent hpending' hsteady'
      (hlen.trans hfuel) hbody

/-- The banner `hi`, behind its type. -/
def bannerContent : List UInt8 := [0, 0, 0, 8, 104, 105, 0]

theorem looksInside_iff_banner :
    LooksInside sampleEnv 10000 0 sampleSession ⟨bigEndian 4 11 ++ (bannerContent ++ []), []⟩ 11
        (netWord32 bannerContent 0) (bannerContent.drop 4) ↔
      Suffices sampleEnv 0 sampleSession 11 (netWord32 bannerContent 0) (bannerContent.drop 4) :=
  looksInside_iff (by decide) rfl rfl (by decide) le_rfl (List.forall_mem_nil _)

/-- A routing table without room for the name of its host, and a message of four bytes. -/
theorem not_looksInside :
    ¬LooksInside sampleEnv 10000 0 sampleSession
        ⟨bigEndian 4 16 ++ (bigEndian 4 32 ++ [118, 0, 0, 0, 0, 0, 0, 0]), []⟩ 16 vnsRtable
        [118, 0, 0, 0, 0, 0, 0, 0] ∧
      readFromServerExpect sampleEnv (fun sr _ _ _ => .ok sr) 10000 0 sampleSession
        ⟨bigEndian 4 4, []⟩ = .error .outOfBounds := by
  constructor
  · intro h
    have hwraps := h.lengths (Or.inl rfl) ((rtableLength 16).toNat, -24) (by decide)
    exact absurd hwraps.1 (by decide)
  · decide +kernel

end ComputerNetworks.Router
