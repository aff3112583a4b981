import ComputerNetworks.Core.ByteStream
import ComputerNetworks.Core.StructFormat
import ComputerNetworks.Router.Packet
import Mathlib.Data.List.ModifyLast

/-!
# The session with the VNS server

`sr_read_from_server_expect` of `sr_vns_comm.c` with its handlers, the functions of
`sr_if.c` they call, and `sr_verify_routing_table`. A message is read into a block
of its declared length, its type is converted to host order in place, and the
handlers take their fields from the block.
-/

namespace ComputerNetworks.Router

/-- The assertions on the path of a message. -/
inductive VnsAssert where
  /-- `assert(sr->if_list)`. -/
  | ifList
  /-- `assert(iface)` in `sr_arp_req_not_for_us`. -/
  | iface
  /-- One of `sr_handlepacket`. -/
  | router (site : RouterAssert)
  deriving DecidableEq, Repr

variable {Site : Type}

/-- `ntohl` of the `uint32_t` at an offset. -/
def netWord32 (b : List UInt8) (i : Nat) : UInt32 := UInt32.ofNat (ofBigEndian ((b.drop i).take 4))

/-- Read a `uint32_t` and convert it to host order. -/
def loadNet32 (b : List UInt8) (i : Nat) : Exec Site UInt32 := loadField netWord32 4 b i

/-- A word in network order is a big-endian number. -/
theorem netWord32_toNat (b : List UInt8) (i : Nat) :
    (netWord32 b i).toNat = ofBigEndian ((b.drop i).take 4) := by
  have hlt := ofBigEndian_lt ((b.drop i).take 4)
  have hle : ((b.drop i).take 4).length ≤ 4 := List.length_take_le _ _
  have hpow : 256 ^ ((b.drop i).take 4).length ≤ 256 ^ 4 := Nat.pow_le_pow_right (by decide) hle
  rw [netWord32, UInt32.toNat_ofNat']
  exact Nat.mod_eq_of_lt (hlt.trans_le hpow)

theorem netWord32_of_drop {b rest : List UInt8} {i v : Nat} (h : b.drop i = bigEndian 4 v ++ rest)
    (hv : v < 2 ^ 32) : netWord32 b i = UInt32.ofNat v := by
  rw [netWord32, h, List.take_left' (bigEndian_length 4 v), ofBigEndian_bigEndian hv]

/-- What reading the file `auth_key` yields: the array behind `fgets`, if it could be read. -/
inductive AuthKey where
  | missing
  | unreadable
  | line (key : List UInt8) (key_length : key.length = 65)

/-- What the calls of one message meet: the contents of new blocks and arrays, not initialised,
whether `fopen` of a routing-table file succeeds, the key, the digest of SHA-1, and whether `send`
sends everything. The allocator does what it is asked to. -/
structure VnsEnv where
  block : Nat → List UInt8
  block_length : ∀ n, (block n).length = n
  newIf : Nat → EtherAddr × UInt32
  opens : List UInt8 → Bool
  authKey : AuthKey
  sha1 : List UInt8 → Option (Fin 5 → UInt32)
  sends : Bool

/-- The router with the rest of its session: the user name, the frames logged if there is a log
file, the routing-table files written, the messages sent, and whether the socket is open. -/
structure VnsSession where
  sr : SrInstance
  user : List UInt8
  log : Option (List (List UInt8))
  files : List (List UInt8 × List UInt8)
  sent : List (List UInt8)
  isOpen : Bool

/-- `sr_handlepacket` with the block a packet pointer leads into, the length, and the block the
pointer to a name leads into. -/
abbrev PacketHandler := SrInstance → List UInt8 → UInt32 → List UInt8 → Exec RouterAssert SrInstance

/-- A bounded copy leaves the target its length. -/
theorem strncpy_length {dst src out : List UInt8} {n : Nat}
    (h : (strncpy dst src n : Exec Site (List UInt8)) = .ok out) : out.length = dst.length := by
  unfold strncpy at h
  dsimp only at h
  split at h
  · exact memcpyAt_length h
  · split at h
    · exact memcpyAt_length h
    · cases h

/-- `sr_add_interface`. -/
def addInterface (env : VnsEnv) (sr : SrInstance) (name : List UInt8) : Exec VnsAssert SrInstance :=
  match h : (strncpy (List.replicate ifaceNamelen 0) name ifaceNamelen :
      Exec VnsAssert (List UInt8)) with
  | .error fault => .error fault
  | .ok bytes =>
    let (addr, ip) := env.newIf sr.ifList.length
    .ok { sr with
      ifList := sr.ifList ++ [⟨bytes, addr, ip, (strncpy_length h).trans List.length_replicate⟩] }

/-- An interface is added with the name that is copied. -/
theorem addInterface_eq {env : VnsEnv} {sr : SrInstance} {name bytes : List UInt8}
    (h : (strncpy (List.replicate ifaceNamelen 0) name ifaceNamelen :
      Exec VnsAssert (List UInt8)) = .ok bytes) (hlen : bytes.length = ifaceNamelen) :
    addInterface env sr name = .ok { sr with
      ifList := sr.ifList ++
        [⟨bytes, (env.newIf sr.ifList.length).1, (env.newIf sr.ifList.length).2, hlen⟩] } := by
  unfold addInterface
  split
  · rename_i hfault
    cases h.symm.trans hfault
  · rename_i hcopy
    cases h.symm.trans hcopy
    rfl

/-- A change of the last interface. -/
def setLast (sr : SrInstance) (f : SrIf → SrIf) : Exec VnsAssert SrInstance := do
  assert (sr.ifList ≠ []) .ifList
  pure { sr with ifList := sr.ifList.modifyLast f }

/-- `sr_set_ether_addr`. -/
def setEtherAddr (sr : SrInstance) (addr : EtherAddr) : Exec VnsAssert SrInstance :=
  setLast sr fun i => { i with addr }

/-- `sr_set_ether_ip`. -/
def setEtherIp (sr : SrInstance) (ip : UInt32) : Exec VnsAssert SrInstance :=
  setLast sr fun i => { i with ip }

/-- The name of a route's interface is one of the list. -/
def ifaceExists (rt : SrRt) : List SrIf → Exec VnsAssert Bool
  | [] => .ok false
  | i :: rest => do
    if ← strncmpSame i.name rt.interface ifaceNamelen then pure true else ifaceExists rt rest

/-- The loop of `sr_verify_routing_table`. -/
def verifyLoop (ifList : List SrIf) : List SrRt → Nat → Exec VnsAssert Nat
  | [], ret => .ok ret
  | rt :: rest, ret => do
    let found ← ifaceExists rt ifList
    verifyLoop ifList rest (if found then ret else ret + 1)

/-- `sr_verify_routing_table`. -/
def verifyRoutingTable (sr : SrInstance) : Exec VnsAssert Nat :=
  if sr.ifList = [] ∨ sr.routingTable = [] then .ok 999
  else verifyLoop sr.ifList sr.routingTable 0

/-- `HWINTERFACE`. -/
def hwInterface : UInt32 := 1

/-- `HWETHER`. -/
def hwEther : UInt32 := 32

/-- `HWETHIP`. -/
def hwEthIp : UInt32 := 64

/-- The size of `c_hw_entry`. -/
def hwEntrySize : Nat := 36

/-- The number of entries: the subtraction and the division are done in a `size_t`, the result is an
`int`. -/
def numEntries (mLen : UInt32) : Int := ((mLen.toUInt64 - 8) / 36).toUInt32.toInt32.toInt

/-- A number of 31 bits keeps its value. -/
theorem toInt32_of_lt {v : UInt32} (h : v.toNat < 2 ^ 31) : v.toInt32.toInt = v.toNat := by
  have h2 : v.toInt32.toInt = v.toBitVec.toInt := rfl
  rw [h2, BitVec.toInt_eq_toNat_of_lt]
  · rfl
  · show 2 * v.toNat < 2 ^ 32
    omega

/-- The number of entries is what the length allows for. -/
theorem numEntries_eq {v : UInt32} (hlow : 8 ≤ v.toNat) (hhigh : v.toNat < 2 ^ 31) :
    numEntries v = ((v.toNat - 8) / 36 : Nat) := by
  have h8 : (8 : UInt64).toNat = 8 := rfl
  have h36 : (36 : UInt64).toNat = 36 := rfl
  have hle : (8 : UInt64) ≤ v.toUInt64 := by
    rw [UInt64.le_iff_toNat_le, UInt32.toNat_toUInt64]
    exact hlow
  have hdiv : ((v.toUInt64 - 8) / 36).toNat = (v.toNat - 8) / 36 := by
    rw [UInt64.toNat_div, UInt64.toNat_sub_of_le _ _ hle, UInt32.toNat_toUInt64, h8, h36]
  have hword : ((v.toUInt64 - 8) / 36).toUInt32.toNat = (v.toNat - 8) / 36 := by
    rw [UInt64.toNat_toUInt32, hdiv]
    omega
  rw [numEntries, toInt32_of_lt (by rw [hword]; omega), hword]

/-- One round of the loop of `sr_handle_hwinfo`, for the entry at an offset. -/
def hwEntry (env : VnsEnv) (sr : SrInstance) (hwinfo : List UInt8) (off : Nat) :
    Exec VnsAssert SrInstance := do
  let key ← loadNet32 hwinfo off
  if key = hwInterface then addInterface env sr (hwinfo.drop (off + 4))
  else if key = hwEthIp then setEtherIp sr (← load32 hwinfo (off + 4))
  else if key = hwEther then setEtherAddr sr (← loadMac hwinfo (off + 4))
  -- the other keys are known and ignored, or printed
  else pure sr

/-- The loop of `sr_handle_hwinfo` over `n` entries. -/
def hwLoop (env : VnsEnv) (hwinfo : List UInt8) : Nat → Nat → SrInstance → Exec VnsAssert SrInstance
  | 0, _, sr => .ok sr
  | n + 1, off, sr => do
    let sr ← hwEntry env sr hwinfo off
    hwLoop env hwinfo n (off + hwEntrySize) sr

/-- `sr_handle_hwinfo`. -/
def handleHwinfo (env : VnsEnv) (sr : SrInstance) (hwinfo : List UInt8) :
    Exec VnsAssert (SrInstance × Int) := do
  let entries := numEntries (← loadNet32 hwinfo 0)
  let sr ← hwLoop env hwinfo entries.toNat 8 sr
  pure (sr, entries)

/-- `rtable.` -/
def rtablePrefix : List UInt8 := [114, 116, 97, 98, 108, 101, 46]

/-- The length of the table, computed in a `uint32_t`. -/
def rtableLength (mLen : UInt32) : UInt32 := mLen - 8 - 32

/-- `sr_handle_rtable`. The name of the file is put together in an array of 40 bytes. -/
def handleRtable (env : VnsEnv) (vs : VnsSession) (rtable : List UInt8) :
    Exec VnsAssert (VnsSession × Bool) := do
  let fn ← memcpyAt (env.block 40) 0 (rtablePrefix ++ [0])
  let host ← cstr rtable 8
  let _ ← (memcpyAt fn 7 (host ++ [0]) : Exec VnsAssert (List UInt8))
  if env.opens (rtablePrefix ++ host) then do
    let table ← readAt rtable 40 (rtableLength (← loadNet32 rtable 0)).toNat
    pure ({ vs with files := vs.files ++ [(rtablePrefix ++ host, table)] }, true)
  else pure (vs, false)

/-- The length of the salt: a `size_t`, passed as an `unsigned`. -/
def saltLength (mLen : UInt32) : UInt32 := (mLen.toUInt64 - 8).toUInt32

/-- The reply: `c_auth_reply`, the user name, and the digest in network order. -/
def authReply (user : List UInt8) (digest : Fin 5 → UInt32) : List UInt8 :=
  bigEndian 4 (12 + user.length + 20) ++ (bigEndian 4 256 ++ (bigEndian 4 user.length ++ (user ++
    (List.ofFn digest).flatMap fun word => bigEndian 4 word.toNat)))

/-- `sr_handle_auth_request`. -/
def handleAuthRequest (env : VnsEnv) (vs : VnsSession) (req : List UInt8) :
    Exec VnsAssert (VnsSession × Bool) :=
  match env.authKey with
  | .missing => .ok (vs, false)
  | .unreadable => .ok (vs, false)
  | .line key _ => do
    let salt ← readAt req 8 (saltLength (← loadNet32 req 0)).toNat
    let key ← readAt key 0 64
    match env.sha1 (salt ++ key) with
    | none => pure (vs, false)
    | some digest =>
      if env.sends then pure ({ vs with sent := vs.sent ++ [authReply vs.user digest] }, true)
      else pure (vs, false)

/-- `sr_handle_auth_status`; a rejection is printed with its message. -/
def handleAuthStatus (status : List UInt8) : Exec VnsAssert UInt8 := do
  let authOk ← load8 status 8
  if authOk ≠ 0 then pure authOk
  else do
    let _ ← cstr status 9
    pure authOk

/-- The length of a frame: a `size_t`, passed as an `unsigned int`. -/
def frameLength (len : Nat) : UInt32 := (UInt64.ofNat len - 38 + 14).toUInt32

/-- `sr_arp_req_not_for_us`. -/
def arpReqNotForUs (sr : SrInstance) (packet : List UInt8) (len : UInt32) (interface : List UInt8) :
    Exec VnsAssert Bool := do
  let iface ← srGetInterface interface sr.ifList
  if len < 42 then pure false
  else
    match iface with
    | none => .error (.assertion .iface)
    | some iface => do
      if (← load16 packet 12) = htons 0x0806 then
        if (← load16 packet 20) = htons 1 then
          pure ((← load32 packet 38) != iface.ip)
        else pure false
      else pure false

/-- `sr_log_packet`: at most 1024 bytes go to the log file, if there is one. -/
def logPacket (vs : VnsSession) (buf : List UInt8) (len : Int32) : Exec VnsAssert VnsSession :=
  match vs.log with
  | none => .ok vs
  | some log => do
    let size := if 1024 < len then 1024 else len
    let bytes ← readAt buf 0 size.toUInt32.toNat
    pure { vs with log := some (log ++ [bytes]) }

/-- The case of a packet. -/
def packetCase (handle : PacketHandler) (vs : VnsSession) (len : Nat) (buf : List UInt8) :
    Exec VnsAssert VnsSession := do
  if ← arpReqNotForUs vs.sr (buf.drop 24) (frameLength len) (buf.drop 8) then pure vs
  else do
    let mLen ← loadNet32 buf 0
    let vs ← logPacket vs (buf.drop 24) (mLen.toUInt64 - 24).toUInt32.toInt32
    let sr ← (handle vs.sr (buf.drop 24) (frameLength len) (buf.drop 8)).within .router
    pure { vs with sr }

/-- `VNSCLOSE`. -/
def vnsClose : UInt32 := 2

/-- `VNSPACKET`. -/
def vnsPacket : UInt32 := 4

/-- `VNSBANNER`. -/
def vnsBanner : UInt32 := 8

/-- `VNSHWINFO`. -/
def vnsHwinfo : UInt32 := 16

/-- `VNS_RTABLE`. -/
def vnsRtable : UInt32 := 32

/-- `VNS_AUTH_REQUEST`. -/
def vnsAuthRequest : UInt32 := 128

/-- `VNS_AUTH_STATUS`. -/
def vnsAuthStatus : UInt32 := 512

/-- The switch over the commands: the result and the session. -/
def switchCommand (env : VnsEnv) (handle : PacketHandler) (vs : VnsSession) (len : Nat)
    (command : UInt32) (buf : List UInt8) : Exec VnsAssert (Int × VnsSession) := do
  if command = vnsPacket then
    let vs ← packetCase handle vs len buf
    pure (1, vs)
  else if command = vnsClose then
    let _ ← cstr buf 8
    pure (0, vs)
  else if command = vnsBanner then
    let _ ← cstr buf 8
    pure (1, vs)
  else if command = vnsHwinfo then
    let (sr, _) ← handleHwinfo env vs.sr buf
    if (← verifyRoutingTable sr) ≠ 0 then pure (-1, { vs with sr }) else pure (1, { vs with sr })
  else if command = vnsRtable then
    let (vs, written) ← handleRtable env vs buf
    pure (if written then 1 else -1, vs)
  else if command = vnsAuthRequest then
    let (vs, replied) ← handleAuthRequest env vs buf
    pure (if replied then 1 else -1, vs)
  else if command = vnsAuthStatus then
    let authOk ← handleAuthStatus buf
    pure (if authOk ≠ 0 then 1 else -1, vs)
  else pure (1, vs)

/-- What the reader does with a whole message: unless another command is expected, the switch. A
session may always be closed. -/
def dispatch (env : VnsEnv) (handle : PacketHandler) (expected : UInt32) (vs : VnsSession)
    (len : Nat) (command : UInt32) (buf : List UInt8) : Exec VnsAssert (Int × VnsSession) :=
  if expected ≠ 0 ∧ command ≠ expected ∧ command ≠ vnsClose then .ok (-1, vs)
  else switchCommand env handle vs len command buf

/-- Behind the length: the block, the rest of the message, and its type. -/
def readBody (env : VnsEnv) (handle : PacketHandler) (fuel : Nat) (expected : UInt32)
    (vs : VnsSession) (s : ByteStream) (len : Nat) :
    Exec VnsAssert (Int × VnsSession × ByteStream) := do
  let buf ← memcpyAt (env.block len) 0 (bigEndian 4 len)
  -- for a length below 4 nothing is left to read
  let (all, s, buf) ← s.readLoop fuel buf 4 (len - 4)
  if !all then pure (-1, { vs with isOpen := false }, s)
  else do
    let command ← loadNet32 buf 4
    let buf ← store32 buf 4 command
    let (ret, vs) ← dispatch env handle expected vs len command buf
    pure (ret, vs, s)

/-- `sr_read_from_server_expect`. -/
def readFromServerExpect (env : VnsEnv) (handle : PacketHandler) (fuel : Nat) (expected : UInt32)
    (vs : VnsSession) (s : ByteStream) : Exec VnsAssert (Int × VnsSession × ByteStream) := do
  let (all, s, lenBuf) ← s.readLoop fuel (env.block 4) 0 4
  if !all then pure (-1, vs, s)
  else do
    let len ← loadNet32 lenBuf 0
    if 10000 < len.toInt32 ∨ len.toInt32 < 0 then pure (-1, { vs with isOpen := false }, s)
    else readBody env handle fuel expected vs s len.toNat

end ComputerNetworks.Router
