import ComputerNetworks.Router.Banners
import ComputerNetworks.Router.Connect
import ComputerNetworks.Router.Sha1Calls
import ComputerNetworks.Router.VnsBounds
import ComputerNetworks.Router.VnsLink
import ComputerNetworks.Vns.SrHandler

/-!
# The handshake

What the router makes of each message the server sends while a session is opened,
and what the server reads in the two messages the router answers with. A frame that
comes before the interfaces is fatal: during the authentication it is not the message
that is expected, and afterwards its interface is not known.
-/

namespace ComputerNetworks.Router

open Vns SecureHash

variable {Site : Type} {env : VnsEnv} {handle : PacketHandler} {vs : VnsSession} {m : WireMessage}

/-- The bytes are a message that the server decodes. -/
def Decodes (bytes : List UInt8) (msg : VnsMessage) : Prop :=
  ∃ type body, type < 2 ^ 32 ∧ bytes = ltFrame type body ∧
    VnsMessage.unpack type body = some (.ok msg)

/-- The type and the body of a message can be told from its bytes. -/
theorem ltFrame_injective {type type' : Nat} {body body' : List UInt8} (htype : type < 2 ^ 32)
    (htype' : type' < 2 ^ 32) (h : ltFrame type body = ltFrame type' body') :
    type = type' ∧ body = body' := by
  obtain ⟨-, hrest⟩ := List.append_inj h (by rw [bigEndian_length, bigEndian_length])
  obtain ⟨hnumber, hbody⟩ := List.append_inj hrest (by rw [bigEndian_length, bigEndian_length])
  refine ⟨?_, hbody⟩
  have hback := congrArg ofBigEndian hnumber
  rwa [ofBigEndian_bigEndian htype, ofBigEndian_bigEndian htype'] at hback

/-- The five words of a digest in network order. -/
def digestBytes (digest : Fin 5 → UInt32) : List UInt8 :=
  (List.ofFn digest).flatMap fun word => bigEndian 4 word.toNat

/-- The reply holds the length of the user name, the name and the digest. -/
theorem authReply_eq (user : List UInt8) (digest : Fin 5 → UInt32) :
    authReply user digest = ltFrame VNSAuthReply.getType
      (bigEndian 4 user.length ++ (user ++ digestBytes digest)) := by
  have hdigest : (digestBytes digest).length = 20 := by
    rw [digestBytes, List.ofFn_succ, List.ofFn_succ, List.ofFn_succ, List.ofFn_succ, List.ofFn_succ,
      List.ofFn_zero]
    simp only [List.flatMap_cons, List.flatMap_nil, List.length_append, bigEndian_length,
      List.length_nil]
  have hlen : 12 + user.length + 20 =
      8 + (bigEndian 4 user.length ++ (user ++ digestBytes digest)).length := by
    rw [List.length_append, List.length_append, bigEndian_length, hdigest]
    omega
  rw [authReply, hlen, ltFrame]
  rfl

/-- The server reads the user and the digest. -/
theorem decodes_authReply {user : List UInt8} (huser : user.length < 2 ^ 32)
    (digest : Fin 5 → UInt32) :
    Decodes (authReply user digest) (.authReply ⟨user, digestBytes digest⟩) := by
  have hround := VNSAuthReply.unpack_pack ⟨user, digestBytes digest⟩
  have hfits : StructFits [.uint 4] ((user.length : Int), ()) :=
    ⟨⟨Int.natCast_nonneg _, Int.ofNat_lt.2 huser⟩, trivial⟩
  have hbytes : structBytes [.uint 4] ((user.length : Int), ()) = bigEndian 4 user.length :=
    List.append_nil _
  rw [if_pos (show user.length < 4294967296 from huser), VNSAuthReply.pack,
    orStruct_pack hfits, hbytes,
    ok_bind, pure_eq_ok, ok_bind, List.append_assoc] at hround
  refine ⟨VNSAuthReply.getType, _, by decide, authReply_eq user digest, ?_⟩
  exact congrArg (fun out => some (VnsMessage.authReply <$> out)) hround

/-- Behind the type of a `c_open`. -/
def openBody (set : Settings) (user : List UInt8) : List UInt8 :=
  bigEndian 2 set.topoId.toNat ++ ([0, 0] ++ (padded 32 (set.host.takeWhile (· != 0)) ++
    (padded 32 user ++ List.replicate 32 0)))

/-- Without a template the client opens its session with a `c_open`. -/
theorem opening_eq {set : Settings} (htemplate : CStrAt set.template 0 []) {user : List UInt8}
    (huser : 0 ∉ user) :
    (opening set user : Exec Site (List UInt8)) =
      .ok (ltFrame VNSOpen.getType (openBody set user)) := by
  have hstr : CStrAt (user ++ [0]) 0 user := cstrAt_of_drop [] huser rfl
  have hvhost : (strncpy (List.replicate 32 0) set.host idsize : Exec Site (List UInt8)) =
      .ok (padded 32 (set.host.takeWhile (· != 0))) :=
    strncpy_eq_of_le set.host_length.ge List.length_replicate
  have huid : (strncpy (List.replicate 32 0) (user ++ [0]) idsize : Exec Site (List UInt8)) =
      .ok (padded 32 user) := hstr.strncpy_eq List.length_replicate
  have hsize : 8 + (openBody set user).length = 108 := by
    simp only [openBody, List.length_append, bigEndian_length, padded_length, List.length_cons,
      List.length_nil, List.length_replicate]
  rw [opening, htemplate.strlen_eq, Exec.ok_bind, List.length_nil, if_neg (Nat.lt_irrefl 0),
    openCommand, hvhost, Exec.ok_bind, huid, Exec.ok_bind, ltFrame, hsize]
  rfl

/-- The server reads the number of the topology, the host and the user, and no password. -/
theorem decodes_open (set : Settings) {user : List UInt8} (huser : TextFits 32 user) :
    Decodes (ltFrame VNSOpen.getType (openBody set user))
      (.open ⟨set.topoId.toNat, set.host.takeWhile (· != 0), user, []⟩) := by
  have hhost : TextFits 32 (set.host.takeWhile (· != 0)) := by
    refine ⟨fun hmem => ?_, (List.takeWhile_prefix _).length_le.trans set.host_length.le⟩
    simpa using List.mem_takeWhile_imp hmem
  have htopo : (0 : Int) ≤ set.topoId.toNat ∧ (set.topoId.toNat : Int) < 65536 :=
    ⟨Int.natCast_nonneg _, Int.ofNat_lt.2 set.topoId.toNat_lt⟩
  have hround := VNSOpen.unpack_pack ⟨set.topoId.toNat, set.host.takeWhile (· != 0), user, []⟩ hhost
    huser ⟨List.not_mem_nil, Nat.zero_le _⟩
  have hfits : StructFits VNSOpen.format
      (((set.topoId.toNat : Nat) : Int), 0, set.host.takeWhile (· != 0), user, [], ()) :=
    ⟨htopo, by decide, trivial, trivial, trivial, trivial⟩
  have hbytes : structBytes VNSOpen.format
      (((set.topoId.toNat : Nat) : Int), 0, set.host.takeWhile (· != 0), user, [], ()) =
      openBody set user := by
    have hpw : padded 32 ([] : List UInt8) ++ [] = List.replicate 32 0 := rfl
    rw [openBody, ← hpw]
    rfl
  rw [if_pos htopo, VNSOpen.pack, orStruct_pack hfits, hbytes, ok_bind] at hround
  refine ⟨VNSOpen.getType, _, by decide, rfl, ?_⟩
  exact congrArg (fun out => some (VnsMessage.open <$> out)) hround

/-- The digest of the surroundings is the one `sha1.c` computes. -/
def VnsEnv.RunsSha1 (env : VnsEnv) : Prop :=
  ∀ (context : Sha1Context) (salt key : List UInt8) (saltLength : UInt32),
    saltLength.toNat ≤ salt.length → 64 ≤ key.length →
    (saltedDigest context salt saltLength key : Exec VnsAssert (Option (Fin 5 → UInt32))) =
      .ok (env.sha1 (salt.take saltLength.toNat ++ key.take 64))

/-- The environment computes the digest of salt and key. -/
theorem VnsEnv.RunsSha1.sha1_eq (h : env.RunsSha1) {salt key : List UInt8}
    (hsalt : salt.length < 2 ^ 32) (hkey : 64 ≤ key.length) :
    env.sha1 (salt ++ key.take 64) = some (digest (salt ++ key.take 64)) := by
  have hlen : (UInt32.ofNat salt.length).toNat = salt.length := UInt32.toNat_ofNat_of_lt' hsalt
  have hruns :=
    h (sha1Reset ⟨fun _ => 0, 0, 0, List.replicate 64 0, List.length_replicate, 0, false, false⟩)
      salt key (UInt32.ofNat salt.length) hlen.le hkey
  rw [saltedDigest_eq _ hlen.le hkey, hlen, List.take_length] at hruns
  exact (Except.ok.inj hruns).symm

/-- What the handshake needs of its surroundings. -/
structure VnsEnv.Healthy (env : VnsEnv) (key : List UInt8) : Prop where
  key_length : key.length = 65
  authKey : env.authKey = .line key key_length
  sha1 : env.RunsSha1
  sends : env.sends = true

theorem Travels.type_eq {msg : VnsMessage} {type : UInt32} (hm : Travels msg m)
    (htype : msg.getType = type.toNat) : m.type = type := UInt32.toNat.inj (hm.type.trans htype)

theorem travels_frameMessage (name frame : List UInt8) (h : frame.length ≤ 9976) :
    Travels (.packet ⟨name, frame⟩) (frameMessage name frame h) := ⟨pack_packet name frame, rfl⟩

/-- What travels for a frame. -/
theorem Travels.eq_frameMessage {name frame : List UInt8} (hm : Travels (.packet ⟨name, frame⟩) m)
    (hhigh : frame.length ≤ 9976) : m = frameMessage name frame hhigh := by
  obtain ⟨type, body, size_le⟩ := m
  have htype : type = vnsPacket := hm.type_eq rfl
  have hbody : padded 16 name ++ frame = body :=
    Except.ok.inj ((pack_packet name frame).symm.trans hm.pack)
  subst htype hbody
  rfl

/-- The client after its reply to a request for authentication. -/
def VnsSession.replied (vs : VnsSession) (salt key : List UInt8) : VnsSession :=
  { vs with sent := vs.sent ++ [authReply vs.user (digest (salt ++ key.take 64))] }

/-- The reply is made of the digest of the salt and the key. -/
theorem dispatch_authRequest {key salt : List UInt8} (henv : env.Healthy key)
    (hm : Travels (.authRequest ⟨salt⟩) m) :
    dispatch env handle vnsAuthRequest vs m.len m.type m.buffer = .ok (1, vs.replied salt key) := by
  have htype : m.type = vnsAuthRequest := hm.type_eq rfl
  have hbody : salt = m.body := Except.ok.inj hm.pack
  have hsize := m.len_le
  have hlow : 8 ≤ m.len := Nat.le_add_right _ _
  have hsalt : (readAt m.buffer 8 (saltLength (UInt32.ofNat m.len)).toNat : Exec VnsAssert _) =
      .ok salt := by
    rw [readAt_of_le (by rw [m.buffer_length, saltLength_toNat]; omega), m.drop_buffer,
      saltLength_toNat, List.take_of_length_le (by rw [WireMessage.len]; omega), hbody]
  have hkey : (readAt key 0 64 : Exec VnsAssert _) = .ok (key.take 64) :=
    readAt_of_le (by rw [henv.key_length]; decide)
  have hdigest := @VnsEnv.RunsSha1.sha1_eq env henv.sha1 salt key
    (by rw [hbody]; rw [WireMessage.len] at hsize; omega) (by rw [henv.key_length]; decide)
  rw [dispatch, htype, if_neg (fun h => h.2.1 rfl), switchCommand, if_neg (by decide),
    if_neg (by decide), if_neg (by decide), if_neg (by decide), if_neg (by decide), if_pos rfl,
    handleAuthRequest, henv.authKey]
  simp only [m.loadNet32_buffer, Exec.ok_bind, hsalt, hkey, hdigest, henv.sends, if_true,
    Exec.pure_eq_ok]
  rfl

/-- An accepted authentication. -/
theorem dispatch_authStatus {msg : List UInt8} (hm : Travels (.authStatus ⟨true, msg⟩) m) :
    dispatch env handle vnsAuthStatus vs m.len m.type m.buffer = .ok (1, vs) := by
  have htype : m.type = vnsAuthStatus := hm.type_eq rfl
  have hbody : [1] ++ msg = m.body := Except.ok.inj hm.pack
  have hload : (load8 m.buffer 8 : Exec VnsAssert UInt8) = .ok 1 := by
    rw [load8, loadField_of_le, ← byteAt_drop _ 8 0, m.drop_buffer, ← hbody]
    · rfl
    · rw [m.buffer_length, WireMessage.len, ← hbody, List.length_append, List.length_singleton]
      omega
  rw [dispatch, htype, if_neg (fun h => h.2.1 rfl), switchCommand, if_neg (by decide),
    if_neg (by decide), if_neg (by decide), if_neg (by decide), if_neg (by decide),
    if_neg (by decide), if_pos rfl, handleAuthStatus, hload]
  rfl

/-- A message that is not expected. -/
theorem dispatch_unexpected {expected : UInt32} (hexpected : expected ≠ 0) (hne : m.type ≠ expected)
    (hclose : m.type ≠ vnsClose) :
    dispatch env handle expected vs m.len m.type m.buffer = .ok (-1, vs) :=
  if_pos ⟨hexpected, hne, hclose⟩

/-- A frame that comes before the interfaces. -/
theorem dispatch_packet_noInterfaces {name frame : List UInt8} (hlow : 42 ≤ frame.length)
    (hhigh : frame.length ≤ 9976) (hifs : vs.sr.ifList = [])
    (hm : Travels (.packet ⟨name, frame⟩) m) :
    dispatch env handle 0 vs m.len m.type m.buffer = .error (.assertion .iface) := by
  have hshort : ¬(UInt32.ofNat frame.length < 42) := by
    have hval : (UInt32.ofNat frame.length).toNat = frame.length :=
      UInt32.toNat_ofNat_of_lt' (hhigh.trans_lt (by decide))
    have h42 : (42 : UInt32).toNat = 42 := rfl
    rw [UInt32.lt_iff_toNat_lt, hval, h42]
    omega
  have htype : (frameMessage name frame hhigh).type = vnsPacket := rfl
  rw [hm.eq_frameMessage hhigh, dispatch, htype, if_neg (fun h => h.1 rfl),
    switchCommand, if_pos rfl,
    packetCase_eq, arpReqNotForUs, hifs, srGetInterface, Exec.ok_bind, if_neg hshort]
  rfl

/-- What the server tells of the interfaces fits the router and its routing table: every route leads
over one of them. -/
structure Servable (table : List SrRt) (intfs : List VNSInterface) : Prop where
  count : intfs.length ≤ 46
  names : ∀ intf ∈ intfs, 0 ∉ intf.name ∧ intf.name.length ≤ 31
  table_ne : table ≠ []
  routed : ∀ rt ∈ table, ∃ intf ∈ intfs, CStrAt rt.interface 0 intf.name

/-- A route is checked against the names of the interfaces. -/
theorem ifaceExists_eq {rt : SrRt} {name : List UInt8} (h : CStrAt rt.interface 0 name)
    (hlen : name.length < ifaceNamelen) (ifList : List SrIf) :
    ifaceExists rt ifList = .ok (ifList.any (·.hasName name)) := by
  induction ifList with
  | nil => rfl
  | cons i ifList ih =>
    have hsame : (strncmpSame i.name rt.interface ifaceNamelen : Exec VnsAssert Bool) =
        .ok (i.hasName name) := strncmpSame_string h hlen i.name_length.ge
    rw [ifaceExists, hsame, Exec.ok_bind, ih, List.any_cons]
    cases i.hasName name with
    | true => rfl
    | false => rfl

/-- The routing table passes its check. -/
theorem verifyRoutingTable_eq {sr : SrInstance} {intfs : List VNSInterface}
    (h : Servable sr.routingTable intfs) (hifs : List.Forall₂ IsInterface sr.ifList intfs) :
    verifyRoutingTable sr = .ok 0 := by
  have hfound : ∀ rt ∈ sr.routingTable, ifaceExists rt sr.ifList = .ok true := by
    intro rt hrt
    obtain ⟨intf, hintf, hname⟩ := h.routed rt hrt
    obtain ⟨i, hi, hmatch⟩ := forall₂_mem_right hifs hintf
    rw [ifaceExists_eq hname (Nat.lt_succ_of_le (h.names intf hintf).2)]
    exact congrArg Except.ok (List.any_eq_true.2 ⟨i, hi, SrIf.hasName_of_cstrAt hmatch.name⟩)
  have hloop : ∀ routes : List SrRt, (∀ rt ∈ routes, ifaceExists rt sr.ifList = .ok true) →
      verifyLoop sr.ifList routes 0 = .ok 0 := by
    intro routes hroutes
    induction routes with
    | nil => rfl
    | cons rt routes ih =>
      obtain ⟨hrt, hroutes⟩ := List.forall_mem_cons.1 hroutes
      rw [verifyLoop, hrt, Exec.ok_bind, if_pos rfl, ih hroutes]
  have hne : ¬(sr.ifList = [] ∨ sr.routingTable = []) := by
    rintro (hnil | hnil)
    · obtain ⟨rt, hrt⟩ := List.exists_mem_of_ne_nil _ h.table_ne
      have hrun := hfound rt hrt
      rw [hnil] at hrun
      cases hrun
    · exact h.table_ne hnil
  rw [verifyRoutingTable, if_neg hne, hloop _ hfound]

/-- The hardware information gives the router its interfaces. -/
theorem dispatch_hwinfo {intfs : List VNSInterface} (h : Servable vs.sr.routingTable intfs)
    (hifs : vs.sr.ifList = []) (hm : Travels (.hardwareInfo ⟨intfs⟩) m) :
    ∃ ifList, dispatch env handle 0 vs m.len m.type m.buffer =
        .ok (1, { vs with sr := { vs.sr with ifList } }) ∧ List.Forall₂ IsInterface
          ifList intfs := by
  obtain ⟨body, hpack, hrun⟩ := handleHwinfo_pack h.count h.names env vs.sr
  have htype : m.type = vnsHwinfo := hm.type_eq rfl
  have hbody : body = m.body := Except.ok.inj (hpack.symm.trans hm.pack)
  obtain ⟨ifList, hhandle, hmatch⟩ := hrun [m.type.toUInt8, (m.type >>> 8).toUInt8,
    (m.type >>> 16).toUInt8, (m.type >>> 24).toUInt8] rfl
  have hsr : { vs.sr with ifList := [] } = vs.sr := by rw [← hifs]
  have hbuffer : bigEndian 4 (8 + body.length) ++ ([m.type.toUInt8, (m.type >>> 8).toUInt8,
      (m.type >>> 16).toUInt8, (m.type >>> 24).toUInt8] ++ body) = m.buffer := by rw [hbody]; rfl
  rw [hsr, hbuffer] at hhandle
  have hverify : verifyRoutingTable { vs.sr with ifList } = .ok 0 := verifyRoutingTable_eq h hmatch
  refine ⟨ifList, ?_, hmatch⟩
  rw [dispatch, htype, if_neg (fun h => h.1 rfl), switchCommand, if_neg (by decide),
    if_neg (by decide), if_neg (by decide), if_pos rfl, hhandle, Exec.ok_bind]
  dsimp only
  rw [hverify]
  rfl

/-- Loading a routing table changes nothing else. -/
theorem loadLoop_frame {lines : List (List UInt8)} {arrays : RtArrays} {cleared : Bool}
    {sr sr' : SrInstance} {ret : Int} {added : List RtAdded}
    (h : (loadLoop lines arrays cleared sr : Exec Site _) = .ok (ret, sr', added)) :
    sr' = { sr with routingTable := sr'.routingTable } := by
  induction lines generalizing arrays cleared sr sr' ret added with
  | nil =>
    cases h
    rfl
  | cons line rest ih =>
    obtain ⟨arrays', -, h⟩ := Exec.bind_eq_ok.1 h
    obtain ⟨addrs, -, h⟩ := Exec.bind_eq_ok.1 h
    cases addrs with
    | none =>
      cases h
      rfl
    | some addrs =>
      obtain ⟨route, -, h⟩ := Exec.bind_eq_ok.1 h
      obtain ⟨⟨ret', sr'', added'⟩, hrest, h⟩ := Exec.bind_eq_ok.1 h
      cases h
      rw [ih hrest]
      cases cleared with
      | true => rfl
      | false => rfl

/-- Loading a table changes the table only. -/
theorem loadRt_frame {arrays : RtArrays} {file : Option (List UInt8)} {sr sr' : SrInstance}
    {ret : Int}
    {added : List RtAdded} (h : (loadRt arrays file sr : Exec Site _) = .ok (ret, sr', added)) :
    sr' = { sr with routingTable := sr'.routingTable } := by
  cases file with
  | none =>
    cases h
    rfl
  | some content => exact loadLoop_frame h

/-- A client without a template whose opening message goes out and whose routing table is loaded; it
has no interfaces yet. -/
structure Settings.Ready (set : Settings) (vs : VnsSession) (table : List SrRt) : Prop where
  template : CStrAt set.template 0 []
  sends : set.opening.sends = true
  loads : ∃ sr added, (loadRt set.rtArrays set.rtable vs.sr : Exec VnsAssert _) = .ok
    (0, sr, added) ∧
    sr.routingTable = table
  user : TextFits 31 vs.user
  noInterfaces : vs.sr.ifList = []

/-- The client when its session is open. -/
def VnsSession.opened (vs : VnsSession) (set : Settings) (table : List SrRt) : VnsSession :=
  { vs with
    sr := srInit { vs.sr with routingTable := table }
    sent := vs.sent ++ [ltFrame VNSOpen.getType (openBody set vs.user)] }

variable {set : Settings} {table : List SrRt}

theorem Settings.Ready.replied (h : set.Ready vs table) (salt key : List UInt8) :
    set.Ready (vs.replied salt key) table :=
  ⟨h.template, h.sends, h.loads, h.user, h.noInterfaces⟩

/-- With ready settings the opening message is sent and the table stands. -/
theorem sendOpening_eq (h : set.Ready vs table) :
    Client.sendOpening set vs = .ok ⟨.running, vs.opened set table⟩ := by
  obtain ⟨sr, added, hloads, htable⟩ := h.loads
  have hsr : sr = { vs.sr with routingTable := table } := by
    rw [← htable]
    exact loadRt_frame hloads
  rw [Client.sendOpening, opening_eq h.template h.user.1, Exec.ok_bind, h.sends, if_neg (by decide),
    h.template.strlen_eq, Exec.ok_bind, List.length_nil, if_neg (Nat.lt_irrefl 0), Client.enterLoop,
    prepare]
  dsimp only
  rw [hloads, hsr]
  rfl

namespace Client

/-- The client replies to an authentication request. -/
theorem receive_authRequest {key salt : List UInt8} (henv : env.Healthy key)
    (hm : Travels (.authRequest ⟨salt⟩) m) :
    receive set handle env ⟨.authRequest, vs⟩ m = .ok ⟨.authStatus, vs.replied salt key⟩ := by
  rw [receive_of_ne Stage.noConfusion, Stage.expected, dispatch_authRequest henv hm]
  rfl

/-- The client opens its topology on a positive status. -/
theorem receive_authStatus {msg : List UInt8} (h : set.Ready vs table)
    (hm : Travels (.authStatus ⟨true, msg⟩) m) :
    receive set handle env ⟨.authStatus, vs⟩ m = .ok ⟨.running, vs.opened set table⟩ := by
  rw [receive_of_ne Stage.noConfusion, Stage.expected, dispatch_authStatus hm]
  exact sendOpening_eq h

/-- The client comes up on interfaces that serve its table. -/
theorem receive_hwinfo {intfs : List VNSInterface} (h : Servable vs.sr.routingTable intfs)
    (hifs : vs.sr.ifList = []) (hm : Travels (.hardwareInfo ⟨intfs⟩) m) :
    ∃ ifList, receive set handle env ⟨.running, vs⟩ m =
        .ok ⟨.running, { vs with sr := { vs.sr with ifList } }⟩ ∧
      List.Forall₂ IsInterface ifList intfs := by
  obtain ⟨ifList, hdispatch, hmatch⟩ := @dispatch_hwinfo env handle vs m intfs h hifs hm
  refine ⟨ifList, ?_, hmatch⟩
  rw [receive_of_ne Stage.noConfusion, Stage.expected, hdispatch]
  rfl

/-- A frame during the authentication ends the program. -/
theorem receive_frame_authStatus {packet : VNSPacket} (hm : Travels (.packet packet) m) :
    receive set handle env ⟨.authStatus, vs⟩ m = .ok ⟨.ended, vs⟩ := by
  have htype : m.type = vnsPacket := hm.type_eq rfl
  rw [receive_of_ne Stage.noConfusion, Stage.expected, dispatch_unexpected (by decide)
    (by rw [htype]; decide) (by rw [htype]; decide)]
  rfl

/-- A frame before the interfaces stops it at an assertion. -/
theorem receive_frame_noInterfaces {name frame : List UInt8} (hlow : 42 ≤ frame.length)
    (hhigh : frame.length ≤ 9976) (hifs : vs.sr.ifList = [])
    (hm : Travels (.packet ⟨name, frame⟩) m) :
    receive set handle env ⟨.running, vs⟩ m = .error (.assertion .iface) := by
  rw [receive_of_ne Stage.noConfusion, Stage.expected,
    dispatch_packet_noInterfaces hlow hhigh hifs hm]
  rfl

end Client

/-- The three messages of the server, however their bytes arrive, bring the client up: it answers
with its user and the digest of the salt and its key, asks for its topology and host, and has the
interfaces of the server. -/
theorem handshake {key salt text : List UInt8} {intfs : List VNSInterface}
    {request status info : VnsEnv × WireMessage} (hset : set.Ready vs table)
    (hreachable : set.reachable = true) (hintfs : Servable table intfs)
    (henv : request.1.Healthy key) (hrequest : Travels (.authRequest ⟨salt⟩) request.2)
    (hstatus : Travels (.authStatus ⟨true, text⟩) status.2)
    (hinfo : Travels (.hardwareInfo ⟨intfs⟩) info.2) (rtable : VnsEnv) {s : ByteStream}
    {rest : List UInt8}
    (hpending : s.pending = request.2.bytes ++ (status.2.bytes ++ (info.2.bytes ++ rest)))
    (hsteady : s.Steady) {fuel : Nat} (hfuel : 10000 ≤ fuel) :
    ∃ reply command vs' s',
      main request.1 status.1 rtable [info.1] handle fuel set vs s = .ok (true, vs', s') ∧
      s'.pending = rest ∧ s'.Steady ∧ vs'.sent = vs.sent ++ [reply, command] ∧
      Decodes reply (.authReply ⟨vs.user, digestBytes (digest (salt ++ key.take 64))⟩) ∧
      Decodes command (.open ⟨set.topoId.toNat, set.host.takeWhile (· != 0), vs.user, []⟩) ∧
      vs'.sr.routingTable = table ∧ List.Forall₂ IsInterface vs'.sr.ifList intfs := by
  have hready := hset.replied salt key
  obtain ⟨ifList, hup, hmatch⟩ := @Client.receive_hwinfo info.1 handle
    ((vs.replied salt key).opened set table) info.2 set intfs hintfs hset.noInterfaces hinfo
  have hclient : Client.receiveAll set handle ⟨.authRequest, vs⟩ [request, status, info] =
      .ok ⟨.running, { (vs.replied salt key).opened set table with
        sr := { ((vs.replied salt key).opened set table).sr with ifList } }⟩ := by
    rw [Client.receiveAll_cons, Client.receive_authRequest henv hrequest, Exec.ok_bind,
      Client.receiveAll_cons, Client.receive_authStatus hready hstatus, Exec.ok_bind,
      Client.receiveAll_cons, hup]
    rfl
  have hmessages : s.pending =
      (sessionMessages [] request status (rtable, request.2) [info]).flatMap
        (fun m => m.2.bytes) ++ rest := by
    rw [hpending, sessionMessages, if_pos rfl]
    simp only [List.flatMap_cons, List.flatMap_nil, List.append_nil, List.append_assoc]
  obtain ⟨s', hsteady', hrun, hrest⟩ := (@main_follows set handle fuel vs s rest [info] []
    hset.template hreachable request status (rtable, request.2) hmessages hsteady hfuel).run
  rw [sessionMessages, if_pos rfl, hclient] at hrun hrest
  refine ⟨authReply vs.user (digest (salt ++ key.take 64)), _, _, s', hrun, hrest _ rfl
    rfl, hsteady',
    ?_, decodes_authReply (hset.user.2.trans_lt (by decide)) _,
    decodes_open set ⟨hset.user.1, hset.user.2.trans (by decide)⟩, rfl, hmatch⟩
  exact List.append_assoc _ _ _

/-- The key of the router. -/
def sampleKey : List UInt8 := List.replicate 64 107 ++ [0]

/-- Surroundings in which every call succeeds and the digest is that of SHA-1. -/
def healthyEnv : VnsEnv :=
  { sampleEnv with authKey := .line sampleKey rfl, sha1 := fun m => some (digest m) }

theorem healthyEnv_healthy : healthyEnv.Healthy sampleKey where
  key_length := rfl
  authKey := rfl
  sha1 := fun context _ _ _ hsalt hkey => saltedDigest_eq context hsalt hkey
  sends := rfl

/-- The routing table of one line, over `eth1`. -/
def sampleRtable : List UInt8 :=
  dotted 0 0 0 0 ++ [32] ++ dotted 10 0 1 100 ++ [32] ++ dotted 0 0 0 0 ++ [32, 101, 116,
    104, 49, 10]

/-- A route over `eth1`. -/
def sampleRoute : SrRt := ⟨0, word32 [10, 0, 1, 100] 0, 0, nameBlock [101, 116, 104, 49]⟩

/-- The host `vrhost` and no template. -/
def sampleSettings : Settings where
  host := [118, 114, 104, 111, 115, 116] ++ List.replicate 26 0
  host_length := rfl
  template := List.replicate 30 0
  template_length := rfl
  topoId := 0
  reachable := true
  opening := healthyEnv
  rtArrays := zeroArrays
  rtable := some sampleRtable

theorem sampleSettings_ready : sampleSettings.Ready sampleSession [sampleRoute] where
  template := ⟨List.not_mem_nil, List.replicate 29 0, rfl⟩
  sends := rfl
  loads := by
    have hloads :
        ((loadRt zeroArrays (some sampleRtable) sampleSession.sr : Exec VnsAssert _).toOption.map
          fun out => (out.1, out.2.1.routingTable)) = some (0, [sampleRoute]) := by decide +kernel
    cases hrun : (loadRt zeroArrays (some sampleRtable) sampleSession.sr : Exec VnsAssert _) with
    | error fault =>
      rw [hrun] at hloads
      cases hloads
    | ok out =>
      obtain ⟨ret, sr, added⟩ := out
      rw [hrun] at hloads
      obtain ⟨hret, htable⟩ := Prod.ext_iff.1 (Option.some.inj hloads)
      refine ⟨sr, added, ?_, htable⟩
      rw [← show ret = 0 from hret]
      exact hrun
  user := ⟨List.not_mem_nil, by decide⟩
  noInterfaces := rfl

theorem sampleInterfaces_servable : Servable [sampleRoute] sampleInterfaces where
  count := by decide
  names := by decide
  table_ne := List.cons_ne_nil _ _
  routed := by
    intro rt hrt
    rw [List.mem_singleton.1 hrt]
    exact ⟨_, List.mem_cons_self, nameBlock_cstrAt (by decide) (by decide)⟩

/-- The messages of the handshake. -/
def requestMessage : WireMessage := ⟨vnsAuthRequest, List.replicate 20 7, by decide⟩

/-- The text of a positive status. -/
def sampleStatus : List UInt8 :=
  [97, 117, 116, 104, 101, 110, 116, 105, 99, 97, 116, 101, 100, 32] ++ [] ++
    [32, 97, 115, 32, 117, 115, 101, 114]

/-- A positive status on the wire. -/
def statusMessage : WireMessage := ⟨vnsAuthStatus, 1 :: sampleStatus, by decide⟩

/-- The interfaces of the sample on the wire. -/
def infoMessage : WireMessage :=
  ⟨vnsHwinfo, (sampleInterfaces.flatMap hwEntries).flatMap HwEntry.bytes, by decide +kernel⟩

theorem travels_requestMessage : Travels (.authRequest ⟨List.replicate 20 7⟩) requestMessage :=
  ⟨rfl, rfl⟩

theorem travels_statusMessage : Travels (.authStatus ⟨true, sampleStatus⟩) statusMessage :=
  ⟨rfl, rfl⟩

theorem travels_infoMessage : Travels (.hardwareInfo ⟨sampleInterfaces⟩) infoMessage :=
  ⟨pack_interfaces sampleInterfaces, rfl⟩

theorem handshake_sample :
    ∃ reply command vs' s',
      main healthyEnv healthyEnv healthyEnv [healthyEnv] (fun sr _ _ _ => .ok sr) 10000
        sampleSettings sampleSession
        ⟨requestMessage.bytes ++ (statusMessage.bytes ++ (infoMessage.bytes ++ [])),
          [.bytes 0, .interrupted, .bytes 20]⟩ = .ok (true, vs', s') ∧
      s'.pending = [] ∧ s'.Steady ∧ vs'.sent = sampleSession.sent ++ [reply, command] ∧
      Decodes reply
        (.authReply ⟨[], digestBytes (digest (List.replicate 20 7 ++ sampleKey.take 64))⟩) ∧
      Decodes command (.open ⟨0, sampleSettings.host.takeWhile (· != 0), [], []⟩) ∧
      vs'.sr.routingTable = [sampleRoute] ∧
      List.Forall₂ IsInterface vs'.sr.ifList sampleInterfaces :=
  @handshake _ _ _ _ _ _ _ _ (healthyEnv, requestMessage) (healthyEnv, statusMessage)
    (healthyEnv, infoMessage) sampleSettings_ready rfl sampleInterfaces_servable healthyEnv_healthy
    travels_requestMessage travels_statusMessage travels_infoMessage healthyEnv _ _ rfl
    (by decide) _ le_rfl

end ComputerNetworks.Router
