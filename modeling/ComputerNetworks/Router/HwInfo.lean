import ComputerNetworks.Router.ArpQueue
import ComputerNetworks.Router.VnsComm
import ComputerNetworks.Vns.RoundTrip

/-!
# Hardware information

The interfaces that `VNSHardwareInfo` packs are those that `sr_handle_hwinfo` adds.
A packed interface is six entries of 36 bytes; its name comes first, so that its
addresses are given to the interface that was added last.
-/

namespace ComputerNetworks.Router

open Vns

variable {env : VnsEnv} {sr : SrInstance} {intf : VNSInterface}

/-- An entry: its key and the 32 bytes of its value. -/
abbrev HwEntry := Nat × List UInt8

/-- The bytes of an entry. -/
def HwEntry.bytes (e : HwEntry) : List UInt8 := bigEndian 4 e.1 ++ e.2

/-- What an entry does to the interface list. -/
def applyEntry (env : VnsEnv) (sr : SrInstance) (e : HwEntry) : Exec VnsAssert SrInstance :=
  if e.1 = 1 then addInterface env sr e.2
  else if e.1 = 64 then setEtherIp sr (word32 e.2 0)
  else if e.1 = 32 then setEtherAddr sr (macAt e.2 0)
  else .ok sr

/-- An entry whose key is a `uint32_t` and whose value has 32 bytes. -/
def HwEntry.WellFormed (e : HwEntry) : Prop := e.1 < 2 ^ 32 ∧ e.2.length = 32

/-- An entry has 36 bytes. -/
theorem HwEntry.WellFormed.bytes_length {e : HwEntry} (h : e.WellFormed) :
    (HwEntry.bytes e).length = hwEntrySize := by
  rw [HwEntry.bytes, List.length_append, bigEndian_length, h.2]
  rfl

/-- `strncpy` looks at the first `n` bytes alone. -/
theorem strncpy_append {Site : Type} {dst src : List UInt8} {n : Nat} (h : n ≤ src.length)
    (rest : List UInt8) :
    (strncpy dst (src ++ rest) n : Exec Site (List UInt8)) = strncpy dst src n := by
  have hle : n ≤ (src ++ rest).length := by
    rw [List.length_append]
    omega
  rw [strncpy, strncpy, List.take_append_of_le_length h, Nat.min_eq_left h, Nat.min_eq_left hle]
  simp only [h, hle]

/-- What stands behind the name block plays no part. -/
theorem addInterface_append {name : List UInt8} (h : ifaceNamelen ≤ name.length)
    (rest : List UInt8) : addInterface env sr (name ++ rest) = addInterface env sr name := by
  have hcopy := @strncpy_eq_of_le VnsAssert (List.replicate ifaceNamelen 0) _ _ h
    List.length_replicate
  have hlen := (strncpy_length hcopy).trans List.length_replicate
  rw [addInterface_eq hcopy hlen, addInterface_eq ((strncpy_append h rest).trans hcopy) hlen]

/-- A round of the loop does what its entry says. -/
theorem hwEntry_eq {hwinfo rest : List UInt8} {off : Nat} {e : HwEntry} (he : e.WellFormed)
    (hdrop : hwinfo.drop off = e.bytes ++ rest) :
    hwEntry env sr hwinfo off = applyEntry env sr e := by
  obtain ⟨key, value⟩ := e
  obtain ⟨hkey, hvalue⟩ := he
  have hlen : off + 36 ≤ hwinfo.length := by
    have hrest := congrArg List.length hdrop
    rw [HwEntry.bytes, List.length_append, List.length_append, bigEndian_length, hvalue,
      List.length_drop] at hrest
    omega
  have hvalueDrop : hwinfo.drop (off + 4) = value ++ rest := by
    rw [← List.drop_drop, hdrop, HwEntry.bytes, List.append_assoc,
      List.drop_left' (bigEndian_length 4 key)]
  have hsame := sameBytes_append value rest
  rw [hvalue] at hsame
  have hload : (loadNet32 hwinfo off : Exec VnsAssert UInt32) = .ok (UInt32.ofNat key) := by
    rw [HwEntry.bytes, List.append_assoc] at hdrop
    rw [loadNet32, loadField_of_le (by omega), netWord32_of_drop hdrop hkey]
  have hip : (load32 hwinfo (off + 4) : Exec VnsAssert UInt32) = .ok (word32 value 0) := by
    rw [load32, loadField_of_le (by omega), ← Nat.add_zero (off + 4), ← word32_drop, hvalueDrop,
      hsame.word32 (Nat.zero_le _) (by decide)]
  have hmac : (loadMac hwinfo (off + 4) : Exec VnsAssert EtherAddr) = .ok (macAt value 0) := by
    rw [loadMac, loadField_of_le (by omega), ← Nat.add_zero (off + 4), ← macAt_drop, hvalueDrop,
      hsame.macAt (Nat.zero_le _) (by decide)]
  have hkeyEq : ∀ v < 2 ^ 32, (UInt32.ofNat key = UInt32.ofNat v) ↔ key = v := by
    intro v hv
    rw [← UInt32.toNat_inj, UInt32.toNat_ofNat', UInt32.toNat_ofNat', Nat.mod_eq_of_lt hkey,
      Nat.mod_eq_of_lt hv]
  have h1 : UInt32.ofNat key = hwInterface ↔ key = 1 := hkeyEq 1 (by decide)
  have h64 : UInt32.ofNat key = hwEthIp ↔ key = 64 := hkeyEq 64 (by decide)
  have h32 : UInt32.ofNat key = hwEther ↔ key = 32 := hkeyEq 32 (by decide)
  simp only [hwEntry, hload, Exec.ok_bind, h1, h64, h32, hvalueDrop, hip, hmac, applyEntry,
    addInterface_append hvalue.ge]
  rfl

/-- The loop goes through the entries in order. -/
theorem hwLoop_eq {hwinfo rest : List UInt8} {off : Nat} {entries : List HwEntry}
    (hentries : ∀ e ∈ entries, HwEntry.WellFormed e)
    (hdrop : hwinfo.drop off = entries.flatMap HwEntry.bytes ++ rest) :
    hwLoop env hwinfo entries.length off sr = entries.foldlM (applyEntry env) sr := by
  induction entries generalizing off sr with
  | nil => rfl
  | cons e entries ih =>
    obtain ⟨he, hentries⟩ := List.forall_mem_cons.1 hentries
    rw [List.flatMap_cons, List.append_assoc] at hdrop
    have hnext : hwinfo.drop (off + hwEntrySize) = entries.flatMap HwEntry.bytes ++ rest := by
      rw [← List.drop_drop, hdrop, List.drop_left' he.bytes_length]
    rw [List.length_cons, hwLoop, hwEntry_eq he hdrop, List.foldlM_cons]
    congr 1
    funext sr'
    exact ih hentries hnext

/-- The entries of an interface. -/
def hwEntries (intf : VNSInterface) : List HwEntry :=
  [(1, padded 32 intf.name), (2, padded 32 []), (32, padded 32 intf.mac), (64, padded 32 intf.ip),
    (4, padded 32 []), (128, padded 32 intf.mask)]

/-- The interface as the router keeps it. -/
def routerIf (intf : VNSInterface) : SrIf :=
  ⟨nameBlock intf.name, macAt intf.mac 0, word32 intf.ip 0, nameBlock_length intf.name⟩

/-- A short field and the filling behind it. -/
theorem padded_append_fill {m n : Nat} {s : List UInt8} (h : s.length = m) :
    padded m s ++ padded n [] = padded (m + n) s := by
  rw [padded_of_le h.le, padded_of_le (Nat.zero_le n), padded_of_le (by omega), h, Nat.sub_self,
    Nat.add_sub_cancel_left, List.replicate_zero, List.append_nil, List.nil_append]
  rfl

/-- An interface is packed as its six entries. -/
theorem pack_interface (intf : VNSInterface) :
    intf.pack = .ok ((hwEntries intf).flatMap HwEntry.bytes) := by
  have hfits : StructFits VNSInterface.format
      (VNSInterface.hwInterface, intf.name, VNSInterface.hwSpeed, 0, [], VNSInterface.hwEther,
        intf.mac, VNSInterface.hwEthIp, intf.ip, [], VNSInterface.hwSubnet, 0, [],
        VNSInterface.hwMask, intf.mask, [], ()) := by
    simp [VNSInterface.format, StructFits, StructField.Fits, VNSInterface.hwInterface,
      VNSInterface.hwSpeed, VNSInterface.hwEther, VNSInterface.hwEthIp, VNSInterface.hwSubnet,
      VNSInterface.hwMask]
  have hzero : bigEndian 4 0 ++ padded 28 [] = padded 32 [] := rfl
  have hip : padded 4 intf.ip ++ padded 28 [] = padded 32 intf.ip :=
    padded_append_fill intf.ip_length
  have hmask : padded 4 intf.mask ++ padded 28 [] = padded 32 intf.mask :=
    padded_append_fill intf.mask_length
  rw [VNSInterface.pack, orStruct_pack hfits]
  simp only [hwEntries, List.flatMap_cons, List.flatMap_nil, HwEntry.bytes, ← hzero, ← hip, ← hmask]
  simp [structBytes, StructField.bytes, VNSInterface.format, VNSInterface.hwInterface,
    VNSInterface.hwSpeed, VNSInterface.hwEther, VNSInterface.hwEthIp, VNSInterface.hwSubnet,
    VNSInterface.hwMask]

/-- Only the interface added last is set. -/
theorem setLast_append (i : SrIf) (f : SrIf → SrIf) :
    setLast { sr with ifList := sr.ifList ++ [i] } f =
      .ok { sr with ifList := sr.ifList ++ [f i] } := by
  rw [setLast, assert_of (List.append_ne_nil_of_right_ne_nil _ (List.cons_ne_nil _ _)),
    List.modifyLast_concat]
  rfl

/-- An interface is added under its name at the end of the list. -/
theorem addInterface_name (hname : 0 ∉ intf.name) (hlen : intf.name.length < 32) :
    addInterface env sr (padded 32 intf.name) = .ok { sr with
      ifList := sr.ifList ++ [⟨nameBlock intf.name, (env.newIf sr.ifList.length).1,
        (env.newIf sr.ifList.length).2, nameBlock_length intf.name⟩] } := by
  have hstr : CStrAt (padded 32 intf.name) 0 intf.name := nameBlock_cstrAt hname hlen
  exact addInterface_eq (hstr.strncpy_eq List.length_replicate) _

/-- The addresses go to the interface that was just added. -/
theorem applyEntries (hname : 0 ∉ intf.name) (hlen : intf.name.length < 32) :
    (hwEntries intf).foldlM (applyEntry env) sr =
      .ok { sr with ifList := sr.ifList ++ [routerIf intf] } := by
  have hmac : macAt (padded 32 intf.mac) 0 = macAt intf.mac 0 := by
    rw [padded_of_le (by rw [intf.mac_length]; decide)]
    exact (sameBytes_append _ _).macAt le_rfl intf.mac_length.ge
  have hip : word32 (padded 32 intf.ip) 0 = word32 intf.ip 0 := by
    rw [padded_of_le (by rw [intf.ip_length]; decide)]
    exact (sameBytes_append _ _).word32 le_rfl intf.ip_length.ge
  simp [hwEntries, applyEntry, addInterface_name hname hlen, setEtherAddr, setEtherIp,
    setLast_append, hmac, hip, routerIf, pure, Except.pure]

/-- The body is the entries of all interfaces in order. -/
theorem pack_interfaces (intfs : List VNSInterface) :
    (VNSHardwareInfo.mk intfs).pack = .ok ((intfs.flatMap hwEntries).flatMap HwEntry.bytes) := by
  have hmap : intfs.mapM VNSInterface.pack =
      .ok (intfs.map fun intf => (hwEntries intf).flatMap HwEntry.bytes) := by
    induction intfs with
    | nil => rfl
    | cons intf intfs ih =>
      rw [List.mapM_cons, pack_interface, ih]
      rfl
  have hbytes : (intfs.flatMap hwEntries).flatMap HwEntry.bytes =
      (intfs.map fun intf => (hwEntries intf).flatMap HwEntry.bytes).flatten := by
    rw [List.flatMap_assoc, ← List.flatMap_def]
  rw [VNSHardwareInfo.pack, hmap, hbytes]
  rfl

/-- The entries of an interface list add its interfaces in order. -/
theorem applyInterfaces {intfs : List VNSInterface}
    (hnames : ∀ intf ∈ intfs, 0 ∉ intf.name ∧ intf.name.length ≤ 31) :
    (intfs.flatMap hwEntries).foldlM (applyEntry env) sr =
      .ok { sr with ifList := sr.ifList ++ intfs.map routerIf } := by
  induction intfs generalizing sr with
  | nil =>
    rw [List.map_nil, List.append_nil]
    rfl
  | cons intf intfs ih =>
    obtain ⟨⟨hname, hlen⟩, hnames⟩ := List.forall_mem_cons.1 hnames
    rw [List.flatMap_cons, List.foldlM_append, applyEntries hname (Nat.lt_succ_of_le hlen),
      Exec.ok_bind, ih hnames, List.map_cons, List.append_assoc]
    rfl

/-- The entries of an interface are well formed. -/
theorem wellFormed_hwEntries (intf : VNSInterface) :
    ∀ e ∈ hwEntries intf, HwEntry.WellFormed e := by
  have hvalue : ∀ s : List UInt8, (padded 32 s).length = 32 := padded_length 32
  simp [hwEntries, HwEntry.WellFormed, hvalue]

/-- There are six entries to an interface. -/
theorem length_flatMap_hwEntries (intfs : List VNSInterface) :
    (intfs.flatMap hwEntries).length = 6 * intfs.length := by
  induction intfs with
  | nil => rfl
  | cons intf intfs ih =>
    rw [List.flatMap_cons, List.length_append, ih, List.length_cons]
    simp only [hwEntries, List.length_cons, List.length_nil]
    omega

/-- Well-formed entries have 36 bytes each. -/
theorem length_flatMap_bytes {entries : List HwEntry}
    (h : ∀ e ∈ entries, HwEntry.WellFormed e) :
    (entries.flatMap HwEntry.bytes).length = 36 * entries.length := by
  induction entries with
  | nil => rfl
  | cons e entries ih =>
    obtain ⟨he, hentries⟩ := List.forall_mem_cons.1 h
    rw [List.flatMap_cons, List.length_append, he.bytes_length, ih hentries, List.length_cons,
      hwEntrySize]
    omega

/-- An interface of the router that is one of the message. -/
structure IsInterface (i : SrIf) (intf : VNSInterface) : Prop where
  name : CStrAt i.name 0 intf.name
  addr : i.addr.bytes = intf.mac
  /-- The address is kept in network order. -/
  ip : [i.ip.toUInt8, (i.ip >>> 8).toUInt8, (i.ip >>> 16).toUInt8, (i.ip >>> 24).toUInt8] = intf.ip

/-- The interface of the router has the fields of the one described. -/
theorem isInterface_routerIf (hname : 0 ∉ intf.name) (hlen : intf.name.length ≤ 31) :
    IsInterface (routerIf intf) intf := by
  obtain ⟨name, mac, ip, mask, hmac, hip, hmask⟩ := intf
  refine ⟨nameBlock_cstrAt hname (Nat.lt_succ_of_le hlen), ?_, ?_⟩
  · match mac, hmac with
    | [_, _, _, _, _, _], _ => rfl
  · match ip, hip with
    | [a, b, c, d], _ => exact bytes_word32 a b c d rfl

/-- The router gets the interfaces that were packed, in their order. The type may stand in either
byte order. -/
theorem handleHwinfo_pack {intfs : List VNSInterface} (hcount : intfs.length ≤ 46)
    (hnames : ∀ intf ∈ intfs, 0 ∉ intf.name ∧ intf.name.length ≤ 31) (env : VnsEnv)
    (sr : SrInstance) :
    ∃ body, (VNSHardwareInfo.mk intfs).pack = .ok body ∧ ∀ type : List UInt8, type.length = 4 →
      ∃ ifList, handleHwinfo env { sr with ifList := [] }
          (bigEndian 4 (8 + body.length) ++ (type ++ body)) =
          .ok ({ sr with ifList }, 6 * intfs.length) ∧
        List.Forall₂ IsInterface ifList intfs := by
  refine ⟨_, pack_interfaces intfs, fun type htype => ⟨intfs.map routerIf, ?_, ?_⟩⟩
  · have hcountEntries := length_flatMap_hwEntries intfs
    have hentries : ∀ e ∈ intfs.flatMap hwEntries, HwEntry.WellFormed e := by
      intro e he
      obtain ⟨intf, -, he⟩ := List.mem_flatMap.1 he
      exact wellFormed_hwEntries intf e he
    rw [length_flatMap_bytes hentries, hcountEntries]
    have hmLen : (UInt32.ofNat (8 + 36 * (6 * intfs.length))).toNat = 8 + 36 * (6 * intfs.length) :=
      UInt32.toNat_ofNat_of_lt' (show _ < 2 ^ 32 by omega)
    have hnum : numEntries (UInt32.ofNat (8 + 36 * (6 * intfs.length))) = 6 * intfs.length := by
      rw [numEntries_eq (by omega) (by omega), hmLen]
      omega
    have htoNat : (6 * (intfs.length : Int)).toNat = (intfs.flatMap hwEntries).length := by
      rw [hcountEntries]
      omega
    have hload : (loadNet32 (bigEndian 4 (8 + 36 * (6 * intfs.length)) ++ (type ++
        (intfs.flatMap hwEntries).flatMap HwEntry.bytes)) 0 : Exec VnsAssert UInt32) =
        .ok (UInt32.ofNat (8 + 36 * (6 * intfs.length))) := by
      rw [loadNet32, loadField_of_le, netWord32_of_drop rfl (by omega)]
      rw [List.length_append, bigEndian_length]
      omega
    have hdrop : (bigEndian 4 (8 + 36 * (6 * intfs.length)) ++ (type ++
        (intfs.flatMap hwEntries).flatMap HwEntry.bytes)).drop 8 =
        (intfs.flatMap hwEntries).flatMap HwEntry.bytes ++ [] := by
      rw [← List.append_assoc, List.append_nil, List.drop_left']
      rw [List.length_append, bigEndian_length, htype]
    rw [handleHwinfo, hload]
    simp only [Exec.ok_bind, hnum, htoNat, hwLoop_eq hentries hdrop, applyInterfaces hnames,
      List.nil_append, Exec.pure_eq_ok]
  · rw [List.forall₂_map_left_iff, List.forall₂_same]
    exact fun intf hintf => isInterface_routerIf (hnames intf hintf).1 (hnames intf hintf).2

/-- The surroundings in which blocks are zero and every call succeeds. -/
def sampleEnv : VnsEnv where
  block := fun n => List.replicate n 0
  block_length := fun _ => List.length_replicate
  newIf := fun _ => (⟨0, 0, 0, 0, 0, 0⟩, 0)
  opens := fun _ => true
  authKey := .missing
  sha1 := fun _ => none
  sends := true

/-- The interfaces of a small router, 10.0.1.1 and 10.0.2.1. -/
def sampleInterfaces : List VNSInterface :=
  [⟨[101, 116, 104, 49], [2, 0, 0, 0, 0, 1], [10, 0, 1, 1], [255, 255, 255, 0], rfl, rfl, rfl⟩,
    ⟨[101, 116, 104, 50], [2, 0, 0, 0, 0, 2], [10, 0, 2, 1], [255, 255, 255, 0], rfl, rfl, rfl⟩]

theorem handleHwinfo_pack_sample :
    ∃ body, (VNSHardwareInfo.mk sampleInterfaces).pack = .ok body ∧
      ∀ type : List UInt8, type.length = 4 →
        ∃ ifList, handleHwinfo sampleEnv
            { (⟨[], [], arpcacheInit (fun _ => none) (fun _ => none), [], []⟩ : SrInstance) with
              ifList := [] } (bigEndian 4 (8 + body.length) ++ (type ++ body)) =
            .ok (⟨ifList, [], arpcacheInit (fun _ => none) (fun _ => none), [], []⟩,
              6 * sampleInterfaces.length) ∧
          List.Forall₂ IsInterface ifList sampleInterfaces :=
  handleHwinfo_pack (by decide) (by decide) _ _

end ComputerNetworks.Router
