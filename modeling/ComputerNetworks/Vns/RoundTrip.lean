import ComputerNetworks.Vns.Protocol

/-!
# Round trips and sizes

Every class that has a decoder gets back what its encoder was given, as long as
its texts fit their fields; where a number does not fit, the encoder raises. The
declared length is that of the body for all but two classes: `VNSOpenTemplate`
counts a field twice and `VNSAuthReply` forgets one.
-/

namespace ComputerNetworks.Vns

/-- A text for a field of `n` bytes. -/
def TextFits (n : Nat) (s : List UInt8) : Prop := 0 ∉ s ∧ s.length ≤ n

instance TextFits.decidable (n : Nat) (s : List UInt8) : Decidable (TextFits n s) :=
  inferInstanceAs (Decidable (_ ∧ _))

/-- A text that fits comes back without its padding. -/
theorem TextFits.strip {n : Nat} {s : List UInt8} (h : TextFits n s) :
    stripNulls (padded n s) = s := stripNulls_padded h.1 h.2

@[simp] theorem orStruct_some {α : Type} (a : α) : orStruct (some a) = .ok a := rfl

@[simp] theorem orSocket_some {α : Type} (a : α) : orSocket (some a) = .ok a := rfl

@[simp] theorem ok_bind {α β : Type} (a : α) (f : α → Except VnsError β) :
    ((.ok a : Except VnsError α) >>= f) = f a := rfl

@[simp] theorem error_bind {α β : Type} (e : VnsError) (f : α → Except VnsError β) :
    ((.error e : Except VnsError α) >>= f) = .error e := rfl

@[simp] theorem pure_eq_ok {α : Type} (a : α) : (pure a : Except VnsError α) = .ok a := rfl

/-- Values that fit are packed. -/
theorem orStruct_pack {fmt : List StructField} {vs : StructValues fmt} (h : StructFits fmt vs) :
    orStruct (structPack fmt vs) = .ok (structBytes fmt vs) := by
  rw [structPack_eq, if_pos h, orStruct_some]

/-- Values that do not fit raise an exception. -/
theorem orStruct_pack_error {fmt : List StructField} {vs : StructValues fmt}
    (h : ¬StructFits fmt vs) : orStruct (structPack fmt vs) = .error .struct := by
  rw [structPack_eq, if_neg h]
  rfl

/-- Packed values are read back. -/
theorem orStruct_unpack {fmt : List StructField} {vs : StructValues fmt} (h : StructFits fmt vs) :
    orStruct (structUnpack fmt (structBytes fmt vs)) = .ok (structReread fmt vs) := by
  rw [structUnpack_bytes h, orStruct_some]

/-- The header of a body. -/
theorem orStruct_unpack_take {fmt : List StructField} {vs : StructValues fmt}
    (h : StructFits fmt vs) (rest : List UInt8) :
    orStruct (structUnpack fmt ((structBytes fmt vs ++ rest).take (calcsize fmt))) =
      .ok (structReread fmt vs) := by
  rw [structUnpack_take h, orStruct_some]

/-- An opening message comes back exactly if its topology number has 16 bits. -/
theorem VNSOpen.unpack_pack (m : VNSOpen) (hvhost : TextFits 32 m.vhost)
    (huser : TextFits 32 m.user) (hpw : TextFits 32 m.pw) :
    m.pack >>= VNSOpen.unpack =
      if 0 ≤ m.topoId ∧ m.topoId < 65536 then .ok m else .error .struct := by
  by_cases htopo : 0 ≤ m.topoId ∧ m.topoId < 65536
  · have hfits : StructFits VNSOpen.format (m.topoId, 0, m.vhost, m.user, m.pw, ()) :=
      ⟨htopo, by decide, trivial, trivial, trivial, trivial⟩
    rw [if_pos htopo, VNSOpen.pack, orStruct_pack hfits, ok_bind, VNSOpen.unpack,
      orStruct_unpack hfits]
    simp only [ok_bind, VNSOpen.format, structReread, StructField.read, idsize, hvhost.strip,
      huser.strip, hpw.strip, pure_eq_ok]
  · have hfits : ¬StructFits VNSOpen.format (m.topoId, 0, m.vhost, m.user, m.pw, ()) :=
      fun h => htopo h.1
    rw [if_neg htopo, VNSOpen.pack, orStruct_pack_error hfits, error_bind]

/-- A close comes back. -/
theorem VNSClose.unpack_pack (m : VNSClose) (hmsg : TextFits 256 m.msg) :
    m.pack >>= VNSClose.unpack = .ok m := by
  have hfits : StructFits VNSClose.format (m.msg, ()) := ⟨trivial, trivial⟩
  rw [VNSClose.pack, orStruct_pack hfits, ok_bind, VNSClose.unpack, orStruct_unpack hfits]
  simp only [ok_bind, VNSClose.format, structReread, StructField.read, hmsg.strip, pure_eq_ok]

/-- A banner comes back. -/
theorem VNSBanner.unpack_pack (m : VNSBanner) (hmsg : TextFits 256 m.msg) :
    m.pack >>= VNSBanner.unpack = .ok m := by
  have hfits : StructFits VNSBanner.format (m.msg, ()) := ⟨trivial, trivial⟩
  rw [VNSBanner.pack, orStruct_pack hfits, ok_bind, VNSBanner.unpack, orStruct_unpack hfits]
  simp only [ok_bind, VNSBanner.format, structReread, StructField.read, hmsg.strip, pure_eq_ok]

/-- A packet comes back. -/
theorem VNSPacket.unpack_pack (m : VNSPacket) (hname : TextFits 16 m.intfName) :
    m.pack >>= VNSPacket.unpack = .ok m := by
  have hfits : StructFits VNSPacket.headerFormat (m.intfName, ()) := ⟨trivial, trivial⟩
  have hdrop := drop_structBytes VNSPacket.headerFormat (m.intfName, ()) m.ethernetFrame
  rw [VNSPacket.pack, orStruct_pack hfits]
  simp only [ok_bind, pure_eq_ok, VNSPacket.unpack, VNSPacket.headerSize,
    orStruct_unpack_take hfits, hdrop]
  simp only [VNSPacket.headerFormat, structReread, StructField.read, hname.strip]

/-- A routing table comes back. -/
theorem VNSRtable.unpack_pack (m : VNSRtable) (hhost : TextFits 32 m.vrhost) :
    m.pack >>= VNSRtable.unpack = .ok m := by
  have hfits : StructFits VNSRtable.headerFormat (m.vrhost, ()) := ⟨trivial, trivial⟩
  have hbytes : structBytes VNSRtable.headerFormat (m.vrhost, ()) = padded idsize m.vrhost :=
    List.append_nil _
  have hlen : (padded idsize m.vrhost).length = idsize := padded_length _ _
  rw [VNSRtable.pack, orStruct_pack hfits, hbytes]
  simp only [ok_bind, pure_eq_ok, VNSRtable.unpack, List.take_left' hlen, List.drop_left' hlen]
  rw [idsize, hhost.strip]

/-- A reply comes back exactly if the length of its name has 32 bits. -/
theorem VNSAuthReply.unpack_pack (m : VNSAuthReply) :
    m.pack >>= VNSAuthReply.unpack =
      if m.username.length < 4294967296 then .ok m else .error .struct := by
  by_cases hlen : m.username.length < 4294967296
  · have hfits : StructFits [.uint 4] ((m.username.length : Int), ()) :=
      ⟨⟨Int.natCast_nonneg _, Int.ofNat_lt.2 hlen⟩, trivial⟩
    have htake := orStruct_unpack_take hfits (m.username ++ m.ssp)
    have hdrop := drop_structBytes [.uint 4] ((m.username.length : Int), ()) (m.username ++ m.ssp)
    have hsize : calcsize [.uint 4] = 4 := rfl
    rw [hsize] at htake hdrop
    rw [if_pos hlen, VNSAuthReply.pack, orStruct_pack hfits]
    simp only [ok_bind, pure_eq_ok, VNSAuthReply.unpack, List.append_assoc, htake, hdrop,
      structReread, StructField.read, Int.toNat_natCast, List.take_left, List.drop_left]
  · have hfits : ¬StructFits [.uint 4] ((m.username.length : Int), ()) :=
      fun h => hlen (Int.ofNat_lt.1 h.1.2)
    rw [if_neg hlen, VNSAuthReply.pack, orStruct_pack_error hfits]
    rfl

/-- A status comes back. -/
theorem VNSAuthStatus.unpack_pack (m : VNSAuthStatus) :
    m.pack >>= VNSAuthStatus.unpack = .ok m := by
  obtain ⟨authOk, msg⟩ := m
  cases authOk with
  | false => rfl
  | true => rfl

/-- A filter with a canonical address and a mask of at most 32 bits. -/
def SrcFilter.Canonical (filter : SrcFilter) : Prop :=
  (∃ a b c d : UInt8, filter.1 = dotted a b c d) ∧ 0 ≤ filter.2 ∧ filter.2 ≤ 32

/-- A packed filter: its address and the byte of its mask. -/
theorem packFilter_canonical {filter : SrcFilter} (h : filter.Canonical) :
    ∃ a b c d m : UInt8, VNSOpenTemplate.packFilter filter = .ok [a, b, c, d, m] ∧
      filter = (dotted a b c d, (m.toNat : Int)) ∧ m.toNat ≤ 32 := by
  obtain ⟨ip, mask⟩ := filter
  obtain ⟨⟨a, b, c, d, rfl⟩, hlow, hhigh⟩ := h
  obtain ⟨n, rfl⟩ := Int.eq_ofNat_of_zero_le hlow
  have hn : n ≤ 32 := Int.ofNat_le.1 hhigh
  have hbyte : (UInt8.ofNat n).toNat = n := UInt8.toNat_ofNat_of_lt' (show n < 2 ^ 8 by omega)
  have hfits : StructFits [.uint 1] ((n : Int), ()) :=
    ⟨⟨Int.natCast_nonneg _, Int.ofNat_lt.2 (by omega)⟩, trivial⟩
  refine ⟨a, b, c, d, UInt8.ofNat n, ?_, by rw [hbyte], by rw [hbyte]; exact hn⟩
  rw [VNSOpenTemplate.packFilter, inetAton_dotted, orStruct_pack hfits]
  rfl

/-- The first filter of a body. -/
theorem unpackFilter_zero (a b c d m : UInt8) (rest : List UInt8) (hm : m.toNat ≤ 32) :
    VNSOpenTemplate.unpackFilter (a :: b :: c :: d :: m :: rest) 0 =
      .ok (dotted a b c d, (m.toNat : Int)) := by
  have hone : ofBigEndian [m] = m.toNat := by
    rw [ofBigEndian, List.foldl_cons, List.foldl_nil, Nat.zero_mul, Nat.zero_add]
  have hmask : ¬((m.toNat : Int) < 0 ∨ (m.toNat : Int) > 32) := by omega
  have hread : structUnpack [.uint 1] [m] = some ((m.toNat : Int), ()) := by
    show some (((ofBigEndian [m] : Nat) : Int), ()) = _
    rw [hone]
  simp only [VNSOpenTemplate.unpackFilter, Nat.zero_mul, Nat.zero_add, List.drop_zero,
    List.drop_succ_cons, List.take_succ_cons, List.take_zero, inetNtoa, orSocket_some, ok_bind,
    hread, orStruct_some, if_neg hmask, pure_eq_ok]

/-- The later ones are those of the rest. -/
theorem unpackFilter_succ {chunk : List UInt8} (hchunk : chunk.length = 5) (rest : List UInt8)
    (i : Nat) : VNSOpenTemplate.unpackFilter (chunk ++ rest) (i + 1) =
      VNSOpenTemplate.unpackFilter rest i := by
  have hdrop : ∀ k, (chunk ++ rest).drop ((i + 1) * 5 + k) = rest.drop (i * 5 + k) := by
    intro k
    have hsplit : (i + 1) * 5 + k = chunk.length + (i * 5 + k) := by omega
    rw [hsplit, ← List.drop_drop, List.drop_left]
  have hip : (chunk ++ rest).drop ((i + 1) * 5) = rest.drop (i * 5) := hdrop 0
  rw [VNSOpenTemplate.unpackFilter, VNSOpenTemplate.unpackFilter, hip, hdrop 4]

/-- Packed filters are read back one by one. -/
theorem unpackFilters_pack {filters : List SrcFilter} (h : ∀ filter ∈ filters, filter.Canonical) :
    ∃ chunks, filters.mapM VNSOpenTemplate.packFilter = .ok chunks ∧
      chunks.flatten.length = 5 * filters.length ∧
      (List.range filters.length).mapM (VNSOpenTemplate.unpackFilter chunks.flatten) =
        .ok filters := by
  induction filters with
  | nil => exact ⟨[], rfl, rfl, rfl⟩
  | cons filter filters ih =>
    obtain ⟨hfilter, hfilters⟩ := List.forall_mem_cons.1 h
    obtain ⟨a, b, c, d, m, hpack, hvalue, hm⟩ := packFilter_canonical hfilter
    obtain ⟨chunks, hrest, hlen, hread⟩ := ih hfilters
    refine ⟨[a, b, c, d, m] :: chunks, ?_, ?_, ?_⟩
    · rw [List.mapM_cons, hpack, hrest]
      rfl
    · rw [List.flatten_cons, List.length_append, hlen, List.length_cons]
      simp only [List.length_cons, List.length_nil]
      omega
    · have hshift : VNSOpenTemplate.unpackFilter ([a, b, c, d, m] ++ chunks.flatten) ∘ Nat.succ =
          VNSOpenTemplate.unpackFilter chunks.flatten := by
        funext i
        exact unpackFilter_succ rfl _ i
      have hfirst := unpackFilter_zero a b c d m chunks.flatten hm
      rw [List.length_cons, List.range_succ_eq_map, List.mapM_cons, List.flatten_cons,
        List.mapM_map, hshift, hread, hvalue]
      exact congrArg (· >>= _) hfirst

/-- The constructor keeps its arguments but for an empty filter list. -/
theorem VNSOpenTemplate.init_fields (name host : List UInt8) (filters : List SrcFilter) :
    (init name host filters).templateName = name ∧ (init name host filters).vrhost = host ∧
      (init name host filters).srcFilters = if filters = [] then noSrcFilters else filters := by
  unfold init
  split
  · exact ⟨rfl, rfl, rfl⟩
  · exact ⟨rfl, rfl, rfl⟩

/-- The fields of a template make it up again. -/
theorem VNSOpenTemplate.init_self (m : VNSOpenTemplate) :
    init m.templateName m.vrhost m.srcFilters = m := by
  rw [init, dif_neg m.srcFilters_ne]

/-- The default filter is in canonical form. -/
theorem canonical_noSrcFilters : ∀ filter ∈ noSrcFilters, filter.Canonical := by
  intro filter hfilter
  rw [List.mem_singleton.1 hfilter]
  exact ⟨⟨0, 0, 0, 0, rfl⟩, le_rfl, by decide⟩

/-- A template with canonical filters comes back. -/
theorem VNSOpenTemplate.unpack_pack (m : VNSOpenTemplate) (hname : TextFits 30 m.templateName)
    (hhost : TextFits 32 m.vrhost) (hfilters : ∀ filter ∈ m.srcFilters, filter.Canonical) :
    m.pack >>= VNSOpenTemplate.unpack = .ok m := by
  have hfits : StructFits headerFormat (m.templateName, m.vrhost, ()) := ⟨trivial, trivial, trivial⟩
  obtain ⟨chunks, hpack, hlen, hread⟩ := unpackFilters_pack hfilters
  have hcount : chunks.flatten.length / 5 = m.srcFilters.length := by omega
  have hdrop := drop_structBytes headerFormat (m.templateName, m.vrhost, ()) chunks.flatten
  rw [VNSOpenTemplate.pack, hpack, orStruct_pack hfits]
  show VNSOpenTemplate.unpack (structBytes headerFormat (m.templateName, m.vrhost, ()) ++
    chunks.flatten) = .ok m
  simp only [VNSOpenTemplate.unpack, headerSize, orStruct_unpack_take hfits, ok_bind, hdrop, hcount,
    hread, pure_eq_ok]
  simp only [headerFormat, structReread, StructField.read, idsize, hname.strip, hhost.strip,
    VNSOpenTemplate.init_self]

/-- What was packed is unpacked, in each of the nine classes with a decoder. An empty list of
filters comes back as the filter that matches everything; the encoder raises where a number does
not fit. -/
theorem roundTrip_classes :
    (∀ m : VNSOpen, TextFits 32 m.vhost → TextFits 32 m.user → TextFits 32 m.pw →
      m.pack >>= VNSOpen.unpack =
        if 0 ≤ m.topoId ∧ m.topoId < 65536 then .ok m else .error .struct) ∧
    (∀ m : VNSClose, TextFits 256 m.msg → m.pack >>= VNSClose.unpack = .ok m) ∧
    (∀ m : VNSPacket, TextFits 16 m.intfName → m.pack >>= VNSPacket.unpack = .ok m) ∧
    (∀ m : VNSBanner, TextFits 256 m.msg → m.pack >>= VNSBanner.unpack = .ok m) ∧
    (∀ m : VNSRtable, TextFits 32 m.vrhost → m.pack >>= VNSRtable.unpack = .ok m) ∧
    (∀ (name host : List UInt8) (filters : List SrcFilter), TextFits 30 name → TextFits 32 host →
      (∀ filter ∈ filters, filter.Canonical) →
      ∃ m, (VNSOpenTemplate.init name host filters).pack >>= VNSOpenTemplate.unpack = .ok m ∧
        m.templateName = name ∧ m.vrhost = host ∧
        m.srcFilters = if filters = [] then [(dotted 0 0 0 0, 0)] else filters) ∧
    (∀ m : VNSAuthRequest, m.pack >>= VNSAuthRequest.unpack = .ok m) ∧
    (∀ m : VNSAuthReply, m.pack >>= VNSAuthReply.unpack =
      if m.username.length < 4294967296 then .ok m else .error .struct) ∧
    (∀ m : VNSAuthStatus, m.pack >>= VNSAuthStatus.unpack = .ok m) := by
  refine ⟨VNSOpen.unpack_pack, VNSClose.unpack_pack, VNSPacket.unpack_pack, VNSBanner.unpack_pack,
    VNSRtable.unpack_pack, ?_, fun _ => rfl, VNSAuthReply.unpack_pack, VNSAuthStatus.unpack_pack⟩
  intro name host filters hname hhost hfilters
  have hfields := VNSOpenTemplate.init_fields name host filters
  refine ⟨_, VNSOpenTemplate.unpack_pack _ ?_ ?_ ?_, hfields⟩
  · rw [hfields.1]
    exact hname
  · rw [hfields.2.1]
    exact hhost
  · rw [hfields.2.2]
    split
    · exact canonical_noSrcFilters
    · exact hfilters

/-- A template without filters. -/
theorem roundTrip_classes_template :
    ∃ m, (VNSOpenTemplate.init [116] [118] []).pack >>= VNSOpenTemplate.unpack = .ok m ∧
      m.templateName = [116] ∧ m.vrhost = [118] ∧ m.srcFilters = [(dotted 0 0 0 0, 0)] :=
  roundTrip_classes.2.2.2.2.2.1 [116] [118] [] (by decide) (by decide) (List.forall_mem_nil _)

/-- What is packed has the size of its format. -/
theorem length_of_orStruct {fmt : List StructField} {vs : StructValues fmt} {b : List UInt8}
    (h : orStruct (structPack fmt vs) = .ok b) : b.length = calcsize fmt := by
  by_cases hfits : StructFits fmt vs
  · rw [orStruct_pack hfits] at h
    cases h
    exact structBytes_length fmt vs
  · rw [orStruct_pack_error hfits] at h
    cases h

/-- A step behind another returns exactly if both do. -/
theorem bind_eq_ok {α β : Type} {first : Except VnsError α} {next : α → Except VnsError β}
    {out : β} : (first >>= next) = .ok out ↔ ∃ mid, first = .ok mid ∧ next mid = .ok out := by
  cases first with
  | error e => exact iff_of_false (fun h => nomatch h) (fun ⟨_, h, _⟩ => nomatch h)
  | ok mid => exact ⟨fun h => ⟨mid, rfl, h⟩, fun ⟨_, hmid, h⟩ => Except.ok.inj hmid ▸ h⟩

/-- Elements that are packed to one size. -/
theorem length_flatten_mapM {α : Type} {f : α → Except VnsError (List UInt8)} {size : Nat}
    (hsize : ∀ a b, f a = .ok b → b.length = size) {l : List α} {chunks : List (List UInt8)}
    (h : l.mapM f = .ok chunks) : chunks.flatten.length = l.length * size := by
  induction l generalizing chunks with
  | nil =>
    cases h
    rw [List.length_nil, Nat.zero_mul]
    rfl
  | cons a l ih =>
    rw [List.mapM_cons] at h
    obtain ⟨b, hb, h⟩ := bind_eq_ok.1 h
    obtain ⟨rest, hrest, h⟩ := bind_eq_ok.1 h
    cases h
    rw [List.flatten_cons, List.length_append, hsize a b hb, ih hrest, List.length_cons,
      Nat.succ_mul, Nat.add_comm]

/-- A filter has five bytes. -/
theorem length_packFilter (filter : SrcFilter) (b : List UInt8)
    (h : VNSOpenTemplate.packFilter filter = .ok b) : b.length = 5 := by
  obtain ⟨ip, hip, h⟩ := bind_eq_ok.1 h
  obtain ⟨mask, hmask, h⟩ := bind_eq_ok.1 h
  cases h
  have hlen : ip.length = 4 := by
    cases haton : inetAton filter.1 with
    | none =>
      rw [haton] at hip
      cases hip
    | some ip' =>
      rw [haton] at hip
      cases hip
      exact inetAton_length haton
  have hone : calcsize [.uint 1] = 1 := rfl
  rw [List.length_append, hlen, length_of_orStruct hmask, hone]

/-- The class declares the size of its body. -/
def VnsMessage.DeclaresSize : VnsMessage → Prop
  | .openTemplate _ => False
  | .authReply _ => False
  | _ => True

/-- The body of a template is 30 bytes shorter than declared. -/
theorem VNSOpenTemplate.length_eq {m : VNSOpenTemplate} {body : List UInt8}
    (h : m.pack = .ok body) : m.length = body.length + 30 := by
  obtain ⟨filters, hfilters, h⟩ := bind_eq_ok.1 h
  obtain ⟨header, hheader, h⟩ := bind_eq_ok.1 h
  cases h
  cases hmap : m.srcFilters.mapM packFilter with
  | error e =>
    rw [hmap] at hfilters
    cases hfilters
  | ok chunks =>
    rw [hmap] at hfilters
    cases hfilters
    rw [VNSOpenTemplate.length, List.length_append, length_of_orStruct hheader,
      length_flatten_mapM length_packFilter hmap, headerSize]
    omega

/-- That of a reply is 4 bytes longer. -/
theorem VNSAuthReply.length_eq {m : VNSAuthReply} {body : List UInt8} (h : m.pack = .ok body) :
    m.length + 4 = body.length := by
  obtain ⟨header, hheader, h⟩ := bind_eq_ok.1 h
  cases h
  have hfour : calcsize [.uint 4] = 4 := rfl
  rw [VNSAuthReply.length, List.length_append, List.length_append,
    length_of_orStruct hheader, hfour]
  omega

/-- A hardware description declares its own length. -/
theorem VNSHardwareInfo.length_eq {m : VNSHardwareInfo} {body : List UInt8}
    (h : m.pack = .ok body) : m.length = body.length := by
  cases hmap : m.interfaces.mapM VNSInterface.pack with
  | error e =>
    rw [VNSHardwareInfo.pack, hmap] at h
    cases h
  | ok chunks =>
    rw [VNSHardwareInfo.pack, hmap] at h
    cases h
    exact (length_flatten_mapM (fun _ _ => length_of_orStruct) hmap).symm

/-- A header and an open end. -/
theorem length_header {fmt : List StructField} {vs : StructValues fmt} {rest body : List UInt8}
    (h : (do let header ← orStruct (structPack fmt vs); pure (header ++ rest)) = .ok body) :
    calcsize fmt + rest.length = body.length := by
  obtain ⟨header, hheader, h⟩ := bind_eq_ok.1 h
  cases h
  rw [List.length_append, length_of_orStruct hheader]

/-- The declared length is that of the body except in two classes. -/
theorem VnsMessage.length_eq_iff {m : VnsMessage} {body : List UInt8} (h : m.pack = .ok body) :
    m.length = body.length ↔ m.DeclaresSize := by
  cases m with
  | «open» m => exact iff_of_true (length_of_orStruct h).symm trivial
  | close m =>
    have hlength := @length_of_orStruct VNSClose.format (m.msg, ()) body h
    exact iff_of_true hlength.symm trivial
  | packet m => exact iff_of_true (length_header h) trivial
  | banner m =>
    have hlength := @length_of_orStruct VNSBanner.format (m.msg, ()) body h
    exact iff_of_true hlength.symm trivial
  | hardwareInfo m => exact iff_of_true (VNSHardwareInfo.length_eq h) trivial
  | rtable m => exact iff_of_true (length_header h) trivial
  | openTemplate m =>
    have hlength := VNSOpenTemplate.length_eq h
    refine iff_of_false (fun heq => ?_) id
    rw [VnsMessage.length] at heq
    omega
  | authRequest m =>
    cases h
    exact iff_of_true rfl trivial
  | authReply m =>
    have hlength := VNSAuthReply.length_eq h
    refine iff_of_false (fun heq => ?_) id
    rw [VnsMessage.length] at heq
    omega
  | authStatus m => exact iff_of_true (length_header h) trivial

/-- A template with the filter for everything. -/
def sampleTemplate : VnsMessage := .openTemplate (.init [116] [118] [])

/-- A reply of a user of four letters. -/
def sampleReply : VnsMessage := .authReply ⟨[117, 115, 101, 114], List.replicate 20 7⟩

theorem length_eq_iff_template :
    ∃ body, sampleTemplate.pack = .ok body ∧
      (sampleTemplate.length = body.length ↔ sampleTemplate.DeclaresSize) :=
  ⟨_, rfl, VnsMessage.length_eq_iff rfl⟩

/-- The template declares 97 bytes for its 67, and the reply 24 for its 28. -/
theorem not_length_eq :
    (∃ body, sampleTemplate.pack = .ok body ∧ sampleTemplate.length = 97 ∧ body.length = 67) ∧
      (∃ body, sampleReply.pack = .ok body ∧ sampleReply.length = 24 ∧ body.length = 28) ∧
      ¬∀ (m : VnsMessage) (body : List UInt8), m.pack = .ok body → m.length = body.length := by
  refine ⟨⟨_, rfl, rfl, rfl⟩, ⟨_, rfl, rfl, rfl⟩, fun h => ?_⟩
  have hsame := h sampleTemplate _ rfl
  revert hsame
  decide

end ComputerNetworks.Vns
