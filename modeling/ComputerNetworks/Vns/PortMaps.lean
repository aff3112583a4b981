import ComputerNetworks.Core.Machine
import ComputerNetworks.Core.TwoWayMap
import ComputerNetworks.Vns.SrHandler

/-!
# Ports and interfaces

The listener names the ports of the switch after the interfaces of the router and
back. A frame that comes in on a port is answered through it as long as the two
dictionaries are inverse, and that depends on how later switches number their ports.
-/

namespace ComputerNetworks.Vns

variable {Conn : Type}

/-- A number of digits. -/
theorem pyInt_digits {base : Nat} {isDigit : UInt8 → Bool} {s : List UInt8} (hne : s ≠ [])
    (hdigits : ∀ c ∈ s, isDigit c = true)
    (hchar : ∀ c, isDigit c = true → isspace c = false ∧ c ≠ 43 ∧ c ≠ 45 ∧ c ≠ 120 ∧ c ≠ 88) :
    pyInt base isDigit s = some (numberOf base hexDigit s : Int) := by
  have hstrip : ∀ t : List UInt8, (∀ c ∈ t, isDigit c = true) → t.dropWhile isspace = t := by
    intro t ht
    cases t with
    | nil => rfl
    | cons c rest => rw [List.dropWhile_cons_of_neg (by
        rw [(hchar c (ht c List.mem_cons_self)).1]
        exact Bool.false_ne_true)]
  have hreverse : (s.reverse.dropWhile isspace).reverse = s := by
    rw [hstrip _ fun c hc => hdigits c (List.mem_reverse.1 hc), List.reverse_reverse]
  obtain ⟨c, rest, rfl⟩ := List.exists_cons_of_ne_nil hne
  obtain ⟨-, hplus, hminus, -, -⟩ := hchar c (hdigits c List.mem_cons_self)
  have hstarts : ∀ x : UInt8, x = 120 ∨ x = 88 → (c :: rest).take 2 ≠ [48, x] := by
    intro x hx htake
    have hmem : x ∈ c :: rest := List.mem_of_mem_take (htake ▸ List.mem_cons_of_mem _
        List.mem_cons_self)
    obtain ⟨-, -, -, hx', hX'⟩ := hchar x (hdigits x hmem)
    exact hx.elim hx' hX'
  have hhead : ∀ x : UInt8, c ≠ x → (c :: rest).head? ≠ some x := fun x hx h => hx
      (Option.some.inj h)
  have hall : (c :: rest).all isDigit = true := List.all_eq_true.2 hdigits
  have hsign : ¬((c :: rest).head? = some 45 ∨ (c :: rest).head? = some 43) :=
    not_or.2 ⟨hhead 45 hminus, hhead 43 hplus⟩
  have hletters : ¬(base = 16 ∧ ((c :: rest).take 2 = [48, 120] ∨ (c :: rest).take 2 = [48, 88])) :=
    fun h => h.2.elim (hstarts 120 (Or.inl rfl)) (hstarts 88 (Or.inr rfl))
  unfold pyInt
  simp only [hstrip _ hdigits, hreverse, if_neg hsign, if_neg hletters, if_neg (hhead 45 hminus)]
  exact if_pos ⟨List.cons_ne_nil _ _, hall⟩

/-- A digit is neither a blank nor a sign nor an `x`. -/
theorem isdigit_char {c : UInt8} (h : isdigit c = true) :
    isspace c = false ∧ c ≠ 43 ∧ c ≠ 45 ∧ c ≠ 120 ∧ c ≠ 88 := by
  obtain ⟨hspace, hplus, hminus⟩ := isdigit_facts h
  refine ⟨hspace, hplus, hminus, ?_, ?_⟩
  · rintro rfl
    cases h
  · rintro rfl
    cases h

/-- On digits both readings of a character agree. -/
theorem hexDigit_isdigit {s : List UInt8} (h : ∀ c ∈ s, isdigit c = true) :
    numberOf 10 hexDigit s = numberOf 10 decimalDigit s := by
  rw [numberOf, numberOf]
  apply List.foldl_ext
  intro n c hc
  rw [hexDigit, if_pos (h c hc), decimalDigit]

theorem pyChr_toNat (c : UInt8) : pyChr (c.toNat : Int) = some c := by
  have hlt : c.toNat < 256 := c.toNat_lt
  have hlow : 0 ≤ (c.toNat : Int) := Int.natCast_nonneg _
  have hhigh : (c.toNat : Int) < 256 := by omega
  simp only [pyChr, hlow, hhigh, and_self, if_true, Int.toNat_natCast, UInt8.ofNat_toNat]

/-- An octet in decimal. -/
theorem pyInt_decimal (c : UInt8) : (pyInt 10 isdigit (decimal c.toNat) >>= pyChr) = some c := by
  have hdigits := isdigit_of_mem_decimal c.toNat
  rw [pyInt_digits (decimal_ne_nil _) hdigits fun _ hc => isdigit_char hc, hexDigit_isdigit hdigits,
    numberOf_decimal, Option.bind_eq_bind, Option.bind_some, pyChr_toNat]

/-- `pack_ip` reads what `inet_ntoa` prints. -/
theorem packIp_dotted (a b c d : UInt8) : packIp (dotted a b c d) = .ok [a, b, c, d] := by
  have hdot : ∀ n, ∀ x ∈ decimal n, (x == (46 : UInt8)) = false := fun n x hx => by
    have hdigit := isdigit_of_mem_decimal n x hx
    apply beq_false_of_ne
    rintro rfl
    cases hdigit
  have hsplit : (dotted a b c d).splitOn 46 =
      [decimal a.toNat, decimal b.toNat, decimal c.toNat, decimal d.toNat] := by
    rw [dotted, List.splitOn_eq_splitOnP, List.splitOnP_append_cons_of_forall_mem (hdot _) 46 rfl,
      List.splitOnP_append_cons_of_forall_mem (hdot _) 46 rfl,
      List.splitOnP_append_cons_of_forall_mem (hdot _) 46 rfl, List.splitOnP_eq_singleton (hdot _)]
  rw [packIp, packOctets, hsplit]
  simp only [List.mapM_cons, List.mapM_nil, pyInt_decimal]
  rfl

/-- A hexadecimal digit. -/
def hexChar (d : Nat) : UInt8 := if d < 10 then UInt8.ofNat (48 + d) else UInt8.ofNat (87 + d)

/-- An octet in two hexadecimal digits. -/
def hexOctet (c : UInt8) : List UInt8 := [hexChar (c.toNat / 16), hexChar (c.toNat % 16)]

/-- A hardware address as a switch names it. -/
def hexMac (mac : List UInt8) : List UInt8 := [58].intercalate (mac.map hexOctet)

theorem hexChar_facts : ∀ d < 16, isxdigit (hexChar d) = true ∧ hexDigit (hexChar d) = d := by
  decide

/-- A hexadecimal digit is neither a blank nor a sign nor an `x`. -/
theorem isxdigit_char {c : UInt8} (h : isxdigit c = true) :
    isspace c = false ∧ c ≠ 43 ∧ c ≠ 45 ∧ c ≠ 120 ∧ c ≠ 88 := by
  have hne : ∀ x : UInt8, isxdigit x = false → c ≠ x := by
    rintro x hx rfl
    rw [hx] at h
    cases h
  refine ⟨?_, hne 43 rfl, hne 45 rfl, hne 120 rfl, hne 88 rfl⟩
  have hbig : 48 ≤ c := by
    simp only [isxdigit, isdigit, Bool.or_eq_true, Bool.and_eq_true, decide_eq_true_eq,
      UInt8.le_iff_toNat_le, UInt8.reduceToNat] at h ⊢
    omega
  have hblank : ¬c ≤ 13 := by
    rw [UInt8.le_iff_toNat_le] at hbig ⊢
    exact Nat.not_le.2 (Nat.lt_of_lt_of_le (by decide) hbig)
  simp [isspace, hne 32 rfl, hblank]

/-- An octet is written in hexadecimal digits. -/
theorem isxdigit_hexOctet (c : UInt8) : ∀ x ∈ hexOctet c, isxdigit x = true := by
  have hlt : c.toNat < 256 := c.toNat_lt
  intro x hx
  rcases List.mem_cons.1 hx with rfl | hx
  · exact (hexChar_facts (c.toNat / 16) (by omega)).1
  · rw [List.mem_singleton.1 hx]
    exact (hexChar_facts (c.toNat % 16) (by omega)).1

/-- An octet in hexadecimal. -/
theorem pyInt_hexOctet (c : UInt8) : (pyInt 16 isxdigit (hexOctet c) >>= pyChr) = some c := by
  have hlt : c.toNat < 256 := c.toNat_lt
  obtain ⟨-, hhighVal⟩ := hexChar_facts (c.toNat / 16) (by omega)
  obtain ⟨-, hlowVal⟩ := hexChar_facts (c.toNat % 16) (by omega)
  have hvalue : numberOf 16 hexDigit (hexOctet c) = c.toNat := by
    simp only [numberOf, hexOctet, List.foldl_cons, List.foldl_nil, hhighVal, hlowVal]
    omega
  have hint : pyInt 16 isxdigit (hexOctet c) = some (numberOf 16 hexDigit (hexOctet c) : Int) :=
    pyInt_digits (List.cons_ne_nil _ _) (isxdigit_hexOctet c) fun _ hx => isxdigit_char hx
  rw [hint, hvalue, Option.bind_eq_bind, Option.bind_some, pyChr_toNat]

/-- `pack_mac` reads what a switch prints. -/
theorem packMac_hexMac {mac : List UInt8} (hne : mac ≠ []) : packMac (hexMac mac) = .ok mac := by
  have hcolon : ∀ octet ∈ mac.map hexOctet, (58 : UInt8) ∉ octet := by
    intro octet hmem hin
    obtain ⟨c, -, rfl⟩ := List.mem_map.1 hmem
    cases isxdigit_hexOctet c 58 hin
  have hsplit : (hexMac mac).splitOn 58 = mac.map hexOctet :=
    List.splitOn_intercalate 58 hcolon (List.map_eq_nil_iff.not.2 hne)
  have hoctets : ∀ octets : List UInt8,
      (octets.map hexOctet).mapM (fun octet => pyInt 16 isxdigit octet >>= pyChr) =
        some octets := by
    intro octets
    induction octets with
    | nil => rfl
    | cons c octets ih =>
      rw [List.map_cons, List.mapM_cons, pyInt_hexOctet, ih]
      rfl
  rw [packMac, packOctets, hsplit, hoctets]
  rfl

/-- The entry of a port whose addresses are printed. -/
theorem interfaceOf_printed (intf : List UInt8) (a b c d : UInt8) {mac : List UInt8}
    (hmac : mac.length = 6) (port : Nat) :
    SRServerListener.interfaceOf intf ⟨dotted a b c d, hexMac mac, port⟩ =
      .ok ⟨intf, mac, [a, b, c, d], [255, 255, 255, 255], hmac, rfl, rfl⟩ := by
  have hne : mac ≠ [] := by
    rintro rfl
    cases hmac
  have hinit : VNSInterface.init intf mac [a, b, c, d] [255, 255, 255, 255] =
      .ok ⟨intf, mac, [a, b, c, d], [255, 255, 255, 255], hmac, rfl, rfl⟩ := by
    rw [VNSInterface.init, dif_pos hmac]
    rfl
  rw [SRServerListener.interfaceOf, packIp_dotted, packMac_hexMac hne, packIp_dotted]
  simp only [Except.bind, bind, hinit, pure, Except.pure]

namespace SRServerListener

/-- The two dictionaries. -/
def maps (l : SRServerListener Conn) : TwoWayMap (List UInt8) Nat :=
  ⟨l.intfnameToPort, l.portToIntfname⟩

/-- The pairs that the loop over a `RouterInfo` enters: those before an entry that raises. -/
def entered (info : List (List UInt8 × PortInfo)) : List (List UInt8 × Nat) :=
  (info.takeWhile fun entry => (interfaceOf entry.1 entry.2).isOk).map fun entry =>
    (entry.1, entry.2.port)

/-- What the loop does to the listener. -/
theorem routerInfoLoop_fst (l : SRServerListener Conn) (interfaces : List VNSInterface)
    (info : List (List UInt8 × PortInfo)) :
    (l.routerInfoLoop interfaces info).1.maps = l.maps.assignAll (entered info) ∧
      (l.routerInfoLoop interfaces info).1.srclients = l.srclients ∧
      (l.routerInfoLoop interfaces info).1.interfaces = l.interfaces := by
  induction info generalizing l interfaces with
  | nil => exact ⟨rfl, rfl, rfl⟩
  | cons entry rest ih =>
    obtain ⟨intf, info⟩ := entry
    rw [routerInfoLoop]
    cases hentry : interfaceOf intf info with
    | error e =>
      have hnone : entered ((intf, info) :: rest) = [] := by
        rw [entered, List.takeWhile_cons_of_neg (by rw [hentry]; exact Bool.false_ne_true)]
        rfl
      rw [hnone]
      exact ⟨rfl, rfl, rfl⟩
    | ok interface =>
      have hsome : entered ((intf, info) :: rest) = (intf, info.port) :: entered rest := by
        rw [entered, List.takeWhile_cons_of_pos (by rw [hentry]; rfl)]
        rfl
      rw [hsome]
      exact ih (l.assign intf info.port) (interfaces ++ [interface])

/-- Router information assigns its ports one after the other. -/
theorem handleRouterInfo_maps (l : SRServerListener Conn) (info : List (List UInt8 × PortInfo)) :
    (l.handleRouterInfo info).1.maps = l.maps.assignAll (entered info) := by
  have hloop := (l.routerInfoLoop_fst [] info).1
  unfold handleRouterInfo
  split
  · rename_i hrun
    rw [hrun] at hloop
    exact hloop
  · rename_i hrun
    rw [hrun] at hloop
    exact hloop

/-- A `RouterInfo` sends nothing and leaves the clients. -/
theorem handleRouterInfo_quiet (l : SRServerListener Conn) (info : List (List UInt8 × PortInfo)) :
    (l.handleRouterInfo info).2.1 = [] ∧ (l.handleRouterInfo info).1.srclients = l.srclients := by
  have hclients := (l.routerInfoLoop_fst [] info).2.1
  unfold handleRouterInfo
  split
  · rename_i hrun
    rw [hrun] at hclients
    exact ⟨rfl, hclients⟩
  · rename_i hrun
    rw [hrun] at hclients
    exact ⟨rfl, hclients⟩

/-- A message of a client leaves the listener as it is. -/
theorem handleRecvMsg_fst (text : Conn → List UInt8) (l : SRServerListener Conn) (conn : Conn)
    (msg : Option VnsMessage) : (l.handleRecvMsg text conn msg).1 = l := by
  cases msg with
  | none => rfl
  | some msg =>
    cases msg with
    | packet msg =>
      rw [handleRecvMsg, handlePacketMsg]
      cases l.intfnameToPort msg.intfName with
      | none => rfl
      | some outPort => rfl
    | _ => rfl

/-- No other event touches the dictionaries. -/
theorem handle_maps (text : Conn → List UInt8) (l : SRServerListener Conn) {e : ServerEvent Conn}
    (he : ∀ info, e ≠ .routerInfo info) : (l.handle text e).1.maps = l.maps := by
  cases e with
  | newClient conn salt => rfl
  | clientDisconnected conn => rfl
  | routerInfo info => exact absurd rfl (he info)
  | packetIn pkt port =>
    rw [handle, handleSRPacketIn]
    cases l.portToIntfname port with
    | none => rfl
    | some intfname => rfl
  | recvMsg conn msg => rw [handle, handleRecvMsg_fst]

/-- The events of the listener. The keys of a dictionary differ, and so do the ports of a switch. -/
def machine (text : Conn → List UInt8) : Machine Empty (SRServerListener Conn)
    (ServerEvent Conn) where
  enabled := fun _ e => ∀ info, e = .routerInfo info →
    (info.map Prod.fst).Nodup ∧ (info.map fun entry => entry.2.port).Nodup
  step := fun l e => .ok (l.handle text e).1

/-- A `RouterInfo` agrees with the dictionaries. -/
def KeepsPorts (l : SRServerListener Conn) (e : ServerEvent Conn) : Prop :=
  ∀ info, e = .routerInfo info → l.maps.Agrees (entered info)

/-- Distinct names and ports are entered as such. -/
theorem nodup_entered {info : List (List UInt8 × PortInfo)} (hkeys : (info.map Prod.fst).Nodup)
    (hports : (info.map fun entry => entry.2.port).Nodup) :
    ((entered info).map Prod.fst).Nodup ∧ ((entered info).map Prod.snd).Nodup := by
  have hsub := List.takeWhile_sublist (l := info) fun entry => (interfaceOf entry.1 entry.2).isOk
  rw [entered, List.map_map, List.map_map]
  exact ⟨hkeys.sublist (hsub.map _), hports.sublist (hsub.map _)⟩

/-- An event keeps inverse dictionaries inverse exactly when it agrees with them. -/
theorem inverse_handle_iff (text : Conn → List UInt8) {l : SRServerListener Conn}
    {e : ServerEvent Conn} (hl : l.maps.Inverse) (he : (machine text).enabled l e) :
    (l.handle text e).1.maps.Inverse ↔ l.KeepsPorts e := by
  by_cases hinfo : ∃ info, e = .routerInfo info
  · obtain ⟨info, rfl⟩ := hinfo
    obtain ⟨hkeys, hports⟩ := he info rfl
    obtain ⟨hnames, hvalues⟩ := nodup_entered hkeys hports
    have hmaps : (l.handle text (.routerInfo info)).1.maps = l.maps.assignAll (entered info) :=
      l.handleRouterInfo_maps info
    rw [hmaps, TwoWayMap.inverse_assignAll_iff hl hnames hvalues]
    constructor
    · rintro hagrees info' heq
      cases heq
      exact hagrees
    · exact fun h => h info rfl
  · have hother : ∀ info, e ≠ .routerInfo info := fun info h => hinfo ⟨info, h⟩
    rw [l.handle_maps text hother]
    exact iff_of_true hl fun info h => absurd h (hother info)

/-- In every run of events the ports and the names of the interfaces lead back to each other all the
time, exactly when each `RouterInfo` takes the name of an interface and its port only together. -/
theorem inverse_throughout_iff (text : Conn → List UInt8) {events : List (ServerEvent Conn)}
    (hevents : (machine text).Admissible init events) :
    (∀ before, before <+: events →
      ∃ l, (machine text).run init before = .ok l ∧ l.maps.Inverse) ↔
      ((machine text).restrict KeepsPorts).Admissible init events := by
  have hinit : (init : SRServerListener Conn).maps.Inverse := fun intf port =>
      iff_of_false nofun nofun
  refine @Machine.good_throughout_iff _ _ _ (machine text) (fun l => l.maps.Inverse)
    (fun l => l.maps.Inverse) KeepsPorts (fun _ h => h) ?_ ?_ init hinit events hevents
  · intro l e hl he hkeeps
    exact ⟨_, rfl, (inverse_handle_iff text hl he).2 hkeeps⟩
  · intro l e l' hl he hnot hstep hinv
    cases hstep
    exact hnot ((inverse_handle_iff text hl he).1 hinv)

/-- A switch with two interfaces of the router, which connects twice. -/
def samplePorts : List (List UInt8 × PortInfo) :=
  [([101, 116, 104, 49], ⟨dotted 10 0 1 1, hexMac [2, 0, 0, 0, 0, 1], 1⟩),
    ([101, 116, 104, 50], ⟨dotted 10 0 2 1, hexMac [2, 0, 0, 0, 0, 2], 2⟩)]

theorem inverse_throughout_iff_sample :
    (∀ before, before <+: [.newClient 7 [1], .routerInfo samplePorts, .routerInfo samplePorts] →
      ∃ l, (machine fun _ : Nat => []).run init before = .ok l ∧ l.maps.Inverse) ↔
      ((machine fun _ : Nat => []).restrict KeepsPorts).Admissible init
        [.newClient 7 [1], .routerInfo samplePorts, .routerInfo samplePorts] :=
  have hports : ∀ info, (.routerInfo samplePorts : ServerEvent Nat) = .routerInfo info →
      (info.map Prod.fst).Nodup ∧ (info.map fun entry => entry.2.port).Nodup := by
    rintro info h
    cases h
    decide
  inverse_throughout_iff (fun _ => []) ⟨fun _ h => (nomatch h), fun _ _ => ⟨hports,
    fun _ _ => ⟨hports, fun _ _ => trivial⟩⟩⟩

end SRServerListener

/-- The ports are added one after the other. -/
theorem swInfo_append (routerIp : List UInt8 → Option (List UInt8)) (ports : List OfPort)
    (port : OfPort) : swInfo routerIp (ports ++ [port]) = addPort routerIp (swInfo routerIp ports)
      port := by
  rw [swInfo, List.foldl_append]
  rfl

/-- A port is either left out or becomes the entry of one name. -/
theorem addPort_cases (routerIp : List UInt8 → Option (List UInt8))
    (info : List UInt8 → Option PortInfo) (port : OfPort) :
    addPort routerIp info port = info ∨ ∃ name ip,
      addPort routerIp info port = Function.update info name
        (some ⟨ip, port.hwAddr, port.portNo⟩) := by
  unfold addPort
  split
  · split
    · exact Or.inr ⟨_, _, rfl⟩
    · exact Or.inl rfl
  · exact Or.inl rfl

/-- The entries have ports of the switch, different names different ones. -/
theorem swInfo_ports {routerIp : List UInt8 → Option (List UInt8)} {ports : List OfPort}
    (hports : (ports.map OfPort.portNo).Nodup) :
    (∀ name info, swInfo routerIp ports name = some info → info.port ∈ ports.map OfPort.portNo) ∧
      ∀ name₁ name₂ info₁ info₂, swInfo routerIp ports name₁ = some info₁ →
        swInfo routerIp ports name₂ = some info₂ → info₁.port = info₂.port → name₁ = name₂ := by
  induction ports using List.reverseRecOn with
  | nil => exact ⟨nofun, nofun⟩
  | append_singleton ports port ih =>
    rw [List.map_append, List.nodup_append] at hports
    obtain ⟨hports, -, hnew⟩ := hports
    obtain ⟨hmem, hinj⟩ := ih hports
    have hfresh : ∀ name info, swInfo routerIp ports name = some info → info.port ≠ port.portNo :=
      fun name info h => hnew _ (hmem name info h) _ (List.mem_singleton.2 rfl)
    rw [swInfo_append]
    rcases addPort_cases routerIp (swInfo routerIp ports) port with hsame | ⟨new, ip, hupdate⟩
    · rw [hsame]
      refine ⟨fun name info h => ?_, hinj⟩
      rw [List.map_append]
      exact List.mem_append_left _ (hmem name info h)
    · rw [hupdate]
      constructor
      · intro name info h
        rw [List.map_append]
        by_cases hname : name = new
        · subst hname
          rw [Function.update_self] at h
          cases h
          exact List.mem_append_right _ (List.mem_singleton.2 rfl)
        · rw [Function.update_of_ne hname] at h
          exact List.mem_append_left _ (hmem name info h)
      · intro name₁ name₂ info₁ info₂ h₁ h₂ heq
        by_cases hname₁ : name₁ = new
        · by_cases hname₂ : name₂ = new
          · rw [hname₁, hname₂]
          · subst hname₁
            rw [Function.update_self] at h₁
            rw [Function.update_of_ne hname₂] at h₂
            cases h₁
            exact absurd heq.symm (hfresh name₂ info₂ h₂)
        · rw [Function.update_of_ne hname₁] at h₁
          by_cases hname₂ : name₂ = new
          · subst hname₂
            rw [Function.update_self] at h₂
            cases h₂
            exact absurd heq (hfresh name₁ info₁ h₁)
          · rw [Function.update_of_ne hname₂] at h₂
            exact hinj name₁ name₂ info₁ info₂ h₁ h₂ heq

/-- Whatever the order of its keys, the dictionary of a switch makes a `RouterInfo` with different
names and different ports. -/
theorem swInfo_enabled {routerIp : List UInt8 → Option (List UInt8)} {ports : List OfPort}
    (hports : (ports.map OfPort.portNo).Nodup) {info : List (List UInt8 × PortInfo)}
    (hkeys : (info.map Prod.fst).Nodup)
    (hinfo : ∀ entry ∈ info, swInfo routerIp ports entry.1 = some entry.2)
    (text : Conn → List UInt8) (l : SRServerListener Conn) :
    (SRServerListener.machine text).enabled l (.routerInfo info) := by
  obtain ⟨-, hinj⟩ := @swInfo_ports routerIp ports hports
  rintro info' heq
  cases heq
  refine ⟨hkeys, ?_⟩
  rw [List.nodup_map_iff_inj_on (hkeys.of_map _)]
  intro entry₁ hmem₁ entry₂ hmem₂ hport
  have hname := hinj _ _ _ _ (hinfo _ hmem₁) (hinfo _ hmem₂) hport
  have hvalue : some entry₁.2 = some entry₂.2 := by
    rw [← hinfo _ hmem₁, ← hinfo _ hmem₂, hname]
  exact Prod.ext hname (Option.some.inj hvalue)

end ComputerNetworks.Vns
