import ComputerNetworks.Proxy.ParsedRequest

/-!
# The request line in the buffer and as a text

The passes of `strtok_r` over the request line are followed through the buffer.
What they leave is stated on the text alone: `Splits line r` says that the tokens
of the line, taken with the delimiter sets of the source, are the fields of `r`.
-/

namespace ComputerNetworks.Proxy

/-- The six fields of a request line. -/
structure RequestLine where
  method : List UInt8
  protocol : List UInt8
  host : List UInt8
  port : Option (List UInt8)
  path : List UInt8
  version : List UInt8
  deriving DecidableEq, Repr

/-- The string a pointer field reaches, if it is not null. -/
def ParsedRequest.deref? (pr : ParsedRequest) (p : CharPtr) : Run (Option (List UInt8)) :=
  if p = .null then .ok none else some <$> pr.deref p

/-- The fields of a parsed request as the strings their pointers reach. -/
def ParsedRequest.requestLine (pr : ParsedRequest) : Run RequestLine := do
  let method ← pr.deref pr.method
  let protocol ← pr.deref pr.protocol
  let host ← pr.deref pr.host
  let port ← pr.deref? pr.port
  let path ← pr.deref pr.path
  let version ← pr.deref pr.version
  return ⟨method, protocol, host, port, path, version⟩

/-- The port stored for the text behind the first colon of the host token. -/
def portOf (text : List UInt8) : Option (List UInt8) := if text = [] then none else some text

/-- The tokens of a request line, with the delimiter sets of the source, are the fields of `r`;
the other texts are what each pass leaves to the next. -/
structure Splits (line : List UInt8) (r : RequestLine)
    (afterMethod addr afterProtocol hostTok text port : List UInt8) : Prop where
  /-- The method is the first word. -/
  method_eq : token (ascii [' ']) line = some (r.method, afterMethod)
  /-- The full address is the second word and the version is all that follows. -/
  addr_eq : token (ascii [' ']) afterMethod = some (addr, r.version)
  /-- The version has the supported form. -/
  version_eq : httpSlash <+: r.version
  /-- The protocol ends at the first colon or slash. -/
  protocol_eq : token (ascii [':', '/', '/']) addr = some (r.protocol, afterProtocol)
  /-- The host token ends at the next slash. -/
  hostTok_eq : token (ascii ['/']) afterProtocol = some (hostTok, text)
  /-- The path does not begin with two slashes. -/
  text_ok : ¬ rootAbsPath <+: text
  path_eq : r.path = rootAbsPath ++ text
  /-- The host ends at the first colon of its token. -/
  host_eq : token (ascii [':']) hostTok = some (r.host, port)
  port_eq : r.port = portOf port

/-- Strings outside an area of the block stay in place. -/
def FrameOutside (b b' : List UInt8) (lo hi : Nat) : Prop :=
  ∀ x u, CStrAt b x u → x + u.length < lo ∨ hi < x → CStrAt b' x u

/-- A token brings no new character. -/
theorem not_mem_of_token {delim s tok rest : List UInt8} {c : UInt8}
    (h : token delim s = some (tok, rest)) (hc : c ∉ s) : c ∉ tok ∧ c ∉ rest := by
  obtain ⟨lead, rest', rfl, rfl, -⟩ := token_eq_some h
  simp only [List.mem_append, not_or] at hc
  exact ⟨hc.2.1, fun hm => hc.2.2 (List.mem_of_mem_tail hm)⟩

/-- There is no delimiter in a token. -/
theorem delim_not_mem_token {delim s tok rest : List UInt8} {c : UInt8}
    (h : token delim s = some (tok, rest)) (hc : c ∈ delim) : c ∉ tok := by
  obtain ⟨-, -, -, -, -, hno, -⟩ := token_eq_some h
  exact fun hm => hno c hm hc

namespace ParsedRequest

/-- The port text is one that `strtol` is taken to have read. -/
def PortOk (errnoEinval : Bool) (port : List UInt8) : Prop :=
  ¬ (port ≠ [] ∧ (strtol port).bmod (2 ^ 32) = 0 ∧ errnoEinval = true)

instance (errnoEinval : Bool) (port : List UInt8) : Decidable (PortOk errnoEinval port) :=
  inferInstanceAs (Decidable (¬ _))

/-- The host token is cut at its first colon; without a name in it the request is refused. -/
theorem parseHostPort_spec {b hostTok : List UInt8} {off : Nat} (errnoEinval : Bool)
    (pr : ParsedRequest) (hat : CStrAt b off hostTok) (hslash : 47 ∉ hostTok) :
    (token (ascii [':']) hostTok = none ∧ parseHostPort errnoEinval pr b off =
        .ok (-1, { pr with host := .null, port := .null, buf := none, path := .null })) ∨
    ∃ host port, token (ascii [':']) hostTok = some (host, port) ∧
      ∃ b' q ptr, parseHostPort errnoEinval pr b off =
          (if PortOk errnoEinval port then
            .ok (0, { pr with host := .buf q, port := ptr, buf := some b' })
          else .ok (-1, { pr with host := .buf q, port := ptr, buf := none, path := .null })) ∧
        CStrAt b' q host ∧ FrameOutside b b' off (off + hostTok.length) ∧
        (if port = [] then ptr = .null else ∃ p, ptr = .buf p ∧ CStrAt b' p port) := by
  cases htok : token (ascii [':']) hostTok with
  | none =>
    left
    have hend : CStrAt b (off + hostTok.length) [] := by
      apply CStrAt.suffix
      simpa using hat
    have hnil : token (ascii ['/']) ([] : List UInt8) = none := token_eq_none (by simp)
    refine ⟨rfl, ?_⟩
    simp only [parseHostPort, strtokR_none hat htok, Exec.ok_bind, strtokR_none hend hnil]
    rfl
  | some pair =>
    obtain ⟨host, port⟩ := pair
    right
    obtain ⟨b', save, q, hrun, ht⟩ := strtokR_some Empty hat htok
    have hport : ∀ c ∈ port, c ∉ ascii ['/'] := by
      intro c hc hmem
      have hc47 : c = 47 := by simpa [ascii] using hmem
      exact (not_mem_of_token htok hslash).2 (hc47 ▸ hc)
    refine ⟨host, port, rfl, ?_⟩
    by_cases hp : port = []
    · -- nothing is left behind the host, so the second call finds no port
      have hnone : token (ascii ['/']) port = none := token_eq_none (by simp [hp])
      have hok : PortOk errnoEinval port := fun h => h.1 hp
      refine ⟨b', q, .null, ?_, ht.tok_at, ht.frame, by simp [hp]⟩
      rw [if_pos hok]
      simp only [parseHostPort, hrun, Exec.ok_bind, strtokR_none ht.rest_at hnone]
      rfl
    · have hsome : token (ascii ['/']) port = some (port, []) := by
        simpa using token_append [] port [] (by simp) hport hp (by simp)
      obtain ⟨b'', save', p, hrun', ht'⟩ := strtokR_some Empty ht.rest_at hsome
      have hsave : save = q + host.length + 1 := by
        rcases ht.save_eq with h | ⟨-, h⟩
        · exact h
        · exact absurd h hp
      have hend := ht.end_eq
      have hle := ht.le_start
      refine ⟨b'', q, .buf p, ?_, ?_, ?_, ?_⟩
      · simp only [parseHostPort, hrun, Exec.ok_bind, hrun', ht'.tok_at.cstr]
        by_cases hbad : (strtol port).bmod (2 ^ 32) = 0 ∧ errnoEinval = true
        · have hno : ¬ PortOk errnoEinval port := fun h => h ⟨hp, hbad⟩
          rw [if_pos hbad, if_neg hno]
          rfl
        · have hok : PortOk errnoEinval port := fun h => hbad h.2
          rw [if_neg hbad, if_pos hok]
          rfl
      · exact ht'.frame q host ht.tok_at (Or.inl (by omega))
      · intro x u hu hx
        exact ht'.frame x u (ht.frame x u hu hx) (by omega)
      · rw [if_neg hp]
        exact ⟨p, rfl, ht'.tok_at⟩

/-- Without the error number every port text is taken. -/
theorem portOk_false (port : List UInt8) : PortOk false port := fun h => nomatch h.2.2

/-- What the host pass requires of the length of the address behind the protocol. -/
def AbsUriOk (b : List UInt8) (fullAddr : Nat) (protocol hostTok : List UInt8) : Prop :=
  ∀ b' save q, (strtokR b fullAddr (ascii [':', '/', '/']) : Run _) = .ok (b', save, some q) →
    ∃ n, (strlen b' (fullAddr + protocol.length + 3) : Run Nat) = .ok n ∧ n ≠ hostTok.length

/-- The path pass reads all that is left of the address, which has no space in it. -/
theorem path_token {text : List UInt8} (hsp : 32 ∉ text) :
    token (ascii [' ']) text = if text = [] then none else some (text, []) := by
  by_cases ht : text = []
  · rw [if_pos ht]
    exact token_eq_none (by simp [ht])
  · rw [if_neg ht]
    have hno : ∀ c ∈ text, c ∉ ascii [' '] := by
      intro c hc hmem
      have hc32 : c = 32 := by simpa [ascii] using hmem
      exact hsp (hc32 ▸ hc)
    simpa using token_append [] text [] (by simp) hno ht (by simp)

/-- An address whose tokens are as the source wants them is stored field by field. -/
theorem parseFullAddr_ok {b addr protocol afterProtocol hostTok text host port : List UInt8}
    {fa : Nat} (pr : ParsedRequest) (hat : CStrAt b fa addr) (hsp : 32 ∉ addr)
    (hproto : token (ascii [':', '/', '/']) addr = some (protocol, afterProtocol))
    (hhost : token (ascii ['/']) afterProtocol = some (hostTok, text))
    (htext : ¬ rootAbsPath <+: text) (hname : token (ascii [':']) hostTok = some (host, port))
    (habs : AbsUriOk b fa protocol hostTok) :
    ∃ b' p q ptr, parseFullAddr false pr b fa =
        .ok (0, { pr with protocol := .buf p, host := .buf q, port := ptr,
                          path := .str (rootAbsPath ++ text), buf := some b' }) ∧
      CStrAt b' p protocol ∧ CStrAt b' q host ∧ FrameOutside b b' fa (fa + addr.length) ∧
      (if port = [] then ptr = .null else ∃ x, ptr = .buf x ∧ CStrAt b' x port) := by
  obtain ⟨b₁, save₁, p, hrun₁, h₁⟩ := strtokR_some Empty hat hproto
  obtain ⟨b₂, save₂, h, hrun₂, h₂⟩ := strtokR_some Empty h₁.rest_at hhost
  obtain ⟨n, hn, hne⟩ := habs b₁ save₁ p hrun₁
  have hsp' : 32 ∉ text := (not_mem_of_token hhost (not_mem_of_token hproto hsp).2).2
  have hslash : 47 ∉ hostTok := delim_not_mem_token hhost (by decide)
  have htok := path_token hsp'
  have hle₁ := h₁.le_start
  have hend₁ := h₁.end_eq
  have hle₂ := h₂.le_start
  have hend₂ := h₂.end_eq
  have hsave₁ : p + protocol.length ≤ save₁ := by rcases h₁.save_eq with h | ⟨h, -⟩ <;> omega
  have hsave₂ : h + hostTok.length ≤ save₂ := by rcases h₂.save_eq with h | ⟨h, -⟩ <;> omega
  -- a protocol always ends at a delimiter here, since something is left behind it
  have hrest : afterProtocol ≠ [] := by
    rintro rfl
    rw [token_eq_none (by simp)] at hhost
    cases hhost
  have hp₁ : p + protocol.length < save₁ := by
    rcases h₁.save_eq with h | ⟨-, h⟩
    · omega
    · exact absurd h hrest
  have hproto₂ : CStrAt b₂ p protocol := h₂.frame p protocol h₁.tok_at (Or.inl hp₁)
  let pr' : ParsedRequest :=
    { pr with protocol := .buf p, host := .buf h, path := .str (rootAbsPath ++ text) }
  obtain ⟨b₃, hstep, hhost₃, hframe₃⟩ : ∃ b₃, parseFullAddr false pr b fa =
      parseHostPort false pr' b₃ h ∧ CStrAt b₃ h hostTok ∧
      FrameOutside b₂ b₃ save₂ (save₂ + text.length) := by
    have hlen : (strlen b₁ p : Run Nat) = .ok protocol.length := h₁.tok_at.strlen_eq
    have hlen' : (strlen b₂ h : Run Nat) = .ok hostTok.length := h₂.tok_at.strlen_eq
    have hne' : ¬ hostTok.length = n := fun he => hne he.symm
    by_cases hnil : text = []
    · rw [if_pos hnil] at htok
      refine ⟨b₂, ?_, h₂.tok_at, fun _ _ hu _ => hu⟩
      simp only [parseFullAddr, hrun₁, Exec.ok_bind, hlen, hn, hrun₂, hlen', hne', if_false,
        strtokR_none h₂.rest_at htok, pr', hnil, List.append_nil]
    · rw [if_neg hnil] at htok
      obtain ⟨b₃, save₃, x, hrun₃, h₃⟩ := strtokR_some Empty h₂.rest_at htok
      have hcmp : (strncmpEq b₃ x rootAbsPath : Run Bool) = .ok false := by
        rw [h₃.tok_at.strncmpEq_eq, decide_eq_false htext]
      have hlt : h + hostTok.length < save₂ := by
        rcases h₂.save_eq with h | ⟨-, h⟩
        · omega
        · exact absurd h hnil
      refine ⟨b₃, ?_, h₃.frame h hostTok h₂.tok_at (Or.inl hlt), h₃.frame⟩
      simp only [parseFullAddr, hrun₁, Exec.ok_bind, hlen, hn, hrun₂, hlen', hne', if_false,
        hrun₃, hcmp, Bool.false_eq_true, h₃.tok_at.cstr, pr']
  have hproto₃ : CStrAt b₃ p protocol := hframe₃ p protocol hproto₂ (Or.inl (by omega))
  rcases parseHostPort_spec false pr' hhost₃ hslash with ⟨hnone, -⟩ | ⟨host', port', htok', hres⟩
  · rw [hnone] at hname
    cases hname
  · rw [hname] at htok'
    cases htok'
    obtain ⟨b', q, ptr, hrun, hq, hframe, hport⟩ := hres
    rw [if_pos (portOk_false port)] at hrun
    refine ⟨b', p, q, ptr, by rw [hstep, hrun], ?_, hq, ?_, hport⟩
    · exact hframe p protocol hproto₃ (Or.inl (by omega))
    · intro x u hu hx
      apply hframe x u _ (by omega)
      apply hframe₃ x u _ (by omega)
      exact h₂.frame x u (h₁.frame x u hu hx) (by omega)

/-- The fields of a request whose pointers reach these strings. -/
theorem requestLine_eq {pr : ParsedRequest} {b : List UInt8} {m p q v : Nat}
    {r : RequestLine} {port : List UInt8} (hb : pr.buf = some b) (hm : pr.method = .buf m)
    (hp : pr.protocol = .buf p) (hq : pr.host = .buf q) (hv : pr.version = .buf v)
    (hpath : pr.path = .str r.path) (hmAt : CStrAt b m r.method) (hpAt : CStrAt b p r.protocol)
    (hqAt : CStrAt b q r.host) (hvAt : CStrAt b v r.version) (hr : r.port = portOf port)
    (hport : if port = [] then pr.port = .null else ∃ x, pr.port = .buf x ∧ CStrAt b x port) :
    pr.requestLine = .ok r := by
  have hmethod : pr.deref pr.method = .ok r.method := by simp [deref, hm, hb, hmAt.cstr]
  have hprotocol : pr.deref pr.protocol = .ok r.protocol := by simp [deref, hp, hb, hpAt.cstr]
  have hhost : pr.deref pr.host = .ok r.host := by simp [deref, hq, hb, hqAt.cstr]
  have hversion : pr.deref pr.version = .ok r.version := by simp [deref, hv, hb, hvAt.cstr]
  have hpath' : pr.deref pr.path = .ok r.path := by simp [deref, hpath]
  have hport' : pr.deref? pr.port = .ok r.port := by
    by_cases hnil : port = []
    · rw [if_pos hnil] at hport
      simp [deref?, hport, hr, portOf, hnil]
    · rw [if_neg hnil] at hport
      obtain ⟨x, hx, hxAt⟩ := hport
      simp [deref?, hx, hr, portOf, hnil, deref, hb, hxAt.cstr]
  simp only [requestLine, hmethod, hprotocol, hhost, hversion, hpath', hport', Exec.ok_bind,
    Exec.pure_eq_ok]

/-- The pointers of a request with these fields can all be read. -/
theorem requestLine_inv {pr : ParsedRequest} {r : RequestLine} (h : pr.requestLine = .ok r) :
    pr.deref pr.method = .ok r.method ∧ pr.deref pr.protocol = .ok r.protocol ∧
      pr.deref pr.host = .ok r.host ∧ pr.deref? pr.port = .ok r.port ∧
      pr.deref pr.path = .ok r.path ∧ pr.deref pr.version = .ok r.version := by
  unfold requestLine at h
  obtain ⟨method, hm, h⟩ := Exec.bind_eq_ok.mp h
  obtain ⟨protocol, hp, h⟩ := Exec.bind_eq_ok.mp h
  obtain ⟨host, hh, h⟩ := Exec.bind_eq_ok.mp h
  obtain ⟨port, hport, h⟩ := Exec.bind_eq_ok.mp h
  obtain ⟨path, hpath, h⟩ := Exec.bind_eq_ok.mp h
  obtain ⟨version, hv, h⟩ := Exec.bind_eq_ok.mp h
  cases h
  exact ⟨hm, hp, hh, hport, hpath, hv⟩

/-- The check on the length of the address, on the buffer as the first two passes leave it. -/
def LineAbsUriOk (line protocol hostTok : List UInt8) : Prop :=
  ∀ b₁ save₁ m b₂ save₂ fa,
    (strtokR (line ++ [0]) 0 (ascii [' ']) : Run _) = .ok (b₁, save₁, some m) →
    (strtokR b₁ save₁ (ascii [' ']) : Run _) = .ok (b₂, save₂, some fa) →
    AbsUriOk b₂ fa protocol hostTok

/-- A line whose tokens are the fields of `r` is stored with exactly these fields. -/
theorem parseRequestLine_ok {line afterMethod addr afterProtocol hostTok text port : List UInt8}
    {r : RequestLine} (pr : ParsedRequest) (h0 : 0 ∉ line)
    (h : Splits line r afterMethod addr afterProtocol hostTok text port)
    (habs : LineAbsUriOk line r.protocol hostTok) :
    ∃ pr', parseRequestLine false pr (line ++ [0]) = .ok (0, pr') ∧ pr'.requestLine = .ok r ∧
      pr'.toHeaderTable = pr.toHeaderTable ∧ pr'.buf ≠ none := by
  have hat : CStrAt (line ++ [0]) 0 line := cstrAt_append [] line [] h0
  obtain ⟨b₁, save₁, m, hrun₁, h₁⟩ := strtokR_some Empty hat h.method_eq
  obtain ⟨b₂, save₂, fa, hrun₂, h₂⟩ := strtokR_some Empty h₁.rest_at h.addr_eq
  have hle₂ := h₂.le_start
  have hend₂ := h₂.end_eq
  have hm₁ : m + r.method.length < save₁ := by
    rcases h₁.save_eq with h' | ⟨-, h'⟩
    · omega
    · have haddr := h.addr_eq
      rw [h', token_eq_none (by simp)] at haddr
      cases haddr
  have hsave₂ : save₂ = fa + addr.length + 1 := by
    rcases h₂.save_eq with h' | ⟨-, h'⟩
    · exact h'
    · have hver := h.version_eq
      rw [h'] at hver
      simp [httpSlash, ascii] at hver
  have hver₂ : CStrAt b₂ (fa + addr.length + 1) r.version := hsave₂ ▸ h₂.rest_at
  have hmeth₂ : CStrAt b₂ m r.method := h₂.frame m r.method h₁.tok_at (Or.inl hm₁)
  have hsp : 32 ∉ addr := delim_not_mem_token h.addr_eq (by decide)
  obtain ⟨b', p, q, ptr, hrun, hp, hq, hframe, hport⟩ :=
    parseFullAddr_ok { pr with method := .buf m, version := .buf (fa + addr.length + 1) }
      h₂.tok_at hsp h.protocol_eq h.hostTok_eq h.text_ok h.host_eq (habs _ _ _ _ _ _ hrun₁ hrun₂)
  have hcmp : (strncmpEq b₂ (fa + addr.length + 1) httpSlash : Run Bool) = .ok true := by
    rw [hver₂.strncmpEq_eq, decide_eq_true h.version_eq]
  refine ⟨{ pr with method := .buf m, version := .buf (fa + addr.length + 1), protocol := .buf p,
                    host := .buf q, port := ptr, path := .str (rootAbsPath ++ text),
                    buf := some b' }, ?_, ?_, rfl, by simp⟩
  · simp only [parseRequestLine, hrun₁, Exec.ok_bind, hrun₂, h₂.tok_at.strlen_eq, hcmp,
      Bool.not_true, Bool.false_eq_true, if_false]
    exact hrun
  · exact requestLine_eq rfl rfl rfl rfl rfl (by rw [h.path_eq])
      (hframe m r.method hmeth₂ (Or.inl (by omega))) hp hq
      (hframe _ r.version hver₂ (Or.inr (by omega))) h.port_eq hport

end ParsedRequest

end ComputerNetworks.Proxy
