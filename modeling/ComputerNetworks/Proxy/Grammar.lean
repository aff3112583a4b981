import ComputerNetworks.Proxy.RequestLine

/-!
# Request lines as written

`RequestLine.render` is the line `ParsedRequest_unparse` writes. A line whose
fields are `Valid` is read back as exactly these fields, and the fields of every
accepted line, however oddly it was written, are `Valid`.
-/

namespace ComputerNetworks.Proxy

/-- No NUL byte and no line end occurs in the text. -/
def Clean (s : List UInt8) : Prop := 0 ∉ s ∧ NoCrlf s

instance (s : List UInt8) : Decidable (Clean s) := inferInstanceAs (Decidable (_ ∧ _))

theorem Clean.mono {s t : List UInt8} (h : Clean t) (hs : s <:+: t) : Clean s :=
  ⟨fun h0 => h.1 (hs.subset h0), h.2.mono hs⟩

/-- Clean texts may be joined at a harmless character. -/
theorem Clean.append_cons {s t : List UInt8} {c : UInt8} (hs : Clean s) (hc : c ≠ 0 ∧ c ≠ 10)
    (ht : Clean (c :: t)) : Clean (s ++ c :: t) := by
  refine ⟨?_, hs.2.append_cons hc.2 ht.2⟩
  rw [List.mem_append, not_or]
  exact ⟨hs.1, ht.1⟩

/-- A harmless character may go in front. -/
theorem Clean.cons {t : List UInt8} {c : UInt8} (hc : c ≠ 0 ∧ c ≠ 13) (ht : Clean t) :
    Clean (c :: t) := by
  refine ⟨?_, ht.2.cons_of_ne hc.2⟩
  rw [List.mem_cons, not_or]
  exact ⟨fun h => hc.1 h.symm, ht.1⟩

namespace RequestLine

/-- The host with its port, as they stand in the address. -/
def hostTok (r : RequestLine) : List UInt8 :=
  match r.port with
  | none => r.host
  | some p => r.host ++ 58 :: p

/-- The full address `PROTOCOL://HOST[:PORT]PATH`. -/
def addr (r : RequestLine) : List UInt8 :=
  r.protocol ++ 58 :: 47 :: 47 :: (r.hostTok ++ r.path)

/-- The line `METHOD SP ADDRESS SP VERSION`, without its line end. -/
def render (r : RequestLine) : List UInt8 := r.method ++ 32 :: (r.addr ++ 32 :: r.version)

/-- Fields that can stand in a request line and be told apart there. -/
structure Valid (r : RequestLine) : Prop where
  method_ne : r.method ≠ []
  method_sp : 32 ∉ r.method
  protocol_ne : r.protocol ≠ []
  protocol_sp : ∀ c ∈ r.protocol, c ≠ 32 ∧ c ≠ 58 ∧ c ≠ 47
  host_ne : r.host ≠ []
  host_sp : ∀ c ∈ r.host, c ≠ 32 ∧ c ≠ 58 ∧ c ≠ 47
  port_ok : ∀ p ∈ r.port, p ≠ [] ∧ 32 ∉ p ∧ 47 ∉ p
  path_ok : ∃ text, r.path = 47 :: text ∧ 32 ∉ text ∧ text.head? ≠ some 47
  version_ok : httpSlash <+: r.version
  clean : Clean r.method ∧ Clean r.protocol ∧ Clean r.host ∧ (∀ p ∈ r.port, Clean p) ∧
    Clean r.path ∧ Clean r.version

variable {r : RequestLine}

/-- The host token of a valid line is one token. -/
theorem Valid.hostTok_ok (h : r.Valid) : r.hostTok ≠ [] ∧ 32 ∉ r.hostTok ∧ 47 ∉ r.hostTok := by
  have hne := h.host_ne
  have h32 : 32 ∉ r.host := fun hc => (h.host_sp 32 hc).1 rfl
  have h47 : 47 ∉ r.host := fun hc => (h.host_sp 47 hc).2.2 rfl
  cases hp : r.port with
  | none => simp only [hostTok, hp]; exact ⟨hne, h32, h47⟩
  | some p =>
    obtain ⟨-, hp32, hp47⟩ := h.port_ok p hp
    simp only [hostTok, hp, List.mem_append, List.mem_cons, not_or]
    exact ⟨by simp, ⟨h32, by decide, hp32⟩, ⟨h47, by decide, hp47⟩⟩

/-- There is no space in a valid address. -/
theorem Valid.space_not_mem_addr (h : r.Valid) : 32 ∉ r.addr := by
  obtain ⟨text, hpath, htext, -⟩ := h.path_ok
  have hp : 32 ∉ r.protocol := fun hc => (h.protocol_sp 32 hc).1 rfl
  simp only [addr, hpath, List.mem_append, List.mem_cons, not_or]
  exact ⟨hp, by decide, by decide, by decide, h.hostTok_ok.2.1, by decide, htext⟩

/-- A rendered line contains no NUL and no line end. -/
theorem Valid.clean_render (h : r.Valid) : Clean r.render := by
  obtain ⟨hm, hp, hh, hport, hpath, hv⟩ := h.clean
  obtain ⟨text, hpt, -, -⟩ := h.path_ok
  have hhost : Clean (r.hostTok ++ r.path) := by
    rw [hpt] at hpath ⊢
    cases hpo : r.port with
    | none =>
      simp only [hostTok, hpo]
      exact hh.append_cons (by decide) hpath
    | some p =>
      simp only [hostTok, hpo, List.append_assoc, List.cons_append]
      have hp' := (hport p hpo).append_cons (by decide) hpath
      exact hh.append_cons (by decide) (hp'.cons (by decide))
  have haddr : Clean (58 :: 47 :: 47 :: (r.hostTok ++ r.path)) :=
    ((hhost.cons (by decide)).cons (by decide)).cons (by decide)
  have hrest : Clean (r.addr ++ 32 :: r.version) :=
    (hp.append_cons (by decide) haddr).append_cons (by decide) (hv.cons (by decide))
  exact hm.append_cons (by decide) (hrest.cons (by decide))

/-- The text of the port, empty when there is none. -/
def portText (r : RequestLine) : List UInt8 := r.port.getD []

/-- The port of a valid line is read back. -/
theorem Valid.portOf_portText (h : r.Valid) : r.port = portOf r.portText := by
  cases hp : r.port with
  | none => simp [portText, hp, portOf]
  | some p =>
    have hne := (h.port_ok p hp).1
    simp [portText, hp, portOf, hne]

/-- The tokens of a rendered line are the fields it was rendered from. -/
theorem Valid.splits (h : r.Valid) {text : List UInt8} (hpath : r.path = 47 :: text)
    (htext : text.head? ≠ some 47) :
    Splits r.render r (r.addr ++ 32 :: r.version) r.addr
      (47 :: 47 :: (r.hostTok ++ r.path)) r.hostTok text r.portText := by
  have hno {d : List UInt8} {s : List UInt8} (hs : ∀ c ∈ d, c ∉ s) : ∀ c ∈ s, c ∉ d :=
    fun c hc hd => hs c hd hc
  obtain ⟨hhne, -, hh47⟩ := h.hostTok_ok
  refine ⟨?_, ?_, h.version_ok, ?_, ?_, ?_, by rw [hpath]; rfl, ?_, h.portOf_portText⟩
  · exact token_append [] r.method (32 :: _) (by simp)
      (hno (by simpa [ascii] using h.method_sp)) h.method_ne (by simp [ascii])
  · refine token_append [] r.addr (32 :: _) (by simp)
      (hno (by simpa [ascii] using h.space_not_mem_addr)) ?_ (by simp [ascii])
    simp [addr]
  · refine token_append [] r.protocol (58 :: _) (by simp) ?_ h.protocol_ne (by simp [ascii])
    intro c hc hd
    obtain ⟨-, h58, h47⟩ := h.protocol_sp c hc
    have hor : c = 58 ∨ c = 47 := by simpa [ascii] using hd
    exact hor.elim h58 h47
  · rw [hpath]
    exact token_append [47, 47] r.hostTok (47 :: text) (by simp [ascii])
      (hno (by simpa [ascii] using hh47)) hhne (by simp [ascii])
  · cases text with
    | nil => simp [rootAbsPath, ascii]
    | cons c text =>
      have hc : c ≠ 47 := by simpa using htext
      simpa [rootAbsPath, ascii, List.cons_prefix_cons, eq_comm] using hc
  · have hhost : ∀ c ∈ r.host, c ∉ ascii [':'] := by
      intro c hc hd
      exact (h.host_sp c hc).2.1 (by simpa [ascii] using hd)
    cases hp : r.port with
    | none =>
      simpa [hostTok, hp, portText] using
        token_append [] r.host [] (by simp) hhost h.host_ne (by simp)
    | some p =>
      simpa [hostTok, hp, portText] using
        token_append [] r.host (58 :: p) (by simp) hhost h.host_ne (by simp [ascii])

/-- In a rendered line the host token is shorter than the address behind the protocol. -/
theorem Valid.lineAbsUriOk (h : r.Valid) :
    ParsedRequest.LineAbsUriOk r.render r.protocol r.hostTok := by
  obtain ⟨text, hpath, -, htext⟩ := h.path_ok
  have hs := h.splits hpath htext
  intro b₁ save₁ m b₂ save₂ fa hrun₁ hrun₂ b' save q hrun
  have hat : CStrAt (r.render ++ [0]) 0 r.render := cstrAt_append [] _ [] h.clean_render.1
  obtain ⟨c₁, s₁, m', hc₁, h₁⟩ := strtokR_some Empty hat hs.method_eq
  rw [hc₁] at hrun₁
  cases hrun₁
  obtain ⟨c₂, s₂, fa', hc₂, h₂⟩ := strtokR_some Empty h₁.rest_at hs.addr_eq
  rw [hc₂] at hrun₂
  cases hrun₂
  obtain ⟨c₃, s₃, q', hc₃, h₃⟩ := strtokR_some Empty h₂.tok_at hs.protocol_eq
  rw [hc₃] at hrun
  cases hrun
  have hend := h₃.end_eq
  have hrem : CStrAt b' (save + [(47 : UInt8), 47].length) (r.hostTok ++ r.path) :=
    CStrAt.suffix h₃.rest_at
  have hoff : save + [(47 : UInt8), 47].length = fa + r.protocol.length + 3 := by
    simp only [addr, List.length_append, List.length_cons, List.length_nil] at hend ⊢
    omega
  rw [hoff] at hrem
  refine ⟨_, hrem.strlen_eq, ?_⟩
  rw [List.length_append, hpath, List.length_cons]
  omega

end RequestLine

/-- Every rendered line with valid fields is parsed back into them. -/
theorem ParsedRequest.parseRequestLine_render {r : RequestLine} (h : r.Valid)
    (pr : ParsedRequest) :
    ∃ pr', parseRequestLine false pr (r.render ++ [0]) = .ok (0, pr') ∧ pr'.requestLine = .ok r ∧
      pr'.toHeaderTable = pr.toHeaderTable ∧ pr'.buf ≠ none := by
  obtain ⟨text, hpath, -, htext⟩ := h.path_ok
  exact parseRequestLine_ok pr h.clean_render.1 (h.splits hpath htext) h.lineAbsUriOk

/-- A token and the rest are parts of the text. -/
theorem infix_of_token {delim s tok rest : List UInt8} (h : token delim s = some (tok, rest)) :
    tok <:+: s ∧ rest <:+: s := by
  obtain ⟨lead, rest', rfl, rfl, -⟩ := token_eq_some h
  refine ⟨⟨lead, rest', by rw [List.append_assoc]⟩, ?_⟩
  exact (List.tail_suffix rest').isInfix.trans ⟨lead ++ tok, [], by simp⟩

/-- The fields of an accepted line stand in it, the path without its slash. -/
theorem Splits.infixes {line afterMethod addr afterProtocol hostTok text port : List UInt8}
    {r : RequestLine} (h : Splits line r afterMethod addr afterProtocol hostTok text port) :
    r.method <:+: line ∧ r.protocol <:+: addr ∧ r.host <:+: hostTok ∧ port <:+: hostTok ∧
      text <:+: addr ∧ hostTok <:+: addr ∧ addr <:+: line ∧ r.version <:+: line := by
  have hm := infix_of_token h.method_eq
  have ha := infix_of_token h.addr_eq
  have hp := infix_of_token h.protocol_eq
  have ht := infix_of_token h.hostTok_eq
  have hh := infix_of_token h.host_eq
  exact ⟨hm.1, hp.1, hh.1, hh.2, ht.2.trans hp.2, ht.1.trans hp.2, ha.1.trans hm.2,
    ha.2.trans hm.2⟩

/-- A port that is read is the text itself. -/
theorem portOf_eq_some {text p : List UInt8} (h : portOf text = some p) : p = text ∧ p ≠ [] := by
  rw [portOf] at h
  split at h
  · cases h
  · next hnil =>
      cases h
      exact ⟨rfl, hnil⟩

/-- The fields of every accepted line are valid. -/
theorem Splits.valid {line afterMethod addr afterProtocol hostTok text port : List UInt8}
    {r : RequestLine} (h : Splits line r afterMethod addr afterProtocol hostTok text port)
    (hline : Clean line) : r.Valid := by
  obtain ⟨hm, hp, hh, hpo, ht, htok, ha, hv⟩ := h.infixes
  have haddr : Clean addr := hline.mono ha
  have hsp : 32 ∉ addr := delim_not_mem_token h.addr_eq (by decide)
  have hslash : 47 ∉ hostTok := delim_not_mem_token h.hostTok_eq (by decide)
  have hne {d s t u : List UInt8} (hk : token d s = some (t, u)) : t ≠ [] := by
    obtain ⟨-, -, -, -, -, -, hne, -⟩ := token_eq_some hk
    exact hne
  have hport : ∀ p ∈ r.port, p = port ∧ p ≠ [] := by
    intro p hpm
    rw [h.port_eq] at hpm
    exact portOf_eq_some hpm
  refine ⟨hne h.method_eq, delim_not_mem_token h.method_eq (by decide), hne h.protocol_eq, ?_,
    hne h.host_eq, ?_, ?_, ⟨text, h.path_eq, fun hc => hsp (ht.subset hc), ?_⟩,
    h.version_eq, ?_⟩
  · intro c hc
    refine ⟨?_, ?_, ?_⟩
    · rintro rfl
      exact hsp (hp.subset hc)
    · rintro rfl
      exact delim_not_mem_token h.protocol_eq (by decide) hc
    · rintro rfl
      exact delim_not_mem_token h.protocol_eq (by decide) hc
  · intro c hc
    refine ⟨?_, ?_, ?_⟩
    · rintro rfl
      exact hsp (htok.subset (hh.subset hc))
    · rintro rfl
      exact delim_not_mem_token h.host_eq (by decide) hc
    · rintro rfl
      exact hslash (hh.subset hc)
  · intro p hpm
    obtain ⟨rfl, hnil⟩ := hport p hpm
    exact ⟨hnil, fun hc => hsp (htok.subset (hpo.subset hc)), fun hc => hslash (hpo.subset hc)⟩
  · intro hhead
    apply h.text_ok
    cases text with
    | nil => cases hhead
    | cons c text =>
      have hc : c = 47 := by simpa using hhead
      simp [rootAbsPath, ascii, List.cons_prefix_cons, hc]
  · refine ⟨hline.mono hm, haddr.mono hp, (haddr.mono htok).mono hh, ?_, ?_,
      hline.mono hv⟩
    · intro p hpm
      obtain ⟨rfl, -⟩ := hport p hpm
      exact (haddr.mono htok).mono hpo
    · rw [h.path_eq]
      exact (haddr.mono ht).cons (by decide)

/-- A line written anew from the fields of an accepted one is not much longer. -/
theorem Splits.length_render_le {line afterMethod addr afterProtocol hostTok text port : List UInt8}
    {r : RequestLine} (h : Splits line r afterMethod addr afterProtocol hostTok text port) :
    r.render.length ≤ 6 * line.length + 7 := by
  obtain ⟨hm, hp, hh, hpo, ht, htok, ha, hv⟩ := h.infixes
  have hm := hm.length_le
  have hp := (hp.trans ha).length_le
  have hh := (hh.trans (htok.trans ha)).length_le
  have hpo := (hpo.trans (htok.trans ha)).length_le
  have ht := (ht.trans ha).length_le
  have hv := hv.length_le
  have hpath : r.path.length = text.length + 1 := by rw [h.path_eq]; rfl
  have htok' : r.hostTok.length ≤ r.host.length + 1 + line.length := by
    cases hport : r.port with
    | none =>
      simp only [RequestLine.hostTok, hport]
      omega
    | some p =>
      have hpEq := h.port_eq
      rw [hport] at hpEq
      obtain ⟨rfl, -⟩ := portOf_eq_some hpEq.symm
      simp only [RequestLine.hostTok, hport, List.length_append, List.length_cons]
      omega
  simp only [RequestLine.render, RequestLine.addr, List.length_append, List.length_cons]
  omega

end ComputerNetworks.Proxy
