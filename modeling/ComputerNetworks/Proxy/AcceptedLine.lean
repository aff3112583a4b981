import ComputerNetworks.Proxy.RequestLine

/-!
# The verdict on a request line

Whether a request line is accepted is a matter of its text: `LineOk` names the
tokens that must be found and the checks on them. Every other line is refused,
but for one kind: a line that ends with its second word leaves the version
pointer behind the buffer.
-/

namespace ComputerNetworks.Proxy

/-- The text whose length the source takes as `abs_uri_len`: what stands behind as many bytes of
the address as the protocol and `://` have, once a NUL ends the protocol. The bytes behind the
address are those of the version. -/
def absUri (addr protocol version : List UInt8) : List UInt8 :=
  let lead := addr.takeWhile ((ascii [':', '/', '/']).contains ·)
  ((addr.set (lead.length + protocol.length) 0 ++ 0 :: version).drop
    (protocol.length + 3)).takeWhile (· != 0)

/-- A host token that is accepted. -/
def HostOk (errnoEinval : Bool) (hostTok : List UInt8) : Prop :=
  ∃ host port, token (ascii [':']) hostTok = some (host, port) ∧
    ParsedRequest.PortOk errnoEinval port

/-- A full address that is accepted. -/
def AddrOk (errnoEinval : Bool) (addr version : List UInt8) : Prop :=
  ∃ protocol afterProtocol hostTok text,
    token (ascii [':', '/', '/']) addr = some (protocol, afterProtocol) ∧
    token (ascii ['/']) afterProtocol = some (hostTok, text) ∧
    hostTok.length ≠ (absUri addr protocol version).length ∧ ¬ rootAbsPath <+: text ∧
    HostOk errnoEinval hostTok

/-- A request line that is accepted. -/
def LineOk (errnoEinval : Bool) (line : List UInt8) : Prop :=
  ∃ method afterMethod addr version,
    token (ascii [' ']) line = some (method, afterMethod) ∧
    token (ascii [' ']) afterMethod = some (addr, version) ∧ httpSlash <+: version ∧
    AddrOk errnoEinval addr version

/-- A request line that ends with its second word. -/
def EndsInAddress (line : List UInt8) : Prop :=
  ∃ method afterMethod addr, token (ascii [' ']) line = some (method, afterMethod) ∧
    token (ascii [' ']) afterMethod = some (addr, []) ∧ addr <:+ afterMethod

/-- The run returns, with 0 exactly if the text is accepted, and leaves the headers alone. -/
def Answers (run : Run (Int × ParsedRequest)) (t : HeaderTable) (accepted : Prop) : Prop :=
  ∃ ret pr, run = .ok (ret, pr) ∧ (ret = 0 ↔ accepted) ∧ pr.toHeaderTable = t

theorem Answers.refused {pr : ParsedRequest} {t : HeaderTable} {accepted : Prop}
    (ht : pr.toHeaderTable = t) (h : ¬ accepted) : Answers (.ok (-1, pr)) t accepted :=
  ⟨-1, pr, rfl, iff_of_false (by decide) h, ht⟩

theorem Answers.congr {run : Run (Int × ParsedRequest)} {t : HeaderTable} {p q : Prop}
    (h : Answers run t p) (hpq : p ↔ q) : Answers run t q := by
  obtain ⟨ret, pr, hrun, hret, ht⟩ := h
  exact ⟨ret, pr, hrun, hret.trans hpq, ht⟩

/-- A NUL may be written inside the string in front of its NUL. -/
theorem set_nul_append {s : List UInt8} {k : Nat} (rest : List UInt8) (hk : k ≤ s.length) :
    (s ++ 0 :: rest).set k 0 = s.set k 0 ++ 0 :: rest := by
  rcases Nat.lt_or_eq_of_le hk with hlt | rfl
  · exact List.set_append_left _ _ hlt
  · rw [List.set_append_right _ _ le_rfl, Nat.sub_self, List.set_eq_of_length_le le_rfl]
    rfl

/-- The read of the length stays inside the block: the version is long enough. -/
theorem strlen_rem {b addr version protocol : List UInt8} {fa k : Nat} (hat : CStrAt b fa addr)
    (hver : CStrAt b (fa + addr.length + 1) version) (hk : k ≤ addr.length)
    (hle : protocol.length + 3 ≤ addr.length + 1 + version.length) :
    (strlen (b.set (fa + k) 0) (fa + protocol.length + 3) : Run Nat) =
      .ok (((addr.set k 0 ++ 0 :: version).drop (protocol.length + 3)).takeWhile
        (· != 0)).length := by
  obtain ⟨q, hq⟩ := hat.eq_append
  obtain ⟨post, hpost⟩ := hver.eq_append
  have hblock : b.drop fa = addr ++ 0 :: (version ++ 0 :: post) := by
    have hdrop : b.drop (fa + (addr.length + 1)) = q := by
      rw [← List.drop_drop, hq]
      simp
    rw [hq, ← hdrop, ← Nat.add_assoc, hpost]
  have hcut : (b.set (fa + k) 0).drop (fa + protocol.length + 3) =
      (addr.set k 0 ++ 0 :: version).drop (protocol.length + 3) ++ 0 :: post := by
    have hge : ¬ fa + k < fa := by omega
    rw [Nat.add_assoc, ← List.drop_drop, List.drop_set, if_neg hge, hblock, Nat.add_sub_cancel_left,
      set_nul_append _ hk, ← List.cons_append, ← List.append_assoc,
      List.drop_append_of_le_length (by simp; omega)]
  have hzero : (0 : UInt8) ∈ (b.set (fa + k) 0).drop (fa + protocol.length + 3) := by
    rw [hcut]
    simp
  rw [strlen, cstr, if_pos hzero, hcut, takeWhile_append_nul]
  rfl

namespace ParsedRequest

/-- The host and the port are accepted exactly where the condition on their text holds. -/
theorem parseHostPort_answers {b hostTok : List UInt8} {off : Nat} (errnoEinval : Bool)
    (pr : ParsedRequest) (hat : CStrAt b off hostTok) (hslash : 47 ∉ hostTok) :
    Answers (parseHostPort errnoEinval pr b off) pr.toHeaderTable (HostOk errnoEinval hostTok) := by
  rcases parseHostPort_spec errnoEinval pr hat hslash with
    ⟨hnone, hrun⟩ | ⟨host, port, htok, b', q, ptr, hrun, -⟩
  · rw [hrun]
    refine Answers.refused rfl ?_
    rintro ⟨host, port, htok, -⟩
    cases hnone.symm.trans htok
  · rw [hrun]
    by_cases hport : PortOk errnoEinval port
    · rw [if_pos hport]
      exact ⟨0, _, rfl, iff_of_true rfl ⟨host, port, htok, hport⟩, rfl⟩
    · rw [if_neg hport]
      refine Answers.refused rfl ?_
      rintro ⟨host', port', htok', hport'⟩
      cases htok.symm.trans htok'
      exact hport hport'

/-- Behind the protocol the length of the address is taken as `absUri` says. -/
theorem strlen_rem_eq {b b₁ addr version protocol afterProtocol : List UInt8} {fa save p : Nat}
    (hat : CStrAt b fa addr) (hver : CStrAt b (fa + addr.length + 1) version)
    (hlong : 2 ≤ version.length)
    (hproto : token (ascii [':', '/', '/']) addr = some (protocol, afterProtocol))
    (hrun : (strtokR b fa (ascii [':', '/', '/']) : Run _) = .ok (b₁, save, some p)) :
    (strlen b₁ (fa + protocol.length + 3) : Run Nat) =
      .ok (absUri addr protocol version).length := by
  obtain ⟨save', hblock⟩ := strtokR_block Empty hat hproto
  rw [hrun] at hblock
  cases hblock
  -- the protocol and what it starts behind are a part of the address
  have hpart : (addr.takeWhile ((ascii [':', '/', '/']).contains ·)).length + protocol.length ≤
      addr.length := by
    obtain ⟨lead, rest, rfl, -, hl, ht, hne, -⟩ := token_eq_some hproto
    rw [(span_lead rest hl ht hne).1]
    simp only [List.length_append]
    omega
  rw [Nat.add_assoc fa]
  exact strlen_rem hat hver hpart (by omega)

/-- Whether an address is accepted is decided by its host and what is behind it. -/
theorem addrOk_iff {addr protocol afterProtocol hostTok text : List UInt8} {errnoEinval : Bool}
    {version : List UInt8}
    (hproto : token (ascii [':', '/', '/']) addr = some (protocol, afterProtocol))
    (hhost : token (ascii ['/']) afterProtocol = some (hostTok, text)) :
    AddrOk errnoEinval addr version ↔
      hostTok.length ≠ (absUri addr protocol version).length ∧ ¬ rootAbsPath <+: text ∧
        HostOk errnoEinval hostTok := by
  constructor
  · rintro ⟨_, _, _, _, hproto', hhost', hok⟩
    cases hproto.symm.trans hproto'
    cases hhost.symm.trans hhost'
    exact hok
  · exact fun hok => ⟨protocol, afterProtocol, hostTok, text, hproto, hhost, hok⟩

/-- The address is accepted on its text, and the read of its length stays inside. -/
theorem parseFullAddr_answers {b addr version : List UInt8} {fa : Nat} (errnoEinval : Bool)
    (pr : ParsedRequest) (hat : CStrAt b fa addr) (hsp : 32 ∉ addr)
    (hver : CStrAt b (fa + addr.length + 1) version) (hlong : 2 ≤ version.length) :
    Answers (parseFullAddr errnoEinval pr b fa) pr.toHeaderTable
      (AddrOk errnoEinval addr version) := by
  cases hproto : token (ascii [':', '/', '/']) addr with
  | none =>
    simp only [parseFullAddr, strtokR_none hat hproto, Exec.ok_bind, Exec.pure_eq_ok]
    refine Answers.refused rfl ?_
    rintro ⟨_, _, _, _, htok, -⟩
    cases hproto.symm.trans htok
  | some pair =>
    obtain ⟨protocol, afterProtocol⟩ := pair
    obtain ⟨b₁, save₁, p, hrun₁, h₁⟩ := strtokR_some Empty hat hproto
    have habs := strlen_rem_eq hat hver hlong hproto hrun₁
    cases hhost : token (ascii ['/']) afterProtocol with
    | none =>
      simp only [parseFullAddr, hrun₁, Exec.ok_bind, h₁.tok_at.strlen_eq, habs,
        strtokR_none h₁.rest_at hhost, Exec.pure_eq_ok]
      refine Answers.refused rfl ?_
      rintro ⟨_, _, _, _, htok, htok', -⟩
      cases hproto.symm.trans htok
      cases hhost.symm.trans htok'
    | some pair =>
      obtain ⟨hostTok, text⟩ := pair
      obtain ⟨b₂, save₂, h, hrun₂, h₂⟩ := strtokR_some Empty h₁.rest_at hhost
      have hsp' : 32 ∉ text := (not_mem_of_token hhost (not_mem_of_token hproto hsp).2).2
      have hslash : 47 ∉ hostTok := delim_not_mem_token hhost (by decide)
      have htok := path_token hsp'
      have hiff : AddrOk errnoEinval addr version ↔ _ := addrOk_iff hproto hhost
      by_cases hlen : hostTok.length = (absUri addr protocol version).length
      · simp only [parseFullAddr, hrun₁, Exec.ok_bind, h₁.tok_at.strlen_eq, habs, hrun₂,
          h₂.tok_at.strlen_eq, hlen, if_true, Exec.pure_eq_ok]
        exact Answers.refused rfl fun hok => (hiff.1 hok).1 hlen
      by_cases hnil : text = []
      · rw [if_pos hnil] at htok
        simp only [parseFullAddr, hrun₁, Exec.ok_bind, h₁.tok_at.strlen_eq, habs, hrun₂,
          h₂.tok_at.strlen_eq, hlen, if_false, strtokR_none h₂.rest_at htok]
        have htext : ¬ rootAbsPath <+: text := by simp [hnil, rootAbsPath, ascii]
        refine (parseHostPort_answers errnoEinval _ h₂.tok_at hslash).congr ?_
        rw [hiff, and_iff_right hlen, and_iff_right htext]
      · rw [if_neg hnil] at htok
        obtain ⟨b₃, save₃, x, hrun₃, h₃⟩ := strtokR_some Empty h₂.rest_at htok
        simp only [parseFullAddr, hrun₁, Exec.ok_bind, h₁.tok_at.strlen_eq, habs, hrun₂,
          h₂.tok_at.strlen_eq, hlen, if_false, hrun₃, h₃.tok_at.strncmpEq_eq, h₃.tok_at.cstr]
        by_cases htext : rootAbsPath <+: text
        · rw [decide_eq_true htext, if_pos rfl]
          exact Answers.refused rfl fun hok => (hiff.1 hok).2.1 htext
        · rw [decide_eq_false htext, if_neg Bool.false_ne_true]
          have hlt : h + hostTok.length < save₂ := by
            rcases h₂.save_eq with h | ⟨-, h⟩
            · omega
            · exact absurd h hnil
          refine (parseHostPort_answers errnoEinval _
            (h₃.frame h hostTok h₂.tok_at (Or.inl hlt)) hslash).congr ?_
          rw [hiff, and_iff_right hlen, and_iff_right htext]

/-- A word that ends with the string has no delimiter behind it. -/
theorem endsInAddress_iff {line method afterMethod lead addr rest : List UInt8}
    (hmethod : token (ascii [' ']) line = some (method, afterMethod))
    (hafter : afterMethod = lead ++ (addr ++ rest))
    (haddr : token (ascii [' ']) afterMethod = some (addr, rest.tail))
    (hr : ∀ c, rest.head? = some c → c ∈ ascii [' ']) : EndsInAddress line ↔ rest = [] := by
  constructor
  · rintro ⟨method', afterMethod', addr', hmethod', haddr', hsuf⟩
    cases hmethod.symm.trans hmethod'
    obtain ⟨rfl, htail⟩ := Prod.mk.inj (Option.some.inj (haddr.symm.trans haddr'))
    obtain ⟨-, -, -, -, -, hno, hne, -⟩ := token_eq_some haddr
    cases rest with
    | nil => rfl
    | cons d rest =>
      obtain rfl : rest = [] := htail
      -- the last character would be both a delimiter and one of the word
      have hlast : d ∈ addr := by
        rw [hafter, ← List.append_assoc, List.suffix_concat_iff] at hsuf
        obtain ⟨t, ht, -⟩ := hsuf.resolve_left hne
        rw [ht]
        simp
      exact absurd (hr d rfl) (hno d hlast)
  · rintro rfl
    exact ⟨method, afterMethod, addr, hmethod, haddr, lead, by rw [hafter, List.append_nil]⟩

/-- Whether a line is accepted is decided by its first two words and what is behind them. -/
theorem lineOk_iff {line method afterMethod addr version : List UInt8} {errnoEinval : Bool}
    (hmethod : token (ascii [' ']) line = some (method, afterMethod))
    (haddr : token (ascii [' ']) afterMethod = some (addr, version)) :
    LineOk errnoEinval line ↔ httpSlash <+: version ∧ AddrOk errnoEinval addr version := by
  constructor
  · rintro ⟨_, _, _, _, hmethod', haddr', hok⟩
    cases hmethod.symm.trans hmethod'
    cases haddr.symm.trans haddr'
    exact hok
  · exact fun hok => ⟨method, afterMethod, addr, version, hmethod, haddr, hok⟩

/-- The verdict on a request line: it leaves the version pointer behind the buffer, or it is
accepted or refused on its text. -/
theorem parseRequestLine_answers {line : List UInt8} (errnoEinval : Bool) (pr : ParsedRequest)
    (h0 : 0 ∉ line) :
    (EndsInAddress line ∧
      parseRequestLine errnoEinval pr (line ++ [0]) = .error .outOfBounds) ∨
    (¬ EndsInAddress line ∧ Answers (parseRequestLine errnoEinval pr (line ++ [0]))
      pr.toHeaderTable (LineOk errnoEinval line)) := by
  have hat : CStrAt (line ++ [0]) 0 line := cstrAt_append [] line [] h0
  cases hmethod : token (ascii [' ']) line with
  | none =>
    right
    simp only [parseRequestLine, strtokR_none hat hmethod, Exec.ok_bind, Exec.pure_eq_ok]
    refine ⟨?_, Answers.refused rfl ?_⟩
    · rintro ⟨_, _, _, htok, -⟩
      cases hmethod.symm.trans htok
    · rintro ⟨_, _, _, _, htok, -⟩
      cases hmethod.symm.trans htok
  | some pair =>
    obtain ⟨method, afterMethod⟩ := pair
    obtain ⟨b₁, save₁, m, hrun₁, h₁⟩ := strtokR_some Empty hat hmethod
    cases haddr : token (ascii [' ']) afterMethod with
    | none =>
      right
      simp only [parseRequestLine, hrun₁, Exec.ok_bind, strtokR_none h₁.rest_at haddr,
        Exec.pure_eq_ok]
      refine ⟨?_, Answers.refused rfl ?_⟩
      · rintro ⟨_, _, _, htok, htok', -⟩
        cases hmethod.symm.trans htok
        cases haddr.symm.trans htok'
      · rintro ⟨_, _, _, _, htok, htok', -⟩
        cases hmethod.symm.trans htok
        cases haddr.symm.trans htok'
    | some pair =>
      obtain ⟨addr, version⟩ := pair
      obtain ⟨b₂, save₂, fa, hrun₂, h₂⟩ := strtokR_some Empty h₁.rest_at haddr
      obtain ⟨lead, rest, hafter, rfl, hl, ht, hne, hr⟩ := token_eq_some haddr
      have hends := endsInAddress_iff hmethod hafter haddr hr
      have hsplit := strtokR_eq Empty (hafter ▸ h₁.rest_at) hl ht hne hr
      rw [hrun₂, Except.ok.injEq] at hsplit
      by_cases hnil : rest = []
      · -- the address ends the line, so the version pointer is one past the buffer
        left
        refine ⟨hends.2 hnil, ?_⟩
        have hlen : b₂.length = line.length + 1 := by simp [h₂.length_eq, h₁.length_eq]
        have hend₁ := h₁.end_eq
        have hfa : fa + addr.length = save₁ + afterMethod.length := by
          rw [if_pos hnil] at hsplit
          cases hsplit
          rw [hafter, hnil, List.append_nil, List.length_append, Nat.add_assoc]
        have hbad : (strncmpEq b₂ (fa + addr.length + 1) httpSlash : Run Bool) =
            .error .outOfBounds := strncmpEq_past (by omega) httpSlash
        simp only [parseRequestLine, hrun₁, Exec.ok_bind, hrun₂, h₂.tok_at.strlen_eq, hbad,
          Exec.error_bind]
      · right
        refine ⟨fun h => hnil (hends.1 h), ?_⟩
        have hsave : save₂ = fa + addr.length + 1 := by
          rw [if_neg hnil] at hsplit
          cases hsplit
          rfl
        have hver : CStrAt b₂ (fa + addr.length + 1) rest.tail := hsave ▸ h₂.rest_at
        have hsp : 32 ∉ addr := delim_not_mem_token haddr (by decide)
        have hiff : LineOk errnoEinval line ↔ _ := lineOk_iff hmethod haddr
        simp only [parseRequestLine, hrun₁, Exec.ok_bind, hrun₂, h₂.tok_at.strlen_eq,
          hver.strncmpEq_eq]
        by_cases hhttp : httpSlash <+: rest.tail
        · rw [decide_eq_true hhttp]
          have hlong : 2 ≤ rest.tail.length :=
            (show 2 ≤ httpSlash.length by decide).trans hhttp.length_le
          refine (parseFullAddr_answers errnoEinval { pr with
            method := .buf m, version := .buf (fa + addr.length + 1) } h₂.tok_at hsp hver
            hlong).congr ?_
          rw [hiff, and_iff_right hhttp]
        · rw [decide_eq_false hhttp]
          exact Answers.refused rfl fun hok => hhttp (hiff.1 hok).1

/-- The length is checked on the buffer as the first two passes leave it. -/
theorem lineAbsUriOk_of_ne {line method afterMethod addr version protocol afterProtocol hostTok :
    List UInt8} (h0 : 0 ∉ line) (hmethod : token (ascii [' ']) line = some (method, afterMethod))
    (haddr : token (ascii [' ']) afterMethod = some (addr, version))
    (hhttp : httpSlash <+: version)
    (hproto : token (ascii [':', '/', '/']) addr = some (protocol, afterProtocol))
    (hne : hostTok.length ≠ (absUri addr protocol version).length) :
    LineAbsUriOk line protocol hostTok := by
  intro b₁ save₁ m b₂ save₂ fa hrun₁ hrun₂ b' save q hrun
  have hat : CStrAt (line ++ [0]) 0 line := cstrAt_append [] line [] h0
  obtain ⟨c₁, s₁, m', hc₁, h₁⟩ := strtokR_some Empty hat hmethod
  rw [hc₁] at hrun₁
  cases hrun₁
  obtain ⟨c₂, s₂, fa', hc₂, h₂⟩ := strtokR_some Empty h₁.rest_at haddr
  rw [hc₂] at hrun₂
  cases hrun₂
  have hlong : 2 ≤ version.length := (show 2 ≤ httpSlash.length by decide).trans hhttp.length_le
  have hsave : save₂ = fa + addr.length + 1 := by
    rcases h₂.save_eq with h | ⟨-, h⟩
    · exact h
    · rw [h] at hlong
      exact absurd hlong (by decide)
  have hver : CStrAt b₂ (fa + addr.length + 1) version := hsave ▸ h₂.rest_at
  exact ⟨_, strlen_rem_eq h₂.tok_at hver hlong hproto hrun, hne.symm⟩

/-- An accepted line has tokens that are the fields stored for it. -/
theorem parseRequestLine_inv {line : List UInt8} {pr pr' : ParsedRequest} (h0 : 0 ∉ line)
    (hok : parseRequestLine false pr (line ++ [0]) = .ok (0, pr')) :
    ∃ r afterMethod addr afterProtocol hostTok text port,
      Splits line r afterMethod addr afterProtocol hostTok text port ∧
      pr'.requestLine = .ok r ∧ pr'.toHeaderTable = pr.toHeaderTable ∧ pr'.buf ≠ none := by
  have haccepted : LineOk false line := by
    rcases parseRequestLine_answers false pr h0 with ⟨-, hrun⟩ | ⟨-, ret, pr'', hrun, hret, -⟩
    · cases hok.symm.trans hrun
    · cases hok.symm.trans hrun
      exact hret.1 rfl
  obtain ⟨method, afterMethod, addr, version, hmethod, haddr, hhttp, protocol, afterProtocol,
    hostTok, text, hproto, hhost, hne, htext, host, port, hname, -⟩ := haccepted
  have hsplits : Splits line ⟨method, protocol, host, portOf port, rootAbsPath ++ text, version⟩
      afterMethod addr afterProtocol hostTok text port :=
    ⟨hmethod, haddr, hhttp, hproto, hhost, htext, rfl, hname, rfl⟩
  obtain ⟨pr'', hrun, hr, ht, hb⟩ := parseRequestLine_ok pr h0 hsplits
    (lineAbsUriOk_of_ne h0 hmethod haddr hhttp hproto hne)
  cases hok.symm.trans hrun
  exact ⟨_, afterMethod, addr, afterProtocol, hostTok, text, port, hsplits, hr, ht, hb⟩

end ParsedRequest

end ComputerNetworks.Proxy
