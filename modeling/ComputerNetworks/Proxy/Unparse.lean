import ComputerNetworks.Proxy.Parse

/-!
# Writing a request

`ParsedRequest_unparse` writes the fields of a request and its live headers into
a buffer of the caller, after it has compared the length it needs with the
length it was given. `renderRequest` is what it writes.
-/

namespace ComputerNetworks.Proxy

/-- `memcpy(current, src, |src|); current += |src|` in the block `st.1`. -/
def emit (st : List UInt8 × Nat) (src : List UInt8) : Run (List UInt8 × Nat) := do
  let b ← memcpyAt st.1 st.2 src
  return (b, st.2 + src.length)

namespace ParsedHeader

/-- `ParsedHeader_lineLen`. -/
def lineLen (ph : ParsedHeader) : Nat :=
  match ph.key with
  | none => 0
  | some key => key.length + ph.value.length + 4

/-- The loop of `ParsedHeader_headersLen`, with `n` entries left from index `i` on. The sum is
formed in `size_t` and stored in an `int`. -/
def headersLenLoop (hs : List ParsedHeader) : Nat → Nat → Int → Run Int
  | 0, _, len => .ok len
  | n + 1, i, len =>
    match hs[i]? with
    | none => .error .outOfBounds
    | some ph => headersLenLoop hs n (i + 1) ((len + lineLen ph).bmod (2 ^ 32))

/-- `ParsedHeader_headersLen`. -/
def headersLen (pr : ParsedRequest) : Run Nat := do
  if pr.buf = none then
    return 0
  let len ← match pr.headers with
    | none => if pr.headersused = 0 then .ok 0 else .error .nullPointer
    | some hs => headersLenLoop hs pr.headersused 0 0
  if len + 2 ≥ 2 ^ 31 then
    .error .signedOverflow
  return ((len + 2) % 2 ^ 64).toNat

/-- The loop of `ParsedHeader_printHeaders`: the live entries are written one by one. -/
def printHeadersLoop (hs : List ParsedHeader) :
    Nat → Nat → List UInt8 × Nat → Run (List UInt8 × Nat)
  | 0, _, st => .ok st
  | n + 1, i, st =>
    match hs[i]? with
    | none => .error .outOfBounds
    | some ph => do
      match ph.key with
      | none => printHeadersLoop hs n (i + 1) st
      | some key =>
        let st ← emit st key
        let st ← emit st (ascii [':', ' '])
        let st ← emit st ph.value
        let st ← emit st crlf
        printHeadersLoop hs n (i + 1) st

/-- `ParsedHeader_printHeaders` into the `len` bytes of `buf` from `off` on. -/
def printHeaders (pr : ParsedRequest) (buf : List UInt8) (off len : Nat) :
    Run (Int × List UInt8) := do
  if len < (← headersLen pr) then
    return (-1, buf)
  let st ← match pr.headers with
    | none => if pr.headersused = 0 then .ok (buf, off) else .error .nullPointer
    | some hs => printHeadersLoop hs pr.headersused 0 (buf, off)
  let st ← emit st crlf
  return (0, st.1)

end ParsedHeader

namespace ParsedRequest

/-- `ParsedRequest_requestLineLen`. -/
def requestLineLen (pr : ParsedRequest) : Run Nat := do
  if pr.buf = none then
    return 0
  let method ← pr.deref pr.method
  let protocol ← pr.deref pr.protocol
  let host ← pr.deref pr.host
  let version ← pr.deref pr.version
  let len := method.length + 1 + protocol.length + 3 + host.length + 1 + version.length + 2
  let port ← pr.deref? pr.port
  let len := match port with
    | none => len
    | some port => len + (port.length + 1)
  let path ← pr.deref pr.path
  return len + path.length

/-- `ParsedRequest_totalLen`. -/
def totalLen (pr : ParsedRequest) : Run Nat := do
  if pr.buf = none then
    return 0
  return ((← requestLineLen pr) + (← ParsedHeader.headersLen pr)) % 2 ^ 64

/-- `ParsedRequest_printRequestLine`: the block and `*tmp` are returned with the result. -/
def printRequestLine (pr : ParsedRequest) (buf : List UInt8) (buflen : Nat) :
    Run (Int × List UInt8 × Nat) := do
  if buflen < (← requestLineLen pr) then
    return (-1, buf, 0)
  let st ← emit (buf, 0) (← pr.deref pr.method)
  let st ← emit st (ascii [' '])
  let st ← emit st (← pr.deref pr.protocol)
  let st ← emit st (ascii [':', '/', '/'])
  let st ← emit st (← pr.deref pr.host)
  let st ← match ← pr.deref? pr.port with
    | none => .ok st
    | some port => do
      let st ← emit st (ascii [':'])
      emit st port
  let st ← emit st (← pr.deref pr.path)
  let st ← emit st (ascii [' '])
  let st ← emit st (← pr.deref pr.version)
  let st ← emit st crlf
  return (0, st)

/-- `ParsedRequest_unparse` into a buffer of `buflen` bytes. -/
def unparse (pr : ParsedRequest) (buf : List UInt8) (buflen : Nat) : Run (Int × List UInt8) := do
  if pr.buf = none then
    return (-1, buf)
  let (ret, buf, tmp) ← printRequestLine pr buf buflen
  if ret < 0 then
    return (-1, buf)
  let (ret, buf) ← ParsedHeader.printHeaders pr buf tmp (buflen - tmp)
  if ret < 0 then
    return (-1, buf)
  return (0, buf)

/-- `ParsedRequest_unparse_headers`. -/
def unparseHeaders (pr : ParsedRequest) (buf : List UInt8) (buflen : Nat) :
    Run (Int × List UInt8) := do
  if pr.buf = none then
    return (-1, buf)
  let (ret, buf) ← ParsedHeader.printHeaders pr buf 0 buflen
  if ret < 0 then
    return (-1, buf)
  return (0, buf)

end ParsedRequest

/-- A state of the writer: `done` stands at the start of a block of `size` bytes, and `current`
points behind it. -/
def Written (size : Nat) (done : List UInt8) (st : List UInt8 × Nat) : Prop :=
  done <+: st.1 ∧ st.1.length = size ∧ st.2 = done.length

/-- What stands behind `current` later stood there before. -/
def Keeps (st st' : List UInt8 × Nat) : Prop :=
  st.2 ≤ st'.2 ∧ st'.1.drop st'.2 = st.1.drop st'.2

theorem Keeps.refl (st : List UInt8 × Nat) : Keeps st st := ⟨le_rfl, rfl⟩

/-- What two steps keep, both of them keep. -/
theorem Keeps.trans {st st₁ st₂ : List UInt8 × Nat} (h : Keeps st st₁) (h₁ : Keeps st₁ st₂) :
    Keeps st st₂ := by
  refine ⟨h.1.trans h₁.1, h₁.2.trans ?_⟩
  have hdrop := congrArg (List.drop (st₂.2 - st₁.2)) h.2
  rwa [List.drop_drop, List.drop_drop, Nat.add_sub_cancel' h₁.1] at hdrop

/-- Only what was written differs from the block at the start. -/
theorem Written.eq {size : Nat} {done out : List UInt8} {st : List UInt8 × Nat}
    (h : Written size done st) (hkeeps : Keeps (out, 0) st) :
    st = (done ++ out.drop done.length, done.length) := by
  obtain ⟨⟨rest, hb⟩, -, hcur⟩ := h
  have hrest : rest = out.drop done.length := by
    rw [← hcur, ← hkeeps.2, ← hb, hcur, List.drop_left]
  exact Prod.ext (by rw [← hb, hrest]) hcur

/-- A piece that fits is written behind the others. -/
theorem emit_ok {size : Nat} {done src : List UInt8} {st : List UInt8 × Nat}
    (h : Written size done st) (hfit : (done ++ src).length ≤ size) :
    ∃ st', emit st src = .ok st' ∧ Written size (done ++ src) st' ∧ Keeps st st' := by
  obtain ⟨b, cur⟩ := st
  obtain ⟨⟨rest, hb⟩, hsize, hcur⟩ := h
  simp only at hb hsize hcur
  subst hb hcur
  rw [List.length_append] at hsize hfit
  have hle : src.length ≤ rest.length := by omega
  refine ⟨_, by simp only [emit, memcpyAt_append done rest src hle, Exec.ok_bind]; rfl,
    ⟨?_, ?_, ?_⟩, Nat.le_add_right _ _, ?_⟩
  · exact List.prefix_append _ _
  · simp only [List.length_append, List.length_drop]
    omega
  · exact List.length_append.symm
  · dsimp only
    rw [← List.length_append, List.drop_left, List.length_append, ← List.drop_drop, List.drop_left]

/-- A list of pieces written in turn. -/
theorem emits_ok (pieces : List (List UInt8)) {size : Nat} {done : List UInt8}
    {st : List UInt8 × Nat} (h : Written size done st)
    (hfit : (done ++ pieces.flatten).length ≤ size) :
    ∃ st', pieces.foldlM emit st = .ok st' ∧ Written size (done ++ pieces.flatten) st' ∧
      Keeps st st' := by
  induction pieces generalizing done st with
  | nil => exact ⟨st, rfl, by simpa using h, Keeps.refl st⟩
  | cons piece pieces ih =>
    rw [List.flatten_cons, ← List.append_assoc] at hfit ⊢
    have hpiece : (done ++ piece).length ≤ size := by
      rw [List.length_append] at hfit
      omega
    obtain ⟨st₁, hrun, h₁, hkeeps₁⟩ := emit_ok h hpiece
    obtain ⟨st₂, hrun₂, h₂, hkeeps₂⟩ := ih h₁ hfit
    exact ⟨st₂, by simp only [List.foldlM_cons, hrun, Exec.ok_bind, hrun₂], h₂,
      hkeeps₁.trans hkeeps₂⟩

namespace ParsedHeader

/-- The first header is printed first, if it is live. -/
theorem renderHeaders_filterMap_cons (ph : ParsedHeader) (hs : List ParsedHeader) :
    renderHeaders ((ph :: hs).filterMap pair) =
      (ph.pair.elim [] renderHeader) ++ renderHeaders (hs.filterMap pair) := by
  cases hp : ph.pair with
  | none => simp [hp]
  | some kv => simp [hp, renderHeaders]

/-- The length of a header is counted as it is printed. -/
theorem lineLen_eq (ph : ParsedHeader) :
    lineLen ph = (ph.pair.elim [] renderHeader).length := by
  cases hk : ph.key with
  | none => simp [lineLen, pair, hk]
  | some key =>
    simp [lineLen, pair, hk, renderHeader, crlf]
    omega

/-- The length computed is the one of the rendered live headers as long as it fits an `int`. -/
theorem headersLenLoop_eq (hs : List ParsedHeader) (n i len : Nat) (h : i + n = hs.length)
    (hsmall : len + (renderHeaders ((hs.drop i).filterMap pair)).length < 2 ^ 31) :
    headersLenLoop hs n i len =
      .ok ((len + (renderHeaders ((hs.drop i).filterMap pair)).length : Nat) : Int) := by
  induction n generalizing i len with
  | zero =>
    have hd : hs.drop i = [] := List.drop_eq_nil_iff.mpr (by omega)
    simp [headersLenLoop, hd, renderHeaders]
  | succ n ih =>
    have hi : i < hs.length := by omega
    rw [List.drop_eq_getElem_cons hi, renderHeaders_filterMap_cons, List.length_append,
      ← lineLen_eq] at hsmall ⊢
    have hwrap : ((len : Int) + lineLen hs[i]).bmod (2 ^ 32) =
        ((len + lineLen hs[i] : Nat) : Int) := by
      rw [Int.bmod_eq_of_le] <;> omega
    rw [headersLenLoop, List.getElem?_eq_getElem hi]
    simp only [hwrap]
    rw [ih (i + 1) _ (by omega) (by omega), Nat.add_assoc]

/-- The length of the headers is that of their text. -/
theorem headersLen_eq {pr : ParsedRequest} (hbuf : pr.buf ≠ none)
    (hwf : pr.toHeaderTable.WellFormed) (hsmall : (renderHeaders pr.live).length + 2 < 2 ^ 31) :
    headersLen pr = .ok ((renderHeaders pr.live).length + 2) := by
  obtain ⟨hs, hh, hu⟩ := hwf.used
  have hlive : pr.live = hs.filterMap pair := by simp [HeaderTable.live, hh]
  rw [hlive] at hsmall ⊢
  have hloop := headersLenLoop_eq hs pr.headersused 0 0 (by omega) (by rw [List.drop_zero]; omega)
  rw [List.drop_zero, Nat.zero_add, Int.natCast_zero] at hloop
  have hfit : ¬ ((renderHeaders (hs.filterMap pair)).length : Int) + 2 ≥ 2 ^ 31 := by omega
  simp only [headersLen, hbuf, if_false, hh, hloop, Exec.ok_bind, Exec.pure_eq_ok, hfit]
  congr 1
  omega

/-- The loop writes the live headers behind what is written. -/
theorem printHeadersLoop_ok (hs : List ParsedHeader) (n i : Nat) {size : Nat} {done : List UInt8}
    {st : List UInt8 × Nat} (h : i + n = hs.length) (hst : Written size done st)
    (hfit : (done ++ renderHeaders ((hs.drop i).filterMap pair)).length ≤ size) :
    ∃ st', printHeadersLoop hs n i st = .ok st' ∧
      Written size (done ++ renderHeaders ((hs.drop i).filterMap pair)) st' ∧ Keeps st st' := by
  induction n generalizing i done st with
  | zero =>
    have hd : hs.drop i = [] := List.drop_eq_nil_iff.mpr (by omega)
    exact ⟨st, rfl, by simpa [hd, renderHeaders] using hst, Keeps.refl st⟩
  | succ n ih =>
    have hi : i < hs.length := by omega
    rw [List.drop_eq_getElem_cons hi, renderHeaders_filterMap_cons, ← List.append_assoc] at hfit ⊢
    simp only [printHeadersLoop, List.getElem?_eq_getElem hi]
    cases hk : hs[i].key with
    | none =>
      have hnone : hs[i].pair = none := by simp [pair, hk]
      rw [hnone, Option.elim_none, List.append_nil] at hfit ⊢
      exact ih (i + 1) (by omega) hst hfit
    | some key =>
      have hsome : hs[i].pair = some (key, hs[i].value) := by simp [pair, hk]
      rw [hsome, Option.elim_some] at hfit ⊢
      have hline : renderHeader (key, hs[i].value) =
          [key, ascii [':', ' '], hs[i].value, crlf].flatten := by
        simp [renderHeader, ascii]
      rw [hline] at hfit ⊢
      obtain ⟨st₁, hrun, h₁, hkeeps₁⟩ := emits_ok [key, ascii [':', ' '], hs[i].value, crlf] hst
        (by rw [List.length_append] at hfit; omega)
      obtain ⟨st₂, hrun₂, h₂, hkeeps₂⟩ := ih (i + 1) (by omega) h₁ hfit
      refine ⟨st₂, ?_, h₂, hkeeps₁.trans hkeeps₂⟩
      have hseq := congrArg (· >>= fun st => printHeadersLoop hs n (i + 1) st) hrun
      simpa only [List.foldlM_cons, List.foldlM_nil, bind_assoc, pure_bind, Exec.ok_bind, hrun₂]
        using hseq

/-- The headers and the empty line are written behind what is written, if the length given is that
of the headers at least; otherwise nothing is. -/
theorem printHeaders_eq {pr : ParsedRequest} {done out : List UInt8} {len : Nat}
    (hbuf : pr.buf ≠ none) (hwf : pr.toHeaderTable.WellFormed)
    (hsmall : (renderHeaders pr.live).length + 2 < 2 ^ 31)
    (hlen : done.length + len ≤ out.length) :
    printHeaders pr (done ++ out.drop done.length) done.length len =
      if (renderHeaders pr.live ++ crlf).length ≤ len then
        .ok (0, done ++ (renderHeaders pr.live ++ crlf) ++
          out.drop (done ++ (renderHeaders pr.live ++ crlf)).length)
      else .ok (-1, done ++ out.drop done.length) := by
  obtain ⟨hs, hh, hu⟩ := hwf.used
  have hlive : pr.live = hs.filterMap pair := by simp [HeaderTable.live, hh]
  have hlenEq := headersLen_eq hbuf hwf hsmall
  have htotal : (renderHeaders pr.live ++ crlf).length = (renderHeaders pr.live).length + 2 :=
    List.length_append
  rw [htotal]
  rw [hlive] at hlenEq htotal ⊢
  split
  · rename_i hroom
    have hst : Written out.length done (done ++ out.drop done.length, done.length) := by
      refine ⟨List.prefix_append _ _, ?_, rfl⟩
      rw [List.length_append, List.length_drop]
      omega
    have hstart : Keeps (out, 0) (done ++ out.drop done.length, done.length) :=
      ⟨Nat.zero_le _, List.drop_left⟩
    have hfit : (done ++ renderHeaders (hs.filterMap pair) ++ crlf).length ≤ out.length := by
      rw [List.append_assoc, List.length_append, htotal]
      omega
    obtain ⟨st₁, hrun, h₁, hkeeps₁⟩ := printHeadersLoop_ok hs pr.headersused 0 (by omega) hst
      (by rw [List.length_append] at hfit; rw [List.drop_zero]; omega)
    rw [List.drop_zero] at h₁
    obtain ⟨st₂, hrun₂, h₂, hkeeps₂⟩ := emit_ok h₁ hfit
    have hout := h₂.eq ((hstart.trans hkeeps₁).trans hkeeps₂)
    simp only [printHeaders, hlenEq, Exec.ok_bind, if_neg (Nat.not_lt.2 hroom), hh, hrun, hrun₂,
      Exec.pure_eq_ok, hout, List.append_assoc]
  · rename_i hroom
    simp only [printHeaders, hlenEq, Exec.ok_bind, if_pos (Nat.lt_of_not_le hroom), Exec.pure_eq_ok]

end ParsedHeader

namespace ParsedRequest

/-- The pieces the request line is written from. -/
def linePieces (r : RequestLine) : List (List UInt8) :=
  [r.method, ascii [' '], r.protocol, ascii [':', '/', '/'], r.host] ++
    (match r.port with
      | none => []
      | some port => [ascii [':'], port]) ++
    [r.path, ascii [' '], r.version, crlf]

/-- The pieces of the request line make up its text. -/
theorem flatten_linePieces (r : RequestLine) : (linePieces r).flatten = r.render ++ crlf := by
  cases hp : r.port with
  | none => simp [linePieces, RequestLine.render, RequestLine.addr, RequestLine.hostTok, hp, ascii]
  | some port =>
    simp [linePieces, RequestLine.render, RequestLine.addr, RequestLine.hostTok, hp, ascii]

/-- The length of the request line is that of its text. -/
theorem requestLineLen_eq {pr : ParsedRequest} {r : RequestLine} (hbuf : pr.buf ≠ none)
    (h : pr.requestLine = .ok r) : requestLineLen pr = .ok (r.render ++ crlf).length := by
  obtain ⟨hm, hp, hh, hport, hpath, hv⟩ := requestLine_inv h
  simp only [requestLineLen, hbuf, if_false, hm, hp, hh, hport, hpath, hv, Exec.ok_bind,
    Exec.pure_eq_ok]
  congr 1
  cases hp : r.port with
  | none =>
    simp only [RequestLine.render, RequestLine.addr, RequestLine.hostTok, hp, crlf,
      List.length_append, List.length_cons, List.length_nil]
    omega
  | some port =>
    simp only [RequestLine.render, RequestLine.addr, RequestLine.hostTok, hp, crlf,
      List.length_append, List.length_cons, List.length_nil]
    omega

/-- The request line is written at the start of the buffer, if the length given is its own at least;
otherwise nothing is. -/
theorem printRequestLine_eq {pr : ParsedRequest} {r : RequestLine} {out : List UInt8} {buflen : Nat}
    (hbuf : pr.buf ≠ none) (h : pr.requestLine = .ok r) (hlen : buflen ≤ out.length) :
    printRequestLine pr out buflen =
      if (r.render ++ crlf).length ≤ buflen then
        .ok (0, r.render ++ crlf ++ out.drop (r.render ++ crlf).length, (r.render ++ crlf).length)
      else .ok (-1, out, 0) := by
  have hline := requestLineLen_eq hbuf h
  split
  · rename_i hroom
    have hstart : Written out.length [] (out, 0) := ⟨List.nil_prefix, rfl, rfl⟩
    obtain ⟨st, hrun, hst, hkeeps⟩ := emits_ok (linePieces r) hstart
      (by rw [List.nil_append, flatten_linePieces]; exact hroom.trans hlen)
    rw [List.nil_append, flatten_linePieces] at hst
    obtain ⟨hm, hp, hh, hport, hpath, hv⟩ := requestLine_inv h
    rw [← hst.eq hkeeps]
    simp only [printRequestLine, hline, Exec.ok_bind, if_neg (Nat.not_lt.2 hroom), hm, hp,
      hh, hport, hpath, hv]
    have hseq := congrArg (· >>= fun st => (.ok (0, st) : Run (Int × List UInt8 × Nat))) hrun
    cases hpo : r.port with
    | none =>
      simpa only [linePieces, hpo, List.append_nil, List.cons_append, List.nil_append,
        List.foldlM_cons, List.foldlM_nil, bind_assoc, pure_bind, Exec.ok_bind, Exec.pure_eq_ok]
        using hseq
    | some port =>
      simpa only [linePieces, hpo, List.append_nil, List.cons_append, List.nil_append,
        List.foldlM_cons, List.foldlM_nil, bind_assoc, pure_bind, Exec.ok_bind, Exec.pure_eq_ok]
        using hseq
  · rename_i hroom
    simp only [printRequestLine, hline, Exec.ok_bind, if_pos (Nat.lt_of_not_le hroom),
      Exec.pure_eq_ok]

/-- `ParsedRequest_totalLen` is the length of the printed request. -/
theorem totalLen_eq {pr : ParsedRequest} {r : RequestLine} (hbuf : pr.buf ≠ none)
    (h : pr.requestLine = .ok r) (hwf : pr.toHeaderTable.WellFormed)
    (hline : r.render.length < 2 ^ 31) (hsmall : (renderHeaders pr.live).length + 2 < 2 ^ 31) :
    totalLen pr = .ok (renderRequest r pr.live).length := by
  simp only [totalLen, hbuf, if_false, requestLineLen_eq hbuf h,
    ParsedHeader.headersLen_eq hbuf hwf hsmall, Exec.ok_bind, Exec.pure_eq_ok]
  simp only [renderRequest, crlf, List.length_append, List.length_cons, List.length_nil]
  congr 1
  omega

theorem renderRequest_eq (r : RequestLine) (hs : List (List UInt8 × List UInt8)) :
    renderRequest r hs = (r.render ++ crlf) ++ (renderHeaders hs ++ crlf) := by
  simp only [renderRequest, List.append_assoc]

/-- The request is written over the start of the buffer, if the length given is that of the request
at least. Otherwise the request line may have been written. -/
theorem unparse_eq {pr : ParsedRequest} {r : RequestLine} {out : List UInt8} {buflen : Nat}
    (hbuf : pr.buf ≠ none) (h : pr.requestLine = .ok r) (hwf : pr.toHeaderTable.WellFormed)
    (hsmall : (renderHeaders pr.live).length + 2 < 2 ^ 31) (hlen : buflen ≤ out.length) :
    unparse pr out buflen =
      if (renderRequest r pr.live).length ≤ buflen then
        .ok (0, renderRequest r pr.live ++ out.drop (renderRequest r pr.live).length)
      else if (r.render ++ crlf).length ≤ buflen then
        .ok (-1, r.render ++ crlf ++ out.drop (r.render ++ crlf).length)
      else .ok (-1, out) := by
  have htotal : (renderRequest r pr.live).length =
      (r.render ++ crlf).length + (renderHeaders pr.live ++ crlf).length := by
    rw [renderRequest_eq, List.length_append]
  rw [unparse, if_neg hbuf, printRequestLine_eq hbuf h hlen]
  by_cases hline : (r.render ++ crlf).length ≤ buflen
  · have hheaders := @ParsedHeader.printHeaders_eq pr (r.render ++ crlf) out
      (buflen - (r.render ++ crlf).length) hbuf hwf hsmall (by omega)
    have hroom : (renderHeaders pr.live ++ crlf).length ≤ buflen - (r.render ++ crlf).length ↔
        (renderRequest r pr.live).length ≤ buflen := by omega
    rw [← renderRequest_eq] at hheaders
    rw [if_pos hline, if_pos hline, Exec.ok_bind]
    by_cases hfits : (renderRequest r pr.live).length ≤ buflen
    · rw [if_pos (hroom.2 hfits)] at hheaders
      rw [if_pos hfits]
      simp only [hheaders, Exec.ok_bind]
      rfl
    · rw [if_neg (mt hroom.1 hfits)] at hheaders
      rw [if_neg hfits]
      simp only [hheaders, Exec.ok_bind]
      rfl
  · have hroom : ¬(renderRequest r pr.live).length ≤ buflen := by omega
    rw [if_neg hline, if_neg hline, if_neg hroom]
    rfl

/-- The headers alone are written over the start of the buffer, if the length given is theirs at
least; otherwise nothing is. -/
theorem unparseHeaders_eq {pr : ParsedRequest} {out : List UInt8} {buflen : Nat}
    (hbuf : pr.buf ≠ none) (hwf : pr.toHeaderTable.WellFormed)
    (hsmall : (renderHeaders pr.live).length + 2 < 2 ^ 31) (hlen : buflen ≤ out.length) :
    unparseHeaders pr out buflen =
      if (renderHeaders pr.live ++ crlf).length ≤ buflen then
        .ok (0, renderHeaders pr.live ++ crlf ++ out.drop (renderHeaders pr.live ++ crlf).length)
      else .ok (-1, out) := by
  have hheaders := @ParsedHeader.printHeaders_eq pr [] out buflen hbuf hwf hsmall
    (by rw [List.length_nil]; omega)
  rw [List.nil_append, List.nil_append, List.length_nil, List.drop_zero] at hheaders
  rw [unparseHeaders, if_neg hbuf, hheaders]
  split
  · rfl
  · rfl

/-- Into a buffer of the right size the request is written as it is rendered. -/
theorem unparse_ok {pr : ParsedRequest} {r : RequestLine} {out : List UInt8}
    (hbuf : pr.buf ≠ none) (h : pr.requestLine = .ok r) (hwf : pr.toHeaderTable.WellFormed)
    (hsmall : (renderHeaders pr.live).length + 2 < 2 ^ 31)
    (hout : out.length = (renderRequest r pr.live).length) :
    unparse pr out out.length = .ok (0, renderRequest r pr.live) := by
  rw [unparse_eq hbuf h hwf hsmall le_rfl, if_pos hout.ge, ← hout, List.drop_length,
    List.append_nil]

end ParsedRequest

end ComputerNetworks.Proxy
