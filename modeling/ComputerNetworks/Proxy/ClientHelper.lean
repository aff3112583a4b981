import ComputerNetworks.Proxy.Parse

/-!
# One client of the proxy

`client_helper` receives a request into a fixed array, stops at the first CRLF,
appends another one, and hands the array to the parser with the size of the last
`recv` plus two. An accepted request is changed in its header table, and the
received bytes, again as many as the last `recv` returned, are sent on.
-/

namespace ComputerNetworks.Proxy

open LastWrite

/-- `MAX_REQ_LEN`, the size of the receive array. -/
def buffSize : Nat := 65535

/-- The literal `"GET"`. -/
def getText : List UInt8 := ascii ['G', 'E', 'T']

/-- The literal `"Connection"`. -/
def connectionKey : List UInt8 := ascii ['C', 'o', 'n', 'n', 'e', 'c', 't', 'i', 'o', 'n']

/-- The literal `"close"`. -/
def closeText : List UInt8 := ascii ['c', 'l', 'o', 's', 'e']

/-- The literal `"Host"`. -/
def hostKey : List UInt8 := ascii ['H', 'o', 's', 't']

/-- `def_port`. -/
def defPort : List UInt8 := ascii ['8', '0']

/-- What `client_helper` decides about a request. -/
inductive Outcome where
  /-- Answered with a 501 message. -/
  | notImplemented
  /-- Answered with a 400 message. -/
  | badRequest
  /-- Passed on: the fields and live headers of the parsed request, and the bytes for the origin
  server. -/
  | forward (request : RequestLine) (headers : List (List UInt8 × List UInt8))
      (sent : List UInt8)
  deriving DecidableEq, Repr

/-- What becomes of the connection to the origin server. -/
inductive Origin where
  /-- `getaddrinfo` fails. -/
  | unresolved
  /-- No address accepts a connection, so the `send` fails. -/
  | unreachable
  /-- Connected; the server answers with these pieces. -/
  | connected (response : List (List UInt8))
  deriving DecidableEq, Repr

/-- The messages sent back to the client. -/
def Outcome.replies (origin : RequestLine → Origin) : Outcome → List (List UInt8)
  | .notImplemented => [ascii "HTTP/1.0 501 Server Error".toList ++ crlfcrlf]
  | .badRequest => [ascii "HTTP/1.0 400 Bad Request".toList ++ crlfcrlf]
  | .forward request _ _ =>
    match origin request with
    | .unresolved => []
    | .unreachable => [ascii "HTTP/1.0 500 server error".toList ++ crlfcrlf]
    | .connected response => response

namespace ClientHelper

/-- `buff[i] = '\0'`. -/
def setNul (buff : List UInt8) (i : Int) : Run (List UInt8) :=
  if 0 ≤ i ∧ i < buff.length then .ok (buff.set i.toNat 0) else .error .outOfBounds

/-- The receive loop. Each event is what one call of `recv` returns: bytes, at most as many as
there is room for and none at the end of the stream, or -1. Without a further event the call
does not return. -/
def recvLoop : List (Option (List UInt8)) → List UInt8 → Int → Int →
    Run (Option (List UInt8 × Int))
  | [], _, _, _ => .ok none
  | event :: events, buff, totalBytes, recd => do
    if totalBytes ≥ buffSize then
      return some (buff, recd)
    let recd : Int := match event with
      | none => -1
      | some chunk => chunk.length
    let buff ← memcpyAt buff totalBytes.toNat (event.getD [])
    let totalBytes := totalBytes + recd
    let buff ← setNul buff totalBytes
    match ← strstr buff 0 crlf with
    | some _ => return some (buff, recd)
    | none => recvLoop events buff totalBytes recd

/-- `strcat(buff, src)`. -/
def strcat (buff src : List UInt8) : Run (List UInt8) := do
  memcpyAt buff (← strlen buff 0) (src ++ [0])

/-- The request is rewritten in the header table and its port defaulted. -/
def rewrite (pr : ParsedRequest) : Run (Int × ParsedRequest) := do
  let (ret, t) ← ParsedHeader.set (fun _ => true) pr.toHeaderTable connectionKey closeText
  let pr := { pr with toHeaderTable := t }
  if ret ≠ 0 then
    return (ret, pr)
  let host ← pr.deref pr.host
  let (ret, t) ← ParsedHeader.set (fun _ => true) pr.toHeaderTable hostKey host
  let pr := { pr with toHeaderTable := t }
  if ret ≠ 0 then
    return (ret, pr)
  return (0, if pr.port = .null then { pr with port := .str defPort } else pr)

/-- `client_helper` from the result of the parser on. -/
def respond (buff : List UInt8) (recd : Int) (val : Int) (pr : ParsedRequest) : Run Outcome := do
  if val ≠ 0 then
    return .badRequest
  let (ret, pr) ← rewrite pr
  if ret ≠ 0 then
    return .badRequest
  return .forward (← pr.requestLine) pr.live (buff.take recd.toNat)

/-- `client_helper` behind its receive loop. -/
def handle (errnoEinval : Bool) (buff : List UInt8) (recd : Int) : Run Outcome := do
  let buff ← strcat buff crlf
  match ← strstr buff 0 getText with
  | none => return .notImplemented
  | some _ =>
    let (val, pr) ← ParsedRequest.parse (fun _ => true) errnoEinval ParsedRequest.create buff
      (recd + 2)
    respond buff recd val pr

end ClientHelper

/-- `client_helper` on what its calls of `recv` return; `none` while it still waits for the end
of a line. -/
def clientHelper (errnoEinval : Bool) (events : List (Option (List UInt8))) :
    Run (Option Outcome) := do
  match ← ClientHelper.recvLoop events (List.replicate buffSize 0) 0 0 with
  | none => return none
  | some (buff, recd) => some <$> ClientHelper.handle errnoEinval buff recd

namespace ClientHelper

/-- The array after these bytes have been received into it. -/
def fill (q : List UInt8) : List UInt8 := q ++ List.replicate (buffSize - q.length) 0

/-- The string at the start of the array: the bytes received up to the first NUL. -/
def text (q : List UInt8) : List UInt8 := q.takeWhile (· != 0)

/-- The text ends before the first NUL. -/
theorem zero_not_mem_text (q : List UInt8) : 0 ∉ text q := by
  intro h
  have hne := List.all_takeWhile (p := (· != (0 : UInt8))) (l := q)
  rw [List.all_eq_true] at hne
  simpa using hne 0 h

/-- Without a NUL all that was received is text. -/
theorem text_of_not_mem {q : List UInt8} (h : 0 ∉ q) : text q = q := by
  apply List.takeWhile_eq_self_iff.mpr
  intro c hc
  have hne : c ≠ 0 := fun he => h (he ▸ hc)
  simpa using hne

/-- A text without a NUL goes on in what follows. -/
theorem text_append {x y : List UInt8} (h : 0 ∉ x) : text (x ++ y) = x ++ text y := by
  rw [text, List.takeWhile_append_of_pos]
  · rfl
  · intro c hc
    have hne : c ≠ 0 := fun he => h (he ▸ hc)
    simpa using hne

theorem length_text_le (q : List UInt8) : (text q).length ≤ q.length :=
  (List.takeWhile_prefix _).length_le

theorem length_fill {q : List UInt8} (h : q.length ≤ buffSize) : (fill q).length = buffSize := by
  simp only [fill, List.length_append, List.length_replicate]
  omega

/-- Below its size the array has a NUL behind the bytes received. -/
theorem fill_eq {q : List UInt8} (h : q.length < buffSize) : ∃ post, fill q = q ++ 0 :: post := by
  obtain ⟨k, hk⟩ : ∃ k, buffSize - q.length = k + 1 := ⟨buffSize - q.length - 1, by omega⟩
  exact ⟨List.replicate k 0, by rw [fill, hk, List.replicate_succ]⟩

theorem cstrAt_fill {q : List UInt8} (h : q.length < buffSize) : CStrAt (fill q) 0 (text q) := by
  obtain ⟨post, hpost⟩ := fill_eq h
  exact cstrAt_takeWhile post hpost

/-- A chunk that fits goes behind what was received before. -/
theorem memcpyAt_fill {q chunk : List UInt8} (hfit : (q ++ chunk).length ≤ buffSize) :
    (memcpyAt (fill q) q.length chunk : Run _) = .ok (fill (q ++ chunk)) := by
  rw [List.length_append] at hfit
  rw [fill, memcpyAt_append q _ chunk (by rw [List.length_replicate]; omega),
    List.drop_replicate, fill, List.length_append, Nat.sub_sub]

/-- The byte behind what was received is a NUL already. -/
theorem setNul_fill {q : List UInt8} (h : q.length < buffSize) :
    setNul (fill q) q.length = .ok (fill q) := by
  obtain ⟨post, hpost⟩ := fill_eq h
  have hin : 0 ≤ (q.length : Int) ∧ (q.length : Int) < (fill q).length := by
    rw [length_fill (by omega)]
    omega
  rw [setNul, if_pos hin, Int.toNat_natCast, hpost]
  simp

/-- The search of the loop finds a line end in the text that has been received. -/
theorem strstr_crlf_fill {α : Type} {q : List UInt8} (h : q.length < buffSize)
    (found none : Run α) :
    (do match ← strstr (fill q) 0 crlf with
        | some _ => found
        | .none => none) = if crlf <:+: text q then found else none := by
  simp only [(cstrAt_fill h).strstr_eq, Exec.ok_bind]
  cases hi : findSub crlf (text q) with
  | none => rw [if_neg (findSub_eq_none hi)]; rfl
  | some i =>
    obtain ⟨line, rest, heq, -⟩ := findSub_crlf_eq_some hi
    have hinf : crlf <:+: text q := ⟨line, rest, by rw [heq, List.append_assoc]⟩
    rw [if_pos hinf]
    rfl

/-- One call of `recv`: the bytes are appended, and the loop ends when the text received so far
has a line end. -/
theorem recvLoop_cons (q chunk : List UInt8) (events : List (Option (List UInt8))) (recd : Int)
    (hfit : (q ++ chunk).length < buffSize) :
    recvLoop (some chunk :: events) (fill q) q.length recd =
      if crlf <:+: text (q ++ chunk) then .ok (some (fill (q ++ chunk), chunk.length))
      else recvLoop events (fill (q ++ chunk)) (q ++ chunk).length chunk.length := by
  have hroom : ¬ (q.length : Int) ≥ (buffSize : Int) := by
    rw [List.length_append] at hfit
    omega
  have htotal : (q.length : Int) + chunk.length = ((q ++ chunk).length : Nat) := by
    rw [List.length_append, Int.natCast_add]
  rw [recvLoop, if_neg hroom]
  simp only [Option.getD_some, Int.toNat_natCast, memcpyAt_fill (le_of_lt hfit), Exec.ok_bind,
    htotal, setNul_fill hfit]
  exact strstr_crlf_fill hfit _ _

/-- Behind a NUL nothing counts. -/
theorem text_append_of_mem {x : List UInt8} (h : 0 ∈ x) (y : List UInt8) :
    text (x ++ y) = text x := by
  rw [text, List.takeWhile_append, if_neg]
  · rfl
  · intro hlen
    have hall : text x = x := (List.takeWhile_prefix _).eq_of_length hlen
    rw [← hall] at h
    exact zero_not_mem_text x h

/-- Receiving more only extends the text. -/
theorem text_prefix_append (x y : List UInt8) : text x <+: text (x ++ y) := by
  by_cases h : 0 ∈ x
  · rw [text_append_of_mem h]
  · rw [text_append h, text_of_not_mem h]
    exact List.prefix_append _ _

theorem not_mem_crlf_of_mem_getText : ∀ c ∈ getText, c ∉ crlf := by
  simp [getText, ascii, crlf]

/-- The second line end goes where the text in the array ends. -/
theorem strcat_eq {q : List UInt8} (h : q.length < buffSize) :
    strcat (fill q) crlf = memcpyAt (fill q) (text q).length (crlf ++ [0]) := by
  rw [strcat, (cstrAt_fill h).strlen_eq, Exec.ok_bind]

/-- The text handed to the parser and searched for `"GET"`. -/
theorem strcat_text {q : List UInt8} (hq : q.length < buffSize)
    (h : (text q).length + 3 ≤ buffSize) :
    ∃ buff, strcat (fill q) crlf = .ok buff ∧ CStrAt buff 0 (text q ++ crlf) ∧
      buff.length = buffSize ∧ (text q ++ crlf).length ≤ buffSize := by
  have hat := cstrAt_fill hq
  have hlen := length_fill (q := q) (by omega)
  have hcrlf : (crlf ++ [0]).length = 3 := rfl
  have hpre : text q <+: fill q := by
    obtain ⟨post, hp⟩ := hat.eq_append
    rw [List.drop_zero] at hp
    exact ⟨_, hp.symm⟩
  obtain ⟨rest, hrest⟩ := hpre
  have hrlen : (crlf ++ [0]).length ≤ rest.length := by
    have hsum := congrArg List.length hrest
    rw [List.length_append, hlen] at hsum
    omega
  have hcopy : (memcpyAt (fill q) (text q).length (crlf ++ [0]) : Run _) =
      .ok (text q ++ (crlf ++ [0]) ++ rest.drop (crlf ++ [0]).length) := by
    rw [← hrest]
    exact memcpyAt_append _ _ _ hrlen
  refine ⟨_, (strcat_eq hq).trans hcopy, ?_, ?_, ?_⟩
  · apply cstrAt_of_drop (rest.drop (crlf ++ [0]).length)
    · rw [List.mem_append, not_or]
      exact ⟨zero_not_mem_text q, by decide⟩
    · simp
  · rw [← hlen, memcpyAt_length hcopy]
  · simp only [crlf, List.length_append, List.length_cons, List.length_nil]
    omega

/-- There has to be room for the line end and a NUL behind the text. -/
theorem length_text_of_strcat {q buff : List UInt8} (hq : q.length < buffSize)
    (h : strcat (fill q) crlf = .ok buff) : (text q).length + 3 ≤ buffSize := by
  have hcrlf : (crlf ++ [0]).length = 3 := rfl
  rw [strcat_eq hq, memcpyAt, length_fill (le_of_lt hq), hcrlf] at h
  by_contra hno
  rw [if_neg hno] at h
  cases h

/-- The two header writes succeed on every accepted request, and change nothing else but the
missing port. -/
theorem rewrite_ok {pr : ParsedRequest} {r : RequestLine} (hwf : pr.toHeaderTable.WellFormed)
    (hr : pr.requestLine = .ok r) :
    ∃ pr', rewrite pr = .ok (0, pr') ∧
      pr'.requestLine = .ok { r with port := some (r.port.getD defPort) } ∧
      pr'.live = write (write pr.live (connectionKey, closeText)) (hostKey, r.host) := by
  obtain ⟨t₁, hset₁, hwf₁, hlive₁⟩ := ParsedHeader.set_spec hwf connectionKey closeText
  obtain ⟨t₂, hset₂, -, hlive₂⟩ := ParsedHeader.set_spec hwf₁ hostKey r.host
  obtain ⟨hm, hp, hh, hport, hpath, hv⟩ := ParsedRequest.requestLine_inv hr
  have hderef (t : HeaderTable) (port ptr : CharPtr) :
      ({ pr with toHeaderTable := t, port := port } : ParsedRequest).deref ptr = pr.deref ptr := by
    cases ptr <;> rfl
  have hhost : ({ pr with toHeaderTable := t₁ } : ParsedRequest).deref pr.host = .ok r.host :=
    (hderef t₁ pr.port pr.host).trans hh
  refine ⟨if pr.port = .null then { pr with toHeaderTable := t₂, port := .str defPort }
    else { pr with toHeaderTable := t₂ }, ?_, ?_, ?_⟩
  · simp only [rewrite, hset₁, Exec.ok_bind, ne_eq, not_true_eq_false, if_false, hhost, hset₂,
      Exec.pure_eq_ok]
  · by_cases hnull : pr.port = .null
    · have hnone : r.port = none := by
        rw [ParsedRequest.deref?, if_pos hnull] at hport
        exact (Except.ok.inj hport).symm
      simp only [hnull, if_true, ParsedRequest.requestLine, ParsedRequest.deref?, hderef, hm, hp,
        hh, hpath, hv, hnone, Exec.ok_bind]
      rfl
    · obtain ⟨port, hsome⟩ : ∃ port, r.port = some port := by
        rw [ParsedRequest.deref?, if_neg hnull] at hport
        obtain ⟨port, -, hport⟩ := Exec.bind_eq_ok.mp hport
        exact ⟨port, (Except.ok.inj hport).symm⟩
      rw [ParsedRequest.deref?, if_neg hnull] at hport
      simp only [hnull, if_false, ParsedRequest.requestLine, ParsedRequest.deref?, hderef, hm, hp,
        hh, hpath, hv, hport, Exec.ok_bind, hsome, Option.getD_some]
      rfl
  · split
    · rw [← hlive₁]
      exact hlive₂
    · rw [← hlive₁]
      exact hlive₂

/-- A request that was parsed is not answered with 501. -/
theorem respond_ne_notImplemented {buff : List UInt8} {recd val : Int} {pr : ParsedRequest} :
    respond buff recd val pr ≠ .ok .notImplemented := by
  intro h
  unfold respond at h
  split at h
  · cases h
  · obtain ⟨⟨ret, pr'⟩, -, h⟩ := Exec.bind_eq_ok.mp h
    simp only at h
    split at h
    · cases h
    · obtain ⟨r, -, h⟩ := Exec.bind_eq_ok.mp h
      cases h

/-- A request that the parser refused is answered with 400. -/
theorem respond_refused {val : Int} (hval : val ≠ 0) (buff : List UInt8) (recd : Int)
    (pr : ParsedRequest) : respond buff recd val pr = .ok .badRequest := by
  rw [respond, if_pos hval]
  rfl

/-- An accepted request is passed on with the bytes as they were received. -/
theorem respond_accepted {errnoEinval : Bool} {buff : List UInt8} {n : Int} (recd : Int)
    {pr : ParsedRequest} (hparse : ParsedRequest.parse (fun _ => true) errnoEinval
      ParsedRequest.create buff n = .ok (0, pr)) :
    ∃ r, pr.requestLine = .ok r ∧ respond buff recd 0 pr =
      .ok (.forward { r with port := some (r.port.getD defPort) }
        (write (write pr.live (connectionKey, closeText)) (hostKey, r.host))
        (buff.take recd.toNat)) := by
  obtain ⟨-, -, -, -, -, -, r, -, -, hr, -, hwf, -⟩ := ParsedRequest.parse_inv hparse
  obtain ⟨pr', hrw, hr', hlive⟩ := rewrite_ok hwf hr
  refine ⟨r, hr, ?_⟩
  simp only [respond, ne_eq, not_true_eq_false, if_false, hrw, Exec.ok_bind, hr', hlive,
    Exec.pure_eq_ok]

/-- A request without `"GET"` in its text is answered with 501. -/
theorem handle_noGet {q : List UInt8} (errnoEinval : Bool) (recd : Int) (hq : q.length < buffSize)
    (h : (text q).length + 3 ≤ buffSize) (hget : ¬ getText <:+: text q) :
    handle errnoEinval (fill q) recd = .ok .notImplemented := by
  obtain ⟨buff, hcat, hat, -⟩ := strcat_text hq h
  have hno : ¬ getText <:+: text q ++ crlf :=
    fun hin => hget ((infix_append_iff (by decide) not_mem_crlf_of_mem_getText).mp hin)
  simp only [handle, hcat, Exec.ok_bind, hat.strstr_eq, findSub_none hno,
    Option.map_none, Exec.pure_eq_ok]

/-- Without a `GET` the answer is 501. -/
theorem handle_notImplemented {q : List UInt8} (errnoEinval : Bool) (recd : Int)
    (h : q.length + 3 ≤ buffSize) (hget : ¬ getText <:+: text q) :
    handle errnoEinval (fill q) recd = .ok .notImplemented := by
  have hle := length_text_le q
  exact handle_noGet errnoEinval recd (by omega) (by omega) hget

/-- With `"GET"` in its text a request is refused or passed on as the parser says. -/
theorem handle_hasGet {q : List UInt8} (errnoEinval : Bool) (recd : Int) (hq : q.length < buffSize)
    (h : (text q).length + 3 ≤ buffSize) (hget : getText <:+: text q) :
    ∃ buff, strcat (fill q) crlf = .ok buff ∧ CStrAt buff 0 (text q ++ crlf) ∧
      buff.length = buffSize ∧ handle errnoEinval (fill q) recd = (do
        let (val, pr) ← ParsedRequest.parse (fun _ => true) errnoEinval ParsedRequest.create buff
          (recd + 2)
        respond buff recd val pr) := by
  obtain ⟨buff, hcat, hat, hlen, -⟩ := strcat_text hq h
  obtain ⟨i, hi⟩ := findSub_isSome (hget.trans (List.prefix_append _ crlf).isInfix)
  refine ⟨buff, hcat, hat, hlen, ?_⟩
  simp only [handle, hcat, Exec.ok_bind, hat.strstr_eq, hi, Option.map_some]

/-- With a `GET` the parser decides, on the text with a second line end. -/
theorem handle_get {q : List UInt8} (errnoEinval : Bool) (recd : Int)
    (h : q.length + 3 ≤ buffSize) (hget : getText <:+: text q) :
    ∃ buff, CStrAt buff 0 (text q ++ crlf) ∧ buff.length = buffSize ∧
      handle errnoEinval (fill q) recd = (do
        let (val, pr) ← ParsedRequest.parse (fun _ => true) errnoEinval ParsedRequest.create buff
          (recd + 2)
        respond buff recd val pr) := by
  have hle := length_text_le q
  obtain ⟨buff, -, hbuff⟩ := handle_hasGet errnoEinval recd (by omega) (by omega) hget
  exact ⟨buff, hbuff⟩

/-- A first piece with a line end in its text is all that is looked at. -/
theorem clientHelper_cons {q : List UInt8} (errnoEinval : Bool)
    (events : List (Option (List UInt8))) (hfit : q.length < buffSize) (hq : crlf <:+: text q) :
    clientHelper errnoEinval (some q :: events) =
      some <$> handle errnoEinval (fill q) q.length := by
  have hrun : recvLoop (some q :: events) (List.replicate buffSize 0) 0 0 =
      .ok (some (fill q, q.length)) := by
    have hstep := recvLoop_cons [] q events 0 hfit
    rw [List.nil_append, if_pos hq] at hstep
    exact hstep
  simp only [clientHelper, hrun, Exec.ok_bind]

/-- A valid request without headers that arrives in one piece is passed on as it came. -/
theorem clientHelper_plain {r : RequestLine} (hr : r.Valid) (hget : getText <:+: r.render)
    (hfit : (r.render ++ crlfcrlf).length + 3 ≤ buffSize) :
    clientHelper false [some (r.render ++ crlfcrlf)] =
      .ok (some (.forward { r with port := some (r.port.getD defPort) }
        [(connectionKey, closeText), (hostKey, r.host)] (r.render ++ crlfcrlf))) := by
  have hclean := hr.clean_render
  have htext : text (r.render ++ crlfcrlf) = r.render ++ crlfcrlf := by
    rw [text_append hclean.1]
    rfl
  have hinf : crlf <:+: text (r.render ++ crlfcrlf) := by
    rw [htext]
    exact ⟨r.render, crlf, by simp [crlfcrlf]⟩
  obtain ⟨buff, hat, hsize, hhandle⟩ := handle_get false (r.render ++ crlfcrlf).length hfit
    (by rw [htext]; exact hget.trans (List.prefix_append _ _).isInfix)
  rw [htext] at hat
  have hcast : ((r.render ++ crlfcrlf).length : Int) + 2 =
      (((r.render ++ crlfcrlf).length + 2 : Nat) : Int) := by omega
  have htake : CStrAt (buff.take ((r.render ++ crlfcrlf).length + 2) ++ [0]) 0
      (r.render ++ (crlf ++ (crlf ++ crlf))) := by
    have hcut := hat.take (r.render ++ crlfcrlf ++ crlf).length
    rw [List.take_length] at hcut
    have hlen : (r.render ++ crlfcrlf ++ crlf).length = (r.render ++ crlfcrlf).length + 2 :=
      List.length_append
    rwa [hlen, List.append_assoc, crlfcrlf, List.append_assoc] at hcut
  have hbound : buffSize = 65535 := rfl
  have hmin : 4 ≤ (r.render ++ crlfcrlf).length := (List.suffix_append _ crlfcrlf).length_le
  have hparse : ParsedRequest.parse (fun _ => true) false ParsedRequest.create buff
      (((r.render ++ crlfcrlf).length + 2 : Nat) : Int) = _ :=
    ParsedRequest.parse_emptySection false (by omega) (by omega) (by omega)
      htake hclean.2
  obtain ⟨pr, hline, hfields, htable, -⟩ := ParsedRequest.parseRequestLine_render hr
    { ParsedRequest.create with buf := some (r.render ++ [0]), buflen := r.render.length + 1 }
  rw [hline] at hparse
  obtain ⟨r', hr', hacc⟩ := respond_accepted (r.render ++ crlfcrlf).length hparse
  rw [hfields] at hr'
  cases hr'
  have hlive : pr.live = [] := by rw [htable]; rfl
  have hsent : buff.take (r.render ++ crlfcrlf).length = r.render ++ crlfcrlf := by
    have hstart := hat.take_drop
    rwa [List.drop_zero] at hstart
  rw [clientHelper_cons false [] (by omega) hinf, hhandle, hcast, hparse]
  simp only [Exec.ok_bind, hacc, hlive, Int.toNat_natCast, hsent]
  rfl

end ClientHelper

end ComputerNetworks.Proxy
