import ComputerNetworks.Proxy.AcceptedLine
import ComputerNetworks.Proxy.Grammar
import ComputerNetworks.Proxy.HeaderText
import ComputerNetworks.Proxy.LineEffect

/-!
# The whole parse

The request line and the header loop are put together. A rendered request is
parsed back into what it was rendered from, and every accepted buffer, well
formed or not, is described by the text it starts with.
-/

namespace ComputerNetworks.Proxy

open LastWrite

/-- The request a request line and a list of headers are written as. -/
def renderRequest (r : RequestLine) (hs : List (List UInt8 × List UInt8)) : List UInt8 :=
  r.render ++ (crlf ++ (renderHeaders hs ++ crlf))

/-- There is no NUL among printed headers. -/
theorem zero_not_mem_renderHeaders {hs : List (List UInt8 × List UInt8)}
    (hhs : ∀ kv ∈ hs, ReadableHeader kv) : 0 ∉ renderHeaders hs := by
  rw [renderHeaders, List.mem_flatMap]
  rintro ⟨kv, hmem, h0⟩
  have hk := (hhs kv hmem).key_nul
  have hv := (hhs kv hmem).value_nul
  simp only [renderHeader, crlf, List.mem_append, List.mem_cons] at h0
  simp [hk, hv] at h0

/-- A rendered request contains the end of a header section. -/
theorem crlfcrlf_infix_renderRequest (r : RequestLine) (hs : List (List UInt8 × List UInt8)) :
    crlfcrlf <:+: renderRequest r hs := by
  have hline : ∀ kv, crlf <:+ renderHeader kv := fun kv =>
    ⟨kv.1 ++ 58 :: 32 :: kv.2, by simp [renderHeader]⟩
  obtain ⟨pre, hpre⟩ := crlf_suffix_flatMap hline hs
  refine ⟨r.render ++ pre, [], ?_⟩
  rw [List.append_nil, renderRequest, renderHeaders, ← List.append_assoc crlf, ← hpre, crlfcrlf]
  simp only [List.append_assoc]

/-- The end of the header section comes behind the end of the first line. -/
theorem length_le_of_crlfcrlf {u line rest : List UInt8} (hline : NoCrlf line)
    (hu : u <+: line ++ (crlf ++ rest)) (hend : crlfcrlf <:+: u) :
    line.length + 4 ≤ u.length := by
  obtain ⟨x, y, hxy⟩ := hend
  have hpre : x ++ crlf <+: line ++ (crlf ++ rest) := by
    refine List.IsPrefix.trans ⟨crlf ++ y, ?_⟩ hu
    rw [← hxy, crlfcrlf]
    simp
  by_contra hshort
  refine noCrlf_of_short hline hpre ?_ (List.suffix_append _ _).isInfix
  have hsum := congrArg List.length hxy
  simp only [crlfcrlf, crlf, List.length_append, List.length_cons, List.length_nil] at hsum ⊢
  omega

namespace ParsedRequest

/-- A text without the end of a header section is refused. -/
theorem parse_noEnd {b text : List UInt8} {pr : ParsedRequest} {n : Nat} (errnoEinval : Bool)
    (hn : n ≤ b.length) (hat : CStrAt (b.take n ++ [0]) 0 text) (hend : ¬ crlfcrlf <:+: text) :
    parse (fun _ => true) errnoEinval pr b n = .ok (-1, pr) := by
  have hshort : ¬ b.length < (n : Int).toNat := by
    rw [Int.toNat_natCast]
    omega
  by_cases hbuf : pr.buf ≠ none
  · rw [parse, if_pos hbuf]
    rfl
  by_cases hlen : (n : Int) < minReqLen ∨ (n : Int) > maxReqLen
  · rw [parse, if_neg hbuf, if_pos hlen]
    rfl
  rw [parse, if_neg hbuf, if_neg hlen, if_neg hshort]
  simp only [Exec.pure_eq_ok, Exec.ok_bind, Int.toNat_natCast, hat.strstr_eq,
    findSub_none hend, Option.map_none]

/-- The parse of a text with a complete header section: the request line is parsed in a copy
of its own, then the headers behind it. -/
theorem parse_text {b line s : List UInt8} {pr : ParsedRequest} {n : Nat} (errnoEinval : Bool)
    (hpr : pr.buf = none) (hmin : 4 ≤ n) (hmax : n ≤ 65535) (hn : n ≤ b.length)
    (hat : CStrAt (b.take n ++ [0]) 0 (line ++ (crlf ++ s))) (hline : NoCrlf line)
    (hend : crlfcrlf <:+: line ++ (crlf ++ s)) :
    parse (fun _ => true) errnoEinval pr b n = (do
      let (ret, pr) ← parseRequestLine errnoEinval
        { pr with buf := some (line ++ [0]), buflen := line.length + 1 } (line ++ [0])
      if ret ≠ 0 then
        return (ret, pr)
      parseHeaders (fun _ => true) pr (b.take n ++ [0])) := by
  have hlen : ¬ ((n : Int) < minReqLen ∨ (n : Int) > maxReqLen) := by
    simp only [minReqLen, maxReqLen]
    omega
  have hshort : ¬ b.length < (n : Int).toNat := by
    rw [Int.toNat_natCast]
    omega
  have hbuf : ¬ pr.buf ≠ none := by simp [hpr]
  have hcopy : (b.take n ++ [0]).take line.length = line := by
    have htake := hat.take_drop
    rwa [List.drop_zero] at htake
  obtain ⟨i, hi⟩ := findSub_isSome hend
  rw [parse, if_neg hbuf, if_neg hlen, if_neg hshort]
  simp only [Exec.pure_eq_ok, Exec.ok_bind, Int.toNat_natCast, hat.strstr_eq, hi, Option.map_some,
    findSub_crlf hline, Nat.zero_add, hcopy]

/-- The header section of a text is read by the loop from behind the request line on. -/
theorem parseHeaders_eq {b line s : List UInt8} (pr : ParsedRequest)
    (hat : CStrAt b 0 (line ++ (crlf ++ s))) (hline : NoCrlf line) :
    parseHeaders (fun _ => true) pr b = (do
      let (ret, t) ← ParsedHeader.parseLoop (fun _ => true) b b.length (line.length + 2)
        pr.toHeaderTable
      return (ret, { pr with toHeaderTable := t })) := by
  have hfirst : (strstr b 0 crlf : Run _) = .ok (some line.length) := by
    rw [hat.strstr_eq, findSub_crlf hline, Option.map_some, Nat.zero_add]
  simp only [parseHeaders, hfirst, Exec.ok_bind]

/-- With an empty header section the answer is the one on the request line. -/
theorem parse_emptySection {b line rest : List UInt8} {n : Nat} (errnoEinval : Bool)
    (hmin : 4 ≤ n) (hmax : n ≤ 65535) (hn : n ≤ b.length)
    (hat : CStrAt (b.take n ++ [0]) 0 (line ++ (crlf ++ (crlf ++ rest)))) (hline : NoCrlf line) :
    parse (fun _ => true) errnoEinval create b n =
      parseRequestLine errnoEinval
        { create with buf := some (line ++ [0]), buflen := line.length + 1 } (line ++ [0]) := by
  have hend : crlfcrlf <:+: line ++ (crlf ++ (crlf ++ rest)) := ⟨line, rest, by simp [crlfcrlf]⟩
  rw [parse_text errnoEinval rfl hmin hmax hn hat hline hend]
  cases hrun : parseRequestLine errnoEinval { create with
      buf := some (line ++ [0]), buflen := line.length + 1 } (line ++ [0]) with
  | error e => rfl
  | ok out =>
    obtain ⟨ret, pr⟩ := out
    by_cases hret : ret ≠ 0
    · simp only [Exec.ok_bind, if_pos hret, Exec.pure_eq_ok]
    · obtain rfl : ret = 0 := not_not.mp hret
      have hsec := ParsedHeader.cstrAt_nextLine hat
      rw [Nat.zero_add] at hsec
      have hfuel : (b.take n ++ [0]).length = (b.take n).length + 1 := List.length_append
      simp only [Exec.ok_bind, if_neg hret, parseHeaders_eq pr hat hline, hfuel,
        ParsedHeader.parseLoop, ParsedHeader.atHeader_eq hsec, isHeader_crlf]
      rfl

/-- A rendered request is accepted, and read as what was rendered. -/
theorem parse_renderRequest {r : RequestLine} {hs : List (List UInt8 × List UInt8)}
    (hr : r.Valid) (hhs : ∀ kv ∈ hs, ReadableHeader kv)
    (hmax : (renderRequest r hs).length ≤ 65535) :
    ∃ pr, parse (fun _ => true) false create (renderRequest r hs) (renderRequest r hs).length =
        .ok (0, pr) ∧ pr.requestLine = .ok r ∧ pr.live = keepLast (rereads hs) := by
  have hclean := hr.clean_render
  have hend := crlfcrlf_infix_renderRequest r hs
  have h0 : 0 ∉ renderRequest r hs := by
    simp only [renderRequest, List.mem_append, not_or]
    exact ⟨hclean.1, by decide, zero_not_mem_renderHeaders hhs, by decide⟩
  have hblock : (renderRequest r hs).take (renderRequest r hs).length ++ [0] =
      renderRequest r hs ++ [0] := by rw [List.take_length]
  have hat : CStrAt (renderRequest r hs ++ [0]) 0
      (r.render ++ (crlf ++ (renderHeaders hs ++ crlf))) := cstrAt_append [] _ [] h0
  have hmin : 4 ≤ (renderRequest r hs).length := hend.length_le
  obtain ⟨pr₁, hline, hfields, htable, -⟩ := parseRequestLine_render hr
    { create with buf := some (r.render ++ [0]), buflen := r.render.length + 1 }
  simp only at hline htable
  have hheads : CStrAt (renderRequest r hs ++ [0]) (r.render.length + 2)
      (renderHeaders hs ++ (crlf ++ [])) := by
    have hnext := ParsedHeader.cstrAt_nextLine hat
    rwa [Nat.zero_add, ← List.append_nil crlf] at hnext
  have hread := headersAt_render [] hhs hheads
  have hwf : pr₁.toHeaderTable.WellFormed := htable ▸ ParsedHeader.create_wellFormed
  have hfuel : (renderHeaders hs ++ (crlf ++ [])).length <
      (renderRequest r hs ++ [0]).length := by
    simp only [renderRequest, List.length_append, List.length_nil, List.length_singleton]
    omega
  obtain ⟨t, hloop, -, hlive⟩ := ParsedHeader.parseLoop_ok hheads hfuel hwf hread
  refine ⟨{ pr₁ with toHeaderTable := t }, ?_, hfields, ?_⟩
  · rw [parse_text false rfl hmin hmax le_rfl (by rw [hblock]; exact hat) hclean.2 hend, hblock,
      hline]
    simp only [Exec.ok_bind, parseHeaders_eq pr₁ hat hclean.2, hloop]
    rfl
  · have hnone : pr₁.toHeaderTable.live = [] := by rw [htable]; rfl
    rw [hlive, hnone, foldl_write]

/-- What an accepted buffer holds: `b` is its terminated copy, `line` the text up to the first
line end and `s` the text behind it. -/
structure Accepted (b line s : List UInt8) (r : RequestLine)
    (kvs : List (List UInt8 × List UInt8)) : Prop where
  text_at : CStrAt b 0 (line ++ (crlf ++ s))
  line_crlf : NoCrlf line
  /-- The header section is complete. -/
  section_end : crlfcrlf <:+: line ++ (crlf ++ s)
  /-- The tokens of the line are the fields of `r`. -/
  splits : ∃ afterMethod addr afterProtocol hostTok text port,
    Splits line r afterMethod addr afterProtocol hostTok text port
  /-- The headers that were stored, one at each line visited. -/
  headers_at : ParsedHeader.HeadersAt b (line ++ (crlf ++ s)).length (headerStarts s) kvs

/-- A set `errno` only ever makes the parser refuse more. -/
def Refines (x y : Run (Int × ParsedRequest)) : Prop := x = y ∨ ∃ pr, x = .ok (-1, pr)

/-- Where a stale `errno` makes a difference, the line is refused. -/
theorem parseRequestLine_errno (errnoEinval : Bool) (pr : ParsedRequest) (b : List UInt8) :
    Refines (parseRequestLine errnoEinval pr b) (parseRequestLine false pr b) := by
  cases parseRequestLine_effect b with
  | fault fault h => exact .inl ((h errnoEinval pr).trans (h false pr).symm)
  | refused h _ => exact .inl ((h errnoEinval pr).trans (h false pr).symm)
  | stored h _ => exact .inl ((h errnoEinval pr).trans (h false pr).symm)
  | judged h _ _ =>
    cases errnoEinval with
    | false => exact .inl rfl
    | true => exact .inr ⟨_, h true pr⟩

/-- Every accepted buffer is of this form, and its fields and headers are what was stored. -/
theorem parse_inv {errnoEinval : Bool} {buf : List UInt8} {buflen : Int} {pr : ParsedRequest}
    (hok : parse (fun _ => true) errnoEinval create buf buflen = .ok (0, pr)) :
    ∃ n : Nat, buflen = n ∧ n ≤ 65535 ∧ n ≤ buf.length ∧
      ∃ line s r kvs, Accepted (buf.take n ++ [0]) line s r kvs ∧ pr.requestLine = .ok r ∧
        pr.buf ≠ none ∧ pr.toHeaderTable.WellFormed ∧ pr.live = keepLast kvs := by
  have hall := hok
  have hlen : ¬ (buflen < minReqLen ∨ buflen > maxReqLen) := by
    intro hlen
    rw [parse, if_neg (by simp [create]), if_pos hlen] at hok
    cases hok
  rw [parse, if_neg (by simp [create]), if_neg hlen] at hok
  simp only [minReqLen, maxReqLen, not_or, Int.not_lt] at hlen
  obtain ⟨n, rfl⟩ := Int.eq_ofNat_of_zero_le (show 0 ≤ buflen by omega)
  have hshort : ¬ buf.length < (n : Int).toNat := by
    intro hshort
    rw [if_pos hshort] at hok
    cases hok
  rw [Int.toNat_natCast] at hshort
  refine ⟨n, rfl, by omega, by omega, ?_⟩
  -- the copy has a NUL, so there is a text at its start
  obtain ⟨text, htext⟩ : ∃ text, CStrAt (buf.take n ++ [0]) 0 text := ⟨_, cstrAt_terminated _⟩
  have hend : crlfcrlf <:+: text := by
    by_contra hend
    rw [parse_noEnd errnoEinval (by omega) htext hend] at hall
    cases hall
  obtain ⟨i, hi⟩ := findSub_isSome ((List.infix_append [] crlf crlf).trans hend)
  obtain ⟨line, s, rfl, -, hline⟩ := findSub_crlf_eq_some hi
  rw [parse_text errnoEinval rfl (by omega) (by omega) (by omega) htext hline hend] at hall
  obtain ⟨⟨ret, pr₁⟩, hparse, hall⟩ := Exec.bind_eq_ok.mp hall
  simp only at hall
  have hret : ret = 0 := by
    by_contra hne
    rw [if_pos hne] at hall
    cases hall
    exact hne rfl
  subst hret
  rw [if_neg (by simp), parseHeaders_eq pr₁ htext hline] at hall
  have h0 : 0 ∉ line := fun h => htext.1 (List.mem_append_left _ h)
  have hparse' : parseRequestLine false { create with
      buf := some (line ++ [0]), buflen := line.length + 1 } (line ++ [0]) = .ok (0, pr₁) := by
    rcases parseRequestLine_errno errnoEinval _ (line ++ [0]) with heq | ⟨pr', hbad⟩
    · exact heq.symm.trans hparse
    · exact absurd (hbad.symm.trans hparse) (by simp)
  obtain ⟨r, afterMethod, addr, afterProtocol, hostTok, path, port, hsplits, hfields, htable,
    hbuf⟩ := parseRequestLine_inv h0 hparse'
  obtain ⟨⟨ret, t⟩, hloop, hall⟩ := Exec.bind_eq_ok.mp hall
  cases hall
  have hheads : CStrAt (buf.take n ++ [0]) (line.length + 2) s := by
    have hnext := ParsedHeader.cstrAt_nextLine htext
    rwa [Nat.zero_add] at hnext
  have hwf : pr₁.toHeaderTable.WellFormed := htable ▸ ParsedHeader.create_wellFormed
  obtain ⟨kvs, hread, hwf', hlive⟩ := ParsedHeader.parseLoop_inv hheads hwf hloop
  have hstop : line.length + 2 + s.length = (line ++ (crlf ++ s)).length := by
    simp only [crlf, List.length_append, List.length_cons, List.length_nil]
    omega
  rw [hstop] at hread
  have hnone : pr₁.toHeaderTable.live = [] := by rw [htable]; rfl
  rw [hnone, foldl_write] at hlive
  exact ⟨line, s, r, kvs, ⟨htext, hline, hend, ⟨_, _, _, _, _, _, hsplits⟩, hread⟩, hfields, hbuf,
    hwf', hlive⟩

end ParsedRequest

/-- The components of a request line as they are meant to be. -/
structure RequestLine.WellFormed (r : RequestLine) : Prop where
  method_ok : r.method ≠ [] ∧ 32 ∉ r.method
  protocol_ok : r.protocol ≠ [] ∧ ∀ c ∈ r.protocol, c ≠ 32 ∧ c ≠ 58 ∧ c ≠ 47
  host_ok : r.host ≠ [] ∧ ∀ c ∈ r.host, c ≠ 32 ∧ c ≠ 58 ∧ c ≠ 47
  /-- A port is a decimal number. -/
  port_ok : ∀ p ∈ r.port, p ≠ [] ∧ ∀ c ∈ p, isdigit c = true
  /-- The path is a slash and a text that starts with no other. -/
  path_ok : ∃ text, r.path = 47 :: text ∧ 32 ∉ text ∧ text.head? ≠ some 47
  version_ok : httpSlash <+: r.version
  clean : Clean r.method ∧ Clean r.protocol ∧ Clean r.host ∧ Clean r.path ∧ Clean r.version

/-- A header as it is meant to be. -/
structure WellFormedHeader (kv : List UInt8 × List UInt8) : Prop where
  key_colon : 58 ∉ kv.1
  key_clean : Clean kv.1
  value_clean : Clean kv.2

/-- What is no digit is not in a number. -/
theorem not_mem_of_digits {p : List UInt8} {c : UInt8} (h : ∀ d ∈ p, isdigit d = true)
    (hc : isdigit c = false) : c ∉ p := by
  intro hmem
  rw [h c hmem] at hc
  cases hc

theorem clean_of_digits {p : List UInt8} (h : ∀ c ∈ p, isdigit c = true) : Clean p := by
  refine ⟨not_mem_of_digits h (by decide), fun hin => ?_⟩
  exact not_mem_of_digits h (c := 13) (by decide) (hin.subset (by simp [crlf]))

/-- A well-formed line is valid. -/
theorem RequestLine.WellFormed.valid {r : RequestLine} (h : r.WellFormed) : r.Valid := by
  obtain ⟨hm, hp, hh, hpath, hv⟩ := h.clean
  refine ⟨h.method_ok.1, h.method_ok.2, h.protocol_ok.1, h.protocol_ok.2, h.host_ok.1,
    h.host_ok.2, ?_, h.path_ok, h.version_ok, hm, hp, hh, ?_, hpath, hv⟩
  · intro p hmem
    obtain ⟨hne, hdigits⟩ := h.port_ok p hmem
    exact ⟨hne, not_mem_of_digits hdigits (by decide), not_mem_of_digits hdigits (by decide)⟩
  · exact fun p hmem => clean_of_digits (h.port_ok p hmem).2

/-- A well-formed header is readable. -/
theorem WellFormedHeader.readable {kv : List UInt8 × List UInt8} (h : WellFormedHeader kv) :
    ReadableHeader kv :=
  ⟨h.key_colon, fun hpre => h.key_clean.2 hpre.isInfix, h.value_clean.2, h.key_clean.1,
    h.value_clean.1⟩

/-- Keys on one line are read once. -/
theorem rereads_of_noCrlf {hs : List (List UInt8 × List UInt8)} (h : ∀ kv ∈ hs, NoCrlf kv.1) :
    rereads hs = hs := by
  induction hs with
  | nil => rfl
  | cons kv hs ih =>
    have htails := lineTails_of_noCrlf (h kv (by simp))
    have hrest := ih fun x hx => h x (List.mem_cons_of_mem kv hx)
    simp [rereads, entryReads, keyStops, keyTails, htails, hrest]

/-- Parsing undoes rendering: the fields come back exactly, and of the headers the last one of
each key, listed by the time of that last occurrence. -/
theorem parse_wellFormed_request {r : RequestLine} {hs : List (List UInt8 × List UInt8)}
    (hr : r.WellFormed) (hhs : ∀ kv ∈ hs, WellFormedHeader kv)
    (hmax : (renderRequest r hs).length ≤ 65535) :
    ∃ pr, ParsedRequest.parse (fun _ => true) false ParsedRequest.create (renderRequest r hs)
        (renderRequest r hs).length = .ok (0, pr) ∧
      pr.requestLine = .ok r ∧ pr.live = keepLast hs := by
  obtain ⟨pr, hparse, hfields, hlive⟩ := ParsedRequest.parse_renderRequest hr.valid
    (fun kv hmem => (hhs kv hmem).readable) hmax
  refine ⟨pr, hparse, hfields, ?_⟩
  rw [hlive, rereads_of_noCrlf fun kv hmem => (hhs kv hmem).key_clean.2]

/-- `GET http://a:80/b HTTP/1.0`. -/
def sampleLine : RequestLine :=
  ⟨ascii ['G', 'E', 'T'], ascii ['h', 't', 't', 'p'], ascii ['a'], some (ascii ['8', '0']),
    ascii ['/', 'b'], ascii ['H', 'T', 'T', 'P', '/', '1', '.', '0']⟩

/-- A header set twice with another one between. -/
def sampleHeaders : List (List UInt8 × List UInt8) :=
  [(ascii ['K'], ascii ['1']), (ascii ['L'], []), (ascii ['K'], ascii ['2'])]

theorem sampleLine_wellFormed : sampleLine.WellFormed :=
  ⟨by decide, by simp [sampleLine, ascii], by simp [sampleLine, ascii],
    by simp [sampleLine, ascii, isdigit], ⟨ascii ['b'], by decide⟩, by decide, by decide⟩

theorem sampleHeaders_wellFormed : ∀ kv ∈ sampleHeaders, WellFormedHeader kv := by
  simp only [sampleHeaders, List.forall_mem_cons]
  exact ⟨⟨by decide, by decide, by decide⟩, ⟨by decide, by decide, by decide⟩,
    ⟨by decide, by decide, by decide⟩, by simp⟩

theorem parse_sample_request :
    ∃ pr, ParsedRequest.parse (fun _ => true) false ParsedRequest.create
        (renderRequest sampleLine sampleHeaders) (renderRequest sampleLine sampleHeaders).length =
          .ok (0, pr) ∧
      pr.requestLine = .ok sampleLine ∧
      pr.live = [(ascii ['L'], []), (ascii ['K'], ascii ['2'])] :=
  parse_wellFormed_request sampleLine_wellFormed sampleHeaders_wellFormed (by decide)

end ComputerNetworks.Proxy
