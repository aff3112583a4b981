import ComputerNetworks.Proxy.ClientHelper

/-!
# What the origin server is sent

The proxy is meant to pass a request on in relative form, with headers of its
own for the host and the connection. It writes these headers into its table and
then sends the bytes it received, so no request is ever passed on as intended.
-/

namespace ComputerNetworks.Proxy

open ClientHelper

/-- The literal `HTTP/1.0`. -/
def http10 : List UInt8 := ascii ['H', 'T', 'T', 'P', '/', '1', '.', '0']

/-- The request line in relative form. -/
def relativeLine (path : List UInt8) : List UInt8 := getText ++ 32 :: (path ++ 32 :: http10)

/-- Bytes that are a request in relative form: one host header for the host of the address, one
connection header, and the other headers of the client as they were. -/
def RelativeForm (r : RequestLine) (client : List (List UInt8 × List UInt8))
    (sent : List UInt8) : Prop :=
  ∃ hs, sent = relativeLine r.path ++ (crlf ++ (renderHeaders hs ++ crlf)) ∧
    hs.filter (fun kv => kv.1 = hostKey) = [(hostKey, r.host)] ∧
    hs.filter (fun kv => kv.1 = connectionKey) = [(connectionKey, closeText)] ∧
    hs.filter (fun kv => kv.1 ≠ hostKey ∧ kv.1 ≠ connectionKey) =
      client.filter (fun kv => kv.1 ≠ hostKey ∧ kv.1 ≠ connectionKey)

/-- A token and the rest are no longer than the text. -/
theorem length_le_of_token {delim s tok rest : List UInt8}
    (h : token delim s = some (tok, rest)) : tok ≠ [] ∧ tok.length + rest.length ≤ s.length := by
  obtain ⟨lead, rest', rfl, rfl, -, -, hne, -⟩ := token_eq_some h
  refine ⟨hne, ?_⟩
  simp only [List.length_append, List.length_tail]
  omega

/-- The path stored for an address is shorter than the address. -/
theorem Splits.length_path_lt {line afterMethod addr afterProtocol hostTok text port : List UInt8}
    {r : RequestLine} (h : Splits line r afterMethod addr afterProtocol hostTok text port) :
    r.path.length < addr.length := by
  obtain ⟨hproto, hle⟩ := length_le_of_token h.protocol_eq
  obtain ⟨hhost, hle'⟩ := length_le_of_token h.hostTok_eq
  have hpos := List.length_pos_of_ne_nil hproto
  have hpos' := List.length_pos_of_ne_nil hhost
  have hpath : r.path.length = text.length + 1 := by rw [h.path_eq]; rfl
  omega

/-- No line is the relative form of what is read from it. -/
theorem Splits.ne_relativeLine
    {line afterMethod addr afterProtocol hostTok text port : List UInt8} {r : RequestLine}
    (h : Splits line r afterMethod addr afterProtocol hostTok text port) (hr : r.Valid) :
    line ≠ relativeLine r.path := by
  rintro rfl
  obtain ⟨text', hpath, hsp, -⟩ := hr.path_ok
  have hmethod : token (ascii [' ']) (relativeLine r.path) =
      some (getText, r.path ++ 32 :: http10) :=
    token_append [] getText (32 :: _) (by simp) (by simp [getText, ascii]) (by decide)
      (by simp [ascii])
  have hno : ∀ c ∈ r.path, c ∉ ascii [' '] := by
    intro c hc hd
    obtain rfl : c = 32 := by simpa [ascii] using hd
    rw [hpath] at hc
    exact hsp (by simpa using hc)
  have haddr : token (ascii [' ']) (r.path ++ 32 :: http10) = some (r.path, http10) :=
    token_append [] r.path (32 :: http10) (by simp) hno (by simp [hpath]) (by simp [ascii])
  obtain ⟨-, rfl⟩ := Prod.mk.inj (Option.some.inj (hmethod.symm.trans h.method_eq))
  obtain ⟨rfl, -⟩ := Prod.mk.inj (Option.some.inj (haddr.symm.trans h.addr_eq))
  exact absurd h.length_path_lt (lt_irrefl _)

/-- What is passed on starts with the request line as the client sent it. -/
theorem forward_inv {errnoEinval : Bool} {events : List (Option (List UInt8))} {r : RequestLine}
    {hs : List (List UInt8 × List UInt8)} {sent : List UInt8}
    (h : clientHelper errnoEinval events = .ok (some (.forward r hs sent))) :
    ∃ line r₀ b s kvs, ParsedRequest.Accepted b line s r₀ kvs ∧ r₀.path = r.path ∧
      line ++ crlf <+: sent := by
  unfold clientHelper at h
  obtain ⟨received, -, h⟩ := Exec.bind_eq_ok.mp h
  cases received with
  | none => cases h
  | some received =>
    obtain ⟨buff₀, recd⟩ := received
    obtain ⟨outcome, h, heq⟩ := Exec.map_eq_ok.mp h
    cases heq
    unfold handle at h
    obtain ⟨buff, -, h⟩ := Exec.bind_eq_ok.mp h
    obtain ⟨found, -, h⟩ := Exec.bind_eq_ok.mp h
    cases found with
    | none => cases h
    | some i =>
      obtain ⟨⟨val, pr⟩, hparse, h⟩ := Exec.bind_eq_ok.mp h
      by_cases hval : val ≠ 0
      · simp only [respond_refused hval] at h
        cases h
      obtain rfl : val = 0 := not_not.mp hval
      obtain ⟨r₁, hr₁, hacc⟩ := respond_accepted recd hparse
      simp only [hacc] at h
      obtain ⟨n, hn, -, hlen, line, s, r₀, kvs, haccepted, hr₀, -⟩ :=
        ParsedRequest.parse_inv hparse
      rw [hr₁] at hr₀
      cases hr₀
      cases h
      refine ⟨line, r₁, _, s, kvs, haccepted, rfl, ?_⟩
      have hlong := length_le_of_crlfcrlf haccepted.line_crlf (List.prefix_refl _)
        haccepted.section_end
      have htext := haccepted.text_at.length_lt
      simp only [List.length_append, List.length_take, List.length_singleton] at htext hlong
      have hpre : line ++ crlf <+: buff.take n ++ [0] := by
        obtain ⟨post, hpost⟩ := haccepted.text_at.eq_append
        rw [List.drop_zero] at hpost
        exact ⟨s ++ 0 :: post, by rw [hpost]; simp⟩
      have hsent : buff.take recd.toNat <+: buff.take n ++ [0] :=
        (List.take_prefix_take_left (by omega)).trans (List.prefix_append _ _)
      apply List.prefix_of_prefix_length_le hpre hsent
      simp only [crlf, List.length_append, List.length_take, List.length_cons,
        List.length_nil] at hlong htext ⊢
      omega

/-- No request is passed on in relative form, whatever the client sent. -/
theorem forward_not_relativeForm {errnoEinval : Bool} {events : List (Option (List UInt8))}
    {r : RequestLine} {hs : List (List UInt8 × List UInt8)} {sent : List UInt8}
    (h : clientHelper errnoEinval events = .ok (some (.forward r hs sent)))
    (client : List (List UInt8 × List UInt8)) : ¬ RelativeForm r client sent := by
  rintro ⟨hs', rfl, -⟩
  obtain ⟨line, r₀, b, s, kvs, hacc, hpath, hpre⟩ := forward_inv h
  obtain ⟨_, _, _, _, _, _, hsplits⟩ := hacc.splits
  have hclean : Clean line :=
    ⟨fun h0 => hacc.text_at.1 (List.mem_append_left _ h0), hacc.line_crlf⟩
  have hvalid := hsplits.valid hclean
  obtain ⟨-, -, -, -, hp, -⟩ := hvalid.clean
  have hrel : NoCrlf (relativeLine r₀.path) := by
    obtain ⟨text, htext, -⟩ := hvalid.path_ok
    have hend : NoCrlf (r₀.path ++ 32 :: http10) := hp.2.append_cons (by decide) (by decide)
    exact NoCrlf.append_cons (by decide) (by decide) (hend.cons_of_ne (by decide))
  rw [← hpath] at hpre
  -- both lines end at the first CRLF of what is sent
  obtain ⟨rest, hrest⟩ := hpre
  rw [List.append_assoc] at hrest
  have hlen : line.length = (relativeLine r₀.path).length := by
    have hfind := congrArg (findSub crlf) hrest
    rw [findSub_crlf hacc.line_crlf, findSub_crlf hrel] at hfind
    exact Option.some.inj hfind
  exact hsplits.ne_relativeLine hvalid (List.append_inj hrest hlen).1

/-- The request for `http://a:80/b` is passed on, and not in relative form. -/
theorem forward_not_relativeForm_sample :
    ∃ r hs sent, clientHelper false [some (sampleLine.render ++ crlfcrlf)] =
        .ok (some (.forward r hs sent)) ∧ ∀ client, ¬ RelativeForm r client sent := by
  have hplain := clientHelper_plain sampleLine_wellFormed.valid (by decide) (by decide)
  exact ⟨_, _, _, hplain, forward_not_relativeForm hplain⟩

/-- The bytes sent for this request begin with its absolute address. -/
theorem sample_sent_absolute :
    ∃ r hs sent, clientHelper false [some (sampleLine.render ++ crlfcrlf)] =
        .ok (some (.forward r hs sent)) ∧ ¬ RelativeForm r [] sent := by
  refine ⟨_, _, _, clientHelper_plain sampleLine_wellFormed.valid (by decide) (by decide), ?_⟩
  rintro ⟨hs, hsent, -⟩
  have hstart := congrArg (List.take 5) hsent
  rw [List.take_append_of_le_length (by decide),
    List.take_append_of_le_length (by decide)] at hstart
  exact absurd hstart (by decide)

end ComputerNetworks.Proxy
