import ComputerNetworks.Proxy.Unparse

/-!
# Unparse, then parse

What the parser stored for any accepted buffer is read back unchanged from what
`ParsedRequest_unparse` writes. The header part is the delicate one: a key that
runs over line ends is read again from each of its lines, in the first parse as
in the second, and the entries that come from it must overwrite each other in
the same way.
-/

namespace ComputerNetworks.Proxy

open LastWrite ParsedHeader

/-- One header is read at one place. -/
theorem HeaderAt.unique {b : List UInt8} {p : Nat} {kv kv' : List UInt8 × List UInt8}
    (h : HeaderAt b p kv) (h' : HeaderAt b p kv') : kv = kv' := by
  obtain ⟨k, v⟩ := kv
  obtain ⟨k', v'⟩ := kv'
  obtain ⟨⟨rest, hkey⟩, hcolon, ⟨tail, hval⟩, hv⟩ := h
  obtain ⟨⟨rest', hkey'⟩, hcolon', ⟨tail', hval'⟩, hv'⟩ := h'
  simp only at hkey hcolon hval hv hkey' hcolon' hval' hv'
  have htext := hkey.unique hkey'
  have hlen : k.length = k'.length := by
    have hidx := congrArg (List.idxOf? 58) htext
    rw [idxOf?_append_of_not_mem hcolon, idxOf?_append_of_not_mem hcolon'] at hidx
    exact Option.some.inj hidx
  obtain rfl := (List.append_inj htext hlen).1
  have hvalue := hval.unique hval'
  have hlen' : v.length = v'.length := by
    have hidx := congrArg (findSub crlf) hvalue
    rw [findSub_crlf hv, findSub_crlf hv'] at hidx
    exact Option.some.inj hidx
  rw [(List.append_inj hvalue hlen').1]

/-- The headers of a buffer are determined. -/
theorem HeadersAt.unique {b : List UInt8} {stop : Nat} {starts : List (List UInt8)}
    {kvs kvs' : List (List UInt8 × List UInt8)} (h : HeadersAt b stop starts kvs)
    (h' : HeadersAt b stop starts kvs') : kvs = kvs' :=
  List.right_unique_forall₂' (fun _ _ _ hx hy => hx.unique hy) h h'

/-- The headers of two sections are those of the first and of the second. -/
theorem HeadersAt.append_left {b : List UInt8} {stop : Nat} {starts starts' : List (List UInt8)}
    {kvs : List (List UInt8 × List UInt8)} (h : HeadersAt b stop (starts ++ starts') kvs) :
    ∃ xs ys, kvs = xs ++ ys ∧ HeadersAt b stop starts xs ∧ HeadersAt b stop starts' ys := by
  refine ⟨kvs.take starts.length, kvs.drop starts.length, (List.take_append_drop _ _).symm, ?_, ?_⟩
  · have htake := List.forall₂_take starts.length h
    rwa [List.take_left] at htake
  · have hdrop := List.forall₂_drop starts.length h
    rwa [List.drop_left] at hdrop

/-- Behind each read come the reads at the later lines of its key; they are the last ones when
the key runs over an empty line. -/
def ReadOrder : List (List UInt8 × List UInt8) → Prop
  | [] => True
  | kv :: kvs => (∃ rest, kvs = (keyTails kv.1).map (·, kv.2) ++ rest ∧
      (keyStops kv.1 = true → rest = [])) ∧ ReadOrder kvs

/-- The header loop reads in this order, and only entries that can be read back. -/
theorem readOrder_of_headersAt {b s : List UInt8} {c : Nat}
    {kvs : List (List UInt8 × List UInt8)} (hs : CStrAt b c s)
    (h : HeadersAt b (c + s.length) (headerStarts s) kvs) :
    ReadOrder kvs ∧ ∀ kv ∈ kvs, ReadableHeader kv := by
  induction kvs generalizing s c with
  | nil => exact ⟨trivial, by simp⟩
  | cons kv kvs ih =>
    obtain ⟨k, v⟩ := kv
    have hhead : isHeader s = true := by
      by_contra hno
      rw [headerStarts_of_not (by simpa using hno)] at h
      cases h
    have hkv : HeaderAt b c (k, v) := by
      rw [headerStarts, List.takeWhile_cons_of_pos hhead] at h
      have hfirst := (List.forall₂_cons.mp h).1
      rwa [Nat.add_sub_cancel] at hfirst
    obtain ⟨u, hkey⟩ := hkv.key_at
    obtain ⟨w, hval⟩ := hkv.value_at
    obtain rfl := hs.unique hkey
    have hstart : ¬ crlf <+: k := by
      rw [isHeader_append_colon, Bool.not_eq_true', ← Bool.not_eq_true,
        List.isPrefixOf_iff_prefix] at hhead
      exact hhead
    have hread : ReadableHeader (k, v) :=
      ⟨hkv.key_colon, hstart, hkv.value_crlf, fun h0 => hkey.1 (List.mem_append_left _ h0),
        fun h0 => hval.1 (List.mem_append_left _ h0)⟩
    -- the lines of this key come first
    have horder : ∃ rest, kvs = (keyTails k).map (·, v) ++ rest ∧
        (keyStops k = true → rest = []) := by
      have hall := h
      rw [headerStarts_append_colon u hstart] at hall
      obtain ⟨xs, ys, hsplit, hxs, hys⟩ := HeadersAt.append_left hall
      obtain rfl := HeadersAt.unique hxs (headersAt_entry u hkv rfl)
      refine ⟨ys, by simpa [entryReads] using hsplit, fun hstop => ?_⟩
      rw [if_pos hstop] at hys
      exact List.forall₂_nil_left_iff.mp hys
    -- the other reads start at the next line
    have hrest : ReadOrder kvs ∧ ∀ kv ∈ kvs, ReadableHeader kv := by
      cases hi : findSub crlf (k ++ 58 :: u) with
      | none =>
        rw [headerStarts_last hhead (findSub_eq_none hi)] at h
        obtain rfl := List.forall₂_nil_left_iff.mp (List.forall₂_cons.mp h).2
        exact ⟨trivial, by simp⟩
      | some i =>
        obtain ⟨line, next, heq, -, hline⟩ := findSub_crlf_eq_some hi
        rw [heq] at h hs hhead
        rw [headerStarts_line hhead hline] at h
        have htail := (List.forall₂_cons.mp h).2
        have hstop : c + (line ++ (crlf ++ next)).length = c + line.length + 2 + next.length := by
          simp only [crlf, List.length_append, List.length_cons, List.length_nil]
          omega
        rw [hstop] at htail
        exact ih (cstrAt_nextLine hs) htail
    exact ⟨⟨horder, hrest.1⟩, List.forall_mem_cons.mpr ⟨hread, hrest.2⟩⟩

theorem nodup_keyTails (k : List UInt8) : (keyTails k).Nodup :=
  ((pairwise_lineTails k).sublist (List.takeWhile_sublist _)).imp
    fun hlt he => absurd (congrArg List.length he) (by omega)

theorem not_mem_keyTails_self (k : List UInt8) : k ∉ keyTails k := fun hmem =>
  absurd (length_lt_of_mem_lineTails ((List.takeWhile_prefix _).subset hmem)) (lt_irrefl _)

/-- What the second parse relies on in a list of kept entries: an entry's key occurs once, and
the tails of the key are kept too, in order and up to the end when it runs over an empty line. -/
def Kept : List (List UInt8 × List UInt8) → Prop
  | [] => True
  | kv :: kvs => kv.1 ∉ kvs.map Prod.fst ∧
      (if keyStops kv.1 then kvs = (keyTails kv.1).map (·, kv.2)
        else ∀ x ∈ keyTails kv.1, x ∈ kvs.map Prod.fst) ∧ Kept kvs

/-- What is kept of reads in order. -/
theorem kept_keepLast {kvs : List (List UInt8 × List UInt8)} (h : ReadOrder kvs) :
    Kept (keepLast kvs) := by
  induction kvs with
  | nil => trivial
  | cons kv kvs ih =>
    obtain ⟨⟨rest, hrest, hstop⟩, htail⟩ := h
    by_cases hmem : kv.1 ∈ kvs.map Prod.fst
    · rw [keepLast, if_pos hmem]
      exact ih htail
    · rw [keepLast, if_neg hmem]
      refine ⟨by rwa [mem_keys_keepLast], ?_, ih htail⟩
      by_cases hk : keyStops kv.1 = true
      · rw [if_pos hk]
        rw [hstop hk, List.append_nil] at hrest
        subst hrest
        apply keepLast_of_nodup
        simpa [Function.comp_def] using nodup_keyTails kv.1
      · rw [if_neg hk]
        intro x hx
        rw [mem_keys_keepLast, hrest]
        simp [hx]

/-- The keys that are kept are all different. -/
theorem Kept.nodup {kvs : List (List UInt8 × List UInt8)} (h : Kept kvs) :
    (kvs.map Prod.fst).Nodup := by
  induction kvs with
  | nil => exact List.nodup_nil
  | cons kv kvs ih => exact List.nodup_cons.mpr ⟨h.1, ih h.2.2⟩

/-- Kept entries that are written and read again are the same entries. -/
theorem Kept.keepLast_rereads {kvs : List (List UInt8 × List UInt8)} (h : Kept kvs) :
    keepLast (rereads kvs) = kvs := by
  induction kvs with
  | nil => rfl
  | cons kv kvs ih =>
    have hall := h
    obtain ⟨hnot, htails, hkept⟩ := h
    by_cases hk : keyStops kv.1 = true
    · rw [if_pos hk] at htails
      rw [rereads, if_pos hk, entryReads, ← htails]
      exact keepLast_of_nodup hall.nodup
    · rw [if_neg hk] at htails
      -- the same keys are read again as are kept
      have hkeys : ∀ x, x ∈ (rereads kvs).map Prod.fst ↔ x ∈ kvs.map Prod.fst := by
        intro x
        rw [← mem_keys_keepLast, ih hkept]
      have hfresh : kv.1 ∉ ((keyTails kv.1).map (·, kv.2) ++ rereads kvs).map Prod.fst := by
        rw [List.map_append, List.mem_append, not_or, hkeys]
        exact ⟨by simpa using not_mem_keyTails_self kv.1, hnot⟩
      rw [rereads, if_neg hk, entryReads, List.cons_append, keepLast, if_neg hfresh,
        keepLast_append_of_overwritten, ih hkept]
      intro e he
      obtain ⟨x, hx, rfl⟩ := List.mem_map.mp he
      exact (hkeys x).mpr (htails x hx)

/-- A header read from a block fits into it with all its separators. -/
theorem HeaderAt.length_le {b : List UInt8} {p : Nat} {kv : List UInt8 × List UInt8}
    (h : HeaderAt b p kv) : (renderHeader kv).length < b.length := by
  obtain ⟨rest, hval⟩ := h.value_at
  have hlt := hval.length_lt
  simp only [renderHeader, crlf, List.length_append, List.length_cons, List.length_nil] at hlt ⊢
  omega

/-- Short headers make a short section. -/
theorem length_renderHeaders_le {hs : List (List UInt8 × List UInt8)} {m : Nat}
    (h : ∀ kv ∈ hs, (renderHeader kv).length ≤ m) :
    (renderHeaders hs).length ≤ hs.length * m := by
  induction hs with
  | nil => simp [renderHeaders]
  | cons kv hs ih =>
    have hkv := h kv (by simp)
    have hrest := ih fun x hx => h x (List.mem_cons_of_mem kv hx)
    simp only [renderHeaders, List.flatMap_cons, List.length_append, List.length_cons,
      Nat.succ_mul] at hrest ⊢
    omega

theorem length_headerStarts_le (s : List UInt8) :
    (headerStarts s).length ≤ (lineTails s).length + 1 :=
  (List.takeWhile_prefix _).length_le

/-- The header section written for an accepted buffer has a length that fits an `int`. -/
theorem ParsedRequest.Accepted.length_renderHeaders_lt {b line s : List UInt8} {r : RequestLine}
    {kvs : List (List UInt8 × List UInt8)} (h : ParsedRequest.Accepted b line s r kvs)
    (hb : b.length ≤ 65536) : (renderHeaders (keepLast kvs)).length + 2 < 2 ^ 31 := by
  have hread : ∀ kv ∈ keepLast kvs, (renderHeader kv).length ≤ 65535 := by
    intro kv hmem
    obtain ⟨i, hi, rfl⟩ := List.getElem_of_mem (keepLast_subset kvs hmem)
    have hlen := h.headers_at.length_eq
    have hat : HeaderAt b _ kvs[i] := h.headers_at.get (by omega) hi
    have hlt := hat.length_le
    omega
  have hcount : 2 * (keepLast kvs).length ≤ 65535 := by
    have hkept := length_keepLast_le kvs
    have hlen := h.headers_at.length_eq
    have hstarts := length_headerStarts_le s
    have htails := length_lineTails_le s
    have htext := h.text_at.length_lt
    simp only [crlf, List.length_append, List.length_cons, List.length_nil] at htext
    omega
  have hsum := length_renderHeaders_le hread
  omega

/-- Whatever the parser accepts, it reads again from what is written for it, with the same
fields and the same live headers in the same order. -/
theorem parse_unparse_eq {buf : List UInt8} {buflen : Int} {pr : ParsedRequest}
    (hok : ParsedRequest.parse (fun _ => true) false ParsedRequest.create buf buflen =
      .ok (0, pr)) :
    ∃ r total, pr.requestLine = .ok r ∧ pr.totalLen = .ok total ∧
      (total ≤ 65535 → ∀ out : List UInt8, out.length = total →
        ∃ out' pr', pr.unparse out total = .ok (0, out') ∧ out'.length = total ∧
          ParsedRequest.parse (fun _ => true) false ParsedRequest.create out' total =
            .ok (0, pr') ∧
          pr'.requestLine = .ok r ∧ pr'.live = pr.live) := by
  obtain ⟨n, rfl, hn, hlen, line, s, r, kvs, hacc, hfields, hbuf, hwf, hlive⟩ :=
    ParsedRequest.parse_inv hok
  have hb : (buf.take n ++ [0]).length ≤ 65536 := by
    simp only [List.length_append, List.length_take, List.length_singleton]
    omega
  obtain ⟨_, _, _, _, _, _, hsplits⟩ := hacc.splits
  have hline : Clean line :=
    ⟨fun h0 => hacc.text_at.1 (List.mem_append_left _ h0), hacc.line_crlf⟩
  have hshort : r.render.length < 2 ^ 31 := by
    have hle := hsplits.length_render_le
    have htext := hacc.text_at.length_lt
    rw [List.length_append] at htext
    omega
  have hsmall : (renderHeaders pr.live).length + 2 < 2 ^ 31 := by
    rw [hlive]
    exact hacc.length_renderHeaders_lt hb
  have hsec : CStrAt (buf.take n ++ [0]) (line.length + 2) s := by
    have hnext := cstrAt_nextLine hacc.text_at
    rwa [Nat.zero_add] at hnext
  have hstop : (line ++ (crlf ++ s)).length = line.length + 2 + s.length := by
    simp only [crlf, List.length_append, List.length_cons, List.length_nil]
    omega
  have hheads := hacc.headers_at
  rw [hstop] at hheads
  obtain ⟨horder, hread⟩ := readOrder_of_headersAt hsec hheads
  refine ⟨r, _, hfields, ParsedRequest.totalLen_eq hbuf hfields hwf hshort hsmall, ?_⟩
  intro hmax out hout
  obtain ⟨pr', hparse, hfields', hlive'⟩ := ParsedRequest.parse_renderRequest
    (hsplits.valid hline) (fun kv hmem => hread kv (keepLast_subset kvs (hlive ▸ hmem))) hmax
  refine ⟨renderRequest r pr.live, pr', ?_, rfl, hparse, hfields', ?_⟩
  · rw [← hout]
    exact ParsedRequest.unparse_ok hbuf hfields hwf hsmall hout
  · rw [hlive', hlive]
    exact (kept_keepLast horder).keepLast_rereads

/-- A request with one slash before the host, and a key over two lines. -/
def oddRequest : List UInt8 :=
  ascii ['G', ' ', 'x', ':', '/', 'h', '/', 'p', ' ', 'H', 'T', 'T', 'P', '/'] ++
    (crlf ++ (ascii ['A'] ++ (crlf ++ (ascii ['B', ':', ' ', 'v'] ++ crlfcrlf))))

/-- What the parser makes of `oddRequest`: the header is stored once for each line of its key. -/
def oddParsed : ParsedRequest where
  headers := some [⟨some (ascii ['A'] ++ (crlf ++ ascii ['B'])), ascii ['v']⟩,
    ⟨some (ascii ['B']), ascii ['v']⟩]
  headersused := 2
  headerslen := 8
  method := .buf 0
  protocol := .buf 2
  host := .buf 5
  port := .null
  path := .str (ascii ['/', 'p'])
  version := .buf 9
  buf := some [71, 0, 120, 0, 47, 104, 0, 112, 0, 72, 84, 84, 80, 47, 0]
  buflen := 15

theorem parse_unparse_oddRequest :
    ParsedRequest.parse (fun _ => true) false ParsedRequest.create oddRequest oddRequest.length =
        .ok (0, oddParsed) ∧
      ∃ out' pr', oddParsed.unparse (List.replicate 34 0) 34 = .ok (0, out') ∧
        ParsedRequest.parse (fun _ => true) false ParsedRequest.create out' (34 : Nat) =
          .ok (0, pr') ∧
        pr'.requestLine = oddParsed.requestLine ∧ pr'.live = oddParsed.live := by
  have hparse : ParsedRequest.parse (fun _ => true) false ParsedRequest.create oddRequest
      oddRequest.length = .ok (0, oddParsed) := by decide
  obtain ⟨r, total, hr, htotal, hagain⟩ := parse_unparse_eq hparse
  have hlen : oddParsed.totalLen = .ok 34 := by decide
  rw [hlen] at htotal
  cases htotal
  obtain ⟨out', pr', hun, -, hre, hr', hlive⟩ := hagain (by decide) (List.replicate 34 0) (by simp)
  exact ⟨hparse, out', pr', hun, hre, hr'.trans hr.symm, hlive⟩

end ComputerNetworks.Proxy
