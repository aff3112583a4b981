import ComputerNetworks.Proxy.HeaderStore
import ComputerNetworks.Proxy.Unparse

/-!
# Announced and written size

A caller allocates what `ParsedRequest_totalLen` announces and has the request
written there. For every parsed request, whatever was done to its headers since,
the two lengths agree, and no buffer is written to behind the length given.
-/

namespace ComputerNetworks.Proxy

open ParsedRequest ParsedHeader

/-- The call returns 0 exactly where the length given is that of the text at least; then the
text, and no more, was written over the start of the buffer, and at no time anything behind
that length. -/
def WritesWithin (text out : List UInt8) (buflen : Nat) (outcome : Run (Int × List UInt8)) : Prop :=
  ∃ ret out', outcome = .ok (ret, out') ∧ (ret = 0 ↔ text.length ≤ buflen) ∧
    (ret = 0 → out' = text ++ out.drop text.length) ∧ out'.length = out.length ∧
    out'.drop buflen = out.drop buflen

/-- A text written over the start of a buffer changes nothing behind it. -/
theorem overwrite_frame {text out : List UInt8} {buflen : Nat} (hfit : text.length ≤ buflen)
    (hlen : buflen ≤ out.length) :
    (text ++ out.drop text.length).length = out.length ∧
      (text ++ out.drop text.length).drop buflen = out.drop buflen := by
  constructor
  · rw [List.length_append, List.length_drop]
    omega
  · rw [List.drop_append, List.drop_of_length_le hfit, List.nil_append, List.drop_drop,
      Nat.add_sub_cancel' hfit]

/-- What fits is written, and nothing else of the buffer is. -/
theorem writesWithin_stored {text out : List UInt8} {buflen : Nat} (hfits : text.length ≤ buflen)
    (hlen : buflen ≤ out.length) :
    WritesWithin text out buflen (.ok (0, text ++ out.drop text.length)) := by
  obtain ⟨hsize, hframe⟩ := overwrite_frame hfits hlen
  exact ⟨0, _, rfl, iff_of_true rfl hfits, fun _ => rfl, hsize, hframe⟩

/-- `ParsedRequest_unparse` writes the request if it fits, and nothing beyond the length. -/
theorem writesWithin_unparse {pr : ParsedRequest} {r : RequestLine} {out : List UInt8}
    {buflen : Nat} (hbuf : pr.buf ≠ none) (h : pr.requestLine = .ok r)
    (hwf : pr.toHeaderTable.WellFormed)
    (hsmall : (renderHeaders pr.live).length + 2 < 2 ^ 31) (hlen : buflen ≤ out.length) :
    WritesWithin (renderRequest r pr.live) out buflen (unparse pr out buflen) := by
  rw [unparse_eq hbuf h hwf hsmall hlen]
  by_cases hfits : (renderRequest r pr.live).length ≤ buflen
  · rw [if_pos hfits]
    exact writesWithin_stored hfits hlen
  · rw [if_neg hfits]
    by_cases hline : (r.render ++ crlf).length ≤ buflen
    · obtain ⟨hsize, hframe⟩ := overwrite_frame hline hlen
      rw [if_pos hline]
      exact ⟨-1, _, rfl, iff_of_false (by decide) hfits, nofun, hsize, hframe⟩
    · rw [if_neg hline]
      exact ⟨-1, _, rfl, iff_of_false (by decide) hfits, nofun, rfl, rfl⟩

/-- `ParsedRequest_unparse_headers` writes the headers if they fit, and nothing beyond the length.
-/
theorem writesWithin_unparseHeaders {pr : ParsedRequest} {out : List UInt8} {buflen : Nat}
    (hbuf : pr.buf ≠ none) (hwf : pr.toHeaderTable.WellFormed)
    (hsmall : (renderHeaders pr.live).length + 2 < 2 ^ 31) (hlen : buflen ≤ out.length) :
    WritesWithin (renderHeaders pr.live ++ crlf) out buflen (unparseHeaders pr out buflen) := by
  rw [unparseHeaders_eq hbuf hwf hsmall hlen]
  by_cases hfits : (renderHeaders pr.live ++ crlf).length ≤ buflen
  · rw [if_pos hfits]
    exact writesWithin_stored hfits hlen
  · rw [if_neg hfits]
    exact ⟨-1, _, rfl, iff_of_false (by decide) hfits, nofun, rfl, rfl⟩

/-- After a successful parse and any calls on the headers, `ParsedRequest_totalLen` is the length of
what `ParsedRequest_unparse` writes, and `ParsedHeader_headersLen` that of what
`ParsedRequest_unparse_headers` writes, into a buffer of any length, provided that the total length
is below 2^31. -/
theorem announcedSize_exact {errnoEinval : Bool} {buf : List UInt8} {buflen : Int}
    {pr : ParsedRequest}
    (hparse : parse (fun _ => true) errnoEinval create buf buflen = .ok (0, pr))
    (ops : List HeaderOp) :
    ∃ r t, pr.requestLine = .ok r ∧ headerMachine.run pr.toHeaderTable ops = .ok t ∧
      ((renderRequest r t.live).length < 2 ^ 31 →
        totalLen (pr.withHeaders t) = .ok (renderRequest r t.live).length ∧
        headersLen (pr.withHeaders t) = .ok (renderHeaders t.live ++ crlf).length ∧
        ∀ (out : List UInt8) (outlen : Nat), outlen ≤ out.length →
          WritesWithin (renderRequest r t.live) out outlen
              (unparse (pr.withHeaders t) out outlen) ∧
            WritesWithin (renderHeaders t.live ++ crlf) out outlen
              (unparseHeaders (pr.withHeaders t) out outlen)) := by
  obtain ⟨n, -, -, -, line, s, r, kvs, -, hfields, hbuf, hwf, -⟩ := parse_inv hparse
  obtain ⟨t, hrun, hwf', -⟩ := headerMachine_run hwf ops
  refine ⟨r, t, hfields, hrun, fun htotal => ?_⟩
  have hsplit : (renderRequest r t.live).length =
      r.render.length + 2 + ((renderHeaders t.live).length + 2) := by
    rw [renderRequest_eq, List.length_append, List.length_append, List.length_append]
    rfl
  have hsmall : (renderHeaders t.live).length + 2 < 2 ^ 31 := by omega
  have hlength : (renderHeaders t.live ++ crlf).length = (renderHeaders t.live).length + 2 :=
    List.length_append
  have hbuf' : (pr.withHeaders t).buf ≠ none := hbuf
  have hfields' : (pr.withHeaders t).requestLine = .ok r := hfields
  have hwf'' : (pr.withHeaders t).toHeaderTable.WellFormed := hwf'
  refine ⟨totalLen_eq hbuf' hfields' hwf'' (by omega) hsmall, ?_, fun out outlen hlen => ⟨?_, ?_⟩⟩
  · rw [hlength]
    exact headersLen_eq hbuf' hwf'' hsmall
  · exact writesWithin_unparse hbuf' hfields' hwf'' hsmall hlen
  · exact writesWithin_unparseHeaders hbuf' hwf'' hsmall hlen

/-- A header set again and another one removed between the parse and the two calls. -/
theorem announcedSize_exact_sample :
    ∃ pr t, parse (fun _ => true) false create (renderRequest sampleLine sampleHeaders)
        (renderRequest sampleLine sampleHeaders).length = .ok (0, pr) ∧
      headerMachine.run pr.toHeaderTable [.set (ascii ['K']) (ascii ['3']), .remove (ascii ['L'])] =
        .ok t ∧
      t.live = [(ascii ['K'], ascii ['3'])] ∧
      totalLen (pr.withHeaders t) = .ok (renderRequest sampleLine t.live).length ∧
      headersLen (pr.withHeaders t) = .ok (renderHeaders t.live ++ crlf).length ∧
      ∀ (out : List UInt8) (outlen : Nat), outlen ≤ out.length →
        WritesWithin (renderRequest sampleLine t.live) out outlen
            (unparse (pr.withHeaders t) out outlen) ∧
          WritesWithin (renderHeaders t.live ++ crlf) out outlen
            (unparseHeaders (pr.withHeaders t) out outlen) := by
  obtain ⟨pr, hparse, hfields, hlive⟩ := parse_renderRequest sampleLine_wellFormed.valid
    (fun kv hmem => (sampleHeaders_wellFormed kv hmem).readable) (by decide)
  obtain ⟨_, -, -, -, _, _, _, _, -, -, -, hwf, -⟩ := parse_inv hparse
  obtain ⟨r, t, hline, hrun, hexact⟩ := announcedSize_exact hparse
    [.set (ascii ['K']) (ascii ['3']), .remove (ascii ['L'])]
  obtain ⟨t', hrun', -, hlive'⟩ := headerMachine_run hwf
    [.set (ascii ['K']) (ascii ['3']), .remove (ascii ['L'])]
  cases hfields.symm.trans hline
  cases hrun.symm.trans hrun'
  have hlive'' : t.live = [(ascii ['K'], ascii ['3'])] := by
    rw [hlive', hlive]
    decide
  refine ⟨pr, t, hparse, hrun, hlive'', hexact ?_⟩
  rw [hlive'']
  decide

end ComputerNetworks.Proxy
