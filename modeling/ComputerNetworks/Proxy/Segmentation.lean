import ComputerNetworks.Proxy.ClientHelper

/-!
# Requests in pieces

TCP may deliver one request in any pieces. `client_helper` stops at the first
line end and hands the parser only as many bytes as the last piece had, so what
it does depends on the pieces for nearly every request. The exceptions are
described exactly.
-/

namespace ComputerNetworks.Proxy

open ClientHelper

/-- The pieces, none of them empty, in which a request can arrive. -/
structure Cut (r : List UInt8) (chunks : List (List UInt8)) : Prop where
  flatten_eq : chunks.flatten = r
  nonempty : ∀ chunk ∈ chunks, chunk ≠ []

/-- Whatever the pieces are, the request gets one and the same outcome. -/
def SegmentationIndependent (errnoEinval : Bool) (r : List UInt8) : Prop :=
  ∀ chunks chunks', Cut r chunks → Cut r chunks' → ∃ outcome,
    clientHelper errnoEinval (chunks.map some) = .ok (some outcome) ∧
    clientHelper errnoEinval (chunks'.map some) = .ok (some outcome)

/-- The request up to its first line end. -/
def firstLine (r : List UInt8) : List UInt8 :=
  match findSub crlf r with
  | none => r
  | some i => r.take i

/-- The parser refuses a request made of this line alone. -/
def LineRefused (errnoEinval : Bool) (line : List UInt8) : Prop :=
  ∃ val pr, ParsedRequest.parse (fun _ => true) errnoEinval ParsedRequest.create
    (line ++ crlfcrlf) (line ++ crlfcrlf).length = .ok (val, pr) ∧ val ≠ 0

/-- Requests that are treated alike in all pieces: no NUL keeps the end of the first line from
being seen, and either `"GET"` occurs nowhere in the text, or it occurs in a first line that the
parser refuses. -/
def Uniform (errnoEinval : Bool) (r : List UInt8) : Prop :=
  0 ∉ firstLine r ∧ (¬ getText <:+: text r ∨
    getText <:+: firstLine r ∧ LineRefused errnoEinval (firstLine r))

/-- The first line ends at the first line end. -/
theorem firstLine_eq {line : List UInt8} (h : NoCrlf line) (rest : List UInt8) :
    firstLine (line ++ (crlf ++ rest)) = line := by
  rw [firstLine, findSub_crlf h]
  exact List.take_left

/-- The parser's answer on a line and an empty header section is the one of its first part. -/
theorem parse_bareLine {line buff : List UInt8} (errnoEinval : Bool) (h0 : 0 ∉ line)
    (hline : NoCrlf line) (hlen : line.length + 4 ≤ 65535)
    (hbuff : line ++ crlfcrlf <+: buff) :
    ParsedRequest.parse (fun _ => true) errnoEinval ParsedRequest.create buff
        (line ++ crlfcrlf).length =
      ParsedRequest.parseRequestLine errnoEinval
        { ParsedRequest.create with buf := some (line ++ [0]), buflen := line.length + 1 }
        (line ++ [0]) := by
  obtain ⟨post, rfl⟩ := hbuff
  have hsize : (line ++ crlfcrlf).length = line.length + 4 := by
    rw [List.length_append]
    rfl
  have hat : CStrAt ((line ++ crlfcrlf ++ post).take (line ++ crlfcrlf).length ++ [0]) 0
      (line ++ (crlf ++ (crlf ++ []))) := by
    rw [List.take_left]
    refine cstrAt_append [] _ [] ?_
    rw [List.mem_append, not_or]
    exact ⟨h0, by decide⟩
  exact ParsedRequest.parse_emptySection errnoEinval (by omega) (by omega)
    (List.prefix_append _ _).length_le hat hline

/-- A request whose first line is refused is refused in all pieces that reach behind it. -/
theorem handle_lineRefused {line rest : List UInt8} {errnoEinval : Bool} {recd : Nat}
    (h0 : 0 ∉ line) (hline : NoCrlf line) (hget : getText <:+: line)
    (hrefused : LineRefused errnoEinval line)
    (hfit : (line ++ (crlf ++ rest)).length + 3 ≤ buffSize)
    (hrecd : recd ≤ (line ++ (crlf ++ rest)).length) :
    handle errnoEinval (fill (line ++ (crlf ++ rest))) recd = .ok .badRequest := by
  have htext : text (line ++ (crlf ++ rest)) = line ++ (crlf ++ text rest) := by
    rw [text_append h0, text_append (by decide)]
  obtain ⟨buff, hat, hsize, hhandle⟩ := handle_get errnoEinval recd hfit
    (by rw [htext]; exact hget.trans (List.prefix_append _ _).isInfix)
  rw [htext, List.append_assoc, List.append_assoc] at hat
  have hbound : buffSize = 65535 := rfl
  have hcast : (recd : Int) + 2 = ((recd + 2 : Nat) : Int) := by omega
  rw [hhandle, hcast]
  have htake := hat.take (recd + 2)
  by_cases hend : crlfcrlf <:+: (line ++ (crlf ++ (text rest ++ crlf))).take (recd + 2)
  · -- the copy holds the whole line, so the parser refuses it as before
    have hpre := List.take_prefix (recd + 2) (line ++ (crlf ++ (text rest ++ crlf)))
    have hlong := length_le_of_crlfcrlf hline hpre hend
    obtain ⟨s, -, heq⟩ := eq_line_append_of_long hpre (by omega)
    rw [heq] at htake hend
    obtain ⟨val, pr, hval, hne⟩ := hrefused
    have hlen : line.length + 4 ≤ 65535 := by
      simp only [crlf, List.length_append, List.length_cons] at hfit
      omega
    rw [parse_bareLine errnoEinval h0 hline hlen (List.prefix_refl _)] at hval
    have hmin : 4 ≤ recd + 2 := by
      rw [List.length_take] at hlong
      omega
    rw [ParsedRequest.parse_text errnoEinval rfl hmin (by omega) (by omega) htake hline hend, hval]
    simp only [Exec.ok_bind, if_pos hne, Exec.pure_eq_ok, respond_refused hne]
  · rw [ParsedRequest.parse_noEnd errnoEinval (by omega) htake hend]
    simp only [Exec.ok_bind, respond_refused (show (-1 : Int) ≠ 0 by decide)]

/-- The pieces are received up to the one that ends the first line. -/
theorem recvLoop_cut {line rest q : List UInt8} {chunks : List (List UInt8)} (recd : Int)
    (h0 : 0 ∉ line) (hline : NoCrlf line) (hq : q ++ chunks.flatten = line ++ (crlf ++ rest))
    (hshort : q.length < line.length + 2)
    (hfit : (line ++ (crlf ++ rest)).length < buffSize) :
    ∃ rest' : List UInt8, ∃ last : Nat, rest' <+: rest ∧
      last ≤ (line ++ (crlf ++ rest')).length ∧
      recvLoop (chunks.map some) (fill q) q.length recd =
        .ok (some (fill (line ++ (crlf ++ rest')), last)) := by
  induction chunks generalizing q recd with
  | nil =>
    rw [List.flatten_nil, List.append_nil] at hq
    rw [hq] at hshort
    simp only [crlf, List.length_append, List.length_cons] at hshort
    omega
  | cons chunk chunks ih =>
    rw [List.flatten_cons, ← List.append_assoc] at hq
    have hpre : q ++ chunk <+: line ++ (crlf ++ rest) := ⟨_, hq⟩
    have hle := hpre.length_le
    rw [List.map_cons, recvLoop_cons q chunk _ recd (by omega)]
    by_cases hlong : line.length + 2 ≤ (q ++ chunk).length
    · obtain ⟨rest', hrest, heq⟩ := eq_line_append_of_long hpre hlong
      have hinf : crlf <:+: text (q ++ chunk) := by
        rw [heq, text_append h0, text_append (by decide)]
        exact ⟨line, text rest', by simp⟩
      refine ⟨rest', chunk.length, hrest, ?_, ?_⟩
      · rw [← heq, List.length_append]
        omega
      · rw [if_pos hinf, heq]
    · have hno : ¬ crlf <:+: text (q ++ chunk) :=
        (noCrlf_of_short hline hpre (by omega)).mono (List.takeWhile_prefix _).isInfix
      rw [if_neg hno]
      exact ih _ hq (by omega)

/-- All of `client_helper` on a request that arrives in pieces. -/
theorem clientHelper_cut {line rest : List UInt8} {chunks : List (List UInt8)}
    (errnoEinval : Bool) (h0 : 0 ∉ line) (hline : NoCrlf line)
    (hcut : Cut (line ++ (crlf ++ rest)) chunks)
    (hfit : (line ++ (crlf ++ rest)).length < buffSize) :
    ∃ rest' : List UInt8, ∃ last : Nat, rest' <+: rest ∧
      last ≤ (line ++ (crlf ++ rest')).length ∧
      clientHelper errnoEinval (chunks.map some) =
        some <$> handle errnoEinval (fill (line ++ (crlf ++ rest'))) last := by
  have hflat : [] ++ chunks.flatten = line ++ (crlf ++ rest) := hcut.flatten_eq
  obtain ⟨rest', last, hrest, hlast, hrun⟩ := recvLoop_cut 0 h0 hline hflat (by simp) hfit
  have hstart : recvLoop (chunks.map some) (List.replicate buffSize 0) 0 0 =
      .ok (some (fill (line ++ (crlf ++ rest')), last)) := hrun
  exact ⟨rest', last, hrest, hlast, by simp only [clientHelper, hstart, Exec.ok_bind]⟩

/-- A request whose first line is cut in two is refused: the end of the header section lies
beyond the size of the second piece. -/
theorem clientHelper_split {line rest : List UInt8} (errnoEinval : Bool) {c : UInt8}
    {tail : List UInt8} (h0 : 0 ∉ line) (hline : NoCrlf line) (hget : getText <:+: line)
    (hsplit : line ++ crlf = c :: tail) (hfit : (line ++ crlf).length + 3 ≤ buffSize) :
    clientHelper errnoEinval ([[c], tail, rest].map some) = .ok (some .badRequest) := by
  have htext : text (line ++ crlf) = line ++ crlf := by rw [text_append h0]; rfl
  have hlen : tail.length = line.length + 1 := by
    have hsum := congrArg List.length hsplit
    simp only [crlf, List.length_append, List.length_cons, List.length_nil] at hsum
    omega
  have hsize : (line ++ crlf).length = line.length + 2 := List.length_append
  have hfirst : ¬ crlf <:+: text [c] := by
    intro hinf
    have hle := hinf.length_le
    have hone := length_text_le [c]
    simp only [crlf, List.length_cons, List.length_nil] at hle hone
    omega
  have hrun : recvLoop ([[c], tail, rest].map some) (List.replicate buffSize 0) 0 0 =
      .ok (some (fill (line ++ crlf), (tail.length : Int))) := by
    have hstep := recvLoop_cons [] [c] ([tail, rest].map some) 0
      (show 1 < buffSize by decide)
    have hstep' := recvLoop_cons [c] tail ([rest].map some) 1
    rw [List.singleton_append, ← hsplit, htext,
      if_pos (List.suffix_append line crlf).isInfix] at hstep'
    rw [List.nil_append, if_neg hfirst] at hstep
    exact hstep.trans (hstep' (by omega))
  obtain ⟨buff, hat, hbuff, hhandle⟩ := handle_get errnoEinval tail.length hfit
    (by rw [htext]; exact hget.trans (List.prefix_append _ _).isInfix)
  rw [htext, List.append_assoc] at hat
  have htake := hat.take (tail.length + 2)
  have hend : ¬ crlfcrlf <:+: (line ++ (crlf ++ crlf)).take (tail.length + 2) := by
    intro hend
    have hlong := length_le_of_crlfcrlf hline (List.take_prefix _ _) hend
    rw [List.length_take] at hlong
    omega
  have hbound : buffSize = 65535 := rfl
  have hcast : (tail.length : Int) + 2 = ((tail.length + 2 : Nat) : Int) := by omega
  rw [hcast, ParsedRequest.parse_noEnd errnoEinval (by omega) htake hend] at hhandle
  simp only [clientHelper, hrun, Exec.ok_bind, hhandle,
    respond_refused (show (-1 : Int) ≠ 0 by decide)]
  rfl

/-- All that is sent may come at once. -/
theorem cut_singleton {r : List UInt8} (h : r ≠ []) : Cut r [r] :=
  ⟨by simp, by simpa using h⟩

/-- A request with a `GET` is not answered with 501. -/
theorem handle_ne_notImplemented {q : List UInt8} {errnoEinval : Bool} {recd : Int}
    (h : q.length + 3 ≤ buffSize) (hget : getText <:+: text q) :
    handle errnoEinval (fill q) recd ≠ .ok .notImplemented := by
  obtain ⟨buff, -, -, hhandle⟩ := handle_get errnoEinval recd h hget
  intro hbad
  rw [hhandle] at hbad
  obtain ⟨⟨val, pr⟩, -, hbad⟩ := Exec.bind_eq_ok.mp hbad
  exact respond_ne_notImplemented hbad

/-- A line that gets 400 when it arrives alone is refused by the parser. -/
theorem lineRefused_of_handle {line : List UInt8} {errnoEinval : Bool} (h0 : 0 ∉ line)
    (hline : NoCrlf line) (hget : getText <:+: line)
    (hfit : (line ++ crlf).length + 3 ≤ buffSize)
    (h : handle errnoEinval (fill (line ++ crlf)) (line ++ crlf).length = .ok .badRequest) :
    LineRefused errnoEinval line := by
  have htext : text (line ++ crlf) = line ++ crlf := by rw [text_append h0]; rfl
  obtain ⟨buff, hat, -, hhandle⟩ := handle_get errnoEinval (line ++ crlf).length hfit
    (by rw [htext]; exact hget.trans (List.prefix_append _ _).isInfix)
  rw [htext, List.append_assoc] at hat
  have hpre : line ++ crlfcrlf <+: buff := by
    obtain ⟨post, hpost⟩ := hat.eq_append
    rw [List.drop_zero] at hpost
    exact ⟨_, hpost.symm⟩
  have hsize : ((line ++ crlf).length : Int) + 2 = ((line ++ crlfcrlf).length : Nat) := by
    simp only [crlfcrlf, crlf, List.length_append, List.length_cons, List.length_nil]
    omega
  have hbound : line.length + 4 ≤ 65535 := by
    simp only [crlf, List.length_append, List.length_cons, List.length_nil, buffSize] at hfit
    omega
  rw [hhandle, hsize] at h
  obtain ⟨⟨val, pr⟩, hparse, h⟩ := Exec.bind_eq_ok.mp h
  refine ⟨val, pr, ?_, ?_⟩
  · rw [parse_bareLine errnoEinval h0 hline hbound (List.prefix_refl _), ← hparse,
      parse_bareLine errnoEinval h0 hline hbound hpre]
  · rintro rfl
    obtain ⟨r, -, hacc⟩ := respond_accepted (line ++ crlf).length hparse
    exact absurd (hacc.symm.trans h) (by simp)

section

variable {line rest : List UInt8} {errnoEinval : Bool}

theorem cut_whole (line rest : List UInt8) :
    Cut (line ++ (crlf ++ rest)) [line ++ (crlf ++ rest)] :=
  cut_singleton (by simp [crlf])

/-- A request cut behind its first line end. -/
theorem cut_lines (hrest : rest ≠ []) : Cut (line ++ (crlf ++ rest)) [line ++ crlf, rest] := by
  refine ⟨by simp, ?_⟩
  simpa [crlf] using hrest

/-- With a NUL before the line end, the loop asks for more after the whole request. -/
theorem SegmentationIndependent.no_nul (h : SegmentationIndependent errnoEinval
    (line ++ (crlf ++ rest))) (hline : NoCrlf line)
    (hfit : (line ++ (crlf ++ rest)).length + 3 ≤ buffSize) : 0 ∉ line := by
  intro h0
  have hno : ¬ crlf <:+: text (line ++ (crlf ++ rest)) := by
    rw [text_append_of_mem h0]
    exact hline.mono (List.takeWhile_prefix _).isInfix
  have hstep := recvLoop_cons [] (line ++ (crlf ++ rest)) [] 0 (by rw [List.nil_append]; omega)
  rw [List.nil_append, if_neg hno] at hstep
  have hrun : recvLoop [some (line ++ (crlf ++ rest))] (List.replicate buffSize 0) 0 0 =
      .ok none := hstep
  obtain ⟨outcome, hout, -⟩ := h _ _ (cut_whole line rest) (cut_whole line rest)
  simp only [List.map_cons, List.map_nil, clientHelper, hrun, Exec.ok_bind] at hout
  cases hout

theorem text_line (h0 : 0 ∉ line) : text (line ++ crlf) = line ++ crlf := by
  rw [text_append h0]
  rfl

theorem crlf_infix_text_line (h0 : 0 ∉ line) : crlf <:+: text (line ++ crlf) := by
  rw [text_line h0]
  exact (List.suffix_append line crlf).isInfix

/-- Cut behind a line end without `"GET"` before it the request gets 501, in one piece it
does not. -/
theorem SegmentationIndependent.get_in_line (h : SegmentationIndependent errnoEinval
    (line ++ (crlf ++ rest))) (hrest : rest ≠ [])
    (hfit : (line ++ (crlf ++ rest)).length + 3 ≤ buffSize)
    (hfit' : (line ++ crlf).length + 3 ≤ buffSize) (h0 : 0 ∉ line)
    (hget : getText <:+: text (line ++ (crlf ++ rest))) : getText <:+: line := by
  by_contra hgl
  obtain ⟨outcome, hout, hout'⟩ := h _ _ (cut_lines hrest) (cut_whole line rest)
  have hno : ¬ getText <:+: text (line ++ crlf) := by
    rw [text_line h0]
    exact fun hin => hgl ((infix_append_iff (by decide) not_mem_crlf_of_mem_getText).mp hin)
  rw [List.map_cons, clientHelper_cons errnoEinval _ (by omega) (crlf_infix_text_line h0),
    handle_notImplemented errnoEinval _ hfit' hno] at hout
  cases hout
  have hinf : crlf <:+: text (line ++ (crlf ++ rest)) := by
    rw [text_append h0, text_append (by decide)]
    exact ⟨line, text rest, by simp⟩
  rw [List.map_cons, clientHelper_cons errnoEinval _ (by omega) hinf] at hout'
  obtain ⟨outcome, hhandle, heq⟩ := Exec.map_eq_ok.mp hout'
  cases heq
  exact handle_ne_notImplemented hfit hget hhandle

/-- Cut inside a line with `"GET"` the request gets 400, so it does when cut behind the line end. -/
theorem SegmentationIndependent.lineRefused (h : SegmentationIndependent errnoEinval
    (line ++ (crlf ++ rest))) (hline : NoCrlf line) (hrest : rest ≠ [])
    (hfit' : (line ++ crlf).length + 3 ≤ buffSize) (h0 : 0 ∉ line) (hgl : getText <:+: line) :
    LineRefused errnoEinval line := by
  obtain ⟨c, tail, hsplit⟩ : ∃ c tail, line ++ crlf = c :: tail :=
    List.exists_cons_of_ne_nil (by simp [crlf])
  have htail : tail ≠ [] := by
    rintro rfl
    have hsum := congrArg List.length hsplit
    have hle := hgl.length_le
    simp only [getText, ascii, crlf, List.length_append, List.length_map, List.length_cons,
      List.length_nil] at hsum hle
    omega
  have hpieces : Cut (line ++ (crlf ++ rest)) [[c], tail, rest] := by
    refine ⟨?_, by simpa using ⟨htail, hrest⟩⟩
    rw [← List.append_assoc, hsplit]
    simp
  obtain ⟨outcome, hout, hout'⟩ := h _ _ hpieces (cut_lines hrest)
  rw [clientHelper_split errnoEinval h0 hline hgl hsplit hfit'] at hout
  cases hout
  rw [List.map_cons, clientHelper_cons errnoEinval _ (by omega) (crlf_infix_text_line h0)] at hout'
  obtain ⟨outcome, hhandle, heq⟩ := Exec.map_eq_ok.mp hout'
  cases heq
  exact lineRefused_of_handle h0 hline hgl hfit' hhandle

end

/-- A request that is treated alike in all pieces is of the kind described. -/
theorem uniform_of_segmentationIndependent {line rest : List UInt8} {errnoEinval : Bool}
    (hline : NoCrlf line) (hrest : rest ≠ [])
    (hfit : (line ++ (crlf ++ rest)).length + 3 ≤ buffSize)
    (h : SegmentationIndependent errnoEinval (line ++ (crlf ++ rest))) :
    Uniform errnoEinval (line ++ (crlf ++ rest)) := by
  have hfit' : (line ++ crlf).length + 3 ≤ buffSize := by
    simp only [List.length_append] at hfit ⊢
    omega
  have h0 := h.no_nul hline hfit
  rw [Uniform, firstLine_eq hline]
  refine ⟨h0, ?_⟩
  by_cases hget : getText <:+: text (line ++ (crlf ++ rest))
  · have hgl := h.get_in_line hrest hfit hfit' h0 hget
    exact Or.inr ⟨hgl, h.lineRefused hline hrest hfit' h0 hgl⟩
  · exact Or.inl hget

/-- A request of the kind described is treated alike in all pieces. -/
theorem segmentationIndependent_of_uniform {line rest : List UInt8} {errnoEinval : Bool}
    (hline : NoCrlf line) (hfit : (line ++ (crlf ++ rest)).length + 3 ≤ buffSize)
    (h : Uniform errnoEinval (line ++ (crlf ++ rest))) :
    SegmentationIndependent errnoEinval (line ++ (crlf ++ rest)) := by
  rw [Uniform, firstLine_eq hline] at h
  obtain ⟨h0, hkind⟩ := h
  suffices hone : ∃ outcome, ∀ chunks, Cut (line ++ (crlf ++ rest)) chunks →
      clientHelper errnoEinval (chunks.map some) = .ok (some outcome) by
    obtain ⟨outcome, hall⟩ := hone
    exact fun chunks chunks' hcut hcut' => ⟨outcome, hall chunks hcut, hall chunks' hcut'⟩
  have hshorter {rest' : List UInt8} (hrest : rest' <+: rest) :
      (line ++ (crlf ++ rest')).length + 3 ≤ buffSize := by
    have hle := hrest.length_le
    simp only [List.length_append] at hfit ⊢
    omega
  rcases hkind with hget | ⟨hget, hrefused⟩
  · refine ⟨.notImplemented, fun chunks hcut => ?_⟩
    obtain ⟨rest', last, hrest, hlast, hrun⟩ :=
      clientHelper_cut errnoEinval h0 hline hcut (by omega)
    have hno : ¬ getText <:+: text (line ++ (crlf ++ rest')) := by
      intro hin
      obtain ⟨more, rfl⟩ := hrest
      apply hget
      rw [text_append h0, text_append (by decide)] at hin ⊢
      refine hin.trans (List.IsPrefix.isInfix ?_)
      simpa only [List.prefix_append_right_inj] using text_prefix_append rest' more
    rw [hrun, handle_notImplemented errnoEinval _ (hshorter hrest) hno]
    rfl
  · refine ⟨.badRequest, fun chunks hcut => ?_⟩
    obtain ⟨rest', last, hrest, hlast, hrun⟩ :=
      clientHelper_cut errnoEinval h0 hline hcut (by omega)
    rw [hrun, handle_lineRefused h0 hline hget hrefused (hshorter hrest) hlast]
    rfl

/-- What happens to a request is independent of its pieces exactly for the requests described. -/
theorem segmentationIndependent_iff {r : List UInt8} (errnoEinval : Bool)
    (hend : crlfcrlf <:+ r) (hlen : r.length ≤ 65000) :
    SegmentationIndependent errnoEinval r ↔ Uniform errnoEinval r := by
  obtain ⟨i, hi⟩ := findSub_isSome ((List.infix_append [] crlf crlf).trans hend.isInfix)
  obtain ⟨line, rest, rfl, -, hline⟩ := findSub_crlf_eq_some hi
  have hfit : (line ++ (crlf ++ rest)).length + 3 ≤ buffSize := by
    rw [buffSize]
    omega
  have hrest : rest ≠ [] := by
    rintro rfl
    rw [List.append_nil] at hend
    obtain ⟨pre, hpre⟩ := hend
    have hsame : pre ++ crlf = line := by
      rw [crlfcrlf, ← List.append_assoc] at hpre
      exact List.append_cancel_right hpre
    exact hline (hsame ▸ (List.suffix_append pre crlf).isInfix)
  exact ⟨uniform_of_segmentationIndependent hline hrest hfit,
    segmentationIndependent_of_uniform hline hfit⟩

/-- A request without `"GET"` gets 501 in all pieces. -/
theorem segmentationIndependent_post :
    SegmentationIndependent false (ascii ['P', 'O', 'S', 'T', ' ', '/'] ++ crlfcrlf) :=
  (segmentationIndependent_iff false (by decide) (by decide)).mpr
    ⟨by decide, Or.inl (by decide)⟩

/-- The request for `http://a:80/b` is passed on in one piece and refused in three. -/
theorem not_segmentationIndependent_get :
    ¬ SegmentationIndependent false (sampleLine.render ++ crlfcrlf) := by
  intro h
  have hpieces : Cut (sampleLine.render ++ crlfcrlf)
      [[71], sampleLine.render.tail ++ crlf, crlf] := ⟨by decide, by decide⟩
  obtain ⟨outcome, hwhole, hcut⟩ := h _ _ (cut_singleton (by decide)) hpieces
  rw [clientHelper_split false (by decide) (by decide) (by decide)
    (show sampleLine.render ++ crlf = _ by decide) (by decide)] at hcut
  cases hcut
  have hplain := clientHelper_plain sampleLine_wellFormed.valid (by decide) (by decide)
  exact absurd (hplain.symm.trans hwhole) (by simp)

end ComputerNetworks.Proxy
