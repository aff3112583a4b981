import ComputerNetworks.Proxy.ParseBounds

/-!
# Headers read line by line

Every line of a header section is meant to be a header of its own. The search
for the colon runs on into the lines and the body behind, and the byte behind
the colon is dropped whatever it is, so this holds of some requests only.
-/

namespace ComputerNetworks.Proxy

open LastWrite

/-- The key of a line: what stands before its first colon. -/
def keyOf (l : List UInt8) : List UInt8 := l.takeWhile (· != 58)

/-- What stands behind its first colon. -/
def behindKey (l : List UInt8) : List UInt8 := (l.dropWhile (· != 58)).tail

/-- The header a line is meant to be: of its value one leading space is dropped. -/
def headerOf (l : List UInt8) : List UInt8 × List UInt8 :=
  (keyOf l, if (behindKey l).head? = some 32 then (behindKey l).tail else behindKey l)

/-- The value stored for a line: without the byte behind the colon or, when there is none, the
LF of the line and the next line. -/
def storedValue (l next : List UInt8) : List UInt8 :=
  if behindKey l = [] then 10 :: next else (behindKey l).tail

/-- The headers stored for lines that all have a colon. -/
def storedHeaders : List (List UInt8) → List (List UInt8 × List UInt8)
  | [] => []
  | l :: ls => (keyOf l, storedValue l (ls.headD [])) :: storedHeaders ls

/-- The last line of each key has a space right behind its first colon. -/
def LastSpaced (hs : List (List UInt8)) : Prop :=
  ∀ pre l post, hs = pre ++ l :: post → keyOf l ∉ post.map keyOf → (behindKey l).head? = some 32

/-- No header is found in the last line, or nothing is looked for. -/
def Colonless (line : List UInt8) (hs : List (List UInt8)) (body : List UInt8) : Prop :=
  65535 < (requestText line hs body).length ∨ (∃ l ∈ hs, 0 ∈ l) ∨
    (∀ l ∈ hs.getLast?, 58 ∉ l) ∧ 58 ∉ body.takeWhile (· != 0)

/-- A line with a colon is its key, the colon and the rest. -/
theorem line_eq {l : List UInt8} (h : 58 ∈ l) :
    l = keyOf l ++ 58 :: behindKey l ∧ 58 ∉ keyOf l := by
  obtain ⟨k, w, rfl, hk, -⟩ := exists_key h
  have hall := bne_of_not_mem hk
  have hkey : keyOf (k ++ 58 :: w) = k := by
    rw [keyOf, List.takeWhile_append_of_pos hall, List.takeWhile_cons_of_neg (by simp),
      List.append_nil]
  have hbehind : behindKey (k ++ 58 :: w) = w := by
    rw [behindKey, List.dropWhile_append_of_pos hall, List.dropWhile_cons_of_neg (by simp)]
    rfl
  rw [hkey, hbehind]
  exact ⟨rfl, hk⟩

/-- The stored header is the one meant when a space stands behind the colon, and only then. -/
theorem storedValue_eq_iff (l next : List UInt8) :
    (keyOf l, storedValue l next) = headerOf l ↔ (behindKey l).head? = some 32 := by
  rw [headerOf, storedValue, Prod.mk.injEq, and_iff_right rfl]
  cases behindKey l with
  | nil => simp
  | cons c v =>
    by_cases hc : c = 32
    · simp [hc]
    · simp [hc]

/-- The stored headers have the keys of the lines. -/
theorem keys_storedHeaders (hs : List (List UInt8)) :
    (storedHeaders hs).map Prod.fst = (hs.map headerOf).map Prod.fst := by
  induction hs with
  | nil => rfl
  | cons l ls ih => rw [storedHeaders, List.map_cons, List.map_cons, List.map_cons, ih]; rfl

/-- Only the last line of a key needs its space. -/
theorem lastSpaced_cons {l : List UInt8} {ls : List (List UInt8)} : LastSpaced (l :: ls) ↔
    (keyOf l ∉ ls.map keyOf → (behindKey l).head? = some 32) ∧ LastSpaced ls := by
  constructor
  · intro h
    refine ⟨h [] l ls rfl, fun pre m post hls => ?_⟩
    exact h (l :: pre) m post (by rw [hls, List.cons_append])
  · rintro ⟨hl, hls⟩ pre m post heq
    rcases List.cons_eq_append_iff.1 heq with ⟨rfl, hm⟩ | ⟨pre', rfl, hpre⟩
    · cases hm
      exact hl
    · exact hls pre' m post hpre

/-- What is stored is what is meant when a space stands behind the colon in each line that is
not overwritten by a later one. -/
theorem keepLast_storedHeaders_iff (hs : List (List UInt8)) :
    keepLast (storedHeaders hs) = keepLast (hs.map headerOf) ↔ LastSpaced hs := by
  induction hs with
  | nil => simp [storedHeaders, LastSpaced]
  | cons l ls ih =>
    have hkeys : (storedHeaders ls).map Prod.fst = ls.map keyOf := by
      rw [keys_storedHeaders, List.map_map]
      rfl
    have hkey : (keyOf l, storedValue l (ls.headD [])).1 = (headerOf l).1 := rfl
    rw [storedHeaders, List.map_cons, keepLast_cons_eq_iff hkey (keys_storedHeaders ls),
      storedValue_eq_iff, hkeys, ih, lastSpaced_cons]

/-- The first line of what follows a line. -/
theorem exists_next_line (ls : List (List UInt8)) (body : List UInt8) :
    ∃ rest, sectionText ls ++ (crlf ++ body) = ls.headD [] ++ (crlf ++ rest) := by
  cases ls with
  | nil => exact ⟨body, rfl⟩
  | cons m ms => exact ⟨sectionText ms ++ (crlf ++ body), by simp⟩

/-- At a line with a colon its key is read, and the value that is stored for it. -/
theorem headerAt_line {b l body : List UInt8} {ls : List (List UInt8)} {p : Nat}
    (hcolon : 58 ∈ l) (hlines : HeaderLines (l :: ls))
    (hat : CStrAt b p (l ++ (crlf ++ (sectionText ls ++ (crlf ++ body))))) :
    HeaderAt b p (keyOf l, storedValue l (ls.headD [])) := by
  obtain ⟨hl, hk⟩ := line_eq hcolon
  have hno := (hlines l List.mem_cons_self).2
  obtain ⟨rest, hnext⟩ := exists_next_line ls body
  cases hw : behindKey l with
  | nil =>
    -- the line ends with its colon, so CR is skipped and LF is read with the next line
    have hstored : storedValue l (ls.headD []) = 10 :: ls.headD [] := by rw [storedValue, if_pos hw]
    have hnextCrlf : NoCrlf (ls.headD []) := by
      cases ls with
      | nil => exact (by decide : NoCrlf [])
      | cons m ms => exact (hlines.tail m List.mem_cons_self).2
    rw [hl, hw, hnext] at hat
    have hval : CStrAt b (p + (keyOf l ++ [58, 13]).length)
        (10 :: ls.headD [] ++ (crlf ++ rest)) := by
      refine CStrAt.suffix ?_
      simpa [crlf] using hat
    rw [List.length_append, ← Nat.add_assoc] at hval
    refine ⟨⟨crlf ++ (ls.headD [] ++ (crlf ++ rest)), by simpa using hat⟩, hk, ⟨rest, ?_⟩, ?_⟩
    · rw [hstored]
      exact hval
    · rw [hstored]
      exact hnextCrlf.cons_of_ne (by decide)
  | cons c v =>
    have hstored : storedValue l (ls.headD []) = v := by
      rw [storedValue, if_neg (by simp [hw]), hw, List.tail_cons]
    rw [hl, hw] at hat
    have hval : CStrAt b (p + (keyOf l ++ [58, c]).length)
        (v ++ (crlf ++ (sectionText ls ++ (crlf ++ body)))) := by
      refine CStrAt.suffix ?_
      simpa using hat
    rw [List.length_append, ← Nat.add_assoc] at hval
    refine ⟨⟨c :: v ++ (crlf ++ (sectionText ls ++ (crlf ++ body))), by simpa using hat⟩, hk,
      ⟨sectionText ls ++ (crlf ++ body), ?_⟩, ?_⟩
    · rw [hstored]
      exact hval
    · rw [hstored]
      rw [hw] at hl
      exact hno.mono ⟨keyOf l ++ [58, c], [], by simpa using hl.symm⟩

/-- At lines that all have a colon the headers read are those that are stored. -/
theorem headersAt_stored {b body : List UInt8} {hs : List (List UInt8)} {c : Nat}
    (hcolons : ∀ l ∈ hs, 58 ∈ l) (hlines : HeaderLines hs)
    (hat : CStrAt b c (sectionText hs ++ (crlf ++ body))) :
    ParsedHeader.HeadersAt b (c + (sectionText hs ++ (crlf ++ body)).length)
      (headerStarts (sectionText hs ++ (crlf ++ body))) (storedHeaders hs) := by
  induction hs generalizing c with
  | nil =>
    have hno : isHeader (sectionText [] ++ (crlf ++ body)) = false := isHeader_crlf body
    rw [headerStarts_of_not hno]
    exact .nil
  | cons l ls ih =>
    rw [sectionText_cons, List.append_assoc, List.append_assoc] at hat ⊢
    have hno := (hlines l List.mem_cons_self).2
    rw [headerStarts_line (hlines.isHeader _) hno]
    refine .cons ?_ ?_
    · rw [Nat.add_sub_cancel]
      exact headerAt_line (hcolons l List.mem_cons_self) hlines hat
    · have hnext := ih (fun m hm => hcolons m (List.mem_cons_of_mem l hm)) hlines.tail
        (ParsedHeader.cstrAt_nextLine hat)
      have hend : c + l.length + 2 + (sectionText ls ++ (crlf ++ body)).length =
          c + (l ++ (crlf ++ (sectionText ls ++ (crlf ++ body)))).length := by
        simp only [crlf, List.length_append, List.length_cons, List.length_nil]
        omega
      rwa [hend] at hnext

/-- What `ParsedRequest_parse` answers on a request. -/
def answer (errnoEinval : Bool) (line : List UInt8) (hs : List (List UInt8)) (body : List UInt8) :
    Run (Int × ParsedRequest) :=
  ParsedRequest.parse (fun _ => true) errnoEinval .create (requestText line hs body)
    (requestText line hs body).length

/-- The request is read line by line: it is accepted if every header line has a colon, and only
then, with the headers its lines are meant to be, and the body has no influence. -/
def ReadLineByLine (errnoEinval : Bool) (line : List UInt8) (hs : List (List UInt8))
    (body : List UInt8) : Prop :=
  ∃ ret pr ret' pr', answer errnoEinval line hs body = .ok (ret, pr) ∧
    answer errnoEinval line hs [] = .ok (ret', pr') ∧
    (ret = 0 ↔ ∀ l ∈ hs, 58 ∈ l) ∧ (ret = 0 → pr.live = keepLast (hs.map headerOf)) ∧
    ret' = ret ∧ (ret = 0 → pr'.requestLine = pr.requestLine ∧ pr'.live = pr.live)

section

variable {errnoEinval : Bool} {line : List UInt8} {hs : List (List UInt8)}

theorem min_le_length (line : List UInt8) (hs : List (List UInt8)) (body : List UInt8) :
    4 ≤ (requestText line hs body).length := (crlfcrlf_infix_requestText line hs body).length_le

/-- A request without a NUL before its body, in its copy. -/
theorem exists_sections (hline : Clean line) (hlines : HeaderLines hs) (hnul : ∀ l ∈ hs, 0 ∉ l)
    (body : List UInt8) : ∃ after, Sections
      ((requestText line hs body).take (requestText line hs body).length ++ [0]) line hs
      (body.takeWhile (· != 0)) after := by
  have hat := cstrAt_terminated body
  obtain ⟨after, hafter⟩ := hat.eq_append
  rw [List.drop_zero] at hafter
  refine ⟨after, ?_, ?_, hline.2, hlines⟩
  · rw [List.take_length]
    simp only [requestText, List.append_assoc, hafter]
  · have hsec : 0 ∉ sectionText hs := by
      rw [sectionText, List.mem_flatMap]
      rintro ⟨l, hl, hmem⟩
      exact (List.mem_append.1 hmem).elim (hnul l hl) (by decide)
    simp only [requestText, List.mem_append, not_or]
    exact ⟨hline.1, by decide, hsec, by decide, hat.1⟩

/-- A request that is too long, or has a NUL in a header line, is refused. -/
theorem answer_unread (hline : Clean line) (hlines : HeaderLines hs) {body : List UInt8}
    (h : 65535 < (requestText line hs body).length ∨ ∃ l ∈ hs, 0 ∈ l) :
    answer errnoEinval line hs body = .ok (-1, .create) := by
  rcases h with hlong | ⟨l, hl, h0⟩
  · have hlen : ((requestText line hs body).length : Int) < minReqLen ∨
        ((requestText line hs body).length : Int) > maxReqLen := by
      right
      simp only [maxReqLen]
      omega
    rw [answer, ParsedRequest.parse, if_neg (by simp [ParsedRequest.create]), if_pos hlen]
    rfl
  · -- the text of the copy ends before the empty line
    have hat : CStrAt ((requestText line hs body).take (requestText line hs body).length ++ [0]) 0
        ((requestText line hs body).takeWhile (· != 0)) := by
      simpa only [List.take_length] using cstrAt_terminated (requestText line hs body)
    refine ParsedRequest.parse_noEnd errnoEinval le_rfl hat fun hend => ?_
    have hpre := List.takeWhile_prefix (l := requestText line hs body) (· != 0)
    have hlong := length_le_of_section hline.2 hlines hpre hend
    have hhead : requestText line hs [] <+: requestText line hs body :=
      ⟨body, by simp [requestText]⟩
    have hin := List.prefix_of_prefix_length_le hhead hpre hlong
    have hmem : 0 ∈ requestText line hs [] := by
      have hsec : 0 ∈ sectionText hs := List.mem_flatMap.2 ⟨l, hl, List.mem_append_left _ h0⟩
      simp [requestText, hsec]
    exact hat.1 (hin.subset hmem)

/-- With a colon in every line the stored headers are those of the lines, whatever the body. -/
theorem answer_colons (hline : Clean line) (hok : LineOk errnoEinval line)
    (hlines : HeaderLines hs) (hcolons : ∀ l ∈ hs, 58 ∈ l) (hnul : ∀ l ∈ hs, 0 ∉ l) :
    ∃ r : ParsedRequest, ∀ body, (requestText line hs body).length ≤ 65535 →
      ∃ t, answer errnoEinval line hs body = .ok (0, r.withHeaders t) ∧
        t.live = keepLast (storedHeaders hs) := by
  rcases ParsedRequest.parseRequestLine_answers errnoEinval (ParsedRequest.lineCopy line) hline.1
    with ⟨hends, -⟩ | ⟨-, ret, r, hrun, hret, ht⟩
  · exact absurd hends hok.not_endsInAddress
  obtain rfl : ret = 0 := hret.2 hok
  refine ⟨r, fun body hmax => ?_⟩
  obtain ⟨after, hsec⟩ := exists_sections hline hlines hnul body
  obtain ⟨hat, hdrop⟩ := hsec.section_at
  have hheads : CStrAt ((requestText line hs body).take (requestText line hs body).length ++ [0])
      (line.length + 2) (sectionText hs ++ (crlf ++ body.takeWhile (· != 0))) := by
    have hnext := ParsedHeader.cstrAt_nextLine hat
    rwa [Nat.zero_add] at hnext
  have hfuel : (sectionText hs ++ (crlf ++ body.takeWhile (· != 0))).length <
      (requestText line hs body).length + 1 := by
    have hlt := hheads.length_lt
    simp only [List.length_append, List.take_length, List.length_singleton] at hlt ⊢
    omega
  obtain ⟨t, hloop, -, hlive⟩ := ParsedHeader.parseLoop_ok hheads hfuel
    ParsedHeader.create_wellFormed (headersAt_stored hcolons hlines hheads)
  refine ⟨t, ?_, ?_⟩
  · rw [answer, ParsedRequest.parse_sections errnoEinval (min_le_length line hs body) hmax le_rfl
      hsec, hrun, Exec.ok_bind, if_neg (by simp), ht]
    exact congrArg _ hloop
  · rw [hlive, ParsedHeader.live_create, foldl_write]

/-- With no colon in some line a request is refused when no header is found in its last line. -/
theorem answer_colonless (hline : Clean line) (hok : LineOk errnoEinval line)
    (hlines : HeaderLines hs) (hne : hs ≠ []) {body : List UInt8} :
    (Colonless line hs body → ∃ pr, answer errnoEinval line hs body = .ok (-1, pr)) ∧
      ∀ ret pr, answer errnoEinval line hs body = .ok (ret, pr) → ret ≠ 0 →
        Colonless line hs body := by
  by_cases hunread : 65535 < (requestText line hs body).length ∨ ∃ l ∈ hs, 0 ∈ l
  · exact ⟨fun _ => ⟨_, answer_unread hline hlines hunread⟩,
      fun _ _ _ _ => or_assoc.1 (.inl hunread)⟩
  · have hends : Colonless line hs body ↔
        (∀ l ∈ hs.getLast?, 58 ∉ l) ∧ 58 ∉ body.takeWhile (· != 0) := by
      rw [Colonless, ← or_assoc, or_iff_right hunread]
    rw [not_or, not_lt] at hunread
    obtain ⟨hmax, hnul⟩ := hunread
    obtain ⟨after, hsec⟩ := exists_sections hline hlines (fun l hl h0 => hnul ⟨l, hl, h0⟩) body
    have hof := ParsedRequest.parse_accepted (min_le_length line hs body) hmax le_rfl hsec hok
    rw [hends, ← sectionEnds_eq_refused hne]
    refine ⟨fun hrefused => ?_, fun ret pr hrun hret => hof.eq_refused hrun hret⟩
    rw [hrefused] at hof
    exact hof

/-- A request is read line by line exactly if, with a colon in every line, it is read at all and
a space follows the colon wherever the value is kept, and otherwise no header is found in its
last line, with or without the body. -/
theorem readLineByLine_iff (errnoEinval : Bool) {line : List UInt8} {hs : List (List UInt8)}
    {body : List UInt8} (hline : Clean line) (hok : LineOk errnoEinval line)
    (hlines : HeaderLines hs) : ReadLineByLine errnoEinval line hs body ↔
      ((∀ l ∈ hs, 58 ∈ l) → (requestText line hs body).length ≤ 65535 ∧ (∀ l ∈ hs, 0 ∉ l) ∧
        LastSpaced hs) ∧
      ((¬ ∀ l ∈ hs, 58 ∈ l) → Colonless line hs body ∧ Colonless line hs []) := by
  by_cases hcolons : ∀ l ∈ hs, 58 ∈ l
  · rw [imp_iff_right hcolons, and_iff_left fun h => absurd hcolons h]
    constructor
    · rintro ⟨ret, pr, ret', pr', hrun, -, hret, hlive, -⟩
      obtain rfl : ret = 0 := hret.2 hcolons
      have hread : ¬ (65535 < (requestText line hs body).length ∨ ∃ l ∈ hs, 0 ∈ l) := by
        intro hunread
        rw [answer_unread hline hlines hunread] at hrun
        cases hrun
      rw [not_or, not_lt] at hread
      have hnul : ∀ l ∈ hs, 0 ∉ l := fun l hl h0 => hread.2 ⟨l, hl, h0⟩
      obtain ⟨r, hall⟩ := answer_colons hline hok hlines hcolons hnul
      obtain ⟨t, hrun', hlive'⟩ := hall body hread.1
      rw [hrun'] at hrun
      cases hrun
      exact ⟨hread.1, hnul, (keepLast_storedHeaders_iff hs).1 (hlive'.symm.trans (hlive rfl))⟩
    · rintro ⟨hmax, hnul, hspaced⟩
      obtain ⟨r, hall⟩ := answer_colons hline hok hlines hcolons hnul
      obtain ⟨t, hrun, hlive⟩ := hall body hmax
      have hcut : (requestText line hs []).length ≤ 65535 := by
        simp only [requestText, List.length_append, List.length_nil] at hmax ⊢
        omega
      obtain ⟨t', hrun', hlive'⟩ := hall [] hcut
      refine ⟨0, _, 0, _, hrun, hrun', iff_of_true rfl hcolons, fun _ => ?_, rfl,
        fun _ => ⟨rfl, hlive'.trans hlive.symm⟩⟩
      exact hlive.trans ((keepLast_storedHeaders_iff hs).2 hspaced)
  · have hne : hs ≠ [] := by
      rintro rfl
      exact hcolons (by simp)
    rw [imp_iff_right hcolons, and_iff_right fun h => absurd h hcolons]
    constructor
    · rintro ⟨ret, pr, ret', pr', hrun, hrun', hret, -, heq, -⟩
      have hret0 : ret ≠ 0 := fun h => hcolons (hret.1 h)
      exact ⟨(answer_colonless hline hok hlines hne).2 ret pr hrun hret0,
        (answer_colonless hline hok hlines hne).2 ret' pr' hrun' (heq ▸ hret0)⟩
    · rintro ⟨hbody, hcut⟩
      obtain ⟨pr, hrun⟩ := (answer_colonless hline hok hlines hne).1 hbody
      obtain ⟨pr', hrun'⟩ := (answer_colonless hline hok hlines hne).1 hcut
      exact ⟨-1, pr, -1, pr', hrun, hrun', iff_of_false (by decide) hcolons,
        fun h => absurd h (by decide), rfl, fun h => absurd h (by decide)⟩

/-- `GET http://a:80/b HTTP/1.0` is accepted. -/
theorem sampleLine_ok : LineOk false sampleLine.render := by
  have hport : ParsedRequest.PortOk false (ascii ['8', '0']) := by decide
  exact ⟨sampleLine.method, sampleLine.addr ++ 32 :: sampleLine.version, sampleLine.addr,
    sampleLine.version, by decide, by decide, by decide, sampleLine.protocol,
    47 :: 47 :: (sampleLine.hostTok ++ sampleLine.path), sampleLine.hostTok, ascii ['b'],
    by decide, by decide, by decide, by decide, sampleLine.host, ascii ['8', '0'], by decide, hport⟩

/-- The request with the one header `K: 1`, and a colon in its body. -/
theorem readLineByLine_iff_sample : ReadLineByLine false sampleLine.render
    [ascii ['K', ':', ' ', '1']] (ascii [':']) := by
  have hlines : HeaderLines [ascii ['K', ':', ' ', '1']] :=
    List.forall_mem_singleton.2 ⟨by decide, by decide⟩
  refine (readLineByLine_iff false sampleLine_wellFormed.valid.clean_render sampleLine_ok
    hlines).2 ⟨fun _ => ⟨by decide, by decide, ?_⟩, fun h => absurd (by decide) h⟩
  exact lastSpaced_cons.2 ⟨fun _ => by decide, fun pre l post h => by simp at h⟩

set_option maxRecDepth 4000 in
/-- A line without a colon is accepted as a part of the key on the next one, and a value that
follows its colon directly loses its first byte. -/
theorem not_readLineByLine :
    ¬ ReadLineByLine false sampleLine.render [ascii ['K'], ascii ['L', ':', ' ', '1']] [] ∧
      ¬ ReadLineByLine false sampleLine.render [ascii ['K', ':', '1']] [] := by
  constructor
  · rintro ⟨ret, pr, ret', pr', hrun, -, hret, -⟩
    have hzero : (answer false sampleLine.render [ascii ['K'], ascii ['L', ':', ' ', '1']] []).map
        Prod.fst = .ok 0 := by decide +kernel
    rw [hrun] at hzero
    exact absurd (hret.1 (Except.ok.inj hzero)) (by decide)
  · rintro ⟨ret, pr, ret', pr', hrun, -, hret, hlive, -⟩
    have hstored : (answer false sampleLine.render [ascii ['K', ':', '1']] []).map
        (fun out => out.2.live) = .ok [(ascii ['K'], [])] := by decide +kernel
    rw [hrun] at hstored
    have hmeant := (hlive (hret.2 (by decide))).symm.trans (Except.ok.inj hstored)
    exact absurd hmeant (by decide)

end

end ComputerNetworks.Proxy
