import ComputerNetworks.Proxy.ParseBounds
import ComputerNetworks.Proxy.ReceiveLoop

/-!
# Which answer a request gets

`client_helper` answers 501 when the letters GET occur nowhere in the text of
the request, before it is parsed, and 400 or not at all otherwise. The requests
on which this is the answer of the parser and the method are described by their
text.
-/

namespace ComputerNetworks.Proxy

open ClientHelper

/-- The parts of a text with a complete header section. -/
structure Parts (text line : List UInt8) (hs : List (List UInt8)) (body : List UInt8) : Prop where
  text_eq : text = requestText line hs body
  line_crlf : NoCrlf line
  lines : HeaderLines hs

/-- `ParsedRequest_parse` on a request that has been received in one piece. -/
def parserAnswer (errnoEinval : Bool) (q : List UInt8) : Run (Int × ParsedRequest) := do
  let buff ← strcat (fill q) crlf
  ParsedRequest.parse (fun _ => true) errnoEinval .create buff (q.length + 2)

/-- The parser accepts the request with this method. -/
def Accepts (errnoEinval : Bool) (q method : List UInt8) : Prop :=
  ∃ pr, parserAnswer errnoEinval q = .ok (0, pr) ∧ pr.deref pr.method = .ok method

/-- The parser rejects the request. -/
def Rejects (errnoEinval : Bool) (q : List UInt8) : Prop :=
  ∃ ret pr, parserAnswer errnoEinval q = .ok (ret, pr) ∧ ret ≠ 0

/-- The request is well formed, but not for GET. -/
def OtherMethod (errnoEinval : Bool) (q : List UInt8) : Prop :=
  ∃ method, Accepts errnoEinval q method ∧ method ≠ getText

/-- A request that arrives in one piece is answered 501 exactly if it is well formed and its method
is another one, 400 exactly if the parser rejects it, and passed on in all other cases. -/
def Classified (errnoEinval : Bool) (q : List UInt8) : Prop :=
  (clientHelper errnoEinval [some q] = .ok (some .notImplemented) ↔ OtherMethod errnoEinval q) ∧
  (clientHelper errnoEinval [some q] = .ok (some .badRequest) ↔ Rejects errnoEinval q) ∧
  ((∃ request headers sent, clientHelper errnoEinval [some q] =
      .ok (some (.forward request headers sent))) ↔
    ¬ OtherMethod errnoEinval q ∧ ¬ Rejects errnoEinval q)

/-- The text of a request for a method. The line end behind it is the one `client_helper` adds. -/
def IsRequest (errnoEinval : Bool) (q method : List UInt8) : Prop :=
  q.length ≤ 65533 ∧ ∃ line hs body rest, Parts (text q ++ crlf) line hs body ∧
    LineOk errnoEinval line ∧ sectionEnds hs body [] = .read ∧
    token (ascii [' ']) line = some (method, rest)

/-- The text of a request on which the parser leaves its buffers. -/
def LeavesParser (errnoEinval : Bool) (q : List UInt8) : Prop :=
  q.length ≤ 65533 ∧ ∃ line hs body, Parts (text q ++ crlf) line hs body ∧
    (EndsInAddress line ∨ LineOk errnoEinval line ∧ ValueLost hs body [])

/-- The text has a line end and fits in with another one; with the letters GET in it, it is no
request for another method and stays inside the parser, and without them it is a request. -/
def ClassifiedText (errnoEinval : Bool) (q : List UInt8) : Prop :=
  crlf <:+: text q ∧ q.length < buffSize ∧ (text q).length + 3 ≤ buffSize ∧
    (getText <:+: text q ∧ ¬ LeavesParser errnoEinval q ∧
        (∀ method, IsRequest errnoEinval q method → method = getText) ∨
      ¬ getText <:+: text q ∧ ∃ method, IsRequest errnoEinval q method)

theorem parts_of_sections {b text line body after : List UInt8} {hs : List (List UInt8)}
    (hat : CStrAt b 0 text) (h : Sections b line hs body after) : Parts text line hs body := by
  exact ⟨hat.unique h.section_at.1, h.line_crlf, h.lines⟩

/-- The parts of a text are the sections of a buffer that holds it. -/
theorem Parts.sections {b text line body : List UInt8} {hs : List (List UInt8)}
    (h : Parts text line hs body) (hat : CStrAt b 0 text) :
    ∃ after, Sections b line hs body after := by
  obtain ⟨after, hafter⟩ := hat.eq_append
  rw [List.drop_zero] at hafter
  rw [h.text_eq] at hat hafter
  exact ⟨after, hafter, hat.1, h.line_crlf, h.lines⟩

/-- Two bytes behind a colon that is not the last byte nothing is read beyond the NUL. -/
theorem sectionEnds_inside {hs : List (List UInt8)} {body : List UInt8} (after : List UInt8)
    (hlast : body.getLast? ≠ some 58) : sectionEnds hs body after = sectionEnds hs body [] := by
  have hreading : readingEnds body after = readingEnds body [] := by
    by_cases hcolon : 58 ∈ body
    · obtain ⟨k, w, rfl, hk, -⟩ := exists_key hcolon
      cases w with
      | nil => exact absurd (by simp) hlast
      | cons c w =>
        have hbehind (after : List UInt8) :
            behindColon (k ++ 58 :: c :: w) after = w.takeWhile (· != 0) := by
          rw [behindColon_key hk]
          exact takeWhile_append_nul w after
        rw [readingEnds, readingEnds, hbehind after, hbehind []]
    · rw [readingEnds, readingEnds, if_neg hcolon, if_neg hcolon]
  rw [sectionEnds, sectionEnds, hreading]

/-- A body that ends with the request ends with a line end. -/
theorem Parts.getLast_body {x line body : List UInt8} {hs : List (List UInt8)}
    (h : Parts (x ++ crlf) line hs body) : body.getLast? ≠ some 58 := by
  intro hlast
  have hend : (requestText line hs body).getLast? = some 58 := by
    simp only [requestText, List.getLast?_append, hlast, Option.some_or]
  rw [← h.text_eq] at hend
  simp [crlf] at hend

/-- The first word of the line is the method of an accepted request. -/
theorem method_of_accepted {errnoEinval : Bool} {buf line body after : List UInt8}
    {hs : List (List UInt8)} {n : Nat} {pr : ParsedRequest}
    (h : Sections (buf.take n ++ [0]) line hs body after)
    (hrun : ParsedRequest.parse (fun _ => true) errnoEinval .create buf n = .ok (0, pr)) :
    ∃ method rest, token (ascii [' ']) line = some (method, rest) ∧
      pr.deref pr.method = .ok method := by
  obtain ⟨n', hn', -, -, line', s, r, kvs, hacc, hr, -⟩ := ParsedRequest.parse_inv hrun
  obtain rfl : n = n' := Int.ofNat.inj hn'
  obtain ⟨afterMethod, _, _, _, _, _, hsplits⟩ := hacc.splits
  have htext : requestText line hs body = line' ++ (crlf ++ s) :=
    h.section_at.1.unique hacc.text_at
  have hfirst := findSub_crlf h.line_crlf (sectionText hs ++ (crlf ++ body))
  have hlen : line.length = line'.length := by
    rw [← requestText, htext, findSub_crlf hacc.line_crlf] at hfirst
    exact (Option.some.inj hfirst).symm
  obtain ⟨rfl, -⟩ := List.append_inj htext hlen
  exact ⟨r.method, afterMethod, hsplits.method_eq, (ParsedRequest.requestLine_inv hr).1⟩

section

variable {errnoEinval : Bool} {q : List UInt8}

/-- The array the parser is given. -/
theorem parserAnswer_eq (hq : q.length < buffSize) (hroom : (text q).length + 3 ≤ buffSize)
    (errnoEinval : Bool) :
    ∃ buff, strcat (fill q) crlf = .ok buff ∧ buff.length = buffSize ∧
      CStrAt (buff.take (q.length + 2) ++ [0]) 0 (text q ++ crlf) ∧
      parserAnswer errnoEinval q =
        ParsedRequest.parse (fun _ => true) errnoEinval .create buff (q.length + 2 : Nat) := by
  obtain ⟨buff, hcat, hat, hlen, -⟩ := strcat_text hq hroom
  refine ⟨buff, hcat, hlen, ?_, by rw [parserAnswer, hcat]; rfl⟩
  have hle := length_text_le q
  have htake := hat.take (q.length + 2)
  have hall : (text q ++ crlf).length ≤ q.length + 2 := by
    simp only [crlf, List.length_append, List.length_cons, List.length_nil]
    omega
  rwa [List.take_of_length_le hall] at htake

/-- The parser takes the length it is given, with the lower bound that the CRLF in the
text makes. -/
theorem parser_bounds {buff : List UInt8} (hq : q.length < buffSize) (hmax : q.length ≤ 65533)
    (hcrlf : crlf <:+: text q) (hlen : buff.length = buffSize) :
    4 ≤ q.length + 2 ∧ q.length + 2 ≤ 65535 ∧ q.length + 2 ≤ buff.length := by
  have hmin := hcrlf.length_le.trans (length_text_le q)
  have hbound : buffSize = 65535 := rfl
  simp only [crlf, List.length_cons, List.length_nil] at hmin
  omega

/-- The parser accepts a request. -/
theorem accepts_of_isRequest {method : List UInt8} (hq : q.length < buffSize)
    (hroom : (text q).length + 3 ≤ buffSize) (hcrlf : crlf <:+: text q)
    (h : IsRequest errnoEinval q method) : Accepts errnoEinval q method := by
  obtain ⟨hmax, line, hs, body, rest, hparts, hok, hends, hmethod⟩ := h
  obtain ⟨buff, -, hlen, hat, hanswer⟩ := parserAnswer_eq hq hroom errnoEinval
  obtain ⟨after, hsections⟩ := hparts.sections hat
  obtain ⟨hmin, hmax', hfits⟩ := parser_bounds hq hmax hcrlf hlen
  have hread := ParsedRequest.parse_accepted hmin hmax' hfits hsections hok
  rw [sectionEnds_inside after hparts.getLast_body, hends] at hread
  obtain ⟨pr, hrun⟩ := hread
  obtain ⟨method', rest', hmethod', hderef⟩ := method_of_accepted hsections hrun
  cases hmethod.symm.trans hmethod'
  exact ⟨pr, hanswer.trans hrun, hderef⟩

/-- A text that leads the parser out of its buffer has no answer. -/
theorem error_of_leavesParser (hq : q.length < buffSize) (hroom : (text q).length + 3 ≤ buffSize)
    (hcrlf : crlf <:+: text q) (h : LeavesParser errnoEinval q) :
    ∃ fault, parserAnswer errnoEinval q = .error fault := by
  obtain ⟨hmax, line, hs, body, hparts, hcases⟩ := h
  obtain ⟨buff, -, hlen, hat, hanswer⟩ := parserAnswer_eq hq hroom errnoEinval
  obtain ⟨after, hsections⟩ := hparts.sections hat
  obtain ⟨hmin, hmax', hfits⟩ := parser_bounds hq hmax hcrlf hlen
  rw [hanswer]
  rcases hcases with hends | ⟨hok, hlost⟩
  · have hno : ¬ LineOk errnoEinval line := fun hok => hok.not_endsInAddress hends
    rcases ParsedRequest.parse_refused hmin hmax' hfits hsections hno with
      ⟨-, hrun⟩ | ⟨hnot, -⟩
    · exact ⟨_, hrun⟩
    · exact absurd hends hnot
  · have hread := ParsedRequest.parse_accepted hmin hmax' hfits hsections hok
    rw [sectionEnds_inside after hparts.getLast_body, sectionEnds_eq_lost.2 hlost] at hread
    rcases hread with hrun | hrun
    · exact ⟨_, hrun⟩
    · exact ⟨_, hrun⟩

/-- Every other text is rejected. -/
theorem rejects_of_not (hq : q.length < buffSize) (hroom : (text q).length + 3 ≤ buffSize)
    (hcrlf : crlf <:+: text q) (hno : ¬ ∃ method, IsRequest errnoEinval q method)
    (hin : ¬ LeavesParser errnoEinval q) : Rejects errnoEinval q := by
  obtain ⟨buff, -, hlen, hat, hanswer⟩ := parserAnswer_eq hq hroom errnoEinval
  by_cases hmax : q.length ≤ 65533
  · obtain ⟨hmin, hmax', hfits⟩ := parser_bounds hq hmax hcrlf hlen
    by_cases hend : crlfcrlf <:+: text q ++ crlf
    · obtain ⟨line, hs, body, after, hsections⟩ := sections_of_text hat hend
      have hparts := parts_of_sections hat hsections
      by_cases hok : LineOk errnoEinval line
      · have hread := ParsedRequest.parse_accepted hmin hmax' hfits hsections hok
        rw [sectionEnds_inside after hparts.getLast_body] at hread
        cases hends : sectionEnds hs body [] with
        | read =>
          have hmethod := hok
          obtain ⟨method, rest, _, _, hmethod, -⟩ := hmethod
          exact absurd ⟨method, hmax, line, hs, body, rest, hparts, hok, hends, hmethod⟩ hno
        | refused =>
          rw [hends] at hread
          obtain ⟨pr, hrun⟩ := hread
          exact ⟨-1, pr, hanswer.trans hrun, by decide⟩
        | lost =>
          exact absurd ⟨hmax, line, hs, body, hparts, .inr ⟨hok, sectionEnds_eq_lost.1 hends⟩⟩ hin
      · rcases ParsedRequest.parse_refused hmin hmax' hfits hsections hok with
          ⟨hends, -⟩ | ⟨-, out, hrun, hret⟩
        · exact absurd ⟨hmax, line, hs, body, hparts, .inl hends⟩ hin
        · exact ⟨out.1, out.2, hanswer.trans hrun, hret⟩
    · have hrun : ParsedRequest.parse (fun _ => true) errnoEinval .create buff
          (q.length + 2 : Nat) = .ok (-1, .create) :=
        ParsedRequest.parse_noEnd errnoEinval hfits hat hend
      exact ⟨-1, .create, hanswer.trans hrun, by decide⟩
  · refine ⟨-1, .create, ?_, by decide⟩
    have hlong : ((q.length + 2 : Nat) : Int) < minReqLen ∨
        ((q.length + 2 : Nat) : Int) > maxReqLen := by
      simp only [minReqLen, maxReqLen]
      omega
    rw [hanswer, ParsedRequest.parse, if_neg (by simp [ParsedRequest.create]), if_pos hlong]
    rfl

/-- A request that gets the right answer gets one. -/
theorem Classified.answered (h : Classified errnoEinval q) :
    ∃ outcome, clientHelper errnoEinval [some q] = .ok (some outcome) := by
  by_cases hother : OtherMethod errnoEinval q
  · exact ⟨_, h.1.2 hother⟩
  by_cases hrejects : Rejects errnoEinval q
  · exact ⟨_, h.2.1.2 hrejects⟩
  obtain ⟨request, headers, sent, hforward⟩ := h.2.2.2 ⟨hother, hrejects⟩
  exact ⟨_, hforward⟩

/-- Before the first line end the proxy waits for more. -/
theorem clientHelper_waits (h : q.length < buffSize) (hno : ¬ crlf <:+: text q) :
    clientHelper errnoEinval [some q] = .ok none := by
  have hrun : recvLoop [some q] (List.replicate buffSize 0) 0 0 = .ok none := by
    have hstep := recvLoop_cons [] q [] 0 h
    rw [List.nil_append, if_neg hno] at hstep
    exact hstep
  rw [clientHelper, hrun]
  rfl

/-- A request that fills the buffer overflows it. -/
theorem clientHelper_overflows (h : buffSize ≤ q.length) :
    clientHelper errnoEinval [some q] = .error .outOfBounds := by
  have hrun : recvLoop [some q] (List.replicate buffSize 0) 0 0 = .error .outOfBounds :=
    @recvLoop_full [] q (by decide) h [] 0
  rw [clientHelper, hrun]
  rfl

/-- Only a text with a line end that fits in with another one gets an answer. -/
theorem fits_of_answered {outcome : Outcome}
    (h : clientHelper errnoEinval [some q] = .ok (some outcome)) :
    crlf <:+: text q ∧ q.length < buffSize ∧ (text q).length + 3 ≤ buffSize := by
  have hq : q.length < buffSize := by
    by_contra hlong
    rw [clientHelper_overflows (by omega)] at h
    cases h
  have hcrlf : crlf <:+: text q := by
    by_contra hno
    rw [clientHelper_waits hq hno] at h
    cases h
  rw [clientHelper_cons errnoEinval [] hq hcrlf] at h
  obtain ⟨_, hhandle, -⟩ := Exec.map_eq_ok.1 h
  obtain ⟨buff, hcat, -⟩ := Exec.bind_eq_ok.1 hhandle
  exact ⟨hcrlf, hq, length_text_of_strcat hq hcat⟩

/-- With the letters GET in it the parser's answer decides. -/
theorem clientHelper_hasGet (errnoEinval : Bool) (hcrlf : crlf <:+: text q)
    (hq : q.length < buffSize) (hroom : (text q).length + 3 ≤ buffSize)
    (hget : getText <:+: text q) :
    ∃ buff, strcat (fill q) crlf = .ok buff ∧ clientHelper errnoEinval [some q] =
      some <$> (parserAnswer errnoEinval q >>= fun out => respond buff q.length out.1 out.2) := by
  obtain ⟨buff, hcat, -, -, hhandle⟩ := handle_hasGet errnoEinval q.length hq hroom hget
  refine ⟨buff, hcat, ?_⟩
  rw [clientHelper_cons errnoEinval [] hq hcrlf, hhandle, parserAnswer, hcat]
  rfl

/-- What the parser rejects is answered with 400. -/
theorem clientHelper_rejected (hcrlf : crlf <:+: text q) (hq : q.length < buffSize)
    (hroom : (text q).length + 3 ≤ buffSize) (hget : getText <:+: text q)
    (h : Rejects errnoEinval q) : clientHelper errnoEinval [some q] = .ok (some .badRequest) := by
  obtain ⟨buff, -, hrun⟩ := clientHelper_hasGet errnoEinval hcrlf hq hroom hget
  obtain ⟨ret, pr, hanswer, hret⟩ := h
  rw [hrun, hanswer, Exec.ok_bind, respond_refused hret]
  rfl

/-- What the parser accepts is forwarded. -/
theorem clientHelper_accepted {method : List UInt8} (hcrlf : crlf <:+: text q)
    (hq : q.length < buffSize) (hroom : (text q).length + 3 ≤ buffSize)
    (hget : getText <:+: text q) (h : Accepts errnoEinval q method) :
    ∃ request headers sent, clientHelper errnoEinval [some q] =
      .ok (some (.forward request headers sent)) := by
  obtain ⟨buff, hcat, hrun⟩ := clientHelper_hasGet errnoEinval hcrlf hq hroom hget
  obtain ⟨pr, hanswer, -⟩ := h
  obtain ⟨buff', hcat', -, -, hparse⟩ := parserAnswer_eq hq hroom errnoEinval
  cases hcat.symm.trans hcat'
  obtain ⟨r, -, hrespond⟩ := respond_accepted q.length (hparse.symm.trans hanswer)
  have hout : clientHelper errnoEinval [some q] = some <$> respond buff q.length 0 pr := by
    rw [hrun, hanswer]
    rfl
  rw [hrespond] at hout
  exact ⟨_, _, _, hout⟩

/-- What holds no `GET` is answered with 501. -/
theorem clientHelper_noGet (hcrlf : crlf <:+: text q) (hq : q.length < buffSize)
    (hroom : (text q).length + 3 ≤ buffSize) (hget : ¬ getText <:+: text q) :
    clientHelper errnoEinval [some q] = .ok (some .notImplemented) := by
  rw [clientHelper_cons errnoEinval [] hq hcrlf, handle_noGet errnoEinval q.length hq hroom hget]
  rfl

/-- A request is accepted under one method. -/
theorem Accepts.unique {method method' : List UInt8} (h : Accepts errnoEinval q method)
    (h' : Accepts errnoEinval q method') : method = method' := by
  obtain ⟨pr, hanswer, hmethod⟩ := h
  obtain ⟨pr', hanswer', hmethod'⟩ := h'
  cases hanswer.symm.trans hanswer'
  exact Except.ok.inj (hmethod.symm.trans hmethod')

/-- No request is both accepted and rejected. -/
theorem Accepts.not_rejects {method : List UInt8} (h : Accepts errnoEinval q method) :
    ¬ Rejects errnoEinval q := by
  rintro ⟨ret, pr', hanswer', hret⟩
  obtain ⟨pr, hanswer, -⟩ := h
  cases hanswer.symm.trans hanswer'
  exact hret rfl

/-- A line that is not accepted is not accepted with any method. -/
theorem not_accepts {line body method : List UInt8} {hs : List (List UInt8)}
    (hmax : q.length ≤ 65533) (hroom : (text q).length + 3 ≤ buffSize) (hcrlf : crlf <:+: text q)
    (hparts : Parts (text q ++ crlf) line hs body) (hno : ¬ LineOk errnoEinval line) :
    ¬ Accepts errnoEinval q method := by
  rintro ⟨pr, hanswer, -⟩
  have hbound : buffSize = 65535 := rfl
  obtain ⟨buff, -, hlen, hat, hparse⟩ := parserAnswer_eq (by omega) hroom errnoEinval
  obtain ⟨after, hsections⟩ := hparts.sections hat
  have hmin := hcrlf.length_le.trans (length_text_le q)
  simp only [crlf, List.length_cons, List.length_nil] at hmin
  rw [hparse] at hanswer
  rcases ParsedRequest.parse_refused (by omega) (by omega) (by omega) hsections hno with
    ⟨-, hrun⟩ | ⟨-, out, hrun, hret⟩
  · cases hrun.symm.trans hanswer
  · cases hrun.symm.trans hanswer
    exact hret rfl

/-- The method of a request is part of its text. -/
theorem IsRequest.method_infix {method : List UInt8} (h : IsRequest errnoEinval q method)
    (hget : method = getText) : getText <:+: text q := by
  obtain ⟨-, line, hs, body, rest, hparts, -, -, hmethod⟩ := h
  have hinf : method <:+: text q ++ crlf := by
    rw [hparts.text_eq]
    exact (infix_of_token hmethod).1.trans (List.prefix_append _ _).isInfix
  rw [hget] at hinf
  exact (infix_append_iff (by decide) not_mem_crlf_of_mem_getText).1 hinf

/-- A request that arrives in one piece gets the right answer exactly if its text is of the kind
described. -/
theorem classified_iff (errnoEinval : Bool) (q : List UInt8) :
    Classified errnoEinval q ↔ ClassifiedText errnoEinval q := by
  constructor
  · intro h
    obtain ⟨outcome, houtcome⟩ := h.answered
    obtain ⟨hcrlf, hq, hroom⟩ := fits_of_answered houtcome
    refine ⟨hcrlf, hq, hroom, ?_⟩
    by_cases hget : getText <:+: text q
    · refine .inl ⟨hget, fun hleaves => ?_, fun method hmethod => ?_⟩
      · obtain ⟨fault, hfault⟩ := error_of_leavesParser hq hroom hcrlf hleaves
        obtain ⟨buff, -, hrun⟩ := clientHelper_hasGet errnoEinval hcrlf hq hroom hget
        rw [hrun, hfault] at houtcome
        cases houtcome
      · have haccepts := accepts_of_isRequest hq hroom hcrlf hmethod
        by_contra hother
        have hanswer := h.1.2 ⟨method, haccepts, hother⟩
        obtain ⟨request, headers, sent, hforward⟩ :=
          clientHelper_accepted hcrlf hq hroom hget haccepts
        cases hforward.symm.trans hanswer
    · refine .inr ⟨hget, ?_⟩
      obtain ⟨method, haccepts, -⟩ := h.1.1 (clientHelper_noGet hcrlf hq hroom hget)
      by_contra hno
      by_cases hleaves : LeavesParser errnoEinval q
      · obtain ⟨fault, hfault⟩ := error_of_leavesParser hq hroom hcrlf hleaves
        obtain ⟨pr, hanswer, -⟩ := haccepts
        cases hfault.symm.trans hanswer
      · exact haccepts.not_rejects (rejects_of_not hq hroom hcrlf hno hleaves)
  · rintro ⟨hcrlf, hq, hroom, ⟨hget, hin, hmethod⟩ | ⟨hget, method, hrequest⟩⟩
    · by_cases hrequest : ∃ method, IsRequest errnoEinval q method
      · obtain ⟨method, hrequest⟩ := hrequest
        obtain rfl := hmethod method hrequest
        have haccepts := accepts_of_isRequest hq hroom hcrlf hrequest
        have hother : ¬ OtherMethod errnoEinval q :=
          fun ⟨method, haccepts', hne⟩ => hne (haccepts'.unique haccepts)
        obtain ⟨request, headers, sent, hforward⟩ :=
          clientHelper_accepted hcrlf hq hroom hget haccepts
        rw [Classified, hforward]
        exact ⟨iff_of_false (by simp) hother, iff_of_false (by simp) haccepts.not_rejects,
          iff_of_true ⟨_, _, _, rfl⟩ ⟨hother, haccepts.not_rejects⟩⟩
      · have hrejects := rejects_of_not hq hroom hcrlf hrequest hin
        have hother : ¬ OtherMethod errnoEinval q :=
          fun ⟨method, haccepts, _⟩ => haccepts.not_rejects hrejects
        rw [Classified, clientHelper_rejected hcrlf hq hroom hget hrejects]
        exact ⟨iff_of_false (by simp) hother, iff_of_true rfl hrejects,
          iff_of_false (by simp) fun hrest => hrest.2 hrejects⟩
    · have haccepts := accepts_of_isRequest hq hroom hcrlf hrequest
      have hother : OtherMethod errnoEinval q :=
        ⟨method, haccepts, fun heq => hget (hrequest.method_infix heq)⟩
      rw [Classified, clientHelper_noGet hcrlf hq hroom hget]
      exact ⟨iff_of_true rfl hother, iff_of_false (by simp) haccepts.not_rejects,
        iff_of_false (by simp) fun hrest => hrest.1 hother⟩

end

/-- `POST http://a/GET HTTP/1.0`. -/
def postLine : List UInt8 :=
  ascii ['P', 'O', 'S', 'T', ' ', 'h', 't', 't', 'p', ':', '/', '/', 'a', '/', 'G', 'E', 'T', ' ',
    'H', 'T', 'T', 'P', '/', '1', '.', '0']

theorem postLine_ok : LineOk false postLine := by
  refine ⟨ascii ['P', 'O', 'S', 'T'], postLine.drop 5, (postLine.drop 5).take 12, postLine.drop 18,
    by decide, by decide, by decide, ascii ['h', 't', 't', 'p'],
    ascii ['/', '/', 'a', '/', 'G', 'E', 'T'], ascii ['a'], ascii ['G', 'E', 'T'], by decide,
    by decide, by decide, by decide, ascii ['a'], [], by decide, ParsedRequest.portOk_false []⟩

/-- A line of one word. -/
def oneWord : List UInt8 := ascii ['X']

theorem oneWord_not_ok : ¬ LineOk false oneWord := by
  rintro ⟨method, afterMethod, addr, version, hmethod, haddr, -⟩
  have hword : token (ascii [' ']) oneWord = some (oneWord, []) := by decide
  cases hword.symm.trans hmethod
  cases haddr

/-- A request for POST is passed on when its path contains the letters GET, and a malformed request
without them gets 501. -/
theorem not_classified :
    ¬ Classified false (postLine ++ crlfcrlf) ∧ ¬ Classified false (oneWord ++ crlfcrlf) := by
  constructor
  · intro h
    have hrequest : IsRequest false (postLine ++ crlfcrlf) (ascii ['P', 'O', 'S', 'T']) :=
      ⟨by decide, postLine, [], crlf, postLine.drop 5, ⟨by decide, by decide, nofun⟩, postLine_ok,
        rfl, by decide⟩
    have haccepts := accepts_of_isRequest (by decide) (by decide) (by decide) hrequest
    obtain ⟨request, headers, sent, hforward⟩ :=
      clientHelper_accepted (by decide) (by decide) (by decide) (by decide) haccepts
    cases hforward.symm.trans (h.1.2 ⟨_, haccepts, by decide⟩)
  · intro h
    have hanswer : clientHelper false [some (oneWord ++ crlfcrlf)] = .ok (some .notImplemented) :=
      clientHelper_noGet (by decide) (by decide) (by decide) (by decide)
    obtain ⟨method, haccepts, -⟩ := h.1.1 hanswer
    have hparts : Parts (text (oneWord ++ crlfcrlf) ++ crlf) oneWord [] crlf :=
      ⟨by decide, by decide, nofun⟩
    exact not_accepts (by decide) (by decide) (by decide) hparts oneWord_not_ok haccepts

end ComputerNetworks.Proxy
