import ComputerNetworks.Proxy.ParseBounds

/-!
# A second parse on the same object

A parse that refuses the request line frees what it has stored, and another
request can be parsed into the object as into a fresh one. A parse that refuses
a header line keeps the request line and the headers read so far, and the object
takes no other request.
-/

namespace ComputerNetworks.Proxy

namespace ParsedRequest

/-- The object as the exits behind a bad request line leave it, its header store as it was. The
other pointers lead nowhere. -/
structure Cleared (t : HeaderTable) (pr : ParsedRequest) : Prop where
  buf_eq : pr.buf = none
  path_eq : pr.path = .null
  table_eq : pr.toHeaderTable = t

/-- The object holds nothing of a request. -/
structure AsNew (pr : ParsedRequest) : Prop where
  buf_eq : pr.buf = none
  path_eq : pr.path = .null
  live_eq : pr.live = []

/-- The objects hold the same: without a request line the pointers to its parts mean nothing, and
with one all fields are compared. -/
def Same (pr pr' : ParsedRequest) : Prop :=
  (pr.toHeaderTable = pr'.toHeaderTable ∧ pr.buf = none ∧ pr'.buf = none ∧ pr.path = pr'.path) ∨
    pr = pr'

/-- Two parses return the same, or leave the defined behaviour in the same way. -/
def SameAnswer (run run' : Run (Int × ParsedRequest)) : Prop :=
  (∃ fault, run = .error fault ∧ run' = .error fault) ∨
    ∃ ret pr pr', run = .ok (ret, pr) ∧ run' = .ok (ret, pr') ∧ Same pr pr'

/-- A run answers as it does. -/
theorem sameAnswer_rfl (run : Run (Int × ParsedRequest)) : SameAnswer run run := by
  cases run with
  | error fault => exact .inl ⟨fault, rfl, rfl⟩
  | ok out => exact .inr ⟨out.1, out.2, out.2, rfl, rfl, .inr rfl⟩

/-- Both runs fail alike, both store the same, or both clear their object. -/
inductive EndAlike (t : HeaderTable) :
    Run (Int × ParsedRequest) → Run (Int × ParsedRequest) → Prop where
  | fault (fault : Fault Empty) : EndAlike t (.error fault) (.error fault)
  | stored {pr : ParsedRequest} (hbuf : pr.buf ≠ none) (ht : pr.toHeaderTable = t) :
      EndAlike t (.ok (0, pr)) (.ok (0, pr))
  | refused {pr pr' : ParsedRequest} (h : pr.Cleared t) (h' : pr'.Cleared t) :
      EndAlike t (.ok (-1, pr)) (.ok (-1, pr'))

variable {t : HeaderTable} {pr pr' : ParsedRequest}

/-- The request line is parsed alike into two objects that share their header store and have no
path yet. -/
theorem parseRequestLine_alike (errnoEinval : Bool) (b : List UInt8) (ht : pr.toHeaderTable = t)
    (ht' : pr'.toHeaderTable = t) (hpath : pr.path = .null) (hpath' : pr'.path = .null)
    (block : List UInt8) (buflen : Nat) :
    EndAlike t (parseRequestLine errnoEinval { pr with buf := some block, buflen := buflen } b)
      (parseRequestLine errnoEinval { pr' with buf := some block, buflen := buflen } b) := by
  have hclears {write : ParsedRequest → ParsedRequest} (hw : Clears write) {pr : ParsedRequest}
      (ht : pr.toHeaderTable = t) (hpath : pr.path = .null) :
      Cleared t (write { pr with buf := some block, buflen := buflen }) := by
    refine ⟨hw.buf_eq _, ?_, (hw.table_eq _).trans ht⟩
    rcases hw.path_eq { pr with buf := some block, buflen := buflen } with hnull | hsame
    · exact hnull
    · exact hsame.trans hpath
  have hstores {write : ParsedRequest → ParsedRequest} (hw : Stores write) :
      EndAlike t (.ok (0, write { pr with buf := some block, buflen := buflen }))
        (.ok (0, write { pr' with buf := some block, buflen := buflen })) := by
    rw [hw.forgets { pr with buf := some block, buflen := buflen }
      { pr' with buf := some block, buflen := buflen } (ht.trans ht'.symm) rfl]
    exact .stored (hw.buf_ne _) ((hw.table_eq _).trans ht')
  cases parseRequestLine_effect b with
  | fault fault h =>
    rw [h, h]
    exact .fault fault
  | refused h hw =>
    rw [h, h]
    exact .refused (hclears hw ht hpath) (hclears hw ht' hpath')
  | stored h hw =>
    rw [h, h]
    exact hstores hw
  | judged h hc hw =>
    rw [h, h]
    cases errnoEinval with
    | true => exact .refused (hclears hc ht hpath) (hclears hc ht' hpath')
    | false => exact hstores hw

/-- A cleared object takes a request as a fresh one does. -/
theorem Cleared.sameAnswer (h : pr.Cleared ParsedHeader.create) (reallocOk : Nat → Bool)
    (errnoEinval : Bool) (buf : List UInt8) (buflen : Int) :
    SameAnswer (parse reallocOk errnoEinval pr buf buflen)
      (parse reallocOk errnoEinval create buf buflen) := by
  have hsame : Same pr create := .inl ⟨h.table_eq, h.buf_eq, rfl, h.path_eq⟩
  have hbuf : ¬ pr.buf ≠ none := not_not.2 h.buf_eq
  have hbuf' : ¬ create.buf ≠ none := not_not.2 rfl
  rw [parse, parse, if_neg hbuf, if_neg hbuf']
  by_cases hlen : buflen < minReqLen ∨ buflen > maxReqLen
  · rw [if_pos hlen, if_pos hlen]
    exact .inr ⟨-1, pr, create, rfl, rfl, hsame⟩
  rw [if_neg hlen, if_neg hlen]
  by_cases hshort : buf.length < buflen.toNat
  · rw [if_pos hshort, if_pos hshort]
    exact .inl ⟨_, rfl, rfl⟩
  rw [if_neg hshort, if_neg hshort]
  simp only [Exec.pure_eq_ok]
  cases hend : (strstr (buf.take buflen.toNat ++ [0]) 0 crlfcrlf : Run _) with
  | error fault => exact .inl ⟨fault, rfl, rfl⟩
  | ok found =>
    cases found with
    | none => exact .inr ⟨-1, pr, create, rfl, rfl, hsame⟩
    | some i =>
      simp only [Exec.ok_bind]
      cases hfirst : (strstr (buf.take buflen.toNat ++ [0]) 0 crlf : Run _) with
      | error fault => exact .inl ⟨fault, rfl, rfl⟩
      | ok found =>
        cases found with
        | none => exact .inl ⟨_, rfl, rfl⟩
        | some index =>
          simp only [Exec.ok_bind]
          have hline := parseRequestLine_alike errnoEinval
            ((buf.take buflen.toNat ++ [0]).take index ++ [0]) h.table_eq
            (show create.toHeaderTable = ParsedHeader.create from rfl) h.path_eq rfl
            ((buf.take buflen.toNat ++ [0]).take index ++ [0]) (index + 1)
          generalize parseRequestLine errnoEinval _ _ = run at hline ⊢
          generalize parseRequestLine errnoEinval _ _ = run' at hline ⊢
          cases hline with
          | fault fault => exact .inl ⟨fault, rfl, rfl⟩
          | stored hbuf ht => exact sameAnswer_rfl _
          | refused h h' =>
            exact .inr ⟨-1, _, _, rfl, rfl,
              .inl ⟨h.table_eq.trans h'.table_eq.symm, h.buf_eq, h'.buf_eq,
                by rw [h.path_eq, h'.path_eq]⟩⟩

/-- A parse that returns -1 leaves the object as new, and whatever is parsed into it next is
answered as on a fresh object. -/
def LeavesAsNew (errnoEinval : Bool) (buf : List UInt8) (buflen : Int) : Prop :=
  ∀ pr, parse (fun _ => true) errnoEinval create buf buflen = .ok (-1, pr) →
    pr.AsNew ∧ ∀ errnoEinval' buf' buflen',
      SameAnswer (parse (fun _ => true) errnoEinval' pr buf' buflen')
        (parse (fun _ => true) errnoEinval' create buf' buflen')

/-- The request line is accepted and the search for the colon of the last header line fails. -/
def RefusedAtHeader (errnoEinval : Bool) (buf : List UInt8) (buflen : Int) : Prop :=
  4 ≤ buflen ∧ buflen ≤ 65535 ∧ buflen ≤ buf.length ∧ ∃ line hs body after,
    Sections (buf.take buflen.toNat ++ [0]) line hs body after ∧ LineOk errnoEinval line ∧
      hs ≠ [] ∧ (∀ l ∈ hs.getLast?, 58 ∉ l) ∧ 58 ∉ body

/-- A request whose fields were cleared is as good as new. -/
theorem Cleared.asNew (h : pr.Cleared ParsedHeader.create) : pr.AsNew where
  buf_eq := h.buf_eq
  path_eq := h.path_eq
  live_eq := by
    rw [h.table_eq]
    rfl

/-- A fresh object stores the request line or is cleared. -/
theorem lineCopy_alike (errnoEinval : Bool) (line : List UInt8) :
    EndAlike ParsedHeader.create (parseRequestLine errnoEinval (lineCopy line) (line ++ [0]))
      (parseRequestLine errnoEinval (lineCopy line) (line ++ [0])) :=
  @parseRequestLine_alike ParsedHeader.create create create errnoEinval (line ++ [0])
    rfl rfl rfl rfl (line ++ [0]) (line.length + 1)

/-- Behind a request line that has been stored the object keeps it. -/
theorem parse_sections_stored {errnoEinval : Bool} {buf line body after : List UInt8}
    {hs : List (List UInt8)} {n : Nat} {ret : Int} (hmin : 4 ≤ n) (hmax : n ≤ 65535)
    (hn : n ≤ buf.length) (h : Sections (buf.take n ++ [0]) line hs body after)
    (hok : LineOk errnoEinval line)
    (hrun : parse (fun _ => true) errnoEinval create buf n = .ok (ret, pr)) : pr.buf ≠ none := by
  have h0 : 0 ∉ line := fun hc => h.no_nul (List.mem_append_left _ hc)
  have halike := lineCopy_alike errnoEinval line
  rw [parse_sections errnoEinval hmin hmax hn h] at hrun
  rcases parseRequestLine_answers errnoEinval (lineCopy line) h0 with
    ⟨hends, -⟩ | ⟨-, ret', pr₁, hline, hret, -⟩
  · exact absurd hends hok.not_endsInAddress
  obtain rfl := hret.2 hok
  rw [hline] at halike hrun
  cases halike with
  | stored hbuf ht =>
    rw [Exec.ok_bind, if_neg (not_not.2 rfl)] at hrun
    obtain ⟨t, -, hpr⟩ := Exec.map_eq_ok.1 hrun
    cases hpr
    exact hbuf

/-- Behind a request line that is not accepted the object is cleared. -/
theorem parse_sections_cleared {errnoEinval : Bool} {buf line body after : List UInt8}
    {hs : List (List UInt8)} {n : Nat} {ret : Int} (hmin : 4 ≤ n) (hmax : n ≤ 65535)
    (hn : n ≤ buf.length) (h : Sections (buf.take n ++ [0]) line hs body after)
    (hno : ¬ LineOk errnoEinval line)
    (hrun : parse (fun _ => true) errnoEinval create buf n = .ok (ret, pr)) :
    pr.Cleared ParsedHeader.create := by
  have h0 : 0 ∉ line := fun hc => h.no_nul (List.mem_append_left _ hc)
  have halike := lineCopy_alike errnoEinval line
  rw [parse_sections errnoEinval hmin hmax hn h] at hrun
  rcases parseRequestLine_answers errnoEinval (lineCopy line) h0 with
    ⟨-, hline⟩ | ⟨-, ret', pr₁, hline, hret, -⟩
  · rw [hline] at hrun
    cases hrun
  rw [hline] at halike hrun
  cases halike with
  | stored hbuf ht => exact absurd (hret.1 rfl) hno
  | refused hcleared _ =>
    rw [Exec.ok_bind, if_pos (show (-1 : Int) ≠ 0 by decide)] at hrun
    cases hrun
    exact hcleared

/-- A parse that returns -1 has cleared the object, unless it failed at a header. -/
theorem parse_refused_cleared {errnoEinval : Bool} {buf : List UInt8} {buflen : Int}
    (hrun : parse (fun _ => true) errnoEinval create buf buflen = .ok (-1, pr))
    (hnot : ¬ RefusedAtHeader errnoEinval buf buflen) : pr.Cleared ParsedHeader.create := by
  have hcreate : create.Cleared ParsedHeader.create := ⟨rfl, rfl, rfl⟩
  have hall := hrun
  rw [parse, if_neg (by simp [create])] at hrun
  by_cases hlen : buflen < minReqLen ∨ buflen > maxReqLen
  · rw [if_pos hlen] at hrun
    cases hrun
    exact hcreate
  rw [if_neg hlen] at hrun
  by_cases hshort : buf.length < buflen.toNat
  · rw [if_pos hshort] at hrun
    cases hrun
  simp only [minReqLen, maxReqLen, not_or, Int.not_lt] at hlen
  obtain ⟨n, rfl⟩ := Int.eq_ofNat_of_zero_le (show 0 ≤ buflen by omega)
  rw [Int.toNat_natCast] at hshort
  have htext := cstrAt_terminated (buf.take n)
  by_cases hend : crlfcrlf <:+: (buf.take n).takeWhile (· != 0)
  · obtain ⟨line, hs, body, after, h⟩ := sections_of_text htext hend
    by_cases hok : LineOk errnoEinval line
    · refine absurd ⟨by omega, by omega, by omega, line, hs, body, after, h, hok, ?_⟩ hnot
      have hends := (parse_accepted (by omega) (by omega) (by omega) h hok).eq_refused hall
        (by decide)
      have hne : hs ≠ [] := by
        rintro rfl
        cases hends
      exact ⟨hne, (sectionEnds_eq_refused hne).1 hends⟩
    · exact parse_sections_cleared (by omega) (by omega) (by omega) h hok hall
  · rw [parse_noEnd errnoEinval (by omega) htext hend] at hall
    cases hall
    exact hcreate

/-- A refusal leaves the object as new exactly if it is not one at a header. -/
theorem parse_leavesAsNew_iff (errnoEinval : Bool) (buf : List UInt8) (buflen : Int) :
    LeavesAsNew errnoEinval buf buflen ↔ ¬ RefusedAtHeader errnoEinval buf buflen := by
  constructor
  · rintro hnew ⟨hmin, hmax, hn, line, hs, body, after, h, hok, hne, hrefused⟩
    obtain ⟨n, rfl⟩ := Int.eq_ofNat_of_zero_le (show 0 ≤ buflen by omega)
    rw [Int.toNat_natCast] at h
    have hends := parse_accepted (by omega) (by omega) (by omega) h hok
    rw [(sectionEnds_eq_refused hne).2 hrefused] at hends
    obtain ⟨pr, hrun⟩ := hends
    exact parse_sections_stored (by omega) (by omega) (by omega) h hok hrun
      (hnew pr hrun).1.buf_eq
  · intro hnot pr hrun
    have hcleared := parse_refused_cleared hrun hnot
    exact ⟨hcleared.asNew, hcleared.sameAnswer (fun _ => true)⟩

end ParsedRequest

/-- `GET http://a/ HTTP/1.0` with a header line that has no colon. -/
def colonless : List UInt8 :=
  requestText (ascii ['G', 'E', 'T', ' ', 'h', 't', 't', 'p', ':', '/', '/', 'a', '/', ' ',
    'H', 'T', 'T', 'P', '/', '1', '.', '0']) [ascii ['K']] []

set_option maxRecDepth 4000 in
/-- The object of a parse refused at a header keeps the request line. -/
theorem not_parse_leavesAsNew : ¬ ParsedRequest.LeavesAsNew false colonless colonless.length := by
  intro hnew
  have hkeeps : (fun out => (out.1, out.2.buf.isSome)) <$> ParsedRequest.parse (fun _ => true)
      false .create colonless colonless.length = .ok (-1, true) := by decide +kernel
  obtain ⟨⟨ret, pr⟩, hrun, hout⟩ := Exec.map_eq_ok.1 hkeeps
  obtain ⟨rfl, hbuf⟩ := Prod.mk.inj hout
  rw [(hnew pr hrun).1.buf_eq] at hbuf
  cases hbuf

end ComputerNetworks.Proxy
