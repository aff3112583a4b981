import ComputerNetworks.Proxy.HeaderStore
import ComputerNetworks.Proxy.LineEffect

/-!
# The header store out of memory

`ParsedHeader_set` overwrites the array pointer with the result of `realloc`. If
that is null the call returns -1, the entries are lost and the count of entries
stays: every later walk over them, the one of `ParsedRequest_destroy` included,
goes through the null pointer.
-/

namespace ComputerNetworks.Proxy

namespace ParsedHeader

/-- `ParsedHeader_destroyOne`: free the strings of a live entry. -/
def destroyOne (ph : ParsedHeader) : ParsedHeader :=
  if ph.key ≠ none then { ph with key := none } else ph

/-- The loop of `ParsedHeader_destroy`, with `n` entries left from index `i` on. -/
def destroyLoop (hs : List ParsedHeader) : Nat → Nat → Run (List ParsedHeader)
  | 0, _ => .ok hs
  | n + 1, i =>
    match hs[i]? with
    | none => .error .outOfBounds
    | some ph => destroyLoop (hs.set i ph.destroyOne) n (i + 1)

/-- `ParsedHeader_destroy`. Nobody looks at the pointer to the freed array again. -/
def destroy (t : HeaderTable) : Run HeaderTable :=
  match t.headers with
  | none => if t.headersused = 0 then .ok ⟨none, 0, 0⟩ else .error .nullPointer
  | some hs => (fun _ => ⟨none, 0, 0⟩) <$> destroyLoop hs t.headersused 0

end ParsedHeader

/-- `free` of a pointer field, after the block of `parse->buf` has been freed. -/
def CharPtr.free : CharPtr → Run Unit
  | .null => .ok ()
  | .indeterminate => .error .indeterminate
  | .buf _ => .error .dangling
  | .str _ => .ok ()

namespace ParsedRequest

/-- `ParsedRequest_destroy`. -/
def destroy (pr : ParsedRequest) : Run Unit := do
  pr.path.free
  if 0 < pr.headerslen then
    let _ ← ParsedHeader.destroy pr.toHeaderTable

/-- A call on a request. `reallocOk n` says whether growing the array to `n` entries succeeds. -/
inductive Op where
  | parse (reallocOk : Nat → Bool) (errnoEinval : Bool) (buf : List UInt8) (buflen : Int)
  | set (reallocOk : Nat → Bool) (key value : List UInt8)
  | remove (key : List UInt8)
  | get (key : List UInt8)

/-- `ParsedHeader_set` on a request. -/
def set (reallocOk : Nat → Bool) (pr : ParsedRequest) (key value : List UInt8) :
    Run (Int × ParsedRequest) :=
  (fun out => (out.1, pr.withHeaders out.2)) <$>
    ParsedHeader.set reallocOk pr.toHeaderTable key value

/-- The calls on a request, with and without memory. -/
def machine : Machine Empty ParsedRequest Op where
  enabled := fun _ _ => True
  step := fun pr op =>
    match op with
    | .parse reallocOk errnoEinval buf buflen =>
      Prod.snd <$> ParsedRequest.parse reallocOk errnoEinval pr buf buflen
    | .set reallocOk key value => Prod.snd <$> pr.set reallocOk key value
    | .remove key => (fun out => pr.withHeaders out.2) <$> ParsedHeader.remove pr.toHeaderTable key
    | .get key => (fun _ => pr) <$> ParsedHeader.get pr.toHeaderTable key

end ParsedRequest

/-- The array between two calls: in order, or gone with its entries still counted. -/
inductive HeaderTable.Kept (t : HeaderTable) : Prop where
  | inOrder (h : t.WellFormed) (hlen : 1 < t.headerslen)
  | lost (hnull : t.headers = none) (hused : 0 < t.headersused)

namespace ParsedHeader

variable {t t' : HeaderTable} {reallocOk : Nat → Bool} {key value : List UInt8} {ret : Int}

/-- The array has to grow for the next entry and cannot. -/
def OutOfMemory (reallocOk : Nat → Bool) (t : HeaderTable) : Prop :=
  t.headerslen ≤ t.headersused + 1 ∧ ¬ reallocOk (t.headerslen * 2)

/-- A walk over lost entries goes through the null pointer. -/
theorem get_lost (hnull : t.headers = none) (hused : 0 < t.headersused) (key : List UInt8) :
    get t key = .error .nullPointer := by
  rw [get, hnull]
  exact if_neg (by omega)

/-- Destroying a lost array follows a null pointer. -/
theorem destroy_lost (hnull : t.headers = none) (hused : 0 < t.headersused) :
    destroy t = .error .nullPointer := by
  rw [destroy, hnull]
  exact if_neg (by omega)

/-- Removing an entry moves no counter. -/
theorem remove_counters (hremove : remove t key = .ok (ret, t')) :
    t'.headersused = t.headersused ∧ t'.headerslen = t.headerslen := by
  obtain ⟨found, -, hfound⟩ := Exec.bind_eq_ok.1 hremove
  cases found with
  | none =>
    cases hfound
    exact ⟨rfl, rfl⟩
  | some i =>
    cases hfound
    exact ⟨rfl, rfl⟩

/-- Without memory the call returns -1 and the array is gone. -/
theorem set_outOfMemory (h : t.WellFormed) (hout : OutOfMemory reallocOk t)
    (key value : List UInt8) :
    set reallocOk t key value = .ok (-1, ⟨none, t.headersused, t.headerslen * 2⟩) := by
  obtain ⟨ret, t₁, hremove, -⟩ := remove_spec h key
  obtain ⟨hused, hlen⟩ := remove_counters hremove
  simp only [set, hremove, Exec.ok_bind, hused, hlen, if_pos hout.1]
  rw [if_pos ⟨hout.1, hout.2⟩]
  rfl

/-- A call that need not grow the array, or can, is one with memory. -/
theorem set_of_memory (hmem : ¬ OutOfMemory reallocOk t) :
    set reallocOk t key value = set (fun _ => true) t key value := by
  unfold set
  cases hremove : remove t key with
  | error fault => rfl
  | ok out =>
    obtain ⟨hused, hlen⟩ := remove_counters hremove
    simp only [Exec.ok_bind, hused, hlen, not_true_eq_false, and_false, if_false]
    by_cases hfull : t.headerslen ≤ t.headersused + 1
    · have hok : reallocOk (t.headerslen * 2) = true := by
        by_contra hno
        exact hmem ⟨hfull, hno⟩
      simp only [if_pos hfull, hok, not_true_eq_false, and_false, if_false]
    · simp only [hfull, false_and, if_false]

/-- An array in order that holds an entry has room for two. -/
theorem one_lt_headerslen (h : t.WellFormed) (hlive : t.live ≠ []) : 1 < t.headerslen := by
  obtain ⟨hs, hhs, hused⟩ := h.used
  have hroom := h.room
  have hne : hs ≠ [] := by
    rintro rfl
    exact hlive (by rw [HeaderTable.live, hhs]; rfl)
  have hpos := List.length_pos_iff.2 hne
  omega

/-- What a call of `ParsedHeader_set` that returns has done. -/
theorem set_cases (h : t.Kept) (hset : set reallocOk t key value = .ok (ret, t')) :
    (t.WellFormed ∧ OutOfMemory reallocOk t ∧ ret = -1 ∧
      t' = ⟨none, t.headersused, t.headerslen * 2⟩) ∨
      (t.WellFormed ∧ ¬ OutOfMemory reallocOk t ∧ ret = 0 ∧ t'.WellFormed ∧
        t'.live = LastWrite.write t.live (key, value)) := by
  cases h with
  | lost hnull hused =>
    rw [set, remove, get_lost hnull hused] at hset
    cases hset
  | inOrder hwf hlen =>
    by_cases hout : OutOfMemory reallocOk t
    · rw [set_outOfMemory hwf hout key value] at hset
      cases hset
      exact .inl ⟨hwf, hout, rfl, rfl⟩
    · obtain ⟨t₁, hset₁, hwf₁, hlive⟩ := set_spec hwf key value
      rw [set_of_memory hout, hset₁] at hset
      cases hset
      exact .inr ⟨hwf, hout, rfl, hwf₁, hlive⟩

/-- A set that returns keeps the array. -/
theorem kept_set (h : t.Kept) (hset : set reallocOk t key value = .ok (ret, t')) : t'.Kept := by
  rcases set_cases h hset with ⟨hwf, hout, -, rfl⟩ | ⟨-, -, -, hwf', hlive⟩
  · refine .lost rfl ?_
    cases h with
    | inOrder _ hlen =>
      have hfull := hout.1
      simp only
      omega
    | lost _ hused => exact hused
  · refine .inOrder hwf' (one_lt_headerslen hwf' ?_)
    rw [hlive, LastWrite.write]
    exact List.append_ne_nil_of_right_ne_nil _ (List.cons_ne_nil _ _)

/-- So does a removal. -/
theorem kept_remove (h : t.Kept) (hremove : remove t key = .ok (ret, t')) : t'.Kept := by
  cases h with
  | inOrder hwf hlen =>
    obtain ⟨ret₁, t₁, hremove₁, hwf₁, hlen₁, -⟩ := remove_spec hwf key
    rw [hremove₁] at hremove
    cases hremove
    exact .inOrder hwf₁ (by omega)
  | lost hnull hused =>
    rw [remove, get_lost hnull hused] at hremove
    cases hremove

/-- The walk of `ParsedHeader_destroy` stays in an array that holds all counted entries. -/
theorem destroyLoop_ok (n : Nat) {hs : List ParsedHeader} {i : Nat} (h : hs.length = i + n) :
    ∃ hs', destroyLoop hs n i = .ok hs' := by
  induction n generalizing hs i with
  | zero => exact ⟨hs, rfl⟩
  | succ n ih =>
    have hi : i < hs.length := by omega
    rw [destroyLoop, List.getElem?_eq_getElem hi]
    exact ih (by rw [List.length_set]; omega)

/-- A well-formed table can be destroyed. -/
theorem destroy_wellFormed (h : t.WellFormed) : destroy t = .ok ⟨none, 0, 0⟩ := by
  obtain ⟨hs, hhs, hused⟩ := h.used
  obtain ⟨hs', hloop⟩ := destroyLoop_ok t.headersused (hused.trans (Nat.zero_add _).symm)
  rw [destroy, hhs]
  exact Exec.map_eq_ok.2 ⟨hs', hloop, rfl⟩

/-- A header line that is parsed keeps the array. -/
theorem kept_parse {b : List UInt8} {line : Nat} (h : t.Kept)
    (hparse : parse reallocOk t b line = .ok (ret, t')) : t'.Kept := by
  obtain ⟨colon, -, hparse⟩ := Exec.bind_eq_ok.1 hparse
  cases colon with
  | none =>
    cases hparse
    exact h
  | some colon =>
    obtain ⟨stop, -, hparse⟩ := Exec.bind_eq_ok.1 hparse
    cases stop with
    | none => cases hparse
    | some stop =>
      obtain ⟨out, hset, hparse⟩ := Exec.bind_eq_ok.1 hparse
      cases hparse
      exact kept_set h hset

/-- The header loop does not look at the answers of `ParsedHeader_set`, but goes through the null
pointer with the next one. -/
theorem kept_parseLoop {b : List UInt8} (fuel : Nat) {currentHeader : Nat} (h : t.Kept)
    (hloop : parseLoop reallocOk b fuel currentHeader t = .ok (ret, t')) : t'.Kept := by
  induction fuel generalizing currentHeader t with
  | zero => cases hloop
  | succ fuel ih =>
    obtain ⟨more, -, hloop⟩ := Exec.bind_eq_ok.1 hloop
    cases more with
    | false =>
      cases hloop
      exact h
    | true =>
      obtain ⟨⟨ret₁, t₁⟩, hparse, hloop⟩ := Exec.bind_eq_ok.1 hloop
      have h₁ := kept_parse h hparse
      by_cases hret : ret₁ ≠ 0
      · simp only [if_pos hret] at hloop
        cases hloop
        exact h₁
      · simp only [if_neg hret] at hloop
        obtain ⟨next, -, hloop⟩ := Exec.bind_eq_ok.1 hloop
        cases next with
        | none =>
          cases hloop
          exact h₁
        | some next => exact ih h₁ hloop

end ParsedHeader

namespace ParsedRequest

/-- The path is null or a string in a block of its own. -/
def OwnPath (pr : ParsedRequest) : Prop := pr.path = .null ∨ ∃ s, pr.path = .str s

theorem OwnPath.free {pr : ParsedRequest} (h : pr.OwnPath) : pr.path.free = .ok () := by
  rcases h with h | ⟨s, h⟩ <;> rw [h] <;> rfl

/-- Where the run returns, its object has its own path and the header store it started with. -/
def KeepsTable (t : HeaderTable) (run : Run (Int × ParsedRequest)) : Prop :=
  ∀ ret pr, run = .ok (ret, pr) → pr.OwnPath ∧ pr.toHeaderTable = t

variable {t : HeaderTable} {pr : ParsedRequest}

/-- The request line leaves the headers alone. -/
theorem parseRequestLine_keeps (errnoEinval : Bool) (b : List UInt8) (hpath : pr.OwnPath)
    (ht : pr.toHeaderTable = t) : KeepsTable t (parseRequestLine errnoEinval pr b) := by
  have hclears {write : ParsedRequest → ParsedRequest} (hw : Clears write) :
      (write pr).OwnPath ∧ (write pr).toHeaderTable = t := by
    refine ⟨?_, (hw.table_eq pr).trans ht⟩
    rcases hw.path_eq pr with hnull | hsame
    · exact .inl hnull
    · unfold OwnPath
      rw [hsame]
      exact hpath
  have hstores {write : ParsedRequest → ParsedRequest} (hw : Stores write) :
      (write pr).OwnPath ∧ (write pr).toHeaderTable = t :=
    ⟨.inr (hw.path_eq pr), (hw.table_eq pr).trans ht⟩
  intro ret pr' hrun
  cases parseRequestLine_effect b with
  | fault fault h => cases (h errnoEinval pr).symm.trans hrun
  | refused h hw =>
    cases (h errnoEinval pr).symm.trans hrun
    exact hclears hw
  | stored h hw =>
    cases (h errnoEinval pr).symm.trans hrun
    exact hstores hw
  | judged h hc hw =>
    cases errnoEinval with
    | false =>
      cases (h false pr).symm.trans hrun
      exact hstores hw
    | true =>
      cases (h true pr).symm.trans hrun
      exact hclears hc

/-- The object between two calls. -/
structure Kept (pr : ParsedRequest) : Prop where
  path : pr.OwnPath
  table : pr.toHeaderTable.Kept

theorem kept_create : create.Kept :=
  ⟨.inl rfl, .inOrder ParsedHeader.create_wellFormed (by decide)⟩

/-- Parsing the headers keeps the array where it returns. -/
theorem kept_parseHeaders {reallocOk : Nat → Bool} {tmpBuf : List UInt8} {ret : Int}
    {pr' : ParsedRequest} (h : pr.Kept)
    (hrun : parseHeaders reallocOk pr tmpBuf = .ok (ret, pr')) : pr'.Kept := by
  obtain ⟨line, -, hrun⟩ := Exec.bind_eq_ok.1 hrun
  cases line with
  | none => cases hrun
  | some line =>
    obtain ⟨⟨ret₁, t⟩, hloop, hrun⟩ := Exec.bind_eq_ok.1 hrun
    cases hrun
    exact ⟨h.path, ParsedHeader.kept_parseLoop _ h.table hloop⟩

theorem kept_parse {reallocOk : Nat → Bool} {errnoEinval : Bool} {buf : List UInt8}
    {buflen ret : Int} {pr' : ParsedRequest} (h : pr.Kept)
    (hrun : parse reallocOk errnoEinval pr buf buflen = .ok (ret, pr')) : pr'.Kept := by
  unfold parse at hrun
  by_cases hbuf : pr.buf ≠ none
  · rw [if_pos hbuf] at hrun
    cases hrun
    exact h
  rw [if_neg hbuf] at hrun
  by_cases hlen : buflen < minReqLen ∨ buflen > maxReqLen
  · rw [if_pos hlen] at hrun
    cases hrun
    exact h
  rw [if_neg hlen] at hrun
  by_cases hshort : buf.length < buflen.toNat
  · rw [if_pos hshort] at hrun
    cases hrun
  rw [if_neg hshort] at hrun
  simp only [Exec.pure_eq_ok] at hrun
  obtain ⟨stop, -, hrun⟩ := Exec.bind_eq_ok.1 hrun
  cases stop with
  | none =>
    cases hrun
    exact h
  | some stop =>
    obtain ⟨index, -, hrun⟩ := Exec.bind_eq_ok.1 hrun
    cases index with
    | none => cases hrun
    | some index =>
      obtain ⟨⟨ret₁, pr₁⟩, hline, hrun⟩ := Exec.bind_eq_ok.1 hrun
      have hpath (b : List UInt8) (n : Nat) :
          OwnPath { pr with buf := some b, buflen := n } := h.path
      have hkeeps := parseRequestLine_keeps errnoEinval _ (hpath _ _) rfl ret₁ pr₁ hline
      have h₁ : pr₁.Kept := ⟨hkeeps.1, by rw [hkeeps.2]; exact h.table⟩
      by_cases hret : ret₁ ≠ 0
      · simp only [if_pos hret] at hrun
        cases hrun
        exact h₁
      · simp only [if_neg hret] at hrun
        exact kept_parseHeaders h₁ hrun

/-- Every operation that returns keeps the array. -/
theorem machine_kept {op : Op} {pr' : ParsedRequest} (h : pr.Kept)
    (hstep : machine.step pr op = .ok pr') : pr'.Kept := by
  cases op with
  | parse reallocOk errnoEinval buf buflen =>
    obtain ⟨out, hcall, rfl⟩ := Exec.map_eq_ok.1 hstep
    exact kept_parse h hcall
  | set reallocOk key value =>
    obtain ⟨out, hcall, rfl⟩ := Exec.map_eq_ok.1 hstep
    obtain ⟨out, hset, rfl⟩ := Exec.map_eq_ok.1 hcall
    exact ⟨h.path, ParsedHeader.kept_set h.table hset⟩
  | remove key =>
    obtain ⟨out, hremove, rfl⟩ := Exec.map_eq_ok.1 hstep
    exact ⟨h.path, ParsedHeader.kept_remove h.table hremove⟩
  | get key =>
    obtain ⟨found, -, rfl⟩ := Exec.map_eq_ok.1 hstep
    exact h

/-- Whatever has been called, the array is in order or has been lost. -/
theorem run_kept {ops : List Op} (hrun : machine.run create ops = .ok pr) : pr.Kept :=
  Machine.run_ok (fun _ _ _ h _ hstep => machine_kept h hstep) kept_create
    (Machine.admissible_of_enabled (fun _ _ => trivial) create ops) hrun

/-- If the call reports that memory is out, each header that was live is found with its value, and
the object can be destroyed. -/
def SurvivesSet (reallocOk : Nat → Bool) (pr : ParsedRequest) (key value : List UInt8) : Prop :=
  ∀ pr', pr.set reallocOk key value = .ok (-1, pr') →
    (∀ kv ∈ pr.live, ∃ i, ParsedHeader.get pr'.toHeaderTable kv.1 = .ok (some i) ∧
      pr'.entry i = some ⟨some kv.1, kv.2⟩) ∧ pr'.destroy = .ok ()

/-- An object whose entries are in order can be destroyed. -/
theorem destroy_inOrder (hpath : pr.OwnPath) (h : pr.WellFormed) : pr.destroy = .ok () := by
  rw [destroy, hpath.free, Exec.ok_bind, ParsedHeader.destroy_wellFormed h]
  split <;> rfl

/-- With lost entries it cannot. -/
theorem destroy_lost (hpath : pr.OwnPath) (hnull : pr.headers = none) (hused : 0 < pr.headersused)
    (hlen : 0 < pr.headerslen) : pr.destroy = .error .nullPointer := by
  rw [destroy, hpath.free, Exec.ok_bind, if_pos hlen, ParsedHeader.destroy_lost hnull hused]
  rfl

/-- The call loses all headers whenever it reports that memory is out, and does not report it
otherwise. -/
theorem survivesSet_iff {ops : List Op} (hrun : machine.run create ops = .ok pr)
    (reallocOk : Nat → Bool) (key value : List UInt8) :
    SurvivesSet reallocOk pr key value ↔ pr.headers = none ∨
      pr.headersused + 1 < pr.headerslen ∨ reallocOk (pr.headerslen * 2) = true := by
  have hkept := run_kept hrun
  constructor
  · intro hsurvives
    by_contra hcond
    obtain ⟨hnull, hfull, hfails⟩ := by simpa only [not_or] using hcond
    cases hkept.table with
    | lost hlost _ => exact hnull hlost
    | inOrder hwf hlen =>
      have hout : ParsedHeader.OutOfMemory reallocOk pr.toHeaderTable := ⟨by omega, hfails⟩
      have hset := ParsedHeader.set_outOfMemory hwf hout key value
      have hdestroy := (hsurvives _ (Exec.map_eq_ok.2 ⟨_, hset, rfl⟩)).2
      have hlost : (pr.withHeaders ⟨none, pr.headersused, pr.headerslen * 2⟩).destroy =
          .error .nullPointer :=
        destroy_lost hkept.path rfl (show 0 < pr.headersused by omega)
          (show 0 < pr.headerslen * 2 by omega)
      rw [hlost] at hdestroy
      cases hdestroy
  · intro hcond pr' hset
    obtain ⟨⟨ret, t⟩, hset, hpr⟩ := Exec.map_eq_ok.1 hset
    obtain ⟨rfl, -⟩ := Prod.mk.inj hpr
    rcases ParsedHeader.set_cases hkept.table hset with ⟨hwf, hout, -⟩ | ⟨-, -, hret, -⟩
    · obtain ⟨hs, hhs, -⟩ := hwf.used
      rcases hcond with hnull | hroom | hok
      · rw [hnull] at hhs
        cases hhs
      · have hfull := hout.1
        omega
      · exact absurd hok hout.2
    · cases hret

/-- Seven headers of one letter each, `A: v` to `G: v`. -/
def sevenHeaders : List Op :=
  ([65, 66, 67, 68, 69, 70, 71] : List UInt8).map fun c => .set (fun _ => true) [c] [118]

/-- The request with the seven headers. -/
def sevenHeadersStored : ParsedRequest :=
  create.withHeaders ⟨some (([65, 66, 67, 68, 69, 70, 71] : List UInt8).map
    fun c => ⟨some [c], [118]⟩), 7, 8⟩

theorem run_sevenHeaders : machine.run create sevenHeaders = .ok sevenHeadersStored := by
  decide +kernel

theorem survivesSet_sevenHeaders :
    SurvivesSet (fun _ => true) sevenHeadersStored [72] [118] ↔ sevenHeadersStored.headers = none ∨
      sevenHeadersStored.headersused + 1 < sevenHeadersStored.headerslen ∨ true = true :=
  survivesSet_iff run_sevenHeaders (fun _ => true) [72] [118]

/-- The eighth header makes the array grow; if it cannot, the seven others are lost and the object
cannot be destroyed. -/
theorem not_survivesSet_eighth : ∃ pr, machine.run create sevenHeaders = .ok pr ∧
    ¬ SurvivesSet (fun _ => false) pr [72] [118] := by
  refine ⟨sevenHeadersStored, run_sevenHeaders, fun hsurvives => ?_⟩
  have hset : sevenHeadersStored.set (fun _ => false) [72] [118] =
      .ok (-1, sevenHeadersStored.withHeaders ⟨none, 7, 16⟩) := by decide +kernel
  have hdestroy : (sevenHeadersStored.withHeaders ⟨none, 7, 16⟩).destroy =
      .error .nullPointer := rfl
  rw [(hsurvives _ hset).2] at hdestroy
  cases hdestroy

end ParsedRequest

end ComputerNetworks.Proxy
