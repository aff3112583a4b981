import ComputerNetworks.Transfer.Requests

/-!
# A session with the file server

The client without a file of its own reads lines until its input ends. Each line is
a request, unless nothing is left of it but one character, and the answer to it is
taken off the stream before the next one is read. Whatever has been typed, every
file asked for arrives whole, and the last of them is in `rcvd` in the end.
-/

namespace ComputerNetworks.Transfer

/-- The name that a line asks for. -/
def asked (typed : List UInt8) : Option (List UInt8) :=
  if (trimmed (beforeNul typed)).length ≤ 1 then none else some (trimmed (beforeNul typed))

/-- The names that an input asks for. -/
def namesTyped (input : List UInt8) : List (List UInt8) := (fgetsLines 1000 input).filterMap asked

/-- What is in the file `rcvd` behind the response to a name; `fopen` has emptied it. -/
def ServerEnv.received (env : ServerEnv) (quiet : Bool) (rcvd : Option (List UInt8))
    (name : List UInt8) : Option (List UInt8) :=
  match env.served name with
  | none => rcvd
  | some file => some (if quiet then [] else file.pending)

/-- The request is the name with a line end. -/
theorem builtRequest_eq (typed : List UInt8) :
    builtRequest typed = (asked typed).map (· ++ crlf) := by
  unfold builtRequest asked
  split
  · rfl
  · rfl

/-- A name has two characters or more, and no NUL. -/
theorem asked_name {typed name : List UInt8} (h : asked typed = some name) :
    name ≠ [] ∧ 0 ∉ name ∧ name = trimmed (beforeNul typed) := by
  unfold asked at h
  split at h
  · cases h
  · next hlong =>
    cases h
    refine ⟨?_, ?_, rfl⟩
    · intro hnil
      rw [hnil] at hlong
      exact hlong (Nat.zero_le 1)
    · exact fun hmem => zero_notMem_beforeNul typed ((trimmed_isPrefix _).subset hmem)

/-- The blanks at the end of a line are trimmed with its newline. -/
theorem newline_notMem_trimmed {line : List UInt8} (h : 10 ∉ line.dropLast) :
    10 ∉ trimmed line := by
  rcases List.eq_nil_or_concat line with rfl | ⟨line, c, rfl⟩
  · exact List.not_mem_nil
  rw [List.concat_eq_append, List.dropLast_concat] at h
  rw [List.concat_eq_append, trimmed_eq]
  by_cases hc : isspace c = true
  · rw [List.rdropWhile_concat_pos _ _ _ hc]
    exact fun hmem => h ((trimmed_isPrefix line).subset hmem)
  · rw [List.rdropWhile_concat_neg _ _ _ hc, List.mem_append, List.mem_singleton]
    refine not_or.2 ⟨h, ?_⟩
    rintro rfl
    exact hc rfl

/-- A newline ends what counts of a line. -/
theorem newline_notMem_beforeNul {line : List UInt8} (h : 10 ∉ line.dropLast) :
    10 ∉ (beforeNul line).dropLast := by
  obtain ⟨post, hpost⟩ := List.takeWhile_prefix (· != (0 : UInt8)) (l := line)
  rw [← hpost, List.dropLast_append] at h
  split at h
  · exact h
  · exact fun hmem => h (List.mem_append_left _ (List.dropLast_subset _ hmem))

/-- No name of a line of the input has a line end in it. -/
theorem noCrlf_asked {input typed name : List UInt8} (hmem : typed ∈ fgetsLines 1000 input)
    (h : asked typed = some name) : NoCrlf name := by
  obtain ⟨-, -, rfl⟩ := asked_name h
  apply noCrlf_of_not_mem
  apply newline_notMem_trimmed
  apply newline_notMem_beforeNul
  exact newline_notMem_of_mem_fgetsLines hmem

/-- Names of the right form are read off the stream one by one. -/
theorem linesRead_names {names : List (List UInt8)}
    (h : ∀ name ∈ names, name ≠ [] ∧ 0 ∉ name ∧ NoCrlf name) :
    linesRead (names.flatMap (· ++ crlf)) = names ++ [[]] := by
  induction names with
  | nil => exact linesRead_last rfl
  | cons name names ih =>
    obtain ⟨⟨hne, hzero, hcrlf⟩, h⟩ := List.forall_mem_cons.1 h
    obtain ⟨hfirst, hafter⟩ := firstLine_append hcrlf (names.flatMap (· ++ crlf))
    have hname : beforeNul (firstLine (name ++ (crlf ++ names.flatMap (· ++ crlf)))) ≠ [] := by
      rw [hfirst, beforeNul_eq hzero]
      exact hne
    rw [List.flatMap_cons, List.append_assoc, linesRead_line hname, hfirst, hafter, ih h,
      List.cons_append]

/-- The server is asked for the names that were sent. -/
theorem namesAsked_names {names : List (List UInt8)}
    (h : ∀ name ∈ names, name ≠ [] ∧ 0 ∉ name ∧ NoCrlf name) :
    namesAsked (names.flatMap (· ++ crlf)) = names := by
  rw [namesAsked, linesRead_names h, List.dropLast_concat]
  apply List.map_congr_left _ |>.trans (List.map_id _)
  intro name hmem
  exact beforeNul_eq (h name hmem).2.1

variable {env : ServerEnv} {client : ClientEnv} {c : ClientState} {typed : List UInt8}
  {lines : List (List UInt8)}

/-- A request that is passed on stands in the line. -/
theorem nextRequest_of_passed {request : List UInt8} {c₀ : ClientState}
    (h : passed client c = .ok (some request, c₀)) :
    ∃ stop, nextRequest client c = .ok (.ready stop, c₀) ∧
      (readAt c₀.line 0 stop : Exec Empty (List UInt8)) = .ok request := by
  obtain ⟨⟨prompt, c₁⟩, hnext, h⟩ := Exec.bind_eq_ok.1 h
  cases prompt with
  | endOfInput => cases h
  | blank => cases h
  | ready stop =>
    obtain ⟨request', hread, h⟩ := Exec.bind_eq_ok.1 h
    cases h
    exact ⟨stop, hnext, hread⟩

/-- Otherwise the line was skipped. -/
theorem nextRequest_of_skipped {c₀ : ClientState} (hfile : client.filename = none)
    (hstdin : c.stdin = typed :: lines) (h : passed client c = .ok (none, c₀)) :
    nextRequest client c = .ok (.blank, c₀) := by
  obtain ⟨⟨prompt, c₁⟩, hnext, h⟩ := Exec.bind_eq_ok.1 h
  cases prompt with
  | endOfInput =>
    simp only [nextRequest, hfile, hstdin] at hnext
    obtain ⟨line, -, hnext⟩ := Exec.bind_eq_ok.1 hnext
    obtain ⟨len, -, hnext⟩ := Exec.bind_eq_ok.1 hnext
    obtain ⟨stop, -, hnext⟩ := Exec.bind_eq_ok.1 hnext
    split at hnext
    · cases hnext
    · obtain ⟨line', -, hnext⟩ := Exec.bind_eq_ok.1 hnext
      cases hnext
  | blank =>
    cases h
    exact hnext
  | ready stop =>
    obtain ⟨request', -, h⟩ := Exec.bind_eq_ok.1 h
    cases h

/-- Where there is no file the client asks for the next name. -/
theorem retrieve_none (hfile : client.filename = none) (fuel : Nat) :
    retrieve client fuel c (-1) = .ok (.again, c) := by
  rw [retrieve, if_pos rfl, ClientEnv.next, hfile]

/-- A file is written, and the client asks for the next one. -/
theorem retrieve_some {content rest : List UInt8} {fuel : Nat} (hfile : client.filename = none)
    (hopens : client.opensRcvd = true) (h : c.conn.incoming.Reliable) (hline : c.line.length = 1000)
    (hpending : c.conn.incoming.pending = content ++ rest) (hfuel : content.length ≤ fuel) :
    ∃ incoming line, retrieve client fuel c content.length = .ok (.again, { c with
        conn := { c.conn with incoming }, line, length := some 0,
        rcvd := some (if client.quiet then [] else content) }) ∧
      incoming.pending = rest ∧ incoming.Reliable ∧ line.length = 1000 := by
  obtain ⟨incoming, line, hrun, hrest, hreliable, hline'⟩ := @receiveFile_eq client.quiet
    c.conn.incoming c.line content rest [] fuel h hline hpending hfuel
  have hannounced : ¬(content.length : Int) = -1 := by omega
  have hopened : ¬client.opensRcvd = false := by
    rw [hopens]
    exact Bool.noConfusion
  refine ⟨incoming, line, ?_, hrest, hreliable, hline'⟩
  simp only [retrieve, if_neg hannounced, if_neg hopened, hrun, Exec.ok_bind, if_true,
    ClientEnv.next, hfile, Exec.pure_eq_ok, List.nil_append]

/-- A line that asks for nothing is skipped. -/
theorem loopUntilEnd_skip (hfile : client.filename = none) (hline : c.line.length = 1000)
    (hstdin : c.stdin = typed :: lines) (hfgets : typed.length ≤ 999) (hname : asked typed = none)
    (fuel rounds : Nat) :
    ∃ line, line.length = 1000 ∧ loopUntilEnd client fuel (rounds + 1) c =
      loopUntilEnd client fuel rounds { c with line, stdin := lines } := by
  have hroom : (trimmed (beforeNul typed)).length ≤ 997 := by
    unfold asked at hname
    split at hname
    · omega
    · cases hname
  obtain ⟨line, hlen, hpassed⟩ := passed_typed hfile hline hstdin hfgets hroom
  rw [builtRequest_eq, hname] at hpassed
  refine ⟨line, hlen, ?_⟩
  rw [loopUntilEnd, nextRequest_of_skipped hfile hstdin hpassed]
  rfl

/-- A line that asks for a name is answered, and the client asks for the next one. -/
theorem loopUntilEnd_round {name rest : List UInt8} {fuel : Nat} (hfile : client.filename = none)
    (hopens : client.opensRcvd = true) (h : c.conn.Reliable) (hline : c.line.length = 1000)
    (hstdin : c.stdin = typed :: lines) (hfgets : typed.length ≤ 999)
    (hname : asked typed = some name) (hcrlf : NoCrlf name) (hlen : name.length ≤ 255)
    (henv : env.Regular name) (hpending : c.conn.incoming.pending = answer env name ++ rest)
    (hfuel : 1002 ≤ fuel)
    (hsize : ∀ file, env.served name = some file → file.pending.length < fuel) (rounds : Nat) :
    ∃ c', loopUntilEnd client fuel (rounds + 1) c = loopUntilEnd client fuel rounds c' ∧
      c'.conn.Reliable ∧ c'.line.length = 1000 ∧ c'.stdin = lines ∧
      c'.conn.sent = c.conn.sent ++ (name ++ crlf) ∧ c'.conn.incoming.pending = rest ∧
      c'.rcvd = env.received client.quiet c.rcvd name := by
  obtain ⟨hne, hzero, heq⟩ := asked_name hname
  obtain ⟨line, hline', hpassed⟩ := passed_typed hfile hline hstdin hfgets (by rw [← heq]; omega)
  rw [builtRequest_eq, hname, Option.map_some] at hpassed
  obtain ⟨stop, hnext, hread⟩ := nextRequest_of_passed hpassed
  obtain ⟨reason, hreason, hshort, hresponse⟩ := respond_eq env hne
  have hdigits := @announced_length_le env name henv
  have hfit : name.length + (announced (env.served name)).length + reason.length < 997 := by omega
  rw [answer, respond_file hne, hresponse, List.append_assoc] at hpending
  cases hserved : env.served name with
  | none =>
    rw [hserved] at hpending hfit
    obtain ⟨incoming, writes, line', hrest, hincoming, hwrites, hlast, hround⟩ :=
      @transfer_eq client
      { c with line, stdin := lines } name (text "-1") reason rest _ stop fuel (-1) h hline' hread
      hpending hzero hcrlf (by decide) hreason hfit hfuel sscanfInt_refused
    rw [retrieve_none hfile] at hround
    refine ⟨{ c with
      conn := ⟨incoming, c.conn.sent ++ (name ++ crlf), writes⟩, line := line', stdin := lines
      length := some (-1) }, ?_, ⟨hincoming, hwrites⟩, hlast, rfl, rfl, hrest, ?_⟩
    · rw [loopUntilEnd, hnext, Exec.ok_bind]
      simp only [hround, Exec.ok_bind]
    · rw [ServerEnv.received, hserved]
  | some file =>
    rw [hserved] at hpending hfit
    obtain ⟨hreliable, hbound⟩ := henv file hserved
    obtain ⟨incoming, writes, line', hleft, hincoming, hwrites, hlast, hround⟩ :=
      @transfer_eq client
      { c with line, stdin := lines } name (decimal file.pending.length) reason
      (file.pending ++ rest) _ stop fuel file.pending.length h hline' hread
      (by rw [hpending]; simp [announced]) hzero hcrlf (plain_decimal _) hreason hfit hfuel
      (sscanfInt_decimal hbound)
    obtain ⟨incoming', line'', hretrieve, hrest, hincoming', hlast'⟩ := @retrieve_some client
      { c with
        conn := ⟨incoming, c.conn.sent ++ (name ++ crlf), writes⟩, line := line', stdin := lines
        length := some (file.pending.length : Int) } file.pending rest fuel hfile hopens hincoming
      hlast hleft (hsize file hserved).le
    rw [hretrieve] at hround
    refine ⟨{ c with
      conn := ⟨incoming', c.conn.sent ++ (name ++ crlf), writes⟩, line := line'', stdin := lines
      length := some 0, rcvd := some (if client.quiet then [] else file.pending) }, ?_,
      ⟨hincoming', hwrites⟩, hlast', rfl, rfl, hrest, ?_⟩
    · rw [loopUntilEnd, hnext, Exec.ok_bind]
      simp only [hround, Exec.ok_bind]
    · rw [ServerEnv.received, hserved]

/-- Every line is dealt with, up to the end of the input. -/
theorem loopUntilEnd_session {input rest : List UInt8} {fuel rounds : Nat}
    (hfile : client.filename = none) (hopens : client.opensRcvd = true) (h : c.conn.Reliable)
    (hline : c.line.length = 1000) (hstdin : c.stdin = lines)
    (hlines : ∀ typed ∈ lines, typed ∈ fgetsLines 1000 input)
    (hnames : ∀ name ∈ lines.filterMap asked, name.length ≤ 255 ∧ env.Regular name ∧
      ∀ file, env.served name = some file → file.pending.length < fuel)
    (hpending : c.conn.incoming.pending = (lines.filterMap asked).flatMap (answer env) ++ rest)
    (hfuel : 1002 ≤ fuel) (hrounds : lines.length < rounds) :
    ∃ c', loopUntilEnd client fuel rounds c = .ok (.leave, c') ∧
      c'.conn.sent = c.conn.sent ++ (lines.filterMap asked).flatMap (· ++ crlf) ∧
      c'.conn.incoming.pending = rest ∧
      c'.rcvd = (lines.filterMap asked).foldl (env.received client.quiet) c.rcvd := by
  obtain ⟨rounds, rfl⟩ := Nat.exists_eq_add_one_of_ne_zero (Nat.ne_zero_of_lt hrounds)
  induction lines generalizing c rounds with
  | nil =>
    refine ⟨c, ?_, (List.append_nil _).symm, hpending, rfl⟩
    simp only [loopUntilEnd, nextRequest, hfile, hstdin]
    rfl
  | cons typed lines ih =>
    obtain ⟨hmem, hlines⟩ := List.forall_mem_cons.1 hlines
    obtain ⟨rounds, rfl⟩ : ∃ n, rounds = n + 1 := by
      apply Nat.exists_eq_add_one_of_ne_zero
      rintro rfl
      exact absurd (Nat.lt_of_succ_lt_succ hrounds) (Nat.not_lt_zero _)
    have hfgets : typed.length ≤ 999 := length_le_of_mem_fgetsLines (by decide) hmem
    cases hname : asked typed with
    | none =>
      rw [List.filterMap_cons_none hname] at hnames hpending ⊢
      obtain ⟨line, hline', hround⟩ := @loopUntilEnd_skip client c typed lines hfile hline hstdin
        hfgets hname fuel (rounds + 1)
      rw [hround]
      exact @ih { c with line, stdin := lines } h hline' rfl hlines hnames hpending rounds
        (Nat.lt_of_succ_lt_succ hrounds)
    | some name =>
      rw [List.filterMap_cons_some hname] at hnames hpending ⊢
      obtain ⟨⟨hlen, henv, hsize⟩, hnames⟩ := List.forall_mem_cons.1 hnames
      rw [List.flatMap_cons, List.append_assoc] at hpending
      obtain ⟨c₁, hround, h₁, hline₁, hstdin₁, hsent₁, hpending₁, hrcvd₁⟩ := loopUntilEnd_round
        hfile hopens h hline hstdin hfgets hname (noCrlf_asked hmem hname) hlen henv hpending hfuel
        hsize (rounds + 1)
      obtain ⟨c', hrun, hsent, hrest, hrcvd⟩ := ih h₁ hline₁ hstdin₁ hlines hnames hpending₁ rounds
        (Nat.lt_of_succ_lt_succ hrounds)
      refine ⟨c', hround.trans hrun, ?_, hrest, ?_⟩
      · rw [hsent, hsent₁, List.append_assoc, List.flatMap_cons]
      · rw [hrcvd, hrcvd₁, List.foldl_cons]

/-- The bytes of the two directions of a session: what each end does with those of the other. -/
structure Dialogue (env : ServerEnv) (client : ClientEnv) (input requests responses : List UInt8) :
    Prop where
  /-- The server takes the requests, answers with the responses, and leaves at the end of the
  stream. -/
  answers : ∀ (conn : Connection) (line : List UInt8), conn.Reliable →
    conn.incoming.pending = requests → line.length = 256 → ∃ fuel rounds conn',
      doConnection env fuel rounds conn line = .ok conn' ∧ conn'.sent = conn.sent ++ responses
  /-- The client sends the requests, takes the responses and nothing behind them, and leaves at the
  end of its input with the last file that it asked for. -/
  retrieves : ∀ (c : ClientState) (rest : List UInt8), c.conn.Reliable → c.line.length = 1000 →
    c.stdin = fgetsLines 1000 input → c.conn.incoming.pending = responses ++ rest →
    ∃ fuel rounds c', loopUntilEnd client fuel rounds c = .ok (.leave, c') ∧
      c'.conn.sent = c.conn.sent ++ requests ∧ c'.conn.incoming.pending = rest ∧
      c'.rcvd = (namesTyped input).foldl (env.received client.quiet) c.rcvd

/-- The names of an input can be asked for. -/
theorem namesTyped_form {input name : List UInt8} (h : name ∈ namesTyped input) :
    name ≠ [] ∧ 0 ∉ name ∧ NoCrlf name := by
  obtain ⟨typed, htyped, hname⟩ := List.mem_filterMap.1 h
  obtain ⟨hne, hzero, -⟩ := asked_name hname
  exact ⟨hne, hzero, noCrlf_asked htyped hname⟩

/-- Whatever is typed, if no name is longer than 255 bytes the two ends come to their ends, with one
request for each line that asks for a name and one response for each request. -/
theorem session {input : List UInt8} (hfile : client.filename = none)
    (hopens : client.opensRcvd = true)
    (hnames : ∀ name ∈ namesTyped input, name.length ≤ 255 ∧ env.Regular name) :
    Dialogue env client input ((namesTyped input).flatMap (· ++ crlf))
      ((namesTyped input).flatMap (answer env)) where
  answers := by
    intro conn line h hpending hline
    have hform : ∀ name ∈ namesTyped input, name ≠ [] ∧ 0 ∉ name ∧ NoCrlf name :=
      fun name hmem => namesTyped_form hmem
    obtain ⟨fuel, hfuel, hsize⟩ := exists_fuel env (namesTyped input)
      ((namesTyped input).flatMap (· ++ crlf)).length
    have hshort : ∀ l ∈ linesRead ((namesTyped input).flatMap (· ++ crlf)), l.length ≤ 255 := by
      rw [linesRead_names hform]
      intro l hl
      rcases List.mem_append.1 hl with hl | hl
      · exact (hnames l hl).1
      · rw [List.mem_singleton.1 hl]
        exact Nat.zero_le _
    have hasked := namesAsked_names hform
    obtain ⟨conn', hrun, hsent⟩ := @doConnection_answers env _ conn line fuel h hpending hline
      hshort (by rw [hasked]; exact fun name hmem => (hnames name hmem).2) hfuel
      (by rw [hasked]; exact hsize)
    rw [hasked] at hsent
    exact ⟨fuel, _, conn', hrun, hsent⟩
  retrieves := by
    intro c rest h hline hstdin hpending
    obtain ⟨fuel, hfuel, hsize⟩ := exists_fuel env (namesTyped input) 1002
    have hregular : ∀ name ∈ namesTyped input, name.length ≤ 255 ∧ env.Regular name ∧
        ∀ file, env.served name = some file → file.pending.length < fuel :=
      fun name hmem => ⟨(hnames name hmem).1, (hnames name hmem).2, hsize name hmem⟩
    obtain ⟨c', hrun, hsent, hrest, hrcvd⟩ := loopUntilEnd_session hfile hopens h hline hstdin
      (fun _ hmem => hmem) hregular hpending hfuel.le (Nat.lt_succ_self _)
    exact ⟨fuel, _, c', hrun, hsent, hrest, hrcvd⟩

/-- A file that is there between two that are not, and a line that asks for nothing. -/
theorem session_comma :
    Dialogue commaServer ⟨none, false, true⟩ (text "zz\na,1 \t\n \nyy")
      (text "zz" ++ crlf ++ text "a,1" ++ crlf ++ text "yy" ++ crlf)
      (answer commaServer (text "zz") ++ answer commaServer (text "a,1") ++
        answer commaServer (text "yy")) := by
  have hasked : namesTyped (text "zz\na,1 \t\n \nyy") = [text "zz", text "a,1", text "yy"] := by
    decide +kernel
  have hlength : ∀ name ∈ [text "zz", text "a,1", text "yy"], name.length ≤ 255 := by decide
  have hdialogue := @session commaServer ⟨none, false, true⟩ (text "zz\na,1 \t\n \nyy") rfl rfl
    (by rw [hasked]; exact fun name hmem => ⟨hlength name hmem, commaServer_regular name⟩)
  rw [hasked] at hdialogue
  simpa only [List.flatMap_cons, List.flatMap_nil, List.append_nil, List.append_assoc] using
    hdialogue

end ComputerNetworks.Transfer
