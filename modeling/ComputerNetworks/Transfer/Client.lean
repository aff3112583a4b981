import ComputerNetworks.Transfer.Server

/-!
# The client of the file server

`loop_until_end` of `client.c`. The response is taken apart at its last two
commas, so that a name may hold commas of its own, and as many bytes as it
announces are read behind it and written to a local file.
-/

namespace ComputerNetworks.Transfer

/-- `sscanf(s, "%d", &v)`: nothing is assigned where there is no number. -/
def sscanfInt (s : List UInt8) : Option Int :=
  let digits := s.dropWhile isspace
  let digits := if digits.head? = some 45 ∨ digits.head? = some 43 then digits.tail else digits
  if digits.head?.any isdigit then some (Int32.ofInt (strtol s)).toInt else none

/-- The options of the client, and whether `fopen` of the file `rcvd` succeeds. -/
structure ClientEnv where
  filename : Option (List UInt8)
  quiet : Bool
  opensRcvd : Bool

/-- The variables of `loop_until_end` with its connection, what the coming calls of `fgets` deliver,
and what was written to the file `rcvd`, if it was opened. -/
structure ClientState where
  conn : Connection
  line : List UInt8
  length : Option Int
  stdin : List (List UInt8)
  rcvd : Option (List UInt8)

/-- What the client has to do next. -/
inductive Prompt where
  /-- There is no more input. -/
  | endOfInput
  /-- The line is skipped. -/
  | blank
  /-- The request stands in the line, up to the position. -/
  | ready (stop : Nat)
  deriving DecidableEq, Repr

/-- The line without its trailing blanks. -/
def trimmed (line : List UInt8) : List UInt8 := (line.reverse.dropWhile isspace).reverse

/-- The loop that moves `pline` back over trailing blanks. The number is that of the characters up
to `pline`, so that 0 stands for `line - 1`. -/
def trimLoop (b : List UInt8) : Nat → Exec Empty Nat
  | 0 => .ok 0
  | n + 1 =>
    match b[n]? with
    | none => .error .outOfBounds
    | some c => if isspace c then trimLoop b n else .ok (n + 1)

/-- The request is put together, from the option or from a line that was typed. -/
def nextRequest (env : ClientEnv) (c : ClientState) : Exec Empty (Prompt × ClientState) :=
  match env.filename with
  | some name => do
    let line ← memcpyAt c.line 0 (name ++ [0])
    let line ← memcpyAt line name.length (crlf ++ [0])
    pure (.ready (name.length + 2), { c with line })
  | none =>
    match c.stdin with
    | [] => .ok (.endOfInput, c)
    | typed :: stdin => do
      let line ← memcpyAt c.line 0 (typed ++ [0])
      let stop ← trimLoop line (← strlen line 0)
      -- `pline <= line`
      if stop ≤ 1 then pure (.blank, { c with line, stdin })
      else do
        let line ← memcpyAt line stop (crlf ++ [0])
        pure (.ready (stop + 2), { c with line, stdin })

/-- The response is cut at its last two commas: `none` if it has less, else the value
of `length`. -/
def parseResponse (line : List UInt8) (length : Option Int) :
    Exec Empty (Option (Option Int) × List UInt8) := do
  match ← strrchr line 0 44 with
  | none => pure (none, line)
  | some resp => do
    let line ← memcpyAt line resp [0]
    match ← strrchr line 0 44 with
    | none => pure (none, line)
    | some lenstr => do
      let line ← memcpyAt line lenstr [0]
      let s ← cstr line (lenstr + 1)
      pure (some ((sscanfInt s).or length), line)

/-- An `int` as a `size_t`. -/
def asSize (v : Int) : Nat := (v % 2 ^ 64).toNat

/-- What `fwrite` is passed, unless the client is quiet. -/
def toWrite (quiet : Bool) (line : List UInt8) (n : Nat) : Exec Empty (List UInt8) :=
  if quiet then .ok [] else readAt line 0 n

/-- The loop that reads the file: the stream, the line, what is left of the length, and what was
written. -/
def receiveFile (quiet : Bool) : Nat → ByteStream → List UInt8 → Int → List UInt8 →
    Exec Empty (ByteStream × List UInt8 × Int × List UInt8)
  | fuel, s, line, length, written =>
    if length = 0 then .ok (s, line, length, written)
    else
      match fuel with
      | 0 => .error .outOfFuel
      | fuel + 1 =>
        let toRead := min length 1000
        match s.call (asSize toRead) with
        | (none, s) => .ok (s, line, length, written)
        | (some [], s) => .ok (s, line, length, written)
        | (some (c :: bytes), s) => do
          let line ← memcpyAt line 0 (c :: bytes)
          let toRead := min ((c :: bytes).length : Int) toRead
          let data ← toWrite quiet line (asSize toRead)
          receiveFile quiet fuel s line (length - toRead) (written ++ data)

/-- How a round ends. -/
inductive Outcome where
  | again
  | leave
  /-- `exit(-1)`: the file is incomplete. -/
  | exit
  deriving DecidableEq, Repr

/-- Where the loop goes on behind a round: the option stands for one request. -/
def ClientEnv.next (env : ClientEnv) : Outcome :=
  match env.filename with
  | none => .again
  | some _ => .leave

/-- A round, behind the response: the file is read and written, unless there is none. -/
def retrieve (env : ClientEnv) (fuel : Nat) (c : ClientState) (length : Int) :
    Exec Empty (Outcome × ClientState) :=
  if length = -1 then .ok (env.next, c)
  else if env.opensRcvd = false then .ok (.leave, c)
  else do
    let (incoming, line, length, written) ←
      receiveFile env.quiet fuel c.conn.incoming c.line length []
    let c := { c with
      conn := { c.conn with incoming }, line, length := some length, rcvd := some written }
    pure (if length = 0 then env.next else .exit, c)

/-- A round, behind the request. -/
def transfer (env : ClientEnv) (fuel : Nat) (c : ClientState) (stop : Nat) :
    Exec Empty (Outcome × ClientState) := do
  let request ← readAt c.line 0 stop
  match c.conn.mywrite request with
  | (false, conn) => pure (.leave, { c with conn })
  | (true, conn) => do
    let (rc, incoming, line) ← getNvtLine fuel conn.incoming c.line 0 0
    let conn := { conn with incoming }
    if rc < 0 then pure (.leave, { c with conn, line })
    else do
      -- the line is printed
      let _ ← cstr line 0
      match ← parseResponse line c.length with
      | (none, line) => pure (.leave, { c with conn, line })
      | (some none, _) => .error .indeterminate
      | (some (some length), line) =>
        retrieve env fuel { c with conn, line, length := some length } length

/-- `loop_until_end`, for a number of rounds. -/
def loopUntilEnd (env : ClientEnv) (fuel : Nat) :
    Nat → ClientState → Exec Empty (Outcome × ClientState)
  | 0, _ => .error .outOfFuel
  | rounds + 1, c => do
    match ← nextRequest env c with
    | (.endOfInput, c) => pure (.leave, c)
    | (.blank, c) => loopUntilEnd env fuel rounds c
    | (.ready stop, c) => do
      match ← transfer env fuel c stop with
      | (.again, c) => loopUntilEnd env fuel rounds c
      | (outcome, c) => pure (outcome, c)

/-- The size of a file is read as it was printed. -/
theorem sscanfInt_decimal {n : Nat} (h : n < 2 ^ 31) : sscanfInt (decimal n) = some (n : Int) := by
  obtain ⟨hblank, hplus, hminus, hdigit⟩ := decimal_start n
  have hsign : ¬((decimal n).head? = some 45 ∨ (decimal n).head? = some 43) :=
    not_or.2 ⟨hminus, hplus⟩
  have hvalue : (Int32.ofInt (n : Int)).toInt = n := by
    apply Int32.toInt_ofInt_of_le
    · omega
    · omega
  simp only [sscanfInt, hblank, if_neg hsign, hdigit, if_true, strtol_decimal (h.trans (by decide)),
    hvalue]

theorem sscanfInt_refused : sscanfInt (text "-1") = some (-1) := by decide

theorem asSize_natCast {n : Nat} (h : n < 2 ^ 64) : asSize n = n := by
  unfold asSize
  omega

/-- Of an empty file nothing is read. -/
theorem receiveFile_zero (quiet : Bool) (fuel : Nat) (s : ByteStream) (line written : List UInt8) :
    receiveFile quiet fuel s line 0 written = .ok (s, line, 0, written) := by
  unfold receiveFile
  exact if_pos rfl

/-- A piece of the file is written. -/
theorem receiveFile_piece {quiet : Bool} {s s' : ByteStream} {line piece written : List UInt8}
    {n : Nat} (hcall : s.call (min n 1000) = (some piece, s')) (hpiece : piece ≠ [])
    (hle : piece.length ≤ min n 1000) (hline : line.length = 1000) (fuel : Nat) :
    receiveFile quiet (fuel + 1) s line n written =
      receiveFile quiet fuel s' (piece ++ line.drop piece.length) (n - piece.length : Nat)
        (written ++ if quiet then [] else piece) := by
  obtain ⟨c, bytes, rfl⟩ := List.exists_cons_of_ne_nil hpiece
  have hpos : (n : Int) ≠ 0 := by
    rw [List.length_cons] at hle
    omega
  have hsize : asSize (min (n : Int) 1000) = min n 1000 := by
    have hcast : min (n : Int) 1000 = ((min n 1000 : Nat) : Int) := by omega
    rw [hcast, asSize_natCast (by omega)]
  have hread : min ((c :: bytes).length : Int) (min n 1000) = (c :: bytes).length := by omega
  have hcopy : (memcpyAt line 0 (c :: bytes) : Exec Empty (List UInt8)) =
      .ok (c :: bytes ++ line.drop (c :: bytes).length) := memcpyAt_zero (by omega)
  have hwrite : toWrite quiet (c :: bytes ++ line.drop (c :: bytes).length) (c :: bytes).length =
      .ok (if quiet then [] else c :: bytes) := by
    unfold toWrite
    split
    · rfl
    · exact readAt_prefix (c :: bytes) _
  have hbytes : asSize ((c :: bytes).length : Int) = (c :: bytes).length :=
    asSize_natCast (by omega)
  have hleft : (n : Int) - ((c :: bytes).length : Int) = (n - (c :: bytes).length : Nat) := by omega
  rw [receiveFile, if_neg hpos]
  simp only [hsize, hcall, hcopy, Exec.ok_bind, hread, hbytes, hwrite, hleft]

/-- The bytes announced are read, in whatever pieces they arrive, and written. -/
theorem receiveFile_eq {quiet : Bool} {s : ByteStream} {line content rest written : List UInt8}
    {fuel : Nat} (h : s.Reliable) (hline : line.length = 1000)
    (hpending : s.pending = content ++ rest) (hfuel : content.length ≤ fuel) :
    ∃ s' line', receiveFile quiet fuel s line content.length written =
        .ok (s', line', 0, written ++ if quiet then [] else content) ∧
      s'.pending = rest ∧ s'.Reliable ∧ line'.length = 1000 := by
  induction fuel generalizing s line content written with
  | zero =>
    obtain rfl : content = [] := List.eq_nil_of_length_eq_zero (Nat.le_zero.1 hfuel)
    refine ⟨s, line, ?_, hpending, h, hline⟩
    rw [ite_self, List.append_nil]
    exact receiveFile_zero quiet 0 s line written
  | succ fuel ih =>
    by_cases hempty : content = []
    · subst hempty
      refine ⟨s, line, ?_, hpending, h, hline⟩
      rw [ite_self, List.append_nil]
      exact receiveFile_zero quiet (fuel + 1) s line written
    have hpos : 0 < content.length := List.length_pos_iff.2 hempty
    obtain ⟨k, s₁, hk, hle, hcall, hleft, h₁⟩ :=
      @ByteStream.call_spec s (min content.length 1000) h (by omega)
    have hlen : (content.take k).length = k := by
      rw [List.length_take]
      omega
    rw [hpending, List.take_append_of_le_length (by omega)] at hcall
    rw [hpending, List.drop_append_of_le_length (by omega)] at hleft
    have hpiece := @receiveFile_piece quiet s s₁ line (content.take k) written content.length hcall
      (List.length_pos_iff.1 (hk.trans_eq hlen.symm)) (hlen.trans_le hle) hline fuel
    have hdrop : content.length - (content.take k).length = (content.drop k).length := by
      rw [hlen, List.length_drop]
    obtain ⟨s', line', hrun, hrest, h', hline'⟩ := @ih s₁
      (content.take k ++ line.drop (content.take k).length) (content.drop k)
      (written ++ if quiet then [] else content.take k) h₁
      (by rw [List.length_append, List.length_drop, hlen, hline]; omega) hleft
      (by rw [List.length_drop]; omega)
    refine ⟨s', line', ?_, hrest, h', hline'⟩
    rw [hpiece, hdrop, hrun, List.append_assoc]
    cases quiet with
    | true => rfl
    | false => rw [if_neg Bool.false_ne_true, if_neg Bool.false_ne_true, if_neg Bool.false_ne_true,
        List.take_append_drop]

variable {env : ClientEnv}

/-- Parsing a response keeps the size of the line. -/
theorem parseResponse_length {line line' : List UInt8} {length : Option Int}
    {parsed : Option (Option Int)} (h : parseResponse line length = .ok (parsed, line')) :
    line'.length = line.length := by
  obtain ⟨resp, -, h⟩ := Exec.bind_eq_ok.1 h
  cases resp with
  | none =>
    cases h
    rfl
  | some resp =>
    obtain ⟨line₁, hresp, h⟩ := Exec.bind_eq_ok.1 h
    obtain ⟨lenstr, -, h⟩ := Exec.bind_eq_ok.1 h
    cases lenstr with
    | none =>
      cases h
      exact memcpyAt_length hresp
    | some lenstr =>
      obtain ⟨line₂, hlenstr, h⟩ := Exec.bind_eq_ok.1 h
      obtain ⟨s, -, h⟩ := Exec.bind_eq_ok.1 h
      cases h
      rw [memcpyAt_length hlenstr, memcpyAt_length hresp]

/-- Receiving a file keeps the size of the line. -/
theorem receiveFile_length {quiet : Bool} {fuel : Nat} {s s' : ByteStream}
    {line line' written written' : List UInt8} {length length' : Int}
    (h : receiveFile quiet fuel s line length written = .ok (s', line', length', written')) :
    line'.length = line.length := by
  induction fuel generalizing s line length written with
  | zero =>
    unfold receiveFile at h
    split at h
    · cases h
      rfl
    · cases h
  | succ fuel ih =>
    unfold receiveFile at h
    split at h
    · cases h
      rfl
    · simp only at h
      split at h
      · cases h
        rfl
      · cases h
        rfl
      · obtain ⟨line₁, hstore, h⟩ := Exec.bind_eq_ok.1 h
        obtain ⟨data, -, h⟩ := Exec.bind_eq_ok.1 h
        rw [ih h, memcpyAt_length hstore]

/-- Behind the response nothing is sent, and no line is read. -/
theorem retrieve_frame {fuel : Nat} {c c' : ClientState} {length : Int}
    {outcome : Outcome} (h : retrieve env fuel c length = .ok (outcome, c')) :
    c'.line.length = c.line.length ∧ c'.stdin = c.stdin ∧ c'.conn.sent = c.conn.sent := by
  unfold retrieve at h
  split at h
  · cases h
    exact ⟨rfl, rfl, rfl⟩
  · split at h
    · cases h
      exact ⟨rfl, rfl, rfl⟩
    · obtain ⟨⟨incoming, line, length', written⟩, hreceive, h⟩ := Exec.bind_eq_ok.1 h
      cases h
      exact ⟨receiveFile_length hreceive, rfl, rfl⟩

/-- A round sends its request or leaves, and reads no line. -/
theorem transfer_sent {fuel stop : Nat} {c c' : ClientState} {outcome : Outcome}
    (h : transfer env fuel c stop = .ok (outcome, c')) :
    ∃ request, (readAt c.line 0 stop : Exec Empty (List UInt8)) = .ok request ∧
      c'.line.length = c.line.length ∧ c'.stdin = c.stdin ∧
      (c'.conn.sent = c.conn.sent ++ request ∨ outcome = .leave ∧ c'.conn.sent = c.conn.sent) := by
  obtain ⟨request, hread, h⟩ := Exec.bind_eq_ok.1 h
  refine ⟨request, hread, ?_⟩
  rcases c.conn.mywrite_cases request with ⟨writes, hwrite⟩ | ⟨writes, hwrite⟩
  · rw [hwrite] at h
    obtain ⟨⟨rc, incoming, line⟩, hline, h⟩ := Exec.bind_eq_ok.1 h
    have hlen := getNvtLine_length hline
    simp only at h
    split at h
    · cases h
      exact ⟨hlen, rfl, Or.inl rfl⟩
    · obtain ⟨-, -, h⟩ := Exec.bind_eq_ok.1 h
      obtain ⟨⟨parsed, line'⟩, hparse, h⟩ := Exec.bind_eq_ok.1 h
      have hlen' := (parseResponse_length hparse).trans hlen
      match parsed with
      | none =>
        cases h
        exact ⟨hlen', rfl, Or.inl rfl⟩
      | some none => cases h
      | some (some length) =>
        obtain ⟨hlast, hstdin, hsent⟩ := retrieve_frame h
        exact ⟨hlast.trans hlen', hstdin, Or.inl hsent⟩
  · rw [hwrite] at h
    cases h
    exact ⟨rfl, rfl, Or.inr ⟨rfl, rfl⟩⟩

variable {c : ClientState} {name field reason rest : List UInt8}

/-- The request ends before the NUL. -/
theorem readAt_request (name tail : List UInt8) :
    (readAt (name ++ (crlf ++ [0]) ++ tail) 0 (name.length + 2) : Exec Empty (List UInt8)) =
      .ok (name ++ crlf) := by
  have hstop : name.length + 2 = (name ++ crlf).length := by
    rw [List.length_append]
    rfl
  rw [hstop, ← List.append_assoc name, List.append_assoc (name ++ crlf)]
  exact readAt_prefix (name ++ crlf) ([0] ++ tail)

/-- The name given by the option is the request. -/
theorem nextRequest_file (hfile : env.filename = some name) (hline : c.line.length = 1000)
    (hlen : name.length ≤ 255) :
    ∃ line, nextRequest env c = .ok (.ready (name.length + 2), { c with line }) ∧
      line.length = 1000 ∧
      (readAt line 0 (name.length + 2) : Exec Empty (List UInt8)) = .ok (name ++ crlf) := by
  have hcopy : (memcpyAt c.line 0 (name ++ [0]) : Exec Empty (List UInt8)) =
      .ok (name ++ [0] ++ c.line.drop (name ++ [0]).length) := by
    apply memcpyAt_zero
    rw [List.length_append, hline, List.length_singleton]
    omega
  have hcrlf : (crlf ++ [0]).length = 3 := rfl
  have hend := @memcpyAt_append Empty name ([0] ++ c.line.drop (name ++ [0]).length) (crlf ++ [0])
    (by simp only [hcrlf, List.length_append, List.length_drop, hline,
      List.length_singleton]; omega)
  rw [← List.append_assoc] at hend
  obtain ⟨tail, htail⟩ : ∃ tail,
      tail = ([(0 : UInt8)] ++ c.line.drop (name ++ [0]).length).drop 3 :=
    ⟨_, rfl⟩
  rw [hcrlf, ← htail] at hend
  refine ⟨name ++ (crlf ++ [0]) ++ tail, ?_, ?_, ?_⟩
  · simp only [nextRequest, hfile, hcopy, Exec.ok_bind, hend]
    rfl
  · rw [memcpyAt_length hend, memcpyAt_length hcopy, hline]
  · exact readAt_request name tail

/-- The response is cut at its last two commas. -/
theorem parseResponse_eq {line : List UInt8}
    (h : CStrAt line 0 (name ++ 44 :: (field ++ 44 :: reason))) (hfield : 44 ∉ field)
    (hreason : 44 ∉ reason) (length : Option Int) :
    ∃ line', parseResponse line length = .ok (some ((sscanfInt field).or length), line') ∧
      line'.length = line.length := by
  have hassoc : name ++ 44 :: (field ++ 44 :: reason) = (name ++ 44 :: field) ++ 44 :: reason := by
    rw [List.append_assoc, List.cons_append]
  rw [hassoc] at h
  have hresp := @CStrAt.strrchr_eq Empty _ _ _ _ _ h hreason
  have hfront := h.cut.1
  have hlt := h.length_lt
  simp only [List.length_append, List.length_cons, Nat.zero_add] at hlt hresp hfront
  have hlenstr := @CStrAt.strrchr_eq Empty _ _ _ _ _ hfront hfield
  have hback := hfront.cut.2
  rw [Nat.zero_add] at hlenstr hback
  have hset := @memcpyAt_byte Empty line (name.length + (field.length + 1)) (by omega) 0
  have hset' := @memcpyAt_byte Empty (line.set (name.length + (field.length + 1)) 0) name.length
    (by rw [List.length_set]; omega) 0
  refine ⟨(line.set (name.length + (field.length + 1)) 0).set name.length 0, ?_, ?_⟩
  · simp only [parseResponse, hresp, Exec.ok_bind, hset, hlenstr, hset', hback.cstr]
    rfl
  · rw [List.length_set, List.length_set]

/-- The response to a request is taken off the stream, and its number is read. -/
theorem transfer_eq {request : List UInt8} {stop fuel : Nat} {length : Int}
    (h : c.conn.Reliable) (hline : c.line.length = 1000)
    (hrequest : (readAt c.line 0 stop : Exec Empty (List UInt8)) = .ok request)
    (hpending : c.conn.incoming.pending =
      name ++ 44 :: (field ++ 44 :: (reason ++ crlf)) ++ rest)
    (hzero : 0 ∉ name) (hcrlf : NoCrlf name) (hfield : Plain field) (hreason : Plain reason)
    (hlen : name.length + field.length + reason.length < 997) (hfuel : 1002 ≤ fuel)
    (hlength : sscanfInt field = some length) :
    ∃ incoming writes line, incoming.pending = rest ∧ incoming.Reliable ∧ false ∉ writes ∧
      line.length = 1000 ∧ transfer env fuel c stop = retrieve env fuel { c with
        conn := ⟨incoming, c.conn.sent ++ request, writes⟩, line,
        length := some length } length := by
  obtain ⟨writes, hwrite, hwrites⟩ := c.conn.mywrite_spec h request
  have htext : NoCrlf (name ++ 44 :: (field ++ 44 :: reason)) := by
    apply hcrlf.append_cons (by decide)
    apply noCrlf_of_not_mem
    simp [hfield.2.1, hreason.2.1]
  have hpending' : c.conn.incoming.pending =
      (name ++ 44 :: (field ++ 44 :: reason)) ++ (crlf ++ rest) := by
    rw [hpending]
    simp
  have hsize : (name ++ 44 :: (field ++ 44 :: reason)).length < c.line.length ∧
      (name ++ 44 :: (field ++ 44 :: reason)).length + 2 ≤ fuel := by
    simp only [List.length_append, List.length_cons, hline]
    omega
  obtain ⟨incoming, hrest, hreliable, hread⟩ :=
    @getNvtLine_eq (name ++ 44 :: (field ++ 44 :: reason))
      rest [] c.line c.conn.incoming 0 fuel h.1 hpending' htext
      (fun hlast => absurd hlast.1 (by decide)) hsize.1 hsize.2
  rw [List.nil_append, List.length_nil, List.nil_append] at hread
  have hstr := cstrAt_append [] (name ++ 44 :: (field ++ 44 :: reason))
    (c.line.drop ((name ++ 44 :: (field ++ 44 :: reason)).length + 1))
    (by simp [hzero, hfield.1, hreason.1])
  rw [List.nil_append, List.length_nil] at hstr
  obtain ⟨line, hparse, hline'⟩ := parseResponse_eq hstr hfield.2.2 hreason.2.2 c.length
  refine ⟨incoming, writes, line, hrest, hreliable, hwrites, ?_, ?_⟩
  · rw [hline', List.length_append, List.length_cons, List.length_drop]
    omega
  · simp only [transfer, hrequest, Exec.ok_bind, hwrite, hread, hstr.cstr, hparse, hlength,
      Option.some_or]
    rfl

end ComputerNetworks.Transfer
