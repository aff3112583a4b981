import ComputerNetworks.Core.Decimal
import ComputerNetworks.Transfer.NvtLine

/-!
# The file server

`process_line` and `do_connection` of `server.c`. A request is the name of a file.
It is answered by a line with the name, the size of the file or -1, and a reason,
and behind it by the bytes of the file.
-/

namespace ComputerNetworks.Transfer

/-- The bytes of a literal. -/
def text (s : String) : List UInt8 := s.toList.map fun c => UInt8.ofNat c.toNat

/-- What the server meets: whether `access` grants reading, what `open` and then `read` deliver, and
what stands in its two arrays at first. -/
structure ServerEnv where
  access : List UInt8 → Bool
  openFile : List UInt8 → Option ByteStream
  resp : List UInt8
  resp_length : resp.length = 5000
  line : List UInt8
  line_length : line.length = 256

/-- The response to a request, and the file if it could be opened. -/
def respond (env : ServerEnv) (name : List UInt8) : List UInt8 × Option ByteStream :=
  if name = [] ∨ env.access name = false then
    (name ++ text ",-1,File does not exist or access denied\r\n", none)
  else
    match env.openFile name with
    | none => (name ++ text ",-1,File could not be opened\r\n", none)
    | some file =>
      (name ++ (text "," ++ (decimal file.pending.length ++ text ",Ok\r\n")), some file)

/-- The loop of `process_line` that sends a file in pieces of the size of `resp`. -/
def sendFile : Nat → Connection → ByteStream → List UInt8 → Exec Empty (Int × Connection)
  | 0, _, _, _ => .error .outOfFuel
  | fuel + 1, conn, file, resp =>
    match file.call 5000 with
    | (none, _) => .ok (-1, conn)
    | (some [], _) => .ok (0, conn)
    | (some (c :: bytes), file) => do
      let resp ← memcpyAt resp 0 (c :: bytes)
      let piece ← readAt resp 0 (c :: bytes).length
      match conn.mywrite piece with
      | (false, conn) => pure (-1, conn)
      | (true, conn) => sendFile fuel conn file resp

/-- `process_line`. -/
def processLine (env : ServerEnv) (fuel : Nat) (conn : Connection) (line : List UInt8) :
    Exec Empty (Int × Connection) := do
  let name ← cstr line 0
  let (response, file) := respond env name
  let resp ← memcpyAt env.resp 0 (response ++ [0])
  let response ← cstr resp 0
  match conn.mywrite response with
  | (false, conn) => pure (-1, conn)
  | (true, conn) =>
    match file with
    | none => pure (0, conn)
    | some file => sendFile fuel conn file resp

/-- One round of `do_connection`: whether it goes on. -/
def serveRequest (env : ServerEnv) (fuel : Nat) (conn : Connection) (line : List UInt8) :
    Exec Empty (Bool × Connection × List UInt8) := do
  let (rc, incoming, line) ← getNvtLine fuel conn.incoming line 0 0
  let conn := { conn with incoming }
  if rc < 0 ∨ line.head? = some 0 then pure (false, conn, line)
  else do
    let (rc, conn) ← processLine env fuel conn line
    pure (0 ≤ rc, conn, line)

/-- `do_connection`, for a number of rounds. -/
def doConnection (env : ServerEnv) (fuel : Nat) :
    Nat → Connection → List UInt8 → Exec Empty Connection
  | 0, _, _ => .error .outOfFuel
  | rounds + 1, conn, line => do
    let (goesOn, conn, line) ← serveRequest env fuel conn line
    if goesOn then doConnection env fuel rounds conn line else pure conn

/-- Everything that is left of the file is sent, in whatever pieces it is read. -/
theorem sendFile_eq {conn : Connection} {file : ByteStream} {resp : List UInt8} {fuel : Nat}
    (h : conn.Reliable) (hfile : file.Reliable) (hresp : resp.length = 5000)
    (hfuel : file.pending.length < fuel) :
    ∃ writes, false ∉ writes ∧ sendFile fuel conn file resp =
      .ok (0, ⟨conn.incoming, conn.sent ++ file.pending, writes⟩) := by
  induction fuel generalizing conn file resp with
  | zero => cases hfuel
  | succ fuel ih =>
    obtain ⟨k, file', hpos, hle, hcall, hleft, hfile'⟩ :=
      @ByteStream.call_spec file 5000 hfile (by decide)
    unfold sendFile
    rw [hcall]
    cases hpiece : file.pending.take k with
    | nil =>
      have hempty : file.pending = [] := by
        rcases List.take_eq_nil_iff.1 hpiece with hk | hempty
        · omega
        · exact hempty
      refine ⟨conn.writes, h.2, ?_⟩
      rw [hempty, List.append_nil]
    | cons c bytes =>
      have hlen : (c :: bytes).length ≤ k := by
        rw [← hpiece]
        exact List.length_take_le _ _
      have hcopy : (memcpyAt resp 0 (c :: bytes) : Exec Empty (List UInt8)) =
          .ok (c :: bytes ++ resp.drop (c :: bytes).length) := memcpyAt_zero (by omega)
      have hread : (readAt (c :: bytes ++ resp.drop (c :: bytes).length) 0 (c :: bytes).length :
          Exec Empty (List UInt8)) = .ok (c :: bytes) := readAt_prefix _ _
      obtain ⟨writes, hwrite, hwrites⟩ := conn.mywrite_spec h (c :: bytes)
      have hrest : c :: bytes ++ file'.pending = file.pending := by
        rw [hleft, ← hpiece, List.take_append_drop]
      have hshorter := congrArg List.length hrest
      rw [List.length_append, List.length_cons] at hshorter
      obtain ⟨writes', hwrites', hrun⟩ := @ih ⟨conn.incoming, conn.sent ++ c :: bytes, writes⟩ file'
        (c :: bytes ++ resp.drop (c :: bytes).length) ⟨h.1, hwrites⟩ hfile'
        (by rw [List.length_append, List.length_drop]; omega) (by omega)
      refine ⟨writes', hwrites', ?_⟩
      simp only [hcopy, Exec.ok_bind, hread, hwrite, hrun, List.append_assoc, hrest]

/-- What the server sends for a request. -/
def answer (env : ServerEnv) (name : List UInt8) : List UInt8 :=
  (respond env name).1 ++ ((respond env name).2.map ByteStream.pending).getD []

/-- The file that the server finds under a name, if it can read it. -/
def ServerEnv.served (env : ServerEnv) (name : List UInt8) : Option ByteStream :=
  if env.access name then env.openFile name else none

/-- If there is a file, it is read without a failure and has fewer than 2^31 bytes. -/
def ServerEnv.Regular (env : ServerEnv) (name : List UInt8) : Prop :=
  ∀ file, env.served name = some file → file.Reliable ∧ file.pending.length < 2 ^ 31

variable {env : ServerEnv} {name : List UInt8}

/-- A field of a response: no NUL, no LF and no comma stands in it. -/
def Plain (s : List UInt8) : Prop := 0 ∉ s ∧ 10 ∉ s ∧ 44 ∉ s

instance Plain.decidable (s : List UInt8) : Decidable (Plain s) :=
  inferInstanceAs (Decidable (_ ∧ _))

/-- A number is plain. -/
theorem plain_decimal (n : Nat) : Plain (decimal n) := by
  have hdigit : ∀ c, isdigit c = false → c ∉ decimal n := by
    intro c hc hmem
    rw [isdigit_of_mem_decimal n c hmem] at hc
    cases hc
  exact ⟨hdigit 0 rfl, hdigit 10 rfl, hdigit 44 rfl⟩

/-- The second field of a response. -/
def announced (file : Option ByteStream) : List UInt8 :=
  match file with
  | none => text "-1"
  | some file => decimal file.pending.length

/-- Behind the response to a name stands the file. -/
theorem respond_file (hne : name ≠ []) : (respond env name).2 = env.served name := by
  unfold respond ServerEnv.served
  cases haccess : env.access name with
  | false =>
    rw [if_pos (Or.inr rfl)]
    rfl
  | true =>
    have hgranted : ¬(name = [] ∨ true = false) := fun h => h.elim hne nofun
    rw [if_neg hgranted]
    cases env.openFile name with
    | none => rfl
    | some file => rfl

/-- A response is the name, what is announced, and a reason. -/
theorem respond_eq (env : ServerEnv) (hne : name ≠ []) : ∃ reason, Plain reason ∧
    reason.length ≤ 38 ∧ (respond env name).1 =
      name ++ 44 :: (announced (env.served name) ++ 44 :: (reason ++ crlf)) := by
  rw [← respond_file hne]
  unfold respond
  split
  · exact ⟨text "File does not exist or access denied", by decide, by decide, rfl⟩
  · split
    · exact ⟨text "File could not be opened", by decide, by decide, rfl⟩
    · exact ⟨text "Ok", by decide, by decide, rfl⟩

/-- The announced size is plain. -/
theorem plain_announced (file : Option ByteStream) : Plain (announced file) := by
  cases file with
  | none => exact (by decide : Plain (text "-1"))
  | some file => exact plain_decimal _

/-- The announced size has ten characters at most. -/
theorem announced_length_le (henv : env.Regular name) :
    (announced (env.served name)).length ≤ 10 := by
  cases hfile : env.served name with
  | none => exact (by decide : (announced none).length ≤ 10)
  | some file =>
    obtain ⟨-, hsize⟩ := henv file hfile
    exact decimal_length_le (hsize.trans (by decide)) (by decide)

/-- A response is a string that fits the array. -/
theorem respond_fits (henv : env.Regular name) (hne : name ≠ []) (hzero : 0 ∉ name)
    (hlen : name.length ≤ 255) : 0 ∉ (respond env name).1 ∧ (respond env name).1.length < 5000 := by
  obtain ⟨reason, hreason, hshort, heq⟩ := respond_eq env hne
  have hfield := (plain_announced (env.served name)).1
  have hdigits := @announced_length_le env name henv
  rw [heq]
  constructor
  · simp [hzero, hfield, hreason.1, crlf]
  · simp only [List.length_append, List.length_cons, crlf, List.length_nil]
    omega

/-- A request is answered. -/
theorem processLine_eq {conn : Connection} {line : List UInt8} {fuel : Nat} (h : conn.Reliable)
    (henv : env.Regular name) (hname : CStrAt line 0 name) (hne : name ≠ [])
    (hlen : name.length ≤ 255)
    (hfuel : ∀ file, env.served name = some file → file.pending.length < fuel) :
    ∃ writes, false ∉ writes ∧ processLine env fuel conn line =
      .ok (0, ⟨conn.incoming, conn.sent ++ answer env name, writes⟩) := by
  obtain ⟨hzero, hfits⟩ := @respond_fits env name henv hne hname.1 hlen
  obtain ⟨resp, hcopy, hstr, hresp⟩ := @memcpyAt_string Empty env.resp (respond env name).1 hzero
    (hfits.trans_eq env.resp_length.symm)
  obtain ⟨writes, hwrite, hwrites⟩ := conn.mywrite_spec h (respond env name).1
  unfold processLine
  simp only [hname.cstr, Exec.ok_bind, hcopy, hstr.cstr, hwrite]
  unfold answer
  rw [respond_file hne]
  cases hfile : env.served name with
  | none =>
    refine ⟨writes, hwrites, ?_⟩
    rw [Option.map_none, Option.getD_none, List.append_nil]
    rfl
  | some file =>
    obtain ⟨writes', hwrites', hrun⟩ := @sendFile_eq
      ⟨conn.incoming, conn.sent ++ (respond env name).1, writes⟩ file resp fuel
      ⟨h.1, hwrites⟩ (henv file hfile).1 (hresp.trans env.resp_length) (hfuel file hfile)
    refine ⟨writes', hwrites', ?_⟩
    rw [Option.map_some, Option.getD_some, ← List.append_assoc]
    exact hrun

/-- A round of the server takes a request off the stream and answers it. -/
theorem serveRequest_eq {conn : Connection} {line rest : List UInt8} {fuel : Nat}
    (h : conn.Reliable) (henv : env.Regular name) (hline : line.length = 256)
    (hpending : conn.incoming.pending = name ++ (crlf ++ rest)) (hne : name ≠ [])
    (hzero : 0 ∉ name) (hcrlf : NoCrlf name) (hlen : name.length ≤ 255) (hfuel : 257 ≤ fuel)
    (hfile : ∀ file, env.served name = some file → file.pending.length < fuel) :
    ∃ conn' line', serveRequest env fuel conn line = .ok (true, conn', line') ∧
      conn'.Reliable ∧ conn'.incoming.pending = rest ∧ conn'.sent = conn.sent ++ answer env name ∧
      line'.length = 256 := by
  obtain ⟨incoming, hrest, hreliable, hread⟩ :=
    @getNvtLine_eq name rest [] line conn.incoming 0 fuel
      h.1 hpending hcrlf (fun hlast => absurd hlast.1 (by decide)) (by omega) (by omega)
  have hstr : CStrAt (name ++ (0 : UInt8) :: line.drop (name.length + 1)) 0 name :=
    cstrAt_of_drop _ hzero (List.drop_zero ..)
  obtain ⟨writes, hwrites, hprocess⟩ := @processLine_eq env name { conn with incoming } _ fuel
    ⟨hreliable, h.2⟩ henv hstr hne hlen hfile
  have hhead : ¬((0 : Int) < 0 ∨
      (name ++ (0 : UInt8) :: line.drop (name.length + 1)).head? = some 0) := by
    rintro (hneg | hhead)
    · omega
    · obtain ⟨c, name, rfl⟩ := List.exists_cons_of_ne_nil hne
      exact hzero (List.mem_cons.2 (Or.inl (Option.some.inj hhead).symm))
  rw [List.nil_append, List.length_nil, List.nil_append] at hread
  refine ⟨⟨incoming, conn.sent ++ answer env name, writes⟩,
    name ++ 0 :: line.drop (name.length + 1), ?_, ⟨hreliable, hwrites⟩, hrest, rfl, ?_⟩
  · simp only [serveRequest, hread, Exec.ok_bind, if_neg hhead, hprocess]
    rfl
  · rw [List.length_append, List.length_cons, List.length_drop, hline]
    omega

end ComputerNetworks.Transfer
