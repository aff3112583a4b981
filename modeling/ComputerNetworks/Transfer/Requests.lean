import ComputerNetworks.Core.Fuel
import ComputerNetworks.Transfer.EndToEnd
import ComputerNetworks.Transfer.LineReading
import ComputerNetworks.Transfer.RequestBuilding

/-!
# The server on any stream

`do_connection` with a client that may send what it likes. The stream is taken
apart at its line ends up to the first line whose string is empty. Each line before
it is answered as far as it is a string, unless one of them is longer than the
array it is read into.
-/

namespace ComputerNetworks.Transfer

/-- Reading a line makes the stream shorter. -/
theorem afterLine_length_lt {s : List UInt8} (h : s ≠ []) : (afterLine s).length < s.length := by
  induction s with
  | nil => exact absurd rfl h
  | cons c s ih =>
    rw [afterLine, List.length_cons]
    split
    · rw [List.length_tail]
      omega
    · by_cases hnil : s = []
      · rw [hnil]
        exact Nat.zero_lt_one
      · exact (ih hnil).trans (Nat.lt_succ_self _)

/-- The lines that are read: up to the first whose string is empty, that one too. -/
def linesRead (s : List UInt8) : List (List UInt8) :=
  if beforeNul (firstLine s) = [] then [firstLine s]
  else firstLine s :: linesRead (afterLine s)
termination_by s.length
decreasing_by
  rename_i hname
  apply afterLine_length_lt
  rintro rfl
  exact hname rfl

/-- The names that are asked for. -/
def namesAsked (s : List UInt8) : List (List UInt8) := (linesRead s).dropLast.map beforeNul

theorem linesRead_last {s : List UInt8} (h : beforeNul (firstLine s) = []) :
    linesRead s = [firstLine s] := by
  rw [linesRead, if_pos h]

theorem linesRead_line {s : List UInt8} (h : beforeNul (firstLine s) ≠ []) :
    linesRead s = firstLine s :: linesRead (afterLine s) := by
  rw [linesRead, if_neg h]

/-- At least one line is read. -/
theorem linesRead_ne_nil (s : List UInt8) : linesRead s ≠ [] := by
  rw [linesRead]
  split
  · exact List.cons_ne_nil _ _
  · exact List.cons_ne_nil _ _

/-- An empty string asks for nothing. -/
theorem namesAsked_last {s : List UInt8} (h : beforeNul (firstLine s) = []) :
    namesAsked s = [] := by
  rw [namesAsked, linesRead_last h]
  rfl

/-- Any other line asks for its string. -/
theorem namesAsked_line {s : List UInt8} (h : beforeNul (firstLine s) ≠ []) :
    namesAsked s = beforeNul (firstLine s) :: namesAsked (afterLine s) := by
  rw [namesAsked, linesRead_line h, List.dropLast_cons_of_ne_nil (linesRead_ne_nil _),
    List.map_cons]
  rfl

/-- More fuel reads the same line. -/
theorem getNvtLine_settles (k : Nat) {fuel pos : Nat} {s : ByteStream} {line : List UInt8}
    {last : UInt8} :
    (getNvtLine fuel s line pos last).Settles (getNvtLine (fuel + k) s line pos last) := by
  induction fuel generalizing s line pos last with
  | zero => exact .out_of_fuel _
  | succ fuel ih =>
    rw [Nat.succ_add, getNvtLine, getNvtLine]
    split
    · exact .refl _
    · exact .refl _
    · apply Exec.Settles.ite
      · exact .refl _
      · exact .bind (.refl _) fun line => ih

theorem sendFile_settles (k : Nat) {fuel : Nat} {conn : Connection} {file : ByteStream}
    {resp : List UInt8} :
    (sendFile fuel conn file resp).Settles (sendFile (fuel + k) conn file resp) := by
  induction fuel generalizing conn file resp with
  | zero => exact .out_of_fuel _
  | succ fuel ih =>
    rw [Nat.succ_add, sendFile, sendFile]
    split
    · exact .refl _
    · exact .refl _
    · refine .bind (.refl _) fun resp => .bind (.refl _) fun piece => ?_
      split
      · exact .refl _
      · exact ih

variable {env : ServerEnv}

theorem processLine_settles (k : Nat) {fuel : Nat} {conn : Connection} {line : List UInt8} :
    (processLine env fuel conn line).Settles (processLine env (fuel + k) conn line) := by
  refine .bind (.refl _) fun name => .bind (.refl _) fun resp => .bind (.refl _) fun response => ?_
  split
  · exact .refl _
  · split
    · exact .refl _
    · exact sendFile_settles k

theorem serveRequest_settles (k : Nat) {fuel : Nat} {conn : Connection} {line : List UInt8} :
    (serveRequest env fuel conn line).Settles (serveRequest env (fuel + k) conn line) := by
  refine .bind (getNvtLine_settles k) fun read => ?_
  apply Exec.Settles.ite
  · exact .refl _
  · exact .bind (processLine_settles k) fun sent => .refl _

theorem call_reliable {s s' : ByteStream} {n : Nat} {read : Option (List UInt8)} (h : s.Reliable)
    (hn : 0 < n) (hcall : s.call n = (read, s')) : s'.Reliable := by
  obtain ⟨k, s₁, -, -, hspec, -, hreliable⟩ := ByteStream.call_spec h hn
  rw [hspec] at hcall
  cases hcall
  exact hreliable

theorem getNvtLine_reliable {fuel pos : Nat} {s s' : ByteStream} {line line' : List UInt8}
    {last : UInt8} {rc : Int} (h : s.Reliable)
    (hread : getNvtLine fuel s line pos last = .ok (rc, s', line')) : s'.Reliable := by
  induction fuel generalizing s line pos last with
  | zero => cases hread
  | succ fuel ih =>
    unfold getNvtLine at hread
    split at hread
    · next hcall =>
      cases hread
      exact call_reliable h Nat.one_pos hcall
    · next hcall =>
      obtain ⟨line₁, -, hread⟩ := Exec.bind_eq_ok.1 hread
      cases hread
      exact call_reliable h Nat.one_pos hcall
    · next hcall =>
      have h₁ := call_reliable h Nat.one_pos hcall
      split at hread
      · obtain ⟨line₁, -, hread⟩ := Exec.bind_eq_ok.1 hread
        cases hread
        exact h₁
      · obtain ⟨line₁, -, hread⟩ := Exec.bind_eq_ok.1 hread
        exact ih h₁ hread

/-- The line that a round reads, if it fits. -/
theorem getNvtLine_request {s : ByteStream} {line : List UInt8} {fuel : Nat} (h : s.Reliable)
    (hline : line.length = 256) (hfit : (firstLine s.pending).length ≤ 255)
    (hfuel : s.pending.length < fuel) :
    ∃ s' line', getNvtLine fuel s line 0 0 = .ok (0, s', line') ∧
      s'.pending = afterLine s.pending ∧ s'.Reliable ∧ line'.length = 256 ∧
      CStrAt line' 0 (beforeNul (firstLine s.pending)) := by
  have hstart : ¬((0 : UInt8) = 13 ∧ s.pending.head? = some 10) := fun hend => nomatch hend.1
  obtain ⟨s', hafter, hread⟩ := @getNvtLine_firstLine s.pending [] line s 0 fuel h rfl hstart
    (by omega) hfuel
  refine ⟨s', _, hread, hafter, getNvtLine_reliable h hread, ?_, ?_⟩
  · rw [getNvtLine_length hread]
    exact hline
  · exact cstrAt_takeWhile _ rfl

/-- The first character of a string is the NUL exactly if it is empty. -/
theorem head_eq_zero_iff {line name : List UInt8} (h : CStrAt line 0 name) :
    line.head? = some 0 ↔ name = [] := by
  obtain ⟨post, hpost⟩ := h.eq_append
  rw [List.drop_zero] at hpost
  subst hpost
  cases name with
  | nil => exact iff_of_true rfl rfl
  | cons c name =>
    refine iff_of_false ?_ (List.cons_ne_nil _ _)
    intro hhead
    exact h.1 (List.mem_cons.2 (Or.inl (Option.some.inj hhead).symm))

/-- At an empty string the server leaves. -/
theorem serveRequest_last {conn : Connection} {line : List UInt8} {fuel : Nat} (h : conn.Reliable)
    (hline : line.length = 256) (hfit : (firstLine conn.incoming.pending).length ≤ 255)
    (hfuel : conn.incoming.pending.length < fuel)
    (hlast : beforeNul (firstLine conn.incoming.pending) = []) :
    ∃ conn' line', serveRequest env fuel conn line = .ok (false, conn', line') ∧
      conn'.sent = conn.sent := by
  obtain ⟨incoming, line', hread, -, -, -, hstr⟩ := getNvtLine_request h.1 hline hfit hfuel
  refine ⟨{ conn with incoming }, line', ?_, rfl⟩
  simp only [serveRequest, hread, Exec.ok_bind]
  rw [if_pos (Or.inr ((head_eq_zero_iff hstr).2 hlast))]
  rfl

/-- Any other line is answered. -/
theorem serveRequest_line {conn : Connection} {line name : List UInt8} {fuel : Nat}
    (h : conn.Reliable) (hline : line.length = 256)
    (hfit : (firstLine conn.incoming.pending).length ≤ 255)
    (hfuel : conn.incoming.pending.length < fuel)
    (hname : beforeNul (firstLine conn.incoming.pending) = name) (hne : name ≠ [])
    (henv : env.Regular name)
    (hfile : ∀ file, env.served name = some file → file.pending.length < fuel) :
    ∃ conn' line', serveRequest env fuel conn line = .ok (true, conn', line') ∧
      conn'.Reliable ∧ conn'.incoming.pending = afterLine conn.incoming.pending ∧
      conn'.sent = conn.sent ++ answer env name ∧ line'.length = 256 := by
  obtain ⟨incoming, line', hread, hafter, hreliable, hline', hstr⟩ :=
    getNvtLine_request h.1 hline hfit hfuel
  rw [hname] at hstr
  have hlen : name.length ≤ 255 := by
    rw [← hname]
    exact (List.takeWhile_prefix _).length_le.trans hfit
  obtain ⟨writes, hwrites, hprocess⟩ := @processLine_eq env name { conn with incoming } line' fuel
    ⟨hreliable, h.2⟩ henv hstr hne hlen hfile
  have hgoes : ¬((0 : Int) < 0 ∨ line'.head? = some 0) := by
    rintro (hneg | hhead)
    · omega
    · exact hne ((head_eq_zero_iff hstr).1 hhead)
  refine ⟨⟨incoming, conn.sent ++ answer env name, writes⟩, line', ?_, ⟨hreliable, hwrites⟩, hafter,
    rfl, hline'⟩
  simp only [serveRequest, hread, Exec.ok_bind, if_neg hgoes, hprocess]
  rfl

/-- There is fuel for every file that is asked for. -/
theorem exists_fuel (env : ServerEnv) (names : List (List UInt8)) (n : Nat) :
    ∃ fuel, n < fuel ∧ ∀ name ∈ names, ∀ file, env.served name = some file →
      file.pending.length < fuel := by
  induction names with
  | nil => exact ⟨n + 1, Nat.lt_succ_self n, List.forall_mem_nil _⟩
  | cons name names ih =>
    obtain ⟨fuel, hn, hnames⟩ := ih
    cases hserved : env.served name with
    | none =>
      refine ⟨fuel, hn, List.forall_mem_cons.2 ⟨?_, hnames⟩⟩
      intro file hfile
      rw [hserved] at hfile
      cases hfile
    | some file =>
      refine ⟨fuel + file.pending.length, by omega, List.forall_mem_cons.2 ⟨?_, ?_⟩⟩
      · intro file' hfile
        rw [hserved] at hfile
        cases hfile
        omega
      · intro name' hname' file' hfile
        have := hnames name' hname' file' hfile
        omega

/-- Lines that fit are answered one by one. -/
theorem doConnection_answers {s : List UInt8} {conn : Connection} {line : List UInt8} {fuel : Nat}
    (h : conn.Reliable) (hs : conn.incoming.pending = s) (hline : line.length = 256)
    (hfit : ∀ l ∈ linesRead s, l.length ≤ 255) (henv : ∀ name ∈ namesAsked s, env.Regular name)
    (hfuel : s.length < fuel)
    (hfile : ∀ name ∈ namesAsked s, ∀ file, env.served name = some file →
      file.pending.length < fuel) :
    ∃ conn', doConnection env fuel (linesRead s).length conn line = .ok conn' ∧
      conn'.sent = conn.sent ++ (namesAsked s).flatMap (answer env) := by
  induction s using linesRead.induct generalizing conn line with
  | case1 s hlast =>
    subst hs
    rw [linesRead_last hlast] at hfit ⊢
    obtain ⟨conn', line', hserve, hsent⟩ := @serveRequest_last env conn line fuel h hline
      (hfit _ List.mem_cons_self) hfuel hlast
    refine ⟨conn', ?_, ?_⟩
    · rw [List.length_singleton, doConnection, hserve]
      rfl
    · rw [hsent, namesAsked_last hlast, List.flatMap_nil, List.append_nil]
  | case2 s hname ih =>
    subst hs
    have hne : conn.incoming.pending ≠ [] := by
      intro hnil
      rw [hnil] at hname
      exact hname rfl
    rw [namesAsked_line hname] at henv hfile ⊢
    rw [linesRead_line hname] at hfit ⊢
    obtain ⟨henv₀, henv⟩ := List.forall_mem_cons.1 henv
    obtain ⟨hfile₀, hfile⟩ := List.forall_mem_cons.1 hfile
    obtain ⟨hfit₀, hfit⟩ := List.forall_mem_cons.1 hfit
    obtain ⟨conn₁, line₁, hserve, h₁, hafter, hsent₁, hline₁⟩ := serveRequest_line h hline hfit₀
      hfuel rfl hname henv₀ hfile₀
    obtain ⟨conn', hrun, hsent⟩ := ih h₁ hafter hline₁ hfit henv
      ((afterLine_length_lt hne).trans hfuel) hfile
    refine ⟨conn', ?_, ?_⟩
    · rw [List.length_cons, doConnection, hserve]
      exact hrun
    · rw [hsent, hsent₁, List.append_assoc, List.flatMap_cons]

/-- What a round that has ended did. -/
theorem serveRequest_cases {conn conn' : Connection} {line line' : List UInt8} {fuel : Nat}
    {goesOn : Bool} (h : conn.Reliable) (hline : line.length = 256)
    (henv : ∀ name ∈ namesAsked conn.incoming.pending, env.Regular name)
    (hserve : serveRequest env fuel conn line = .ok (goesOn, conn', line')) :
    (firstLine conn.incoming.pending).length ≤ 255 ∧
      (beforeNul (firstLine conn.incoming.pending) = [] ∧ goesOn = false ∧ conn'.sent = conn.sent ∨
        beforeNul (firstLine conn.incoming.pending) ≠ [] ∧ goesOn = true ∧ conn'.Reliable ∧
          conn'.incoming.pending = afterLine conn.incoming.pending ∧
          conn'.sent = conn.sent ++ answer env (beforeNul (firstLine conn.incoming.pending)) ∧
          line'.length = 256) := by
  have hfit : (firstLine conn.incoming.pending).length ≤ 255 := by
    by_contra hlong
    have hpast : line.length ≤ (firstLine conn.incoming.pending).length := by omega
    rcases @serveRequest_overrun env conn h.1 line hpast fuel with hfail | hfail
    · rw [hserve] at hfail
      cases hfail
    · rw [hserve] at hfail
      cases hfail
  obtain ⟨k, hk, hfile⟩ := exists_fuel env (namesAsked conn.incoming.pending)
    conn.incoming.pending.length
  have hmore := (serveRequest_settles k).ok hserve
  refine ⟨hfit, ?_⟩
  by_cases hname : beforeNul (firstLine conn.incoming.pending) = []
  · obtain ⟨conn₁, line₁, hlast, hsent⟩ := @serveRequest_last env conn line (fuel + k) h hline hfit
      (by omega) hname
    rw [hlast] at hmore
    cases hmore
    exact Or.inl ⟨hname, rfl, hsent⟩
  · rw [namesAsked_line hname] at henv hfile
    have hsize : ∀ file, env.served (beforeNul (firstLine conn.incoming.pending)) = some file →
        file.pending.length < fuel + k := by
      intro file hserved
      have := (List.forall_mem_cons.1 hfile).1 file hserved
      omega
    obtain ⟨conn₁, line₁, hanswer, h₁, hafter, hsent, hline₁⟩ := serveRequest_line h hline hfit
      (by omega : _ < fuel + k) rfl hname (List.forall_mem_cons.1 henv).1 hsize
    rw [hanswer] at hmore
    cases hmore
    exact Or.inr ⟨hname, rfl, h₁, hafter, hsent, hline₁⟩

/-- What a connection that has ended did. -/
theorem doConnection_cases {conn conn' : Connection} {line : List UInt8} {fuel rounds : Nat}
    (h : conn.Reliable) (hline : line.length = 256)
    (henv : ∀ name ∈ namesAsked conn.incoming.pending, env.Regular name)
    (hrun : doConnection env fuel rounds conn line = .ok conn') :
    (∀ l ∈ linesRead conn.incoming.pending, l.length ≤ 255) ∧
      conn'.sent = conn.sent ++ (namesAsked conn.incoming.pending).flatMap (answer env) := by
  induction rounds generalizing conn line with
  | zero => cases hrun
  | succ rounds ih =>
    obtain ⟨⟨goesOn, conn₁, line₁⟩, hserve, hrun⟩ := Exec.bind_eq_ok.1 hrun
    obtain ⟨hfit, hround⟩ := serveRequest_cases h hline henv hserve
    rcases hround with ⟨hname, rfl, hsent⟩ | ⟨hname, rfl, h₁, hafter, hsent, hline₁⟩
    · cases hrun
      rw [linesRead_last hname, namesAsked_last hname, List.flatMap_nil, List.append_nil]
      exact ⟨List.forall_mem_singleton.2 hfit, hsent⟩
    · rw [namesAsked_line hname] at henv ⊢
      rw [linesRead_line hname]
      obtain ⟨hfits, hsent'⟩ := ih h₁ hline₁
        (by rw [hafter]; exact (List.forall_mem_cons.1 henv).2) hrun
      rw [hafter] at hfits hsent'
      refine ⟨List.forall_mem_cons.2 ⟨hfit, hfits⟩, ?_⟩
      rw [hsent', hsent, List.append_assoc, List.flatMap_cons]

/-- Whatever a client sends, the server comes to an end exactly if no line that it reads is longer
than 255 bytes, and then it has answered every name it was asked for, in their order. -/
theorem connection_run {conn : Connection} {line : List UInt8} (h : conn.Reliable)
    (hline : line.length = 256)
    (henv : ∀ name ∈ namesAsked conn.incoming.pending, env.Regular name) :
    ((∃ fuel rounds conn', doConnection env fuel rounds conn line = .ok conn') ↔
        ∀ l ∈ linesRead conn.incoming.pending, l.length ≤ 255) ∧
      ∀ fuel rounds conn', doConnection env fuel rounds conn line = .ok conn' →
        conn'.sent = conn.sent ++ (namesAsked conn.incoming.pending).flatMap (answer env) := by
  refine ⟨⟨?_, ?_⟩, ?_⟩
  · rintro ⟨fuel, rounds, conn', hrun⟩
    exact (doConnection_cases h hline henv hrun).1
  · intro hfit
    obtain ⟨fuel, hfuel, hfile⟩ := exists_fuel env (namesAsked conn.incoming.pending)
      conn.incoming.pending.length
    obtain ⟨conn', hrun, -⟩ := doConnection_answers h rfl hline hfit henv hfuel hfile
    exact ⟨fuel, _, conn', hrun⟩
  · intro fuel rounds conn' hrun
    exact (doConnection_cases h hline henv hrun).2

/-- A client that asks for two names, the second with a NUL in it, and then sends an empty line. -/
def twoNames : Connection := ⟨⟨text "zz\r\na,1\x00b\r\n\r\nzz\r\n", [.bytes 0]⟩, [], []⟩

/-- The only file of the server is read without a failure. -/
theorem commaServer_regular (name : List UInt8) : commaServer.Regular name := by
  intro file hfile
  by_cases hname : name = [97, 44, 49]
  · subst hname
    cases hfile
    exact ⟨by decide, by decide⟩
  · have haccess : commaServer.access name = false := beq_eq_false_iff_ne.2 hname
    rw [ServerEnv.served, haccess] at hfile
    cases hfile

theorem connection_run_twoNames :
    ∃ fuel rounds conn', doConnection commaServer fuel rounds twoNames commaServer.line =
      .ok conn' := by
  have hread : linesRead twoNames.incoming.pending = [text "zz", text "a,1\x00b", []] := by
    rw [linesRead_line (by decide), linesRead_line (by decide), linesRead_last (by decide)]
    decide
  refine (connection_run ⟨by decide, List.not_mem_nil⟩ commaServer.line_length ?_).1.2 ?_
  · exact fun name _ => commaServer_regular name
  · rw [hread]
    decide

end ComputerNetworks.Transfer
