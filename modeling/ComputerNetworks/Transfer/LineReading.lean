import ComputerNetworks.Transfer.Server

/-!
# Lines of any length

`get_nvt_line` is not told where its line ends. It reads any stream as it should
as long as the bytes before the first CRLF leave room for the NUL, and else goes
on writing behind the block.
-/

namespace ComputerNetworks.Transfer

/-- The bytes before the first CRLF, or all of them. -/
def firstLine : List UInt8 → List UInt8
  | [] => []
  | c :: s => if crlf.isPrefixOf (c :: s) then [] else c :: firstLine s

/-- The bytes behind the first CRLF, or none. -/
def afterLine : List UInt8 → List UInt8
  | [] => []
  | c :: s => if crlf.isPrefixOf (c :: s) then s.tail else afterLine s

/-- The call returns 0 without having left the block: the bytes before the first CRLF are in the
line, a NUL behind them, and the stream stands just past that CRLF, or at its end. -/
def ReadsLine (s : ByteStream) (line : List UInt8) : Prop :=
  ∃ fuel s', getNvtLine fuel s line 0 0 = .ok (0, s', firstLine s.pending ++
      0 :: line.drop ((firstLine s.pending).length + 1)) ∧ s'.pending = afterLine s.pending

/-- A character that starts no line end belongs to the line. -/
theorem firstLine_cons {c : UInt8} {s : List UInt8} (h : ¬ crlf <+: c :: s) :
    firstLine (c :: s) = c :: firstLine s ∧ afterLine (c :: s) = afterLine s := by
  rw [← List.isPrefixOf_iff_prefix] at h
  rw [firstLine, afterLine, if_neg h, if_neg h]
  exact ⟨rfl, rfl⟩

/-- At a line end the line is empty. -/
theorem firstLine_crlf (rest : List UInt8) :
    firstLine (13 :: 10 :: rest) = [] ∧ afterLine (13 :: 10 :: rest) = rest := by
  have h : crlf.isPrefixOf (13 :: 10 :: rest) = true :=
    List.isPrefixOf_iff_prefix.2 (crlf_prefix_cons.2 ⟨rfl, rfl⟩)
  rw [firstLine, afterLine, if_pos h, if_pos h]
  exact ⟨rfl, rfl⟩

/-- A text without CRLF, lone CRs and LFs and all, is the first line before any CRLF. -/
theorem firstLine_append {line : List UInt8} (h : NoCrlf line) (rest : List UInt8) :
    firstLine (line ++ (crlf ++ rest)) = line ∧ afterLine (line ++ (crlf ++ rest)) = rest := by
  induction line with
  | nil => exact firstLine_crlf rest
  | cons c line ih =>
    rw [noCrlf_cons] at h
    obtain ⟨hline, hrest⟩ := ih h.2
    have hno : ¬ crlf <+: c :: (line ++ (crlf ++ rest)) := by
      rw [crlf_prefix_cons] at h ⊢
      rintro ⟨rfl, hhead⟩
      cases line with
      | nil => cases hhead
      | cons d line => exact h.1 ⟨rfl, hhead⟩
    obtain ⟨hfirst, hafter⟩ := firstLine_cons hno
    rw [List.cons_append, hfirst, hafter, hline, hrest]
    exact ⟨rfl, rfl⟩

/-- Nothing is taken off a reliable stream that has ended. -/
theorem call_end {s : ByteStream} (h : s.Reliable) (hpending : s.pending = []) :
    ∃ s', s.call 1 = (some [], s') ∧ s'.pending = [] ∧ s'.Reliable := by
  obtain ⟨k, s', -, -, hcall, hleft, hreliable⟩ := ByteStream.call_spec h Nat.one_pos
  rw [hpending, List.take_nil] at hcall
  rw [hpending, List.drop_nil] at hleft
  exact ⟨s', hcall, hleft, hreliable⟩

/-- At the end of the stream the NUL is put behind what has been stored. -/
theorem getNvtLine_end_of_stream {done old : List UInt8} {o : UInt8} {s : ByteStream}
    (h : s.Reliable) (hpending : s.pending = []) (fuel : Nat) (last : UInt8) :
    ∃ s', s'.pending = [] ∧ getNvtLine (fuel + 1) s (done ++ o :: old) done.length last =
      .ok (0, s', done ++ 0 :: old) := by
  obtain ⟨s', hcall, hleft, -⟩ := call_end h hpending
  have hstore := @memcpyAt_append Empty done (o :: old) [0] (Nat.succ_le_succ (Nat.zero_le _))
  refine ⟨s', hleft, ?_⟩
  simp only [getNvtLine, hcall, hstore, Exec.ok_bind, List.append_assoc]
  rfl

/-- A first line that fits the rest of the block is stored with a NUL, and the stream is left behind
its end. -/
theorem getNvtLine_firstLine {pending done old : List UInt8} {s : ByteStream} {last : UInt8}
    {fuel : Nat} (h : s.Reliable) (hpending : s.pending = pending)
    (hlast : ¬(last = 13 ∧ pending.head? = some 10))
    (hfit : (firstLine pending).length < old.length) (hfuel : pending.length < fuel) :
    ∃ s', s'.pending = afterLine pending ∧ getNvtLine fuel s (done ++ old) done.length last =
      .ok (0, s', done ++ (firstLine pending ++
        0 :: old.drop ((firstLine pending).length + 1))) := by
  obtain ⟨fuel, rfl⟩ := Nat.exists_eq_add_one_of_ne_zero (Nat.ne_of_gt (Nat.zero_lt_of_lt hfuel))
  obtain ⟨o, old, rfl⟩ := List.exists_cons_of_length_pos (Nat.zero_lt_of_lt hfit)
  induction pending generalizing s done o old last fuel with
  | nil => exact getNvtLine_end_of_stream h hpending fuel last
  | cons c rest ih =>
    have hc : ¬(last = 13 ∧ c = 10) := fun hend => hlast ⟨hend.1, congrArg some hend.2⟩
    by_cases hcrlf : crlf <+: c :: rest
    · obtain ⟨rfl, hhead⟩ := crlf_prefix_cons.1 hcrlf
      obtain ⟨rest, rfl⟩ := List.head?_eq_some_iff.1 hhead
      have htwo : ([] : List UInt8).length + 2 ≤ fuel + 1 := by
        simp only [List.length_cons, List.length_nil] at hfuel ⊢
        omega
      have hlast' : ¬(last = 13 ∧ ([] : List UInt8).head? = some 10) := fun h => nomatch h.2
      obtain ⟨s', hrest, -, hrun⟩ := @getNvtLine_eq [] rest done (o :: old) s last (fuel + 1) h
        hpending (noCrlf_of_not_mem List.not_mem_nil) hlast' (Nat.zero_lt_succ old.length) htwo
      rw [(firstLine_crlf rest).1, (firstLine_crlf rest).2]
      exact ⟨s', hrest, hrun⟩
    · obtain ⟨hfirst, hafter⟩ := firstLine_cons hcrlf
      rw [hfirst] at hfit ⊢
      rw [hafter]
      have hfit' : (firstLine rest).length < old.length := Nat.lt_of_succ_lt_succ hfit
      obtain ⟨o', old, rfl⟩ := List.exists_cons_of_length_pos (Nat.zero_lt_of_lt hfit')
      obtain ⟨fuel, rfl⟩ := Nat.exists_eq_add_one_of_ne_zero
        (Nat.ne_of_gt (Nat.zero_lt_of_lt (Nat.lt_of_succ_lt_succ hfuel)))
      obtain ⟨s₁, hpending₁, h₁, hstore⟩ := getNvtLine_store h hpending hc (fuel + 1)
      obtain ⟨s', hafter', hrun⟩ := @ih (done ++ [c]) s₁ c h₁ hpending₁
        (fun hend => hcrlf (crlf_prefix_cons.2 hend)) fuel
        (Nat.lt_of_succ_lt_succ hfuel) o' old hfit'
      refine ⟨s', hafter', ?_⟩
      rw [hstore, hrun]
      simp

/-- There is no room behind the end of a block. -/
theorem memcpyAt_past (done : List UInt8) (c : UInt8) :
    (memcpyAt (done ++ []) done.length [c] : Exec Empty (List UInt8)) = .error .outOfBounds := by
  rw [List.append_nil, memcpyAt, if_neg]
  rw [List.length_singleton]
  omega

/-- A first line that does not fit the rest of the block is written past its end. -/
theorem getNvtLine_overrun {done old : List UInt8} {s : ByteStream} {last : UInt8} (fuel : Nat)
    (h : s.Reliable) (hlast : ¬(last = 13 ∧ s.pending.head? = some 10))
    (hlong : old.length ≤ (firstLine s.pending).length) :
    getNvtLine fuel s (done ++ old) done.length last = .error .outOfFuel ∨
      getNvtLine fuel s (done ++ old) done.length last = .error .outOfBounds := by
  induction fuel generalizing s done old last with
  | zero => exact .inl rfl
  | succ fuel ih =>
    cases hpending : s.pending with
    | nil =>
      rw [hpending] at hlong
      cases List.eq_nil_of_length_eq_zero (Nat.le_zero.1 hlong)
      obtain ⟨s', hcall, -, -⟩ := call_end h hpending
      refine .inr ?_
      simp only [getNvtLine, hcall, memcpyAt_past, Exec.error_bind]
    | cons c rest =>
      rw [hpending] at hlast hlong
      have hc : ¬(last = 13 ∧ c = 10) := fun hend => hlast ⟨hend.1, congrArg some hend.2⟩
      cases old with
      | nil =>
        obtain ⟨s', hcall, -, -⟩ := call_one h hpending
        refine .inr ?_
        simp only [getNvtLine, hcall, if_neg hc, memcpyAt_past, Exec.error_bind]
      | cons o old =>
        have hcrlf : ¬ crlf <+: c :: rest := by
          intro hcrlf
          rw [firstLine, if_pos (List.isPrefixOf_iff_prefix.2 hcrlf)] at hlong
          cases hlong
        obtain ⟨s', hpending', h', hstore⟩ := getNvtLine_store h hpending hc fuel
        rw [hstore]
        refine ih h' (fun hend => hcrlf (crlf_prefix_cons.2 (hpending' ▸ hend))) ?_
        rw [(firstLine_cons hcrlf).1] at hlong
        rw [hpending']
        exact Nat.le_of_succ_le_succ hlong

/-- From the start of the line no CR has been read. -/
theorem getNvtLine_line_overrun {s : ByteStream} (h : s.Reliable) {line : List UInt8}
    (hlong : line.length ≤ (firstLine s.pending).length) (fuel : Nat) :
    getNvtLine fuel s line 0 0 = .error .outOfFuel ∨
      getNvtLine fuel s line 0 0 = .error .outOfBounds :=
  @getNvtLine_overrun [] line s 0 fuel h (fun hend => nomatch hend.1) hlong

/-- A line that does not fit is not read. -/
theorem not_readsLine_of_long {s : ByteStream} (h : s.Reliable) {line : List UInt8}
    (hlong : line.length ≤ (firstLine s.pending).length) : ¬ ReadsLine s line := by
  rintro ⟨fuel, s', hrun, -⟩
  rcases getNvtLine_line_overrun h hlong fuel with hfail | hfail
  · exact nomatch hrun.symm.trans hfail
  · exact nomatch hrun.symm.trans hfail

/-- The line is read as it should exactly if the bytes before the first CRLF, or before the end of
the stream, leave a byte of the 256 for the NUL. -/
theorem readsLine_iff {s : ByteStream} (h : s.Reliable) {line : List UInt8}
    (hline : line.length = 256) : ReadsLine s line ↔ (firstLine s.pending).length ≤ 255 := by
  constructor
  · intro hreads
    by_contra hlong
    exact not_readsLine_of_long h (by omega) hreads
  · intro hfit
    have hstart : ¬((0 : UInt8) = 13 ∧ s.pending.head? = some 10) := fun hend => nomatch hend.1
    obtain ⟨s', hafter, hrun⟩ := @getNvtLine_firstLine s.pending [] line s 0 _ h rfl hstart
      (by omega) (Nat.lt_succ_self _)
    exact ⟨_, s', hrun, hafter⟩

/-- A request with two CRs before its LF. -/
theorem readsLine_doubledCr :
    ReadsLine ⟨[97, 13, 13, 10, 98], []⟩ (List.replicate 256 0) :=
  (readsLine_iff (by decide) List.length_replicate).2 (by decide)

/-- A request of 256 bytes writes its CR behind the line. -/
theorem not_readsLine :
    ¬ ReadsLine ⟨List.replicate 256 97 ++ crlf, []⟩ (List.replicate 256 0) := by
  have hline : (firstLine (List.replicate 256 97 ++ crlf)).length = 256 := by decide +kernel
  exact not_readsLine_of_long (by decide) (by rw [hline, List.length_replicate])

/-- A client that sends a longer line makes the server write past the array of `do_connection`. -/
theorem serveRequest_overrun {env : ServerEnv} {conn : Connection} (h : conn.incoming.Reliable)
    {line : List UInt8} (hlong : line.length ≤ (firstLine conn.incoming.pending).length)
    (fuel : Nat) :
    serveRequest env fuel conn line = .error .outOfFuel ∨
      serveRequest env fuel conn line = .error .outOfBounds := by
  rcases getNvtLine_line_overrun h hlong fuel with hfail | hfail
  · refine .inl ?_
    rw [serveRequest, hfail]
    rfl
  · refine .inr ?_
    rw [serveRequest, hfail]
    rfl

end ComputerNetworks.Transfer
