import ComputerNetworks.Core.ByteStream
import ComputerNetworks.Core.Lines

/-!
# Lines on a mysocket

`get_nvt_line`, which `client.c` and `server.c` both have: bytes are stored one by
one up to the first CRLF of the stream, of which the CR has been stored and is
overwritten by a NUL.
-/

namespace ComputerNetworks.Transfer

/-- A connected mysocket: what arrives, what was sent, and whether the coming calls of `mywrite`
succeed; those behind the list do. -/
structure Connection where
  incoming : ByteStream
  sent : List UInt8
  writes : List Bool
  deriving DecidableEq

namespace Connection

/-- `mywrite`. -/
def mywrite (bytes : List UInt8) (conn : Connection) : Bool × Connection :=
  match conn.writes with
  | [] => (true, { conn with sent := conn.sent ++ bytes })
  | true :: rest => (true, { conn with sent := conn.sent ++ bytes, writes := rest })
  | false :: rest => (false, { conn with writes := rest })

/-- The layer below loses nothing: no call fails. -/
def Reliable (conn : Connection) : Prop := conn.incoming.Reliable ∧ false ∉ conn.writes

/-- A reliable write sends all its bytes. -/
theorem mywrite_spec {conn : Connection} (h : conn.Reliable) (bytes : List UInt8) :
    ∃ writes, conn.mywrite bytes = (true, ⟨conn.incoming, conn.sent ++ bytes, writes⟩) ∧
      false ∉ writes := by
  obtain ⟨incoming, sent, writes⟩ := conn
  obtain ⟨-, hwrites⟩ := h
  match writes with
  | [] => exact ⟨[], rfl, List.not_mem_nil⟩
  | true :: rest => exact ⟨rest, rfl, fun hmem => hwrites (List.mem_cons_of_mem _ hmem)⟩
  | false :: rest => exact absurd List.mem_cons_self hwrites

/-- The bytes are sent, or nothing is. -/
theorem mywrite_cases (conn : Connection) (bytes : List UInt8) :
    (∃ writes, conn.mywrite bytes = (true, ⟨conn.incoming, conn.sent ++ bytes, writes⟩)) ∨
      ∃ writes, conn.mywrite bytes = (false, ⟨conn.incoming, conn.sent, writes⟩) := by
  obtain ⟨incoming, sent, writes⟩ := conn
  match writes with
  | [] => exact Or.inl ⟨[], rfl⟩
  | true :: rest => exact Or.inl ⟨rest, rfl⟩
  | false :: rest => exact Or.inr ⟨rest, rfl⟩

end Connection

/-- `get_nvt_line`, from a position in the line on, with the character stored last. -/
def getNvtLine :
    Nat → ByteStream → List UInt8 → Nat → UInt8 → Exec Empty (Int × ByteStream × List UInt8)
  | 0, _, _, _, _ => .error .outOfFuel
  | fuel + 1, s, line, pos, last =>
    match s.call 1 with
    | (none, s) => .ok (-1, s, line)
    | (some [], s) => do
      let line ← memcpyAt line pos [0]
      pure (0, s, line)
    | (some (c :: _), s) =>
      if last = 13 ∧ c = 10 then do
        let line ← memcpyAt line (pos - 1) [0]
        pure (0, s, line)
      else do
        let line ← memcpyAt line pos [c]
        getNvtLine fuel s line (pos + 1) c

/-- The block keeps its size. -/
theorem getNvtLine_length {fuel pos : Nat} {s s' : ByteStream} {line line' : List UInt8}
    {last : UInt8} {rc : Int} (h : getNvtLine fuel s line pos last = .ok (rc, s', line')) :
    line'.length = line.length := by
  induction fuel generalizing s line pos last with
  | zero => cases h
  | succ fuel ih =>
    unfold getNvtLine at h
    split at h
    · cases h
      rfl
    · obtain ⟨line₁, hstore, h⟩ := Exec.bind_eq_ok.1 h
      cases h
      exact memcpyAt_length hstore
    · split at h
      · obtain ⟨line₁, hstore, h⟩ := Exec.bind_eq_ok.1 h
        cases h
        exact memcpyAt_length hstore
      · obtain ⟨line₁, hstore, h⟩ := Exec.bind_eq_ok.1 h
        rw [ih h, memcpyAt_length hstore]

/-- One byte is taken off a reliable stream. -/
theorem call_one {s : ByteStream} {c : UInt8} {rest : List UInt8} (h : s.Reliable)
    (hpending : s.pending = c :: rest) :
    ∃ s', s.call 1 = (some [c], s') ∧ s'.pending = rest ∧ s'.Reliable := by
  obtain ⟨k, s', hpos, hle, hcall, hleft, hreliable⟩ := ByteStream.call_spec h Nat.one_pos
  obtain rfl : k = 1 := Nat.le_antisymm hle hpos
  rw [hpending] at hcall hleft
  exact ⟨s', hcall, hleft, hreliable⟩

/-- A byte that does not end the line is stored. -/
theorem getNvtLine_store {s : ByteStream} {c o last : UInt8} {rest done old : List UInt8}
    (h : s.Reliable) (hpending : s.pending = c :: rest) (hc : ¬(last = 13 ∧ c = 10)) (fuel : Nat) :
    ∃ s', s'.pending = rest ∧ s'.Reliable ∧
      getNvtLine (fuel + 1) s (done ++ o :: old) done.length last =
        getNvtLine fuel s' ((done ++ [c]) ++ old) (done ++ [c]).length c := by
  obtain ⟨s', hcall, hleft, hreliable⟩ := call_one h hpending
  have hstore := @memcpyAt_append Empty done (o :: old) [c] (Nat.succ_le_succ (Nat.zero_le _))
  refine ⟨s', hleft, hreliable, ?_⟩
  simp only [getNvtLine, hcall, if_neg hc, hstore, Exec.ok_bind, List.length_append]
  rfl

/-- The LF behind a CR ends the line. -/
theorem getNvtLine_end {s : ByteStream} {rest done old : List UInt8} (h : s.Reliable)
    (hpending : s.pending = 10 :: rest) (fuel : Nat) :
    ∃ s', s'.pending = rest ∧ s'.Reliable ∧
      getNvtLine (fuel + 1) s ((done ++ [13]) ++ old) (done ++ [13]).length 13 =
        .ok (0, s', done ++ 0 :: old) := by
  obtain ⟨s', hcall, hleft, hreliable⟩ := call_one h hpending
  have hstore := @memcpyAt_append Empty done (13 :: old) [0] (Nat.succ_le_succ (Nat.zero_le _))
  have hpos : (done ++ [13]).length - 1 = done.length := by
    rw [List.length_append, List.length_singleton, Nat.add_sub_cancel]
  refine ⟨s', hleft, hreliable, ?_⟩
  simp only [getNvtLine, hcall, and_self, if_true, hpos, List.append_assoc, List.singleton_append,
    hstore, Exec.ok_bind]
  rfl

/-- A line that fits its block is stored with a NUL, and the stream is left behind its CRLF. -/
theorem getNvtLine_eq {text rest done old : List UInt8} {s : ByteStream} {last : UInt8} {fuel : Nat}
    (h : s.Reliable) (hpending : s.pending = text ++ (crlf ++ rest)) (htext : NoCrlf text)
    (hlast : ¬(last = 13 ∧ text.head? = some 10)) (hfit : text.length < old.length)
    (hfuel : text.length + 2 ≤ fuel) :
    ∃ s', s'.pending = rest ∧ s'.Reliable ∧ getNvtLine fuel s (done ++ old) done.length last =
      .ok (0, s', done ++ (text ++ 0 :: old.drop (text.length + 1))) := by
  obtain ⟨o, old, rfl⟩ := List.exists_cons_of_length_pos (Nat.zero_lt_of_lt hfit)
  induction text generalizing s done o old last fuel with
  | nil =>
    obtain ⟨fuel, rfl⟩ := Nat.exists_eq_add_of_le' hfuel
    have hcr : ¬(last = 13 ∧ (13 : UInt8) = 10) := fun hend => absurd hend.2 (by decide)
    obtain ⟨s₁, hpending₁, h₁, hstore⟩ :=
      @getNvtLine_store s 13 o last _ done old h hpending hcr (fuel + 1)
    obtain ⟨s', hrest, h', hend⟩ := @getNvtLine_end s₁ rest done old h₁ hpending₁ fuel
    exact ⟨s', hrest, h', hstore.trans hend⟩
  | cons c text ih =>
    obtain ⟨fuel, rfl⟩ := Nat.exists_eq_add_of_le' (Nat.le_of_add_left_le hfuel)
    rw [noCrlf_cons, crlf_prefix_cons] at htext
    have hc : ¬(last = 13 ∧ c = 10) := fun hend => hlast ⟨hend.1, congrArg some hend.2⟩
    obtain ⟨s₁, hpending₁, h₁, hstore⟩ :=
      @getNvtLine_store s c o last _ done old h hpending hc (fuel + 1)
    have hfit' : text.length < old.length := Nat.lt_of_succ_lt_succ hfit
    obtain ⟨o', old, rfl⟩ := List.exists_cons_of_length_pos (Nat.zero_lt_of_lt hfit')
    obtain ⟨s', hrest, h', hrun⟩ := @ih (done ++ [c]) s₁ c (fuel + 1) h₁ hpending₁ htext.2 htext.1
      (Nat.le_of_succ_le_succ hfuel) o' old hfit'
    refine ⟨s', hrest, h', ?_⟩
    rw [hstore, hrun]
    simp

end ComputerNetworks.Transfer
