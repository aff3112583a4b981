import ComputerNetworks.Core.Memory

/-!
# Byte streams read in pieces

The reading end of a connection on which a call may return fewer bytes than it
was asked for, be interrupted by a signal or fail. The loop that reads a whole
count repeats interrupted calls; its rule says that it takes exactly that many
bytes off the stream, however they arrive.
-/

namespace ComputerNetworks

/-- What the next call of `recv` or `read` does: return at most `c + 1` bytes, fail with `EINTR`, or
fail with another error. -/
inductive Arrival where
  | bytes (c : Nat)
  | interrupted
  | failed
  deriving DecidableEq, Repr

/-- Every byte the peer will send, after which calls return 0, and what the coming calls do; those
behind the list return as much as there is. -/
structure ByteStream where
  pending : List UInt8
  arrivals : List Arrival
  deriving DecidableEq, Repr

namespace ByteStream

/-- One call for `n` bytes: the bytes, or a failure. -/
def call (n : Nat) : ByteStream → Option (List UInt8) × ByteStream
  | ⟨pending, []⟩ => (some (pending.take n), ⟨pending.drop n, []⟩)
  | ⟨pending, .bytes c :: rest⟩ =>
    (some (pending.take (min (c + 1) n)), ⟨pending.drop (min (c + 1) n), rest⟩)
  | ⟨pending, .interrupted :: rest⟩ => (none, ⟨pending, rest⟩)
  | ⟨pending, .failed :: rest⟩ => (none, ⟨pending, rest⟩)

/-- A call for `n` bytes, repeated as long as it is interrupted: the bytes, or a failure. -/
def retry (pending : List UInt8) (n : Nat) : List Arrival → Option (List UInt8) × ByteStream
  | [] => (some (pending.take n), ⟨pending.drop n, []⟩)
  | .bytes c :: rest => (some (pending.take (min (c + 1) n)), ⟨pending.drop (min (c + 1) n), rest⟩)
  | .interrupted :: rest => retry pending n rest
  | .failed :: rest => (none, ⟨pending, rest⟩)

/-- Read `remaining` more bytes into a block from a position on. At the end of the stream a call
returns 0 and the loop goes on. -/
def readLoop {Site : Type} :
    Nat → ByteStream → List UInt8 → Nat → Nat → Exec Site (Bool × ByteStream × List UInt8)
  | _, s, buf, _, 0 => .ok (true, s, buf)
  | 0, _, _, _, _ + 1 => .error .outOfFuel
  | fuel + 1, s, buf, pos, remaining + 1 =>
    match retry s.pending (remaining + 1) s.arrivals with
    | (none, s) => .ok (false, s, buf)
    | (some bytes, s) => do
      let buf ← memcpyAt buf pos bytes
      readLoop fuel s buf (pos + bytes.length) (remaining + 1 - bytes.length)

/-- No call fails but by an interruption. -/
def Steady (s : ByteStream) : Prop := .failed ∉ s.arrivals

instance decidableSteady (s : ByteStream) : Decidable s.Steady :=
  inferInstanceAs (Decidable (¬_))

/-- No call fails. -/
def Reliable (s : ByteStream) : Prop := .interrupted ∉ s.arrivals ∧ .failed ∉ s.arrivals

instance decidableReliable (s : ByteStream) : Decidable s.Reliable :=
  inferInstanceAs (Decidable (_ ∧ _))

/-- On a reliable stream a call returns some of the bytes asked for, and takes them off
the stream. -/
theorem call_spec {s : ByteStream} {n : Nat} (h : s.Reliable) (hn : 0 < n) :
    ∃ k s', 0 < k ∧ k ≤ n ∧ s.call n = (some (s.pending.take k), s') ∧
      s'.pending = s.pending.drop k ∧ s'.Reliable := by
  obtain ⟨pending, arrivals⟩ := s
  obtain ⟨hinterrupted, hfailed⟩ := h
  cases arrivals with
  | nil => exact ⟨n, _, hn, le_rfl, rfl, rfl, List.not_mem_nil, List.not_mem_nil⟩
  | cons a rest =>
    obtain ⟨hne, hrest⟩ := not_or.1 (mt List.mem_cons.2 hinterrupted)
    obtain ⟨hne', hrest'⟩ := not_or.1 (mt List.mem_cons.2 hfailed)
    cases a with
    | bytes c => exact ⟨min (c + 1) n, _, by omega, Nat.min_le_right _ _, rfl, rfl, hrest, hrest'⟩
    | interrupted => exact absurd rfl hne
    | failed => exact absurd rfl hne'

/-- A call that does not fail returns some of the bytes asked for, and takes them off the stream. -/
theorem retry_spec {pending : List UInt8} {n : Nat} {arrivals : List Arrival}
    (hsteady : .failed ∉ arrivals) (hn : 0 < n) :
    ∃ k s', 0 < k ∧ k ≤ n ∧ retry pending n arrivals = (some (pending.take k), s') ∧
      s'.pending = pending.drop k ∧ s'.Steady := by
  induction arrivals with
  | nil => exact ⟨n, _, hn, le_rfl, rfl, rfl, List.not_mem_nil⟩
  | cons a rest ih =>
    obtain ⟨hne, hrest⟩ := not_or.1 (mt List.mem_cons.2 hsteady)
    cases a with
    | bytes c => exact ⟨min (c + 1) n, _, by omega, Nat.min_le_right _ _, rfl, rfl, hrest⟩
    | interrupted => exact ih hrest
    | failed => exact absurd rfl hne

/-- One round of the loop takes some of the bytes that are left, and none only from an
empty stream. -/
theorem readLoop_step {Site : Type} {remaining : Nat} {s : ByteStream} {done rest : List UInt8}
    (hsteady : s.Steady) (hrest : remaining + 1 ≤ rest.length) (fuel : Nat) :
    ∃ k s', k ≤ remaining + 1 ∧ k ≤ s.pending.length ∧ (s.pending ≠ [] → 0 < k) ∧
      s'.pending = s.pending.drop k ∧ s'.Steady ∧
      (readLoop (fuel + 1) s (done ++ rest) done.length (remaining + 1) : Exec Site _) =
        readLoop fuel s' (done ++ s.pending.take k ++ rest.drop k)
          (done ++ s.pending.take k).length (remaining + 1 - k) := by
  obtain ⟨n, s', hpos, hle, hretry, hleft, hsteady'⟩ :=
    @retry_spec s.pending _ _ hsteady (Nat.add_one_pos remaining)
  have hlen : (s.pending.take n).length = min n s.pending.length := List.length_take
  have htake : s.pending.take (min n s.pending.length) = s.pending.take n :=
    (List.take_eq_take_min ..).symm
  have hcopy := @memcpyAt_append Site done rest (s.pending.take n) (by omega)
  refine ⟨min n s.pending.length, s', by omega, Nat.min_le_right _ _, fun hne => ?_, ?_,
    hsteady', ?_⟩
  · have := List.length_pos_of_ne_nil hne
    omega
  · rw [hleft]
    exact List.drop_eq_drop_min ..
  · simp only [readLoop, hretry, hcopy, Exec.ok_bind]
    rw [htake, List.length_append, hlen]

/-- Without bytes to read the loop ends at once. -/
theorem readLoop_zero {Site : Type} (fuel : Nat) (s : ByteStream) (done rest : List UInt8) :
    (readLoop fuel s (done ++ rest) done.length 0 : Exec Site _) =
      .ok (true, s, done ++ s.pending.take 0 ++ rest.drop 0) := by
  rw [readLoop, List.take_zero, List.append_nil]
  rfl

/-- What is read in two parts is read as one. -/
theorem take_append_take_drop {α : Type} {k n : Nat} (hle : k ≤ n) (done pending rest : List α) :
    done ++ pending.take k ++ (pending.drop k).take (n - k) ++ (rest.drop k).drop (n - k) =
      done ++ pending.take n ++ rest.drop n := by
  rw [List.append_assoc done, ← List.take_add, List.drop_drop, Nat.add_sub_cancel' hle]

/-- The loop fills its part of the block with the next bytes of the stream. -/
theorem readLoop_eq {Site : Type} {remaining fuel : Nat} {s : ByteStream} {done rest : List UInt8}
    (hsteady : s.Steady) (hpending : remaining ≤ s.pending.length) (hfuel : remaining ≤ fuel)
    (hrest : remaining ≤ rest.length) :
    ∃ s', (readLoop fuel s (done ++ rest) done.length remaining : Exec Site _) =
        .ok (true, s', done ++ s.pending.take remaining ++ rest.drop remaining) ∧
      s'.pending = s.pending.drop remaining ∧ s'.Steady := by
  induction fuel generalizing s done rest remaining with
  | zero =>
    obtain rfl : remaining = 0 := Nat.le_zero.1 hfuel
    exact ⟨s, readLoop_zero 0 s done rest, rfl, hsteady⟩
  | succ fuel ih =>
    cases remaining with
    | zero => exact ⟨s, readLoop_zero (fuel + 1) s done rest, rfl, hsteady⟩
    | succ remaining =>
      obtain ⟨k, s₁, hle, -, hpos, hleft, hsteady₁, hstep⟩ :=
        @readLoop_step Site remaining s done rest hsteady hrest fuel
      have hne : s.pending ≠ [] := by
        rintro hnil
        rw [hnil] at hpending
        exact absurd hpending (Nat.not_succ_le_zero _)
      have hpos' := hpos hne
      obtain ⟨s', hrun, hpending', hsteady'⟩ :=
        @ih (remaining + 1 - k) s₁ (done ++ s.pending.take k) (rest.drop k) hsteady₁
          (by rw [hleft, List.length_drop]; omega) (by omega) (by rw [List.length_drop]; omega)
      refine ⟨s', ?_, ?_, hsteady'⟩
      · rw [hstep, hrun, hleft, take_append_take_drop hle]
      · rw [hpending', hleft, List.drop_drop, Nat.add_sub_cancel' hle]

/-- On a steady stream the loop ends only with the whole count, which it then took off
the stream. -/
theorem readLoop_of_ends {Site : Type} {remaining fuel : Nat} {s : ByteStream}
    {done rest : List UInt8} (hsteady : s.Steady) (hrest : remaining ≤ rest.length)
    (hends : (readLoop fuel s (done ++ rest) done.length remaining : Exec Site _) ≠
      .error .outOfFuel) :
    remaining ≤ s.pending.length ∧
      ∃ s', (readLoop fuel s (done ++ rest) done.length remaining : Exec Site _) =
          .ok (true, s', done ++ s.pending.take remaining ++ rest.drop remaining) ∧
        s'.pending = s.pending.drop remaining ∧ s'.Steady := by
  induction fuel generalizing s done rest remaining with
  | zero =>
    cases remaining with
    | zero => exact ⟨Nat.zero_le _, s, readLoop_zero 0 s done rest, rfl, hsteady⟩
    | succ remaining => exact absurd rfl hends
  | succ fuel ih =>
    cases remaining with
    | zero => exact ⟨Nat.zero_le _, s, readLoop_zero (fuel + 1) s done rest, rfl, hsteady⟩
    | succ remaining =>
      obtain ⟨k, s₁, hle, hlen, -, hleft, hsteady₁, hstep⟩ :=
        @readLoop_step Site remaining s done rest hsteady hrest fuel
      rw [hstep] at hends ⊢
      obtain ⟨hpending, s', hrun, hpending', hsteady'⟩ :=
        ih hsteady₁ (by rw [List.length_drop]; omega) hends
      rw [hleft, List.length_drop] at hpending
      refine ⟨by omega, s', ?_, ?_, hsteady'⟩
      · rw [hrun, hleft, take_append_take_drop hle]
      · rw [hpending', hleft, List.drop_drop, Nat.add_sub_cancel' hle]

/-- A call on a stream with a failure ahead fails, or returns with the failure still ahead. -/
theorem retry_failing {pending : List UInt8} {n : Nat} {arrivals : List Arrival}
    (hfailed : .failed ∈ arrivals) :
    (∃ s', retry pending n arrivals = (none, s')) ∨
      ∃ bytes s', retry pending n arrivals = (some bytes, s') ∧ bytes.length ≤ n ∧
        .failed ∈ s'.arrivals ∧ s'.arrivals.length < arrivals.length := by
  induction arrivals with
  | nil => exact absurd hfailed List.not_mem_nil
  | cons a rest ih =>
    cases a with
    | bytes c =>
      have hrest : .failed ∈ rest := (List.mem_cons.1 hfailed).resolve_left nofun
      refine .inr ⟨_, _, rfl, ?_, hrest, Nat.lt_succ_self _⟩
      exact (List.length_take_le _ _).trans (Nat.min_le_right _ _)
    | interrupted =>
      rcases ih ((List.mem_cons.1 hfailed).resolve_left nofun) with
        hnone | ⟨bytes, s', hretry, hlen, hahead, hless⟩
      · exact .inl hnone
      · exact .inr ⟨bytes, s', hretry, hlen, hahead, hless.trans (Nat.lt_succ_self _)⟩
    | failed => exact .inl ⟨_, rfl⟩

/-- With a failure ahead the loop ends, whatever the calls return before it. -/
theorem readLoop_failing {Site : Type} {remaining fuel pos : Nat} {s : ByteStream}
    {buf : List UInt8} (hfailed : .failed ∈ s.arrivals) (hfuel : s.arrivals.length ≤ fuel)
    (hbuf : pos + remaining ≤ buf.length) :
    ∃ all s' buf', (readLoop fuel s buf pos remaining : Exec Site _) = .ok (all, s', buf') ∧
      buf'.length = buf.length ∧
      (all = true → .failed ∈ s'.arrivals ∧ s'.arrivals.length ≤ s.arrivals.length) := by
  induction fuel generalizing s buf pos remaining with
  | zero => exact absurd hfailed (by simp [List.length_eq_zero_iff.1 (Nat.le_zero.1 hfuel)])
  | succ fuel ih =>
    cases remaining with
    | zero => exact ⟨true, s, buf, by rw [readLoop], rfl, fun _ => ⟨hfailed, le_rfl⟩⟩
    | succ remaining =>
      rcases @retry_failing s.pending (remaining + 1) _ hfailed with
        ⟨s', hretry⟩ | ⟨bytes, s', hretry, hlen, hahead, hless⟩
      · exact ⟨false, s', buf, by simp only [readLoop, hretry], rfl, nofun⟩
      · obtain ⟨buf', hcopy⟩ : ∃ buf', (memcpyAt buf pos bytes : Exec Site _) = .ok buf' :=
          ⟨_, if_pos (by omega)⟩
        have hbuf' := memcpyAt_length hcopy
        obtain ⟨all, s₁, buf₁, hrun, hlen₁, hall⟩ :=
          @ih (remaining + 1 - bytes.length) (pos + bytes.length) s' buf' hahead (by omega)
            (by omega)
        refine ⟨all, s₁, buf₁, ?_, hlen₁.trans hbuf', fun h => ?_⟩
        · simp only [readLoop, hretry, hcopy, Exec.ok_bind, hrun]
        · exact ⟨(hall h).1, (hall h).2.trans hless.le⟩

end ByteStream

end ComputerNetworks
