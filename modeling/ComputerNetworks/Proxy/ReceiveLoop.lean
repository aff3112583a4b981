import ComputerNetworks.Proxy.ClientHelper

/-!
# The receive loop on any client

The results of `recv` are an infinite sequence: after the end of the stream it
goes on with empty ones. A failed call moves the end of the text back by one
byte, an empty one moves nothing, and the NUL behind a full array lies outside
it. The sequences on which the loop ends and stays inside are described exactly.
-/

namespace ComputerNetworks.Proxy

namespace ClientHelper

/-- The bytes held after one more result of `recv`. A failure counts as -1 byte. -/
def received (q : List UInt8) : Option (List UInt8) → Option (List UInt8)
  | some chunk => some (q ++ chunk)
  | none => if q = [] then none else some q.dropLast

/-- The bytes held after these results, if no failure comes before the first byte. -/
def held (q : List UInt8) (events : List (Option (List UInt8))) : Option (List UInt8) :=
  events.foldlM received q

/-- The first `n` results of a sequence. -/
def firstResults (ev : Nat → Option (List UInt8)) (n : Nat) : List (Option (List UInt8)) :=
  (List.range n).map ev

/-- The loop ends, and neither it nor the `strcat` behind it writes outside the array. -/
def ReceivesInside (ev : Nat → Option (List UInt8)) : Prop :=
  ∃ n buff recd buff', recvLoop (firstResults ev n) (List.replicate buffSize 0) 0 0 =
    .ok (some (buff, recd)) ∧ strcat buff crlf = .ok buff'

/-- Up to the `n`-th result the bytes fit in with a NUL behind them, and their text has a line end
for the first time after that result. -/
def EndsAt (q : List UInt8) (events : List (Option (List UInt8))) (n : Nat) : Prop :=
  ∀ i ≤ n, ∃ p, held q (events.take i) = some p ∧ p.length < buffSize ∧ (crlf <:+: text p ↔ i = n)

/-- A line end is received before the array is full, and there is room for another one behind the
text. -/
def EndsInside (ev : Nat → Option (List UInt8)) : Prop :=
  ∃ n, EndsAt [] (firstResults ev n) n ∧
    ∃ q, held [] (firstResults ev n) = some q ∧ (text q).length + 3 ≤ buffSize

/-- Setting the NUL one byte back drops the last byte. -/
theorem setNul_dropLast {q : List UInt8} (hq : q ≠ []) (h : q.length < buffSize) :
    setNul (fill q) (q.length - 1 : Int) = .ok (fill q.dropLast) := by
  obtain ⟨p, c, rfl⟩ := (List.eq_nil_or_concat q).resolve_left hq
  rw [List.concat_eq_append] at h ⊢
  rw [List.length_append, List.length_singleton] at h
  have hcount : buffSize - p.length = (buffSize - (p.length + 1)) + 1 := by omega
  have hset : (fill (p ++ [c])).set p.length 0 = fill p := by
    simp only [fill, List.length_append, List.length_singleton, List.append_assoc,
      List.singleton_append, hcount, List.replicate_succ]
    rw [List.set_append_right _ _ (le_refl _), Nat.sub_self]
    rfl
  have hlen : (fill (p ++ [c])).length = buffSize :=
    length_fill (by rw [List.length_append, List.length_singleton]; omega)
  have hback : (((p ++ [c]).length : Int) - 1) = p.length := by
    rw [List.length_append, List.length_singleton, Int.natCast_add]
    omega
  rw [List.dropLast_concat, hback, setNul, hlen, if_pos (by omega), Int.toNat_natCast, hset]

/-- A failed call takes back the last byte. -/
theorem recvLoop_failed {q : List UInt8} (hq : q ≠ []) (h : q.length < buffSize)
    (events : List (Option (List UInt8))) (recd : Int) :
    recvLoop (none :: events) (fill q) q.length recd =
      if crlf <:+: text q.dropLast then .ok (some (fill q.dropLast, -1))
      else recvLoop events (fill q.dropLast) q.dropLast.length (-1) := by
  have hpos := List.length_pos_iff.2 hq
  have hlast : q.dropLast.length < buffSize := by
    rw [List.length_dropLast]
    omega
  have hcopy : (memcpyAt (fill q) q.length [] : Run _) = .ok (fill q) := by
    have hroom : (q ++ []).length ≤ buffSize := by
      rw [List.append_nil]
      omega
    have hcopy := memcpyAt_fill hroom
    rwa [List.append_nil] at hcopy
  have htotal : (q.length : Int) + -1 = q.dropLast.length := by
    rw [List.length_dropLast]
    omega
  have hnul : setNul (fill q) q.dropLast.length = .ok (fill q.dropLast) := by
    rw [← setNul_dropLast hq h, List.length_dropLast, Int.natCast_sub (by omega)]
    rfl
  rw [recvLoop, if_neg (by omega)]
  simp only [Option.getD_none, Int.toNat_natCast, hcopy, Exec.ok_bind, htotal, hnul]
  exact strstr_crlf_fill hlast _ _

/-- A failed call with nothing received puts the NUL in front of the array. -/
theorem recvLoop_failedFirst (events : List (Option (List UInt8))) (recd : Int) :
    recvLoop (none :: events) (fill []) 0 recd = .error .outOfBounds := by
  have hcopy : (memcpyAt (fill []) 0 [] : Run _) = .ok (fill []) :=
    memcpyAt_fill (show ([] ++ [] : List UInt8).length ≤ buffSize from Nat.zero_le _)
  have hnul : setNul (fill []) (-1) = .error .outOfBounds := if_neg (by omega)
  rw [recvLoop, if_neg (by decide)]
  simp only [Option.getD_none, Int.toNat_zero, hcopy, Exec.ok_bind, Int.zero_add, hnul,
    Exec.error_bind]

/-- A full array has no room for the NUL. -/
theorem recvLoop_full {q chunk : List UInt8} (h : q.length < buffSize)
    (hfull : buffSize ≤ (q ++ chunk).length) (events : List (Option (List UInt8))) (recd : Int) :
    recvLoop (some chunk :: events) (fill q) q.length recd = .error .outOfBounds := by
  rw [recvLoop, if_neg (by omega)]
  simp only [Option.getD_some, Int.toNat_natCast]
  by_cases hfit : (q ++ chunk).length ≤ buffSize
  · have hlen := length_fill hfit
    rw [List.length_append] at hfull
    have hnul : setNul (fill (q ++ chunk)) ((q.length : Int) + chunk.length) =
        .error .outOfBounds :=
      if_neg (by rw [hlen]; omega)
    rw [memcpyAt_fill hfit, Exec.ok_bind, hnul]
    rfl
  · have hcopy : (memcpyAt (fill q) q.length chunk : Run _) = .error .outOfBounds := by
      rw [memcpyAt, length_fill (le_of_lt h), if_neg (by rwa [List.length_append] at hfit)]
    rw [hcopy]
    rfl

/-- What the loop does with one result: it goes on with the bytes now held, or leaves the array. -/
theorem recvLoop_step {q : List UInt8} (event : Option (List UInt8))
    (events : List (Option (List UInt8))) (recd : Int) (h : q.length < buffSize) :
    (∃ p recd', received q event = some p ∧ p.length < buffSize ∧
      recvLoop (event :: events) (fill q) q.length recd =
        if crlf <:+: text p then .ok (some (fill p, recd'))
        else recvLoop events (fill p) p.length recd') ∨
      ((∀ p, received q event = some p → buffSize ≤ p.length) ∧
        recvLoop (event :: events) (fill q) q.length recd = .error .outOfBounds) := by
  cases event with
  | some chunk =>
    by_cases hfit : (q ++ chunk).length < buffSize
    · exact .inl ⟨q ++ chunk, chunk.length, rfl, hfit, recvLoop_cons q chunk events recd hfit⟩
    · refine .inr ⟨fun p hp => ?_, recvLoop_full h (by omega) events recd⟩
      cases hp
      omega
  | none =>
    by_cases hq : q = []
    · subst hq
      refine .inr ⟨fun p hp => ?_, recvLoop_failedFirst events recd⟩
      cases hp
    · have hlast : q.dropLast.length < buffSize := by
        rw [List.length_dropLast]
        omega
      exact .inl ⟨q.dropLast, -1, if_neg hq, hlast, recvLoop_failed hq h events recd⟩

theorem held_cons (q : List UInt8) (event : Option (List UInt8))
    (events : List (Option (List UInt8))) :
    held q (event :: events) = (received q event).bind fun p => held p events := rfl

/-- The loop is over at once exactly if a line end is in the buffer already. -/
theorem endsAt_zero {q : List UInt8} {events : List (Option (List UInt8))} :
    EndsAt q events 0 ↔ q.length < buffSize ∧ crlf <:+: text q := by
  constructor
  · intro h
    obtain ⟨p, hp, hlen, hend⟩ := h 0 (le_refl 0)
    cases hp
    exact ⟨hlen, hend.2 rfl⟩
  · rintro ⟨hlen, hend⟩ i hi
    obtain rfl := Nat.le_zero.1 hi
    exact ⟨q, rfl, hlen, iff_of_true hend rfl⟩

/-- The place of the line end, seen from the next result on. -/
theorem endsAt_succ {q : List UInt8} {event : Option (List UInt8)}
    {events : List (Option (List UInt8))} {n : Nat} :
    EndsAt q (event :: events) (n + 1) ↔ q.length < buffSize ∧ ¬ crlf <:+: text q ∧
      ∃ p, received q event = some p ∧ EndsAt p events n := by
  constructor
  · intro h
    obtain ⟨p₀, hp₀, hlen, hend⟩ := h 0 (Nat.zero_le _)
    cases hp₀
    refine ⟨hlen, fun hin => absurd (hend.1 hin) (by omega), ?_⟩
    obtain ⟨p₁, hp₁, -⟩ := h 1 (by omega)
    obtain ⟨p, hp, -⟩ := Option.bind_eq_some_iff.1 hp₁
    refine ⟨p, hp, fun i hi => ?_⟩
    obtain ⟨r, hr, hlen, hend⟩ := h (i + 1) (by omega)
    rw [List.take_succ_cons, held_cons, hp] at hr
    exact ⟨r, hr, hlen, hend.trans (by omega)⟩
  · rintro ⟨hlen, hend, p, hp, h⟩ i hi
    cases i with
    | zero => exact ⟨q, rfl, hlen, iff_of_false hend (by omega)⟩
    | succ i =>
      obtain ⟨r, hr, hlen, hend⟩ := h i (by omega)
      refine ⟨r, ?_, hlen, hend.trans (by omega)⟩
      rw [List.take_succ_cons, held_cons, hp]
      exact hr

/-- A loop that ends has come to a line end. -/
theorem endsAt_of_recvLoop {q : List UInt8} {events : List (Option (List UInt8))} {recd recd' : Int}
    {buff : List UInt8} (h : q.length < buffSize) (hno : ¬ crlf <:+: text q)
    (hrun : recvLoop events (fill q) q.length recd = .ok (some (buff, recd'))) :
    ∃ n ≤ events.length, EndsAt q events n ∧
      ∃ p, held q (events.take n) = some p ∧ p.length < buffSize ∧ buff = fill p := by
  induction events generalizing q recd with
  | nil => cases hrun
  | cons event events ih =>
    rcases recvLoop_step event events recd h with ⟨p, recd₁, hp, hlen, hstep⟩ | ⟨-, hstep⟩
    · rw [hstep] at hrun
      by_cases hend : crlf <:+: text p
      · rw [if_pos hend] at hrun
        cases hrun
        refine ⟨1, by simp, endsAt_succ.2 ⟨h, hno, p, hp, endsAt_zero.2 ⟨hlen, hend⟩⟩, p, ?_,
          hlen, rfl⟩
        rw [List.take_succ_cons, held_cons, hp]
        rfl
      · rw [if_neg hend] at hrun
        obtain ⟨n, hn, hends, r, hr, hbuff⟩ := ih hlen hend hrun
        refine ⟨n + 1, by simpa using hn, endsAt_succ.2 ⟨h, hno, p, hp, hends⟩, r, ?_, hbuff⟩
        rw [List.take_succ_cons, held_cons, hp]
        exact hr
    · rw [hstep] at hrun
      cases hrun

/-- The loop ends where the line end comes. -/
theorem recvLoop_of_endsAt {q : List UInt8} {events : List (Option (List UInt8))} {n : Nat}
    (recd : Int) (hno : ¬ crlf <:+: text q) (hn : n ≤ events.length) (hends : EndsAt q events n) :
    ∃ p recd', held q (events.take n) = some p ∧ p.length < buffSize ∧
      recvLoop events (fill q) q.length recd = .ok (some (fill p, recd')) := by
  induction n generalizing q events recd with
  | zero => exact absurd (endsAt_zero.1 hends).2 hno
  | succ n ih =>
    cases events with
    | nil => simp at hn
    | cons event events =>
      obtain ⟨hlen, -, p, hp, hends⟩ := endsAt_succ.1 hends
      obtain ⟨p₀, hp₀, hlen₀, hend₀⟩ := hends 0 (Nat.zero_le n)
      cases hp₀
      rw [List.take_succ_cons, held_cons, hp]
      rcases recvLoop_step event events recd hlen with ⟨p', recd₁, hp', -, hstep⟩ | ⟨hout, -⟩
      · cases hp.symm.trans hp'
        rw [hstep]
        by_cases hend : crlf <:+: text p
        · obtain rfl := hend₀.1 hend
          exact ⟨p, recd₁, rfl, hlen₀, if_pos hend⟩
        · rw [if_neg hend]
          exact ih recd₁ hend (by simpa using hn) hends
      · have hlong := hout p hp
        omega

theorem firstResults_length (ev : Nat → Option (List UInt8)) (n : Nat) :
    (firstResults ev n).length = n := by rw [firstResults, List.length_map, List.length_range]

theorem take_firstResults {ev : Nat → Option (List UInt8)} {n i : Nat} (h : i ≤ n) :
    (firstResults ev n).take i = firstResults ev i := by
  rw [firstResults, ← List.map_take, List.take_range, Nat.min_eq_left h, firstResults]

/-- The loop ends and stays inside the array exactly if a line end is received in time. -/
theorem receivesInside_iff (ev : Nat → Option (List UInt8)) :
    ReceivesInside ev ↔ EndsInside ev := by
  have hempty : ([] : List UInt8).length < buffSize := by decide
  have hno : ¬ crlf <:+: text [] := by decide
  constructor
  · rintro ⟨n, buff, recd, buff', hrun, hcat⟩
    obtain ⟨m, hm, hends, p, hp, hlen, rfl⟩ := endsAt_of_recvLoop hempty hno hrun
    rw [firstResults_length] at hm
    have hsame {i : Nat} (hi : i ≤ m) : (firstResults ev n).take i =
        (firstResults ev m).take i := by
      rw [take_firstResults (by omega), take_firstResults hi]
    refine ⟨m, fun i hi => ?_, p, ?_, length_text_of_strcat hlen hcat⟩
    · rw [← hsame hi]
      exact hends i hi
    · rwa [take_firstResults hm] at hp
  · rintro ⟨n, hends, q, hq, hroom⟩
    obtain ⟨p, recd, hp, hlen, hrun⟩ := recvLoop_of_endsAt 0 hno
      (firstResults_length ev n).ge hends
    rw [take_firstResults (le_refl n), hq] at hp
    cases hp
    obtain ⟨buff', hcat, -⟩ := strcat_text hlen hroom
    exact ⟨n, fill q, recd, buff', hrun, hcat⟩

/-- A client that closes at once keeps the loop running for ever. -/
theorem not_receivesInside_closed : ¬ ReceivesInside fun _ => some [] := by
  rintro ⟨n, buff, recd, buff', hrun, -⟩
  have hwaits (events : List (Option (List UInt8))) (recd : Int) (h : ∀ e ∈ events, e = some []) :
      recvLoop events (fill []) 0 recd = .ok none := by
    induction events generalizing recd with
    | nil => rfl
    | cons event events ih =>
      rw [h event List.mem_cons_self]
      refine (recvLoop_cons [] [] events recd (by decide)).trans ?_
      rw [if_neg (by decide)]
      exact ih _ fun e he => h e (List.mem_cons_of_mem _ he)
  have hnone := hwaits (firstResults (fun _ => some []) n) 0 (by simp [firstResults])
  cases hnone.symm.trans hrun

end ClientHelper

end ComputerNetworks.Proxy
