import ComputerNetworks.Core.TextFile
import ComputerNetworks.Transfer.Client
import Mathlib.Data.List.DropRight

/-!
# Requests that are typed

`loop_until_end` trims the line in place and puts the line end behind what is
left. A name of one character is taken for a blank line, and a name that leaves
less than three bytes of the array is written past its end; every other line is
sent as it should be.
-/

namespace ComputerNetworks.Transfer

/-- The text that has been typed, as far as a string goes. -/
def beforeNul (typed : List UInt8) : List UInt8 := typed.takeWhile (· != 0)

theorem beforeNul_eq {typed : List UInt8} (h : 0 ∉ typed) : beforeNul typed = typed :=
  List.takeWhile_eq_self_iff.2 (bne_of_not_mem h)

/-- What counts is in front of the first NUL. -/
theorem zero_notMem_beforeNul (typed : List UInt8) : 0 ∉ beforeNul typed := by
  intro hmem
  have hne := List.mem_takeWhile_imp hmem
  exact absurd hne (by decide)

theorem trimmed_eq (line : List UInt8) : trimmed line = line.rdropWhile isspace := rfl

theorem trimmed_isPrefix (line : List UInt8) : trimmed line <+: line := List.rdropWhile_prefix ..

/-- Nothing is left exactly of a line of blanks. -/
theorem trimmed_eq_nil {line : List UInt8} : trimmed line = [] ↔ line.all isspace = true :=
  List.rdropWhile_eq_nil_iff.trans List.all_eq_true.symm

/-- What is no blank is left. -/
theorem mem_trimmed {line : List UInt8} {c : UInt8} (hc : isspace c = false) (h : c ∈ line) :
    c ∈ trimmed line := by
  induction line using List.reverseRecOn with
  | nil => exact h
  | append_singleton line d ih =>
    by_cases hd : isspace d = true
    · rw [trimmed_eq, List.rdropWhile_concat_pos _ _ _ hd]
      refine ih ((List.mem_append.1 h).resolve_right fun hmem => ?_)
      rw [List.mem_singleton.1 hmem, hd] at hc
      cases hc
    · rw [trimmed_eq, List.rdropWhile_concat_neg _ _ _ hd]
      exact h

/-- The loop stops behind the last character that is no blank. -/
theorem trimLoop_eq (text post : List UInt8) :
    trimLoop (text ++ post) text.length = .ok (trimmed text).length := by
  induction text using List.reverseRecOn generalizing post with
  | nil => rfl
  | append_singleton text c ih =>
    have hlast : (text ++ [c] ++ post)[text.length]? = some c := by simp
    rw [List.length_append, List.length_singleton, trimLoop, hlast]
    by_cases hc : isspace c = true
    · rw [trimmed_eq, List.rdropWhile_concat_pos _ _ _ hc, List.append_assoc]
      simp only [if_pos hc]
      exact ih ([c] ++ post)
    · rw [trimmed_eq, List.rdropWhile_concat_neg _ _ _ hc, List.length_append]
      simp only [if_neg hc]
      rfl

/-- What a round passes to `mywrite`, if it gets there, and the state in which it does. -/
def passed (env : ClientEnv) (c : ClientState) :
    Exec Empty (Option (List UInt8) × ClientState) := do
  match ← nextRequest env c with
  | (.ready stop, c) => pure (some (← readAt c.line 0 stop), c)
  | (.endOfInput, c) | (.blank, c) => pure (none, c)

/-- What the code makes of a line: its string without the trailing blanks, unless that is a single
character. -/
def builtRequest (typed : List UInt8) : Option (List UInt8) :=
  if (trimmed (beforeNul typed)).length ≤ 1 then none
  else some (trimmed (beforeNul typed) ++ crlf)

variable {env : ClientEnv} {c : ClientState} {typed : List UInt8} {rest : List (List UInt8)}

/-- The line that has been delivered is trimmed in place. -/
theorem trim_typed (hline : c.line.length = 1000) (hfgets : typed.length ≤ 999) :
    ∃ line old, (memcpyAt c.line 0 (typed ++ [0]) : Exec Empty _) = .ok line ∧
      line = trimmed (beforeNul typed) ++ old ∧ line.length = 1000 ∧
      (strlen line 0 : Exec Empty _) = .ok (beforeNul typed).length ∧
      trimLoop line (beforeNul typed).length = .ok (trimmed (beforeNul typed)).length := by
  have hcopy : (memcpyAt c.line 0 (typed ++ [0]) : Exec Empty (List UInt8)) =
      .ok (typed ++ [0] ++ c.line.drop (typed ++ [0]).length) := by
    apply memcpyAt_zero
    rw [List.length_append, hline, List.length_singleton]
    omega
  generalize hblock : typed ++ [0] ++ c.line.drop (typed ++ [0]).length = line at hcopy
  have hstr : CStrAt line 0 (beforeNul typed) := by
    apply cstrAt_takeWhile (c.line.drop (typed ++ [0]).length)
    rw [List.drop_zero, ← hblock, List.append_assoc, List.singleton_append]
  obtain ⟨post, hpost⟩ := hstr.eq_append
  obtain ⟨blanks, hblanks⟩ := trimmed_isPrefix (beforeNul typed)
  rw [List.drop_zero] at hpost
  refine ⟨line, blanks ++ 0 :: post, hcopy, ?_, ?_, hstr.strlen_eq, ?_⟩
  · rw [← List.append_assoc, hblanks, hpost]
  · rw [memcpyAt_length hcopy, hline]
  · rw [hpost]
    exact trimLoop_eq (beforeNul typed) (0 :: post)

/-- A line that leaves room for the line end is trimmed, or skipped. -/
theorem passed_typed (hfile : env.filename = none) (hline : c.line.length = 1000)
    (hstdin : c.stdin = typed :: rest) (hfgets : typed.length ≤ 999)
    (hroom : (trimmed (beforeNul typed)).length ≤ 997) :
    ∃ line, line.length = 1000 ∧
      passed env c = .ok (builtRequest typed, { c with line, stdin := rest }) := by
  obtain ⟨line, old, hcopy, hold, hlen, hstrlen, htrim⟩ := trim_typed hline hfgets
  unfold builtRequest
  generalize trimmed (beforeNul typed) = name at hroom hold htrim
  by_cases hshort : name.length ≤ 1
  · refine ⟨line, hlen, ?_⟩
    simp only [passed, nextRequest, hfile, hstdin, hcopy, hstrlen, htrim, Exec.ok_bind,
      if_pos hshort]
    rfl
  · have hcrlf : (crlf ++ [0]).length = 3 := rfl
    have hfit : (crlf ++ [0]).length ≤ old.length := by
      rw [hold, List.length_append] at hlen
      omega
    have hend := @memcpyAt_append Empty name old (crlf ++ [0]) hfit
    rw [← hold] at hend
    refine ⟨_, (memcpyAt_length hend).trans hlen, ?_⟩
    simp only [passed, nextRequest, hfile, hstdin, hcopy, hstrlen, htrim, Exec.ok_bind,
      if_neg hshort, hend, Exec.pure_eq_ok, readAt_request]

/-- A longer one is written past the end of the array. -/
theorem passed_typed_long (hfile : env.filename = none) (hline : c.line.length = 1000)
    (hstdin : c.stdin = typed :: rest) (hfgets : typed.length ≤ 999)
    (hlong : 997 < (trimmed (beforeNul typed)).length) :
    passed env c = .error .outOfBounds := by
  obtain ⟨line, old, hcopy, -, hlen, hstrlen, htrim⟩ := trim_typed hline hfgets
  have hshort : ¬(trimmed (beforeNul typed)).length ≤ 1 := by omega
  have hend : (memcpyAt line (trimmed (beforeNul typed)).length (crlf ++ [0]) :
      Exec Empty (List UInt8)) = .error .outOfBounds := by
    have hcrlf : (crlf ++ [0]).length = 3 := rfl
    rw [memcpyAt, if_neg]
    omega
  simp only [passed, nextRequest, hfile, hstdin, hcopy, hstrlen, htrim, Exec.ok_bind,
    if_neg hshort, hend, Exec.error_bind]

/-- What should be sent for a line: nothing if all of it is white space, else the line without its
trailing white space, with a line end. -/
def request (typed : List UInt8) : Option (List UInt8) :=
  if typed.all isspace then none else some (trimmed typed ++ crlf)

/-- The next line that is typed is sent as it should be, with all bytes stored inside the array. -/
def SendsTyped (env : ClientEnv) (c : ClientState) (typed : List UInt8)
    (rest : List (List UInt8)) : Prop :=
  ∃ line, line.length = 1000 ∧
    passed env c = .ok (request typed, { c with line, stdin := rest })

/-- What is built is right for a string of which not just one character is left. -/
theorem builtRequest_eq_request_iff :
    builtRequest typed = request typed ↔ 0 ∉ typed ∧ (trimmed typed).length ≠ 1 := by
  unfold builtRequest request
  by_cases hzero : 0 ∈ typed
  · have hmem : 0 ∈ trimmed typed := mem_trimmed rfl hzero
    have hblank : ¬typed.all isspace = true :=
      fun hall => absurd (List.all_eq_true.1 hall 0 hzero) (by decide)
    refine iff_of_false ?_ fun h => h.1 hzero
    rw [if_neg hblank]
    split
    · exact nofun
    · intro heq
      have hsame := List.append_cancel_right (Option.some.inj heq)
      rw [← hsame] at hmem
      exact zero_notMem_beforeNul typed ((trimmed_isPrefix _).subset hmem)
  · rw [beforeNul_eq hzero]
    by_cases hnil : trimmed typed = []
    · rw [if_pos (trimmed_eq_nil.1 hnil), hnil]
      exact iff_of_true rfl ⟨hzero, Nat.zero_ne_one⟩
    · have hpos := List.length_pos_iff.2 hnil
      rw [if_neg (mt trimmed_eq_nil.2 hnil)]
      by_cases hone : (trimmed typed).length = 1
      · rw [if_pos hone.le]
        exact iff_of_false nofun fun h => h.2 hone
      · rw [if_neg (by omega)]
        exact iff_of_true rfl ⟨hzero, hone⟩

/-- With room for the line end, a line is sent as it should be if what is built is right. -/
theorem sendsTyped_iff_builtRequest (hfile : env.filename = none) (hline : c.line.length = 1000)
    (hstdin : c.stdin = typed :: rest) (hfgets : typed.length ≤ 999)
    (hroom : (trimmed (beforeNul typed)).length ≤ 997) :
    SendsTyped env c typed rest ↔ builtRequest typed = request typed := by
  obtain ⟨line, hlen, hpassed⟩ := passed_typed hfile hline hstdin hfgets hroom
  constructor
  · rintro ⟨line', -, hpassed'⟩
    exact congrArg Prod.fst (Except.ok.inj (hpassed.symm.trans hpassed'))
  · intro heq
    exact ⟨line, hlen, heq ▸ hpassed⟩

/-- Without, it is not sent. -/
theorem not_sendsTyped_of_long (hfile : env.filename = none) (hline : c.line.length = 1000)
    (hstdin : c.stdin = typed :: rest) (hfgets : typed.length ≤ 999)
    (hlong : 997 < (trimmed (beforeNul typed)).length) : ¬SendsTyped env c typed rest := by
  rintro ⟨line, -, hpassed⟩
  rw [passed_typed_long hfile hline hstdin hfgets hlong] at hpassed
  cases hpassed

/-- A line is sent as it should be exactly if it has no NUL, and what is left of it without its
trailing blanks is not one character and fits the array with its line end and the NUL. -/
theorem sendsTyped_iff (hfile : env.filename = none) (hline : c.line.length = 1000)
    (hstdin : c.stdin = typed :: rest) (hfgets : typed.length ≤ 999) :
    SendsTyped env c typed rest ↔
      0 ∉ typed ∧ (trimmed typed).length ≠ 1 ∧ (trimmed typed).length ≤ 997 := by
  by_cases hroom : (trimmed (beforeNul typed)).length ≤ 997
  · rw [sendsTyped_iff_builtRequest hfile hline hstdin hfgets hroom, builtRequest_eq_request_iff]
    refine and_congr_right fun hzero => (and_iff_left ?_).symm
    rw [beforeNul_eq hzero] at hroom
    exact hroom
  · refine iff_of_false (not_sendsTyped_of_long hfile hline hstdin hfgets (by omega)) ?_
    rintro ⟨hzero, -, hfit⟩
    rw [beforeNul_eq hzero] at hroom
    exact hroom hfit

/-- The client with a line that has been typed. -/
def ClientState.typing (typed : List UInt8) : ClientState :=
  ⟨⟨⟨[], []⟩, [], []⟩, List.replicate 1000 0, none, [typed], none⟩

theorem sendsTyped_twoLetters :
    SendsTyped ⟨none, false, true⟩ (.typing [97, 98, 32, 10]) [97, 98, 32, 10] [] :=
  (sendsTyped_iff rfl List.length_replicate rfl (by decide)).2 (by decide)

/-- A name of one character is not sent, and one that fills the array is written past its end. -/
theorem not_sendsTyped :
    ¬SendsTyped ⟨none, false, true⟩ (.typing [97, 10]) [97, 10] [] ∧
      ¬SendsTyped ⟨none, false, true⟩ (.typing (List.replicate 998 97 ++ [10]))
        (List.replicate 998 97 ++ [10]) [] := by
  constructor
  · rw [sendsTyped_iff_builtRequest rfl List.length_replicate rfl (by decide) (by decide),
      builtRequest_eq_request_iff]
    decide
  · exact not_sendsTyped_of_long rfl List.length_replicate rfl (by decide +kernel)
      (by decide +kernel)

/-- A round that is not written past the end passes on what is built. -/
theorem passed_eq_ok {built : Option (List UInt8)} {c₀ : ClientState} (hfile : env.filename = none)
    (hline : c.line.length = 1000) (hstdin : c.stdin = typed :: rest) (hfgets : typed.length ≤ 999)
    (h : passed env c = .ok (built, c₀)) :
    (trimmed (beforeNul typed)).length ≤ 997 ∧ built = builtRequest typed ∧
      c₀.line.length = 1000 ∧ c₀.stdin = rest ∧ c₀.conn = c.conn := by
  by_cases hroom : (trimmed (beforeNul typed)).length ≤ 997
  · obtain ⟨line, hlen, heq⟩ := passed_typed hfile hline hstdin hfgets hroom
    cases h.symm.trans heq
    exact ⟨hroom, rfl, hlen, rfl, rfl⟩
  · rw [passed_typed_long hfile hline hstdin hfgets (by omega)] at h
    cases h

/-- Whether a round of the loop goes on or ends, it has sent what was built, or nothing where
`mywrite` failed, and the array had room for it. -/
theorem loopUntilEnd_typed {fuel rounds : Nat} {outcome : Outcome} {c' : ClientState}
    (hfile : env.filename = none) (hline : c.line.length = 1000) (hstdin : c.stdin = typed :: rest)
    (hfgets : typed.length ≤ 999) (h : loopUntilEnd env fuel (rounds + 1) c = .ok (outcome, c')) :
    (trimmed (beforeNul typed)).length ≤ 997 ∧ ∃ c₁ : ClientState, c₁.line.length = 1000 ∧
      c₁.stdin = rest ∧
      (c₁.conn.sent = c.conn.sent ++ (builtRequest typed).getD [] ∧
          (loopUntilEnd env fuel rounds c₁ = .ok (outcome, c') ∨ c' = c₁) ∨
        c₁.conn.sent = c.conn.sent ∧ c' = c₁) := by
  obtain ⟨⟨prompt, c₀⟩, hnext, h⟩ := Exec.bind_eq_ok.1 h
  cases prompt with
  | endOfInput =>
    have hpassed : passed env c = .ok (none, c₀) := by
      rw [passed, hnext]
      rfl
    obtain ⟨hroom, -, hlen, hrest, hconn⟩ := passed_eq_ok hfile hline hstdin hfgets hpassed
    cases h
    exact ⟨hroom, c', hlen, hrest, Or.inr ⟨congrArg _ hconn, rfl⟩⟩
  | blank =>
    have hpassed : passed env c = .ok (none, c₀) := by
      rw [passed, hnext]
      rfl
    obtain ⟨hroom, hbuilt, hlen, hrest, hconn⟩ := passed_eq_ok hfile hline hstdin hfgets hpassed
    refine ⟨hroom, c₀, hlen, hrest, Or.inl ⟨?_, Or.inl h⟩⟩
    rw [← hbuilt, hconn]
    exact (List.append_nil _).symm
  | ready stop =>
    obtain ⟨⟨outcome', c₁⟩, htransfer, h⟩ := Exec.bind_eq_ok.1 h
    obtain ⟨request, hread, hlen', hrest', hsent⟩ := transfer_sent htransfer
    have hpassed : passed env c = .ok (some request, c₀) := by
      simp only [passed, hnext, Exec.ok_bind, hread]
      rfl
    obtain ⟨hroom, hbuilt, hlen, hrest, hconn⟩ := passed_eq_ok hfile hline hstdin hfgets hpassed
    refine ⟨hroom, c₁, hlen'.trans hlen, hrest'.trans hrest, ?_⟩
    rw [hconn] at hsent
    rw [← hbuilt]
    rcases hsent with hsent | ⟨rfl, hsent⟩
    · refine Or.inl ⟨hsent, ?_⟩
      cases outcome' with
      | again => exact Or.inl h
      | leave | exit =>
        cases h
        exact Or.inr rfl
    · cases h
      exact Or.inr ⟨hsent, rfl⟩

/-- A session that ends has read the lines of its rounds, and sent what was built of them one behind
the other; nothing was sent for the last line if `mywrite` failed. -/
theorem loopUntilEnd_sent {fuel rounds : Nat} {outcome : Outcome} {c' : ClientState}
    (hfile : env.filename = none) (hline : c.line.length = 1000)
    (hfgets : ∀ typed ∈ c.stdin, typed.length ≤ 999)
    (h : loopUntilEnd env fuel rounds c = .ok (outcome, c')) :
    ∃ done failed, c.stdin = done ++ failed ++ c'.stdin ∧ failed.length ≤ 1 ∧
      (∀ typed ∈ done ++ failed, (trimmed (beforeNul typed)).length ≤ 997) ∧
      c'.conn.sent = c.conn.sent ++ (done.filterMap builtRequest).flatten := by
  induction rounds generalizing c with
  | zero => cases h
  | succ rounds ih =>
    cases hstdin : c.stdin with
    | nil =>
      rw [loopUntilEnd, nextRequest, hfile] at h
      simp only [hstdin] at h
      cases h
      refine ⟨[], [], hstdin.symm, Nat.zero_le _, ?_, (List.append_nil _).symm⟩
      exact fun typed hmem => absurd hmem List.not_mem_nil
    | cons typed rest =>
      rw [hstdin] at hfgets
      obtain ⟨hfgets₀, hfgets'⟩ := List.forall_mem_cons.1 hfgets
      obtain ⟨hroom, c₁, hlen, rfl, hround⟩ := loopUntilEnd_typed hfile hline hstdin hfgets₀ h
      rcases hround with ⟨hsent, hnext | rfl⟩ | ⟨hsent, rfl⟩
      · obtain ⟨done, failed, hsplit, hfailed, hrooms, hdone⟩ := ih hlen hfgets' hnext
        refine ⟨typed :: done, failed, ?_, hfailed, ?_, ?_⟩
        · rw [hsplit]
          rfl
        · exact List.forall_mem_cons.2 ⟨hroom, hrooms⟩
        · rw [hdone, hsent, List.append_assoc, List.filterMap_cons]
          cases builtRequest typed <;> rfl
      · refine ⟨[typed], [], rfl, Nat.zero_le _, List.forall_mem_singleton.2 hroom, ?_⟩
        rw [hsent, List.filterMap_cons]
        cases builtRequest typed with
        | none => rfl
        | some request => simp
      · refine ⟨[], [typed], rfl, le_rfl, List.forall_mem_singleton.2 hroom, ?_⟩
        rw [hsent]
        exact (List.append_nil _).symm

/-- If a session ends in which no line holds a NUL or comes down to one character, exactly the
requests of its lines were sent. -/
theorem loopUntilEnd_requests {fuel rounds : Nat} {outcome : Outcome} {c' : ClientState}
    {input : List UInt8} (hfile : env.filename = none) (hline : c.line.length = 1000)
    (hstdin : c.stdin = fgetsLines 1000 input)
    (hlines : ∀ typed ∈ fgetsLines 1000 input, 0 ∉ typed ∧ (trimmed typed).length ≠ 1)
    (h : loopUntilEnd env fuel rounds c = .ok (outcome, c')) :
    ∃ done failed, fgetsLines 1000 input = done ++ failed ++ c'.stdin ∧ failed.length ≤ 1 ∧
      c'.conn.sent = c.conn.sent ++ (done.filterMap request).flatten := by
  have hfgets : ∀ typed ∈ c.stdin, typed.length ≤ 999 := by
    intro typed hmem
    rw [hstdin] at hmem
    exact length_le_of_mem_fgetsLines (by decide) hmem
  obtain ⟨done, failed, hsplit, hfailed, -, hsent⟩ := loopUntilEnd_sent hfile hline hfgets h
  rw [hstdin] at hsplit
  have hsame : done.filterMap builtRequest = done.filterMap request := by
    apply List.filterMap_congr
    intro typed hmem
    apply builtRequest_eq_request_iff.2 (hlines typed _)
    rw [hsplit]
    exact List.mem_append_left _ (List.mem_append_left _ hmem)
  exact ⟨done, failed, hsplit, hfailed, hsame ▸ hsent⟩

end ComputerNetworks.Transfer
