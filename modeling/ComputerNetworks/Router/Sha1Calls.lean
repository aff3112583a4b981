import ComputerNetworks.Core.Machine
import ComputerNetworks.Router.Digest

/-!
# Calls of the digest functions

A context between the calls is taking a message in, holds a digest, or is corrupted.
Whatever calls follow the first `SHA1Reset`, they stay inside the block and the array
of words, and the context moves between the three exactly as this reading of it says.
-/

namespace ComputerNetworks.Router

open SecureHash

variable {Site : Type}

/-- What a context stands for between two calls. -/
inductive Hashing where
  /-- The message taken in so far. -/
  | absorbing (m : List UInt8)
  | computed (digest : Fin 5 → UInt32)
  | corrupted

/-- The number of octets from which on a message is too long. -/
def messageLimit : Nat := 2 ^ 61

/-- A message with a piece added. -/
def Hashing.extend (m piece : List UInt8) : Hashing :=
  if (m ++ piece).length < messageLimit then .absorbing (m ++ piece) else .corrupted

/-- Input: none changes nothing, and after a result any other corrupts. -/
def Hashing.input : Hashing → List UInt8 → Hashing
  | s, [] => s
  | .absorbing m, c :: rest => .extend m (c :: rest)
  | .computed _, _ :: _ => .corrupted
  | .corrupted, _ :: _ => .corrupted

/-- A result, and the digest it gives. -/
def Hashing.result : Hashing → Hashing × Option (Fin 5 → UInt32)
  | .absorbing m => (.computed (digest m), some (digest m))
  | .computed d => (.computed d, some d)
  | .corrupted => (.corrupted, none)

/-- The context stands for it. -/
def Sha1Context.Stands (context : Sha1Context) : Hashing → Prop
  | .absorbing m => context.Absorbing m
  | .computed d => context.messageDigest = d ∧ context.computed = true ∧ context.corrupted = false
  | .corrupted => context.corrupted = true

/-- A context that was reset has absorbed nothing. -/
theorem stands_reset (context : Sha1Context) : (sha1Reset context).Stands (.absorbing []) where
  collects := ⟨rfl, rfl, List.nil_prefix⟩
  length := by simp [sha1Reset]
  computed := rfl
  corrupted := rfl

/-- Counting a byte changes the lengths and the corruption flag only. -/
theorem count_frame (context : Sha1Context) :
    context.count.messageDigest = context.messageDigest ∧
      context.count.messageBlockIndex = context.messageBlockIndex ∧
      context.count.messageBlock = context.messageBlock ∧
      context.count.computed = context.computed := by
  unfold Sha1Context.count
  dsimp only
  split
  · split
    · exact ⟨rfl, rfl, rfl, rfl⟩
    · exact ⟨rfl, rfl, rfl, rfl⟩
  · exact ⟨rfl, rfl, rfl, rfl⟩

section Count

variable {context : Sha1Context} {n : Nat}

/-- The low length overflows at the last byte it can count. -/
theorem add_eight_eq_zero {x : UInt32} : x + 8 = 0 ↔ x.toNat + 8 = 2 ^ 32 := by
  have hx := x.toNat_lt
  have h8 : (8 : UInt32).toNat = 8 := rfl
  rw [← UInt32.toNat_inj, UInt32.toNat_add, h8, UInt32.toNat_zero]
  omega

/-- Counting an octet of a message that is not too long. -/
theorem count_length (h : context.lengthHigh.toNat * 2 ^ 32 + context.lengthLow.toNat = 8 * n)
    (hn : n + 1 < messageLimit) :
    context.count.lengthHigh.toNat * 2 ^ 32 + context.count.lengthLow.toNat = 8 * (n + 1) ∧
      context.count.corrupted = context.corrupted := by
  have hlow := context.lengthLow.toNat_lt
  have h8 : (8 : UInt32).toNat = 8 := rfl
  rw [messageLimit] at hn
  unfold Sha1Context.count
  simp only [and_mask]
  by_cases hwrap : context.lengthLow + 8 = 0
  · have hnat := add_eight_eq_zero.1 hwrap
    have hhigh : (context.lengthHigh + 1).toNat = context.lengthHigh.toNat + 1 := by
      rw [UInt32.toNat_add, UInt32.toNat_one]
      omega
    have hne : context.lengthHigh + 1 ≠ 0 := by
      rw [← UInt32.toNat_inj.ne, hhigh, UInt32.toNat_zero]
      exact Nat.succ_ne_zero _
    have hzero : (context.lengthLow + 8).toNat = 0 := by rw [hwrap, UInt32.toNat_zero]
    rw [if_pos hwrap, if_neg hne]
    refine ⟨?_, rfl⟩
    change (context.lengthHigh + 1).toNat * 2 ^ 32 + (context.lengthLow + 8).toNat = 8 * (n + 1)
    simp only [hhigh, hzero, Nat.succ_mul, Nat.add_zero]
    omega
  · have hnat := add_eight_eq_zero.not.1 hwrap
    have hadd : (context.lengthLow + 8).toNat = context.lengthLow.toNat + 8 := by
      rw [UInt32.toNat_add, h8]
      omega
    rw [if_neg hwrap]
    refine ⟨?_, rfl⟩
    change context.lengthHigh.toNat * 2 ^ 32 + (context.lengthLow + 8).toNat = 8 * (n + 1)
    omega

/-- Counting the octet that makes a message too long. -/
theorem count_corrupts (h : context.lengthHigh.toNat * 2 ^ 32 + context.lengthLow.toNat = 8 * n)
    (hn : messageLimit ≤ n + 1) : context.count.corrupted = true := by
  have hlow := context.lengthLow.toNat_lt
  have hhigh := context.lengthHigh.toNat_lt
  rw [messageLimit] at hn
  have hwrap : context.lengthLow + 8 = 0 := add_eight_eq_zero.2 (by omega)
  have hzero : context.lengthHigh + 1 = 0 := by
    rw [← UInt32.toNat_inj, UInt32.toNat_add, UInt32.toNat_one, UInt32.toNat_zero]
    omega
  unfold Sha1Context.count
  simp only [and_mask]
  rw [if_pos hwrap, if_pos hzero]

end Count

/-- An octet put into the block, the block processed if it is full. -/
theorem collectOctet (Site : Type) {context : Sha1Context} {s : (Fin 5 → UInt32) × List UInt8}
    (h : context.Collects s) (hlen : s.2.length < 64) (c : UInt8) :
    ∃ context₁ context₂ : Sha1Context, (context.put c : Exec Site Sha1Context) = .ok context₁ ∧
      context₁.frame = context.frame ∧
      ((if context₁.count.messageBlockIndex = 64 then sha1ProcessMessageBlock context₁.count
        else pure context₁.count : Exec Site Sha1Context) = .ok context₂) ∧
      context₂.Collects (absorbOne 64 compress s c) ∧ context₂.frame = context₁.count.frame := by
  obtain ⟨context₁, hput, h₁, hframe₁⟩ := put_ok Site h hlen c
  have hlen₁ : (s.2 ++ [c]).length = s.2.length + 1 := by
    rw [List.length_append, List.length_singleton]
  obtain ⟨hdigest, hindex, hblock, -⟩ := count_frame context₁
  have hcount : context₁.count.Collects (s.1, s.2 ++ [c]) := by
    refine ⟨hdigest.trans h₁.messageDigest, hindex.trans h₁.messageBlockIndex, ?_⟩
    rw [hblock]
    exact h₁.messageBlock
  have hfull : context₁.count.messageBlockIndex = 64 ↔ s.2.length + 1 = 64 := by
    rw [hcount.messageBlockIndex, hlen₁]
  by_cases h64 : s.2.length + 1 = 64
  · obtain ⟨context₂, hprocess, h₂, hframe₂⟩ := processed Site hcount (hlen₁.trans h64)
    refine ⟨context₁, context₂, hput, hframe₁, ?_, ?_, hframe₂⟩
    · rw [if_pos (hfull.2 h64), hprocess]
    · rw [absorbOne, if_pos h64]
      exact h₂
  · refine ⟨context₁, context₁.count, hput, hframe₁, if_neg (hfull.not.2 h64), ?_, rfl⟩
    rw [absorbOne, if_neg h64]
    exact hcount

theorem frame_eq {context context' : Sha1Context} (h : context.frame = context'.frame) :
    context.lengthLow = context'.lengthLow ∧ context.lengthHigh = context'.lengthHigh ∧
      context.computed = context'.computed ∧ context.corrupted = context'.corrupted := by
  simpa only [Sha1Context.frame, Prod.mk.injEq] using h

/-- A message that is taken in is not too long. -/
theorem Sha1Context.Absorbing.lt {context : Sha1Context} {m : List UInt8}
    (h : context.Absorbing m) :
    m.length < messageLimit := by
  have hlow := context.lengthLow.toNat_lt
  have hhigh := context.lengthHigh.toNat_lt
  have hlength := h.length
  rw [messageLimit]
  omega

/-- The loop of `SHA1Input` takes the octets in. -/
theorem sha1InputLoop_ok (Site : Type) {n : Nat} {messageArray : List UInt8} {context : Sha1Context}
    {m : List UInt8} (h : context.Absorbing m) (hn : n ≤ messageArray.length) :
    ∃ context', (sha1InputLoop n messageArray context : Exec Site Sha1Context) = .ok context' ∧
      context'.Stands (.extend m (messageArray.take n)) := by
  induction n generalizing messageArray context m with
  | zero =>
    have hlt : (m ++ messageArray.take 0).length < messageLimit := by
      rw [List.take_zero, List.append_nil]
      exact h.lt
    refine ⟨context, rfl, ?_⟩
    rw [Hashing.extend, if_pos hlt, List.take_zero, List.append_nil]
    exact h
  | succ n ih =>
    obtain _ | ⟨c, rest⟩ := messageArray
    · cases hn
    have hload : (load8 (c :: rest) 0 : Exec Site UInt8) = .ok c := loadField_of_le (by
      rw [List.length_cons]
      omega)
    have hmask : c &&& 0xFF = c := by
      apply UInt8.toBitVec_inj.1
      rw [UInt8.toBitVec_and]
      exact BitVec.and_allOnes
    have hlen := (length_collected m).trans_lt (Nat.mod_lt _ (by decide))
    obtain ⟨context₁, context₂, hput, hframe₁, hfull, h₂, hframe₂⟩ :=
      collectOctet Site h.collects hlen c
    obtain ⟨hlow₁, hhigh₁, hcomputed₁, hcorrupted₁⟩ := frame_eq hframe₁
    obtain ⟨hlow₂, hhigh₂, hcomputed₂, hcorrupted₂⟩ := frame_eq hframe₂
    have hlength : context₁.lengthHigh.toNat * 2 ^ 32 + context₁.lengthLow.toNat =
        8 * m.length := by
      rw [hlow₁, hhigh₁, h.length]
    have hloop : (sha1InputLoop (n + 1) (c :: rest) context : Exec Site Sha1Context) =
        sha1InputLoop n rest context₂ := by
      have hnot : ¬context.corrupted = true := by rw [h.corrupted]; decide
      rw [sha1InputLoop, if_neg hnot, hload, Exec.ok_bind, hmask, hput, Exec.ok_bind]
      dsimp only
      split
      · rename_i hindex
        rw [if_pos hindex] at hfull
        rw [hfull]
        rfl
      · rename_i hindex
        rw [if_neg hindex] at hfull
        rw [hfull]
        rfl
    have hsum : (m ++ (c :: rest).take (n + 1)).length = (m ++ [c]).length +
        (rest.take n).length := by
      rw [List.take_succ_cons, List.append_cons, List.length_append]
    rw [hloop]
    by_cases hlong : messageLimit ≤ m.length + 1
    · -- the octet corrupts the context, and the loop ends
      have hcorrupted : context₂.corrupted = true :=
        hcorrupted₂.trans (count_corrupts hlength hlong)
      refine ⟨context₂, ?_, ?_⟩
      · cases n with
        | zero => rfl
        | succ n => rw [sha1InputLoop, if_pos hcorrupted]
      · rw [Hashing.extend, if_neg]
        · exact hcorrupted
        · rw [hsum, List.length_append, List.length_singleton]
          omega
    · obtain ⟨hcount, hkept⟩ := count_length hlength (Nat.lt_of_not_le hlong)
      have habsorbing : context₂.Absorbing (m ++ [c]) := by
        refine ⟨?_, ?_, ?_, ?_⟩
        · rw [absorb_append]
          exact h₂
        · rw [hlow₂, hhigh₂, hcount, List.length_append, List.length_singleton]
        · rw [hcomputed₂, (count_frame context₁).2.2.2, hcomputed₁, h.computed]
        · rw [hcorrupted₂, hkept, hcorrupted₁, h.corrupted]
      obtain ⟨context', hrun, hstands⟩ := @ih rest context₂ _ habsorbing
        (Nat.le_of_succ_le_succ hn)
      refine ⟨context', hrun, ?_⟩
      rw [Hashing.extend, List.append_assoc, List.singleton_append] at hstands
      rw [Hashing.extend, List.take_succ_cons]
      exact hstands

/-- `SHA1Input` with an array of at least the octets it is told to take. -/
theorem sha1Input_ok (Site : Type) {context : Sha1Context} {s : Hashing} (h : context.Stands s)
    {messageArray : List UInt8} {length : UInt32} (hlen : length.toNat ≤ messageArray.length) :
    ∃ context', (sha1Input context messageArray length : Exec Site Sha1Context) = .ok context' ∧
      context'.Stands (s.input (messageArray.take length.toNat)) := by
  rw [sha1Input]
  by_cases hzero : length = 0
  · refine ⟨context, if_pos hzero, ?_⟩
    rw [hzero, UInt32.toNat_zero, List.take_zero, Hashing.input]
    exact h
  · have hpos : length.toNat ≠ 0 := fun hz => hzero (UInt32.toNat_inj.1 hz)
    rw [if_neg hzero]
    obtain ⟨c, rest, htake⟩ := List.exists_cons_of_length_pos
      (show 0 < (messageArray.take length.toNat).length by rw [List.length_take]; omega)
    cases s with
    | absorbing m =>
      obtain ⟨context', hrun, hstands⟩ := sha1InputLoop_ok Site h hlen
      refine ⟨context', ?_, ?_⟩
      · rw [h.computed, h.corrupted]
        exact hrun
      · rw [htake] at hstands ⊢
        exact hstands
    | computed d =>
      refine ⟨{ context with corrupted := true }, ?_, ?_⟩
      · rw [h.2.1]
        rfl
      · rw [htake]
        rfl
    | corrupted =>
      have hcorrupted : context.corrupted = true := h
      refine ⟨{ context with corrupted := true }, ?_, ?_⟩
      · rw [hcorrupted, Bool.or_true]
        rfl
      · rw [htake]
        rfl

/-- The result comes to an end and leaves the context standing. -/
theorem sha1Result_ok (Site : Type) {context : Sha1Context} {s : Hashing} (h : context.Stands s) :
    ∃ context' : Sha1Context, (sha1Result context : Exec Site (Sha1Context × Bool)) =
      .ok (context', s.result.2.isSome) ∧ context'.Stands s.result.1 ∧
        ∀ d ∈ s.result.2, context'.messageDigest = d := by
  cases s with
  | absorbing m =>
    obtain ⟨context₁, hpad, hdigest, hframe⟩ := sha1PadMessage_ok Site h
    obtain ⟨-, -, -, hcorrupted⟩ := frame_eq hframe
    refine ⟨{ context₁ with computed := true }, ?_,
      ⟨hdigest, rfl, hcorrupted.trans h.corrupted⟩, ?_⟩
    · rw [sha1Result, h.corrupted, h.computed, if_neg Bool.false_ne_true, Bool.not_false,
        if_pos rfl, hpad]
      rfl
    · rintro d hd
      cases hd
      exact hdigest
  | computed d =>
    refine ⟨context, ?_, h, ?_⟩
    · rw [sha1Result, h.2.2, h.2.1, if_neg Bool.false_ne_true, Bool.not_true,
        if_neg Bool.false_ne_true]
      rfl
    · rintro d' hd
      cases hd
      exact h.1
  | corrupted =>
    have hcorrupted : context.corrupted = true := h
    refine ⟨context, ?_, h, nofun⟩
    rw [sha1Result, hcorrupted, if_pos rfl]
    rfl

/-- A call that works on the context. -/
inductive Sha1Call where
  | reset
  | input (messageArray : List UInt8) (length : UInt32)
  | result
  deriving DecidableEq

/-- The context, and for each `SHA1Result` so far the digest, unless it failed. -/
structure Sha1Session where
  context : Sha1Context
  results : List (Option (Fin 5 → UInt32))

/-- The calls as operations. An array has at least the octets its length says. -/
def sha1Machine (Site : Type) : Machine Site Sha1Session Sha1Call where
  enabled := fun _ call =>
    match call with
    | .input messageArray length => length.toNat ≤ messageArray.length
    | _ => True
  step := fun s call =>
    match call with
    | .reset => .ok { s with context := sha1Reset s.context }
    | .input messageArray length => do
      let context ← sha1Input s.context messageArray length
      pure { s with context }
    | .result => do
      let (context, computed) ← sha1Result s.context
      pure ⟨context, s.results ++ [if computed then some context.messageDigest else none]⟩

/-- What a call does to what the context stands for, and to the results. -/
def Hashing.call (s : Hashing × List (Option (Fin 5 → UInt32))) :
    Sha1Call → Hashing × List (Option (Fin 5 → UInt32))
  | .reset => (.absorbing [], s.2)
  | .input messageArray length => (s.1.input (messageArray.take length.toNat), s.2)
  | .result => (s.1.result.1, s.2 ++ [s.1.result.2])

/-- One call. -/
theorem sha1Machine_step {s : Sha1Session} {t : Hashing × List (Option (Fin 5 → UInt32))}
    {call : Sha1Call} (hst : s.context.Stands t.1 ∧ s.results = t.2)
    (hcall : (sha1Machine Site).enabled s call) :
    ∃ s', (sha1Machine Site).step s call = .ok s' ∧
      s'.context.Stands (Hashing.call t call).1 ∧ s'.results = (Hashing.call t call).2 := by
  obtain ⟨hstands, hresults⟩ := hst
  cases call with
  | reset => exact ⟨_, rfl, stands_reset s.context, hresults⟩
  | input messageArray length =>
    obtain ⟨context', hinput, hstands'⟩ := sha1Input_ok Site hstands hcall
    refine ⟨{ s with context := context' }, ?_, hstands', hresults⟩
    simp only [sha1Machine, hinput, Exec.ok_bind]
    rfl
  | result =>
    obtain ⟨context', hresult, hstands', hdigest⟩ := sha1Result_ok Site hstands
    have hanswer : (if t.1.result.2.isSome then some context'.messageDigest else none) =
        t.1.result.2 := by
      cases hres : t.1.result.2 with
      | none => rfl
      | some d => rw [hdigest d (by rw [hres]; rfl), Option.isSome_some, if_pos rfl]
    refine ⟨⟨context', s.results ++ [t.1.result.2]⟩, ?_, hstands', ?_⟩
    · simp only [sha1Machine, hresult, Exec.ok_bind, hanswer]
      rfl
    · rw [Hashing.call, hresults]

/-- From `SHA1Reset` on, whatever the calls: none leaves the arrays, and each `SHA1Result` gives the
digest of the standard for the message its context has taken in since the last reset, or fails. -/
theorem sha1_calls {Site : Type} {calls : List Sha1Call} {context : Sha1Context}
    (hcalls : (sha1Machine Site).Admissible ⟨sha1Reset context, []⟩ calls) :
    ∃ context', (sha1Machine Site).run ⟨sha1Reset context, []⟩ calls =
        .ok ⟨context', (calls.foldl Hashing.call (.absorbing [], [])).2⟩ ∧
      context'.Stands (calls.foldl Hashing.call (.absorbing [], [])).1 := by
  obtain ⟨⟨context', results⟩, hrun, hstands, hresults⟩ := @Machine.run_follows Site _ _
    (sha1Machine Site) _ (fun s t => s.context.Stands t.1 ∧ s.results = t.2) Hashing.call
    (fun _ _ _ hst hcall => sha1Machine_step hst hcall) ⟨sha1Reset context, []⟩ (.absorbing [], [])
    ⟨stands_reset context, rfl⟩ calls hcalls
  cases hresults
  exact ⟨context', hrun, hstands⟩

/-- A context as the stack leaves it. -/
def staleContext : Sha1Context :=
  ⟨fun _ => 0xDEADBEEF, 3, 5, List.replicate 64 0xAA, rfl, 70, true, true⟩

/-- `abc` in two pieces, its digest twice, and another letter, which is one too late. -/
theorem sha1_calls_abc :
    ∃ context', (sha1Machine Unit).run ⟨sha1Reset staleContext, []⟩
        [.input [97] 1, .input [98, 99] 2, .result, .result, .input [100] 1, .result] =
        .ok ⟨context', [some (digest [97, 98, 99]), some (digest [97, 98, 99]), none]⟩ ∧
      context'.Stands .corrupted :=
  sha1_calls ⟨Nat.le_refl 1, fun _ _ => ⟨Nat.le_refl 2, fun _ _ => ⟨trivial, fun _ _ => ⟨trivial,
    fun _ _ => ⟨Nat.le_refl 1, fun _ _ => ⟨trivial, fun _ _ => trivial⟩⟩⟩⟩⟩⟩

/-- The digest of `sr_handle_auth_request`, of the salt and the key. -/
def saltedDigest (context : Sha1Context) (salt : List UInt8) (saltLength : UInt32)
    (key : List UInt8) : Exec Site (Option (Fin 5 → UInt32)) := do
  let context ← sha1Input (sha1Reset context) salt saltLength
  let context ← sha1Input context key 64
  let (context, computed) ← sha1Result context
  pure (if computed then some context.messageDigest else none)

/-- It is always found. -/
theorem saltedDigest_eq (context : Sha1Context) {salt key : List UInt8} {saltLength : UInt32}
    (hsalt : saltLength.toNat ≤ salt.length) (hkey : 64 ≤ key.length) :
    (saltedDigest context salt saltLength key : Exec Site (Option (Fin 5 → UInt32))) =
      .ok (some (digest (salt.take saltLength.toNat ++ key.take 64))) := by
  have hshort := saltLength.toNat_lt
  have hkeyLength : (key.take 64).length = 64 := by
    rw [List.length_take, Nat.min_eq_left hkey]
  have hfirst : Hashing.input (.absorbing []) (salt.take saltLength.toNat) =
      .absorbing (salt.take saltLength.toNat) := by
    cases hcut : salt.take saltLength.toNat with
    | nil => rfl
    | cons c rest =>
      rw [Hashing.input, Hashing.extend, List.nil_append, if_pos]
      rw [← hcut, List.length_take, messageLimit]
      omega
  have hsecond : Hashing.input (.absorbing (salt.take saltLength.toNat)) (key.take 64) =
      .absorbing (salt.take saltLength.toNat ++ key.take 64) := by
    obtain ⟨c, rest, hcut⟩ := List.exists_cons_of_length_pos (hkeyLength.ge.trans' (by decide) :
      0 < (key.take 64).length)
    rw [hcut, Hashing.input, ← hcut, Hashing.extend, if_pos]
    rw [List.length_append, List.length_take, hkeyLength, messageLimit]
    omega
  obtain ⟨context₁, hrun₁, h₁⟩ := sha1Input_ok Site (stands_reset context) hsalt
  obtain ⟨context₂, hrun₂, h₂⟩ := @sha1Input_ok Site _ _ h₁ key 64 hkey
  have h64 : (64 : UInt32).toNat = 64 := rfl
  rw [hfirst, h64, hsecond] at h₂
  obtain ⟨context₃, hrun₃, -, hdigest⟩ := sha1Result_ok Site h₂
  have hfound := hdigest _ rfl
  rw [saltedDigest, hrun₁, Exec.ok_bind, hrun₂, Exec.ok_bind, hrun₃, Exec.ok_bind]
  dsimp only
  rw [hfound]
  rfl

end ComputerNetworks.Router
