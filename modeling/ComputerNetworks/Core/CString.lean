import ComputerNetworks.Core.Memory
import Mathlib.Data.List.TakeWhile

/-!
# C strings inside a block

`CStrAt b p s` says that the characters of `s` followed by a NUL stand in block
`b` at offset `p`. The library functions are computed from the string a pointer
reaches; their lemmas are stated over `CStrAt`, with one frame rule: a byte
written outside a string leaves it in place.
-/

namespace ComputerNetworks

variable {Site : Type}

/-- The string a pointer reaches; without a NUL in the block the read leaves it. -/
def cstr (b : List UInt8) (p : Nat) : Exec Site (List UInt8) :=
  if 0 ∈ b.drop p then .ok ((b.drop p).takeWhile (· != 0)) else .error .outOfBounds

/-- The characters `s` and their NUL stand at offset `p`. -/
def CStrAt (b : List UInt8) (p : Nat) (s : List UInt8) : Prop :=
  0 ∉ s ∧ s ++ [0] <+: b.drop p

/-- Position of the first occurrence of `pat`. -/
def findSub (pat : List UInt8) : List UInt8 → Option Nat
  | [] => if pat = [] then some 0 else none
  | c :: s => if pat.isPrefixOf (c :: s) then some 0 else (findSub pat s).map (· + 1)

/-- `strlen`. -/
def strlen (b : List UInt8) (p : Nat) : Exec Site Nat :=
  List.length <$> cstr b p

/-- `strstr`: the first occurrence of `pat` in the string at `p`, as an offset of the block. -/
def strstr (b : List UInt8) (p : Nat) (pat : List UInt8) : Exec Site (Option Nat) :=
  (fun s => (findSub pat s).map (p + ·)) <$> cstr b p

/-- `index`: the first occurrence of the character `c` in the string at `p`. -/
def index (b : List UInt8) (p : Nat) (c : UInt8) : Exec Site (Option Nat) :=
  (fun s => (s.idxOf? c).map (p + ·)) <$> cstr b p

/-- `strrchr`: the last occurrence of the character `c` in the string at `p`. -/
def strrchr (b : List UInt8) (p : Nat) (c : UInt8) : Exec Site (Option Nat) :=
  (fun s => (s.reverse.idxOf? c).map (p + s.length - 1 - ·)) <$> cstr b p

/-- `strncmp(b + p, pat, |pat|) == 0`. -/
def strncmpEq (b : List UInt8) (p : Nat) (pat : List UInt8) : Exec Site Bool :=
  (fun s => pat.isPrefixOf s) <$> cstr b p

/-- `strncpy(dst, src, n)`: at most `n` characters, the rest of the `n` bytes filled with NULs. -/
def strncpy (dst src : List UInt8) (n : Nat) : Exec Site (List UInt8) :=
  let s := (src.take n).takeWhile (· != 0)
  if s.length < min n src.length then memcpyAt dst 0 (s ++ List.replicate (n - s.length) 0)
  else if n ≤ src.length then memcpyAt dst 0 s
  else .error .outOfBounds

/-- `strtok_r`: skip delimiters from `p`, cut the token off by a NUL written over the
delimiter after it, and return the block, the save pointer and the token. -/
def strtokR (b : List UInt8) (p : Nat) (delim : List UInt8) :
    Exec Site (List UInt8 × Nat × Option Nat) := do
  let s ← cstr b p
  let lead := s.takeWhile (delim.contains ·)
  let rest := s.dropWhile (delim.contains ·)
  if rest = [] then
    return (b, p + s.length, none)
  let tok := rest.takeWhile (! delim.contains ·)
  let start := p + lead.length
  let stop := start + tok.length
  if stop = p + s.length then
    return (b, stop, some start)
  return (b.set stop 0, stop + 1, some start)

/-- `isspace` in the C locale. -/
def isspace (c : UInt8) : Bool := c == 32 || (9 ≤ c && c ≤ 13)

/-- `isdigit`. -/
def isdigit (c : UInt8) : Bool := 48 ≤ c && c ≤ 57

/-- `strtol(s, NULL, 10)` with a 64-bit `long`: blanks, a sign, then digits, saturating. -/
def strtol (s : List UInt8) : Int :=
  let s := s.dropWhile isspace
  let neg := s.head? == some 45
  let s := if neg || s.head? == some 43 then s.tail else s
  let n : Nat := (s.takeWhile isdigit).foldl (fun n c => n * 10 + (c.toNat - 48)) 0
  if neg then max (-2 ^ 63) (-n) else min (2 ^ 63 - 1) n

/-- A string stands in front of its NUL. -/
theorem CStrAt.eq_append {b s : List UInt8} {p : Nat} (h : CStrAt b p s) :
    ∃ post, b.drop p = s ++ 0 :: post := by
  obtain ⟨post, hp⟩ := h.2
  exact ⟨post, by rw [← hp, List.append_assoc, List.singleton_append]⟩

theorem cstrAt_of_drop {b s : List UInt8} {p : Nat} (post : List UInt8) (h0 : 0 ∉ s)
    (h : b.drop p = s ++ 0 :: post) : CStrAt b p s :=
  ⟨h0, post, by rw [h, List.append_assoc, List.singleton_append]⟩

/-- A text followed by its NUL, behind any prefix, is a string of the block. -/
theorem cstrAt_append (pre s post : List UInt8) (h0 : 0 ∉ s) :
    CStrAt (pre ++ (s ++ 0 :: post)) pre.length s :=
  cstrAt_of_drop post h0 (by rw [List.drop_left])

/-- The characters of a text without `c` are all different from it. -/
theorem bne_of_not_mem {c : UInt8} {s : List UInt8} (h : c ∉ s) : ∀ d ∈ s, (d != c) = true := by
  intro d hd
  have hne : d ≠ c := fun he => h (he ▸ hd)
  simpa using hne

/-- The first NUL ends the string. -/
theorem takeWhile_ne_zero_append {s post : List UInt8} (h0 : 0 ∉ s) :
    (s ++ 0 :: post).takeWhile (· != 0) = s := by
  rw [List.takeWhile_append_of_pos (bne_of_not_mem h0)]
  simp

/-- What stands behind a NUL plays no part. -/
theorem takeWhile_append_nul (s post : List UInt8) :
    (s ++ 0 :: post).takeWhile (· != 0) = s.takeWhile (· != 0) := by
  rw [List.takeWhile_append]
  split
  · next h =>
      rw [List.takeWhile_cons_of_neg (by simp), List.append_nil]
      exact ((List.takeWhile_prefix _).eq_of_length h).symm
  · rfl

/-- `strncpy` of a string into a block of `n` bytes. -/
theorem CStrAt.strncpy_eq {src name dst : List UInt8} {n : Nat} (h : CStrAt src 0 name)
    (hdst : dst.length = n) :
    (strncpy dst src n : Exec Site (List UInt8)) =
      .ok ((name ++ List.replicate n 0).take n) := by
  obtain ⟨hzero, post, hsrc⟩ := h
  rw [List.drop_zero] at hsrc
  have hcopy : ∀ bytes : List UInt8, bytes.length = n →
      (memcpyAt dst 0 bytes : Exec Site (List UInt8)) = .ok bytes := by
    intro bytes hlen
    rw [memcpyAt_zero (hlen.trans hdst.symm).le, hlen, ← hdst, List.drop_length, List.append_nil]
  have hpost : src.length = name.length + 1 + post.length := by
    simp [← hsrc]
    omega
  rcases lt_or_ge name.length n with hlt | hge
  · have hs : (src.take n).takeWhile (· != 0) = name := by
      obtain ⟨k, rfl⟩ := Nat.exists_eq_add_of_lt hlt
      rw [← hsrc, List.append_assoc, List.take_append, List.take_of_length_le (by omega)]
      have hk : name.length + k + 1 - name.length = k + 1 := by omega
      rw [hk, List.singleton_append, List.take_succ_cons]
      exact takeWhile_ne_zero_append hzero
    have hlen : (name ++ List.replicate (n - name.length) 0).length = n := by
      simp
      omega
    rw [strncpy, hs, if_pos (by omega), hcopy _ hlen, List.take_append, List.take_replicate,
      List.take_of_length_le hlt.le, Nat.min_eq_left (Nat.sub_le _ _)]
  · have hs : (src.take n).takeWhile (· != 0) = name.take n := by
      rw [← hsrc, List.append_assoc, List.take_append_of_le_length hge, List.takeWhile_eq_self_iff]
      exact bne_of_not_mem fun h0 => hzero (List.mem_of_mem_take h0)
    have hlen : (name.take n).length = n := by simp [hge]
    rw [strncpy, hs, hlen, if_neg (by omega), if_pos (by omega), hcopy _ hlen,
      List.take_append_of_le_length hge]

/-- Reading the block yields the string. -/
theorem CStrAt.cstr {b s : List UInt8} {p : Nat} (h : CStrAt b p s) :
    (cstr b p : Exec Site (List UInt8)) = .ok s := by
  obtain ⟨post, hp⟩ := h.eq_append
  have hmem : (0 : UInt8) ∈ b.drop p := by rw [hp]; simp
  rw [ComputerNetworks.cstr, if_pos hmem, hp, takeWhile_ne_zero_append h.1]

/-- A string and its NUL lie inside the block. -/
theorem CStrAt.length_lt {b s : List UInt8} {p : Nat} (h : CStrAt b p s) :
    p + s.length < b.length := by
  obtain ⟨post, hp⟩ := h.eq_append
  have hlen := congrArg List.length hp
  simp only [List.length_drop, List.length_append, List.length_cons] at hlen
  omega

theorem CStrAt.strlen_eq {b s : List UInt8} {p : Nat} (h : CStrAt b p s) :
    (strlen b p : Exec Site Nat) = .ok s.length := by
  simp [strlen, h.cstr]

/-- `strstr` finds the first occurrence in the string. -/
theorem CStrAt.strstr_eq {b s : List UInt8} {p : Nat} (h : CStrAt b p s) (pat : List UInt8) :
    (strstr b p pat : Exec Site _) = .ok ((findSub pat s).map (p + ·)) := by
  simp [strstr, h.cstr]

theorem CStrAt.index_eq {b s : List UInt8} {p : Nat} (h : CStrAt b p s) (c : UInt8) :
    (index b p c : Exec Site _) = .ok ((s.idxOf? c).map (p + ·)) := by
  simp [index, h.cstr]

/-- The comparison asks whether the string starts with the pattern. -/
theorem CStrAt.strncmpEq_eq {b s : List UInt8} {p : Nat} (h : CStrAt b p s) (pat : List UInt8) :
    (strncmpEq b p pat : Exec Site Bool) = .ok (decide (pat <+: s)) := by
  have hdec : pat.isPrefixOf s = decide (pat <+: s) := by
    rw [Bool.eq_iff_iff, List.isPrefixOf_iff_prefix, decide_eq_true_iff]
  simp [strncmpEq, h.cstr, hdec]

/-- Behind the block there is no string to compare. -/
theorem strncmpEq_past {b : List UInt8} {p : Nat} (h : b.length ≤ p) (pat : List UInt8) :
    (strncmpEq b p pat : Exec Site Bool) = .error .outOfBounds := by
  rw [strncmpEq, cstr, List.drop_eq_nil_of_le h, if_neg List.not_mem_nil]
  rfl

/-- Every successful read shows a string at that place. -/
theorem cstrAt_of_cstr {b s : List UInt8} {p : Nat}
    (h : (cstr b p : Exec Site (List UInt8)) = .ok s) : CStrAt b p s := by
  unfold cstr at h
  split at h
  · next hmem =>
      cases h
      have h0 : (0 : UInt8) ∉ (b.drop p).takeWhile (· != 0) := by
        intro hc
        simpa using List.mem_takeWhile_imp hc
      obtain ⟨post, hpost⟩ : ∃ post, (b.drop p).dropWhile (· != 0) = 0 :: post := by
        have hne : (b.drop p).dropWhile (· != 0) ≠ [] := by
          rw [Ne, List.dropWhile_eq_nil_iff]
          intro hall
          simpa using hall 0 hmem
        obtain ⟨c, post, hc⟩ := List.exists_cons_of_ne_nil hne
        have hhead := List.head_dropWhile_not (· != 0) hne
        simp only [hc, List.head_cons] at hhead
        have he : c = 0 := by simpa using hhead
        exact ⟨post, by rw [hc, he]⟩
      apply cstrAt_of_drop post h0
      rw [← hpost, List.takeWhile_append_dropWhile]
  · cases h

/-- Before a NUL there is a string, up to the first one. -/
theorem cstrAt_takeWhile {b s : List UInt8} {p : Nat} (post : List UInt8)
    (h : b.drop p = s ++ 0 :: post) : CStrAt b p (s.takeWhile (· != 0)) := by
  have hread : (cstr b p : Exec Empty _) = .ok (s.takeWhile (· != 0)) := by
    rw [cstr, h, if_pos (by simp), takeWhile_append_nul]
  exact cstrAt_of_cstr hread

/-- The string of a copy that ends with a NUL of its own. -/
theorem cstrAt_terminated (s : List UInt8) : CStrAt (s ++ [0]) 0 (s.takeWhile (· != 0)) :=
  cstrAt_takeWhile [] rfl

/-- `strncpy` of `n` bytes that need not hold a string. -/
theorem strncpy_eq_of_le {dst src : List UInt8} {n : Nat} (hsrc : n ≤ src.length)
    (hdst : dst.length = n) :
    (strncpy dst src n : Exec Site (List UInt8)) =
      .ok ((src.takeWhile (· != 0) ++ List.replicate n 0).take n) := by
  by_cases hzero : 0 ∈ src
  · have hstr : (cstr src 0 : Exec Site (List UInt8)) = .ok (src.takeWhile (· != 0)) := if_pos hzero
    exact (cstrAt_of_cstr hstr).strncpy_eq hdst
  · have hself : ∀ l : List UInt8, l ⊆ src → l.takeWhile (· != 0) = l := by
      intro l hl
      rw [List.takeWhile_eq_self_iff]
      exact bne_of_not_mem fun h0 => hzero (hl h0)
    have hlen : (src.take n).length = n := by rw [List.length_take, Nat.min_eq_left hsrc]
    rw [strncpy, hself _ (List.take_subset _ _), hself _ (List.Subset.refl _), hlen,
      Nat.min_eq_left hsrc, if_neg (Nat.lt_irrefl n), if_pos hsrc, memcpyAt_zero (by omega), hlen,
      ← hdst, List.drop_length, List.append_nil, hdst, List.take_append_of_le_length hsrc]

/-- A text copied with its NUL to the start of a block that is large enough. -/
theorem memcpyAt_string {b s : List UInt8} (h0 : 0 ∉ s) (hlen : s.length < b.length) :
    ∃ b', (memcpyAt b 0 (s ++ [0]) : Exec Site (List UInt8)) = .ok b' ∧ CStrAt b' 0 s ∧
      b'.length = b.length := by
  have hfit : (s ++ [0]).length ≤ b.length := by
    rw [List.length_append]
    exact hlen
  have hcopy := @memcpyAt_zero Site b (s ++ [0]) hfit
  refine ⟨_, hcopy, ?_, memcpyAt_length hcopy⟩
  apply cstrAt_of_drop (b.drop (s ++ [0]).length) h0
  rw [List.drop_zero, List.append_assoc]
  rfl

/-- A suffix of a string is the string at the later offset. -/
theorem CStrAt.suffix {b x y : List UInt8} {p : Nat} (h : CStrAt b p (x ++ y)) :
    CStrAt b (p + x.length) y := by
  obtain ⟨post, hp⟩ := h.eq_append
  have h0 : (0 : UInt8) ∉ y := fun hc => h.1 (List.mem_append_right x hc)
  apply cstrAt_of_drop post h0
  rw [← List.drop_drop, hp, List.append_assoc, List.drop_left]

/-- A character is found behind a text that does not hold it. -/
theorem idxOf?_append_of_not_mem {k rest : List UInt8} {c : UInt8} (h : c ∉ k) :
    (k ++ c :: rest).idxOf? c = some k.length := by
  induction k with
  | nil => simp [List.idxOf?_cons]
  | cons x k ih =>
    rw [List.mem_cons, not_or] at h
    have hx : (x == c) = false := beq_false_of_ne fun he => h.1 he.symm
    simp [List.idxOf?_cons, hx, ih h.2]

/-- `strrchr` finds the last occurrence of a character in the string. -/
theorem CStrAt.strrchr_eq {b x y : List UInt8} {p : Nat} {c : UInt8} (h : CStrAt b p (x ++ c :: y))
    (hc : c ∉ y) : (strrchr b p c : Exec Site _) = .ok (some (p + x.length)) := by
  have hreverse : (x ++ c :: y).reverse = y.reverse ++ c :: x.reverse := by simp
  have hlast : ((x ++ c :: y).reverse.idxOf? c) = some y.length := by
    rw [hreverse, idxOf?_append_of_not_mem (by simpa using hc), List.length_reverse]
  have hlen : p + (x ++ c :: y).length - 1 - y.length = p + x.length := by
    rw [List.length_append, List.length_cons]
    omega
  rw [strrchr, h.cstr]
  show Except.ok (Option.map _ _) = _
  rw [hlast, Option.map_some, hlen]

/-- A character is found at its first occurrence. -/
theorem idxOf?_eq_some {s : List UInt8} {c : UInt8} {i : Nat} (h : s.idxOf? c = some i) :
    ∃ k rest, s = k ++ c :: rest ∧ k.length = i ∧ c ∉ k := by
  induction s generalizing i with
  | nil => simp at h
  | cons x s ih =>
    rw [List.idxOf?_cons] at h
    by_cases hx : x = c
    · simp only [hx, beq_self_eq_true, if_true, Option.some.injEq] at h
      exact ⟨[], s, by simp [hx], by simpa using h, by simp⟩
    · have hb : (x == c) = false := by simpa using hx
      simp only [hb, Bool.false_eq_true, if_false, Option.map_eq_some_iff] at h
      obtain ⟨j, hj, rfl⟩ := h
      obtain ⟨k, rest, rfl, rfl, hk⟩ := ih hj
      exact ⟨x :: k, rest, rfl, rfl, by simpa [hk] using fun he => hx he.symm⟩

/-- The start of a string stands in the block. -/
theorem CStrAt.take_drop {b s t : List UInt8} {p : Nat} (h : CStrAt b p (s ++ t)) :
    (b.drop p).take s.length = s := by
  obtain ⟨post, hp⟩ := h.eq_append
  rw [hp, List.append_assoc, List.take_left]

/-- The string of a block is determined by the offset. -/
theorem CStrAt.unique {b s t : List UInt8} {p : Nat} (hs : CStrAt b p s) (ht : CStrAt b p t) :
    s = t := by
  have h : (Except.ok s : Exec Empty (List UInt8)) = .ok t := hs.cstr.symm.trans ht.cstr
  exact Except.ok.inj h

/-- Copying the start of a block with a NUL behind it cuts its first string short. -/
theorem CStrAt.take {b s : List UInt8} (h : CStrAt b 0 s) (n : Nat) :
    CStrAt (b.take n ++ [0]) 0 (s.take n) := by
  obtain ⟨post, hp⟩ := h.eq_append
  rw [List.drop_zero] at hp
  have h0 : 0 ∉ s.take n := fun hc => h.1 (List.mem_of_mem_take hc)
  by_cases hn : n ≤ s.length
  · apply cstrAt_of_drop [] h0
    rw [List.drop_zero, hp, List.take_append_of_le_length hn]
  · obtain ⟨k, hk⟩ : ∃ k, n - s.length = k + 1 := ⟨n - s.length - 1, by omega⟩
    apply cstrAt_of_drop (post.take k ++ [0]) h0
    rw [List.drop_zero, hp, List.take_append, hk, List.take_succ_cons, List.append_assoc,
      List.cons_append]

/-- One byte is written. -/
theorem memcpyAt_byte {b : List UInt8} {i : Nat} (h : i < b.length) (c : UInt8) :
    (memcpyAt b i [c] : Exec Site (List UInt8)) = .ok (b.set i c) := by
  have hfit : i + [c].length ≤ b.length := h
  rw [memcpyAt, if_pos hfit, List.set_eq_take_append_cons_drop, if_pos h, List.append_assoc]
  rfl

/-- Frame rule: a byte written before a string, or behind its NUL, leaves the string in place. -/
theorem CStrAt.set_outside {b s : List UInt8} {p i : Nat} (h : CStrAt b p s) (c : UInt8)
    (hi : i < p ∨ p + s.length < i) : CStrAt (b.set i c) p s := by
  obtain ⟨post, hp⟩ := h.eq_append
  rcases hi with hi | hi
  · apply cstrAt_of_drop post h.1
    rw [List.drop_set_of_lt hi, hp]
  · apply cstrAt_of_drop (post.set (i - p - s.length - 1) c) h.1
    have hge : ¬ i < p := by omega
    have hs : i - p - s.length = i - p - s.length - 1 + 1 := by omega
    rw [List.drop_set, if_neg hge, hp, List.set_append_right _ _ (by omega), hs,
      List.set_cons_succ]
    rfl

/-- A NUL written over one character cuts the string in two. -/
theorem CStrAt.cut {b x y : List UInt8} {p : Nat} {d : UInt8} (h : CStrAt b p (x ++ d :: y)) :
    CStrAt (b.set (p + x.length) 0) p x ∧
      CStrAt (b.set (p + x.length) 0) (p + x.length + 1) y := by
  have hy : CStrAt b (p + (x ++ [d]).length) y := by
    apply CStrAt.suffix
    simpa using h
  have hlen : p + (x ++ [d]).length = p + x.length + 1 := by simp [Nat.add_assoc]
  rw [hlen] at hy
  constructor
  · obtain ⟨post, hp⟩ := h.eq_append
    have h0 : (0 : UInt8) ∉ x := fun hc => h.1 (List.mem_append_left _ hc)
    apply cstrAt_of_drop (y ++ 0 :: post) h0
    have hge : ¬ p + x.length < p := by omega
    rw [List.drop_set, if_neg hge, hp, List.append_assoc, Nat.add_sub_cancel_left,
      List.set_append_right _ _ (le_refl _), Nat.sub_self]
    rfl
  · exact hy.set_outside 0 (Or.inl (Nat.lt_succ_self _))

/-- The token `strtok_r` finds in a string, and what is left behind it. -/
def token (delim s : List UInt8) : Option (List UInt8 × List UInt8) :=
  match s.dropWhile (delim.contains ·) with
  | [] => none
  | c :: r =>
    some ((c :: r).takeWhile (! delim.contains ·), ((c :: r).dropWhile (! delim.contains ·)).tail)

/-- There is no token among delimiters. -/
theorem token_eq_none {delim s : List UInt8} (h : ∀ c ∈ s, c ∈ delim) : token delim s = none := by
  have hd : s.dropWhile (delim.contains ·) = [] := by
    simpa [List.dropWhile_eq_nil_iff] using h
  simp only [token, hd]

/-- The token of a string that starts with it is the part up to the first delimiter. -/
theorem token_append {delim : List UInt8} (lead tok rest : List UInt8)
    (hl : ∀ c ∈ lead, c ∈ delim) (ht : ∀ c ∈ tok, c ∉ delim) (hne : tok ≠ [])
    (hr : ∀ c, rest.head? = some c → c ∈ delim) :
    token delim (lead ++ (tok ++ rest)) = some (tok, rest.tail) := by
  obtain ⟨t, ts, rfl⟩ := List.exists_cons_of_ne_nil hne
  have hlead : ∀ c ∈ lead, delim.contains c = true := by simpa using hl
  have htok : ∀ c ∈ t :: ts, (! delim.contains c) = true := by simpa using ht
  have hhead : t ∉ delim := ht t (by simp)
  have hdrop : (lead ++ (t :: ts ++ rest)).dropWhile (delim.contains ·) = t :: (ts ++ rest) := by
    rw [List.dropWhile_append_of_pos hlead, List.cons_append, List.dropWhile_cons_of_neg]
    simpa using hhead
  have htake : (t :: (ts ++ rest)).takeWhile (! delim.contains ·) = t :: ts ∧
      (t :: (ts ++ rest)).dropWhile (! delim.contains ·) = rest := by
    rw [← List.cons_append, List.takeWhile_append_of_pos htok, List.dropWhile_append_of_pos htok]
    cases rest with
    | nil => simp
    | cons c rest =>
      have hc : c ∈ delim := hr c rfl
      simp [hc]
  simp only [token, hdrop, htake.1, htake.2]

/-- Every string is delimiters alone, or delimiters, a token, and nothing or a delimiter. -/
theorem token_cases (delim s : List UInt8) :
    (∀ c ∈ s, c ∈ delim) ∨ ∃ lead tok rest, s = lead ++ (tok ++ rest) ∧
      (∀ c ∈ lead, c ∈ delim) ∧ (∀ c ∈ tok, c ∉ delim) ∧ tok ≠ [] ∧
      ∀ c, rest.head? = some c → c ∈ delim := by
  by_cases hs : ∀ c ∈ s, c ∈ delim
  · exact Or.inl hs
  · have hne : s.dropWhile (delim.contains ·) ≠ [] := by
      simpa [List.dropWhile_eq_nil_iff] using hs
    refine Or.inr ⟨s.takeWhile (delim.contains ·),
      (s.dropWhile (delim.contains ·)).takeWhile (! delim.contains ·),
      (s.dropWhile (delim.contains ·)).dropWhile (! delim.contains ·), ?_, ?_, ?_, ?_, ?_⟩
    · rw [List.takeWhile_append_dropWhile, List.takeWhile_append_dropWhile]
    · intro c hc
      simpa using List.mem_takeWhile_imp hc
    · intro c hc
      simpa using List.mem_takeWhile_imp hc
    · obtain ⟨c, r, hcr⟩ := List.exists_cons_of_ne_nil hne
      have hhead := List.head_dropWhile_not (delim.contains ·) hne
      simp only [hcr, List.head_cons] at hhead
      rw [hcr, List.takeWhile_cons_of_pos (by simpa using hhead)]
      exact List.cons_ne_nil _ _
    · intro c hc
      have hnn : (s.dropWhile (delim.contains ·)).dropWhile (! delim.contains ·) ≠ [] := by
        intro hd
        rw [hd] at hc
        cases hc
      have hhead := List.head_dropWhile_not (! delim.contains ·) hnn
      rw [List.head?_eq_some_head hnn, Option.some.injEq] at hc
      rw [hc] at hhead
      simpa using hhead

/-- What a string's token is made of. -/
theorem token_eq_some {delim s tok rest : List UInt8} (h : token delim s = some (tok, rest)) :
    ∃ lead rest', s = lead ++ (tok ++ rest') ∧ rest = rest'.tail ∧ (∀ c ∈ lead, c ∈ delim) ∧
      (∀ c ∈ tok, c ∉ delim) ∧ tok ≠ [] ∧ ∀ c, rest'.head? = some c → c ∈ delim := by
  rcases token_cases delim s with hs | ⟨lead, tok', rest', rfl, hl, ht, hne, hr⟩
  · rw [token_eq_none hs] at h
    cases h
  · rw [token_append lead _ _ hl ht hne hr] at h
    cases h
    exact ⟨lead, rest', rfl, rfl, hl, ht, hne, hr⟩

/-- There is no token exactly if all characters are delimiters. -/
theorem token_eq_none_iff {delim s : List UInt8} :
    token delim s = none ↔ ∀ c ∈ s, c ∈ delim := by
  refine ⟨fun h => ?_, token_eq_none⟩
  rcases token_cases delim s with hs | ⟨lead, tok, rest, rfl, hl, ht, hne, hr⟩
  · exact hs
  · rw [token_append lead _ _ hl ht hne hr] at h
    cases h

/-- On delimiters alone there is no token and the save pointer ends at the NUL. -/
theorem strtokR_none {b s delim : List UInt8} {p : Nat} (h : CStrAt b p s)
    (hs : token delim s = none) :
    (strtokR b p delim : Exec Site _) = .ok (b, p + s.length, none) := by
  have hd : s.dropWhile (delim.contains ·) = [] := by
    simpa [List.dropWhile_eq_nil_iff] using token_eq_none_iff.mp hs
  simp only [strtokR, h.cstr, Exec.ok_bind, hd, if_true, Exec.pure_eq_ok]

/-- The block after a token has been found: the token and what is left of the string stand in
it, and every string outside the scanned one is as before. -/
structure TokenAt (b b' : List UInt8) (p : Nat) (s tok rest : List UInt8) (start save : Nat) :
    Prop where
  /-- The token starts inside the scanned string. -/
  le_start : p ≤ start
  /-- The token is a string of its own. -/
  tok_at : CStrAt b' start tok
  /-- The save pointer stands at what is left. -/
  rest_at : CStrAt b' save rest
  /-- It is behind the NUL written over a delimiter, or at the end of the string. -/
  save_eq : save = start + tok.length + 1 ∨ save = start + tok.length ∧ rest = []
  /-- What is left reaches to the end of the scanned string. -/
  end_eq : save + rest.length = p + s.length
  /-- The block keeps its size. -/
  length_eq : b'.length = b.length
  /-- Strings outside the scanned one stay. -/
  frame : ∀ x u, CStrAt b x u → x + u.length < p ∨ p + s.length < x → CStrAt b' x u

/-- The delimiters a string starts with, and the rest, which starts with its token. -/
theorem span_lead {delim lead tok : List UInt8} (rest : List UInt8) (hl : ∀ c ∈ lead, c ∈ delim)
    (ht : ∀ c ∈ tok, c ∉ delim) (hne : tok ≠ []) :
    (lead ++ (tok ++ rest)).takeWhile (delim.contains ·) = lead ∧
      (lead ++ (tok ++ rest)).dropWhile (delim.contains ·) = tok ++ rest := by
  have hlead : ∀ c ∈ lead, delim.contains c = true := by simpa using hl
  obtain ⟨t, ts, rfl⟩ := List.exists_cons_of_ne_nil hne
  have hnt : t ∉ delim := ht t (by simp)
  rw [List.takeWhile_append_of_pos hlead, List.dropWhile_append_of_pos hlead]
  simp [hnt]

/-- `strtok_r` on a string split at its token: with something left behind the token, its first
character is overwritten. -/
theorem strtokR_eq (Site : Type) {b delim lead tok rest : List UInt8} {p : Nat}
    (h : CStrAt b p (lead ++ (tok ++ rest))) (hl : ∀ c ∈ lead, c ∈ delim)
    (ht : ∀ c ∈ tok, c ∉ delim) (hne : tok ≠ []) (hr : ∀ c, rest.head? = some c → c ∈ delim) :
    (strtokR b p delim : Exec Site _) =
      .ok (if rest = [] then (b, p + lead.length + tok.length, some (p + lead.length))
        else (b.set (p + lead.length + tok.length) 0, p + lead.length + tok.length + 1,
          some (p + lead.length))) := by
  have htok : ∀ c ∈ tok, (! delim.contains c) = true := by simpa using ht
  obtain ⟨htake, hdrop⟩ := span_lead rest hl ht hne
  have hcut : (tok ++ rest).takeWhile (! delim.contains ·) = tok := by
    rw [List.takeWhile_append_of_pos htok]
    cases rest with
    | nil => simp
    | cons c r =>
      have hc : c ∈ delim := hr c rfl
      simp [hc]
  have hne' : tok ++ rest ≠ [] := by simp [hne]
  simp only [strtokR, h.cstr, Exec.ok_bind, htake, hdrop, hcut, hne', if_false]
  cases rest with
  | nil => simp [Nat.add_assoc]
  | cons d rest =>
    have hstop : ¬ p + lead.length + tok.length = p + (lead ++ (tok ++ d :: rest)).length := by
      simp only [List.length_append, List.length_cons]
      omega
    rw [if_neg hstop, if_neg (List.cons_ne_nil d rest)]
    rfl

/-- `strtok_r` finds the token of the string it is pointed at. -/
theorem strtokR_some (Site : Type) {b s delim tok rest : List UInt8} {p : Nat} (h : CStrAt b p s)
    (ht : token delim s = some (tok, rest)) :
    ∃ b' save start, (strtokR b p delim : Exec Site _) = .ok (b', save, some start) ∧
      TokenAt b b' p s tok rest start save := by
  obtain ⟨lead, rest', rfl, rfl, hl, htok, hne, hr⟩ := token_eq_some ht
  have hrun := strtokR_eq Site h hl htok hne hr
  have htokAt : CStrAt b (p + lead.length) (tok ++ rest') := h.suffix
  cases rest' with
  | nil =>
    refine ⟨b, p + lead.length + tok.length, p + lead.length, hrun, ?_⟩
    exact ⟨by omega, by simpa using htokAt, htokAt.suffix, Or.inr ⟨rfl, rfl⟩,
      by simp; omega, rfl, fun _ _ hu _ => hu⟩
  | cons d rest =>
    have hcuts := htokAt.cut
    refine ⟨b.set (p + lead.length + tok.length) 0, p + lead.length + tok.length + 1,
      p + lead.length, hrun, ?_⟩
    refine ⟨by omega, hcuts.1, hcuts.2, Or.inl rfl, ?_, by simp, ?_⟩
    · simp only [List.length_append, List.length_cons, List.tail_cons]
      omega
    · intro x u hu hx
      apply hu.set_outside
      simp only [List.length_append, List.length_cons] at hx
      omega

/-- The NUL of a string stands in its block. -/
theorem CStrAt.set_nul {b s : List UInt8} {p : Nat} (h : CStrAt b p s) :
    b.set (p + s.length) 0 = b := by
  obtain ⟨post, hpost⟩ := h.eq_append
  have hget : b[p + s.length]? = some 0 := by
    rw [← List.getElem?_drop, hpost, List.getElem?_append_right le_rfl, Nat.sub_self]
    rfl
  obtain ⟨hlt, hzero⟩ := List.getElem?_eq_some_iff.1 hget
  rw [← hzero]
  exact List.set_getElem_self hlt

/-- The block a token is found in: behind the token there is a NUL. -/
theorem strtokR_block (Site : Type) {b s delim tok rest : List UInt8} {p : Nat} (h : CStrAt b p s)
    (ht : token delim s = some (tok, rest)) :
    ∃ save, (strtokR b p delim : Exec Site _) =
      .ok (b.set (p + (s.takeWhile (delim.contains ·)).length + tok.length) 0, save,
        some (p + (s.takeWhile (delim.contains ·)).length)) := by
  obtain ⟨lead, rest', rfl, rfl, hl, htok, hne, hr⟩ := token_eq_some ht
  rw [strtokR_eq Site h hl htok hne hr, (span_lead rest' hl htok hne).1]
  cases rest' with
  | nil =>
    have hnul := h.set_nul
    rw [List.append_nil, List.length_append, ← Nat.add_assoc] at hnul
    exact ⟨_, by rw [if_pos rfl, hnul]⟩
  | cons d rest => exact ⟨_, by rw [if_neg (List.cons_ne_nil d rest)]⟩

end ComputerNetworks
