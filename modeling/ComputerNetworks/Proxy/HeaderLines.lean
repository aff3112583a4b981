import ComputerNetworks.Proxy.ParsedRequest

/-!
# The header loop on a text

The loop visits the lines of the header section up to the first empty one. At
each it reads a key and a value from the text that starts there, and sets them.
`HeaderAt` says what is read at a place; nothing in it stops the key from
running over line ends, or the value from starting on the next line.
-/

namespace ComputerNetworks.Proxy

open LastWrite

/-- The header loop goes on at a text: neither its end nor an empty line. -/
def isHeader (s : List UInt8) : Bool := ! s.isEmpty && ! crlf.isPrefixOf s

/-- The texts the header loop visits. -/
def headerStarts (s : List UInt8) : List (List UInt8) := (s :: lineTails s).takeWhile isHeader

/-- The headers go on up to the end of the text or an empty line. -/
theorem isHeader_iff {s : List UInt8} : isHeader s = true ↔ s ≠ [] ∧ ¬ crlf <+: s := by
  simp [isHeader, ← List.isPrefixOf_iff_prefix]

/-- An empty line ends the loop. -/
theorem isHeader_crlf (rest : List UInt8) : isHeader (crlf ++ rest) = false := by
  rw [Bool.eq_false_iff, Ne, isHeader_iff]
  exact fun h => h.2 (List.prefix_append crlf rest)

theorem headerStarts_of_not {s : List UInt8} (h : isHeader s = false) : headerStarts s = [] := by
  simp [headerStarts, h]

/-- Behind a header line the loop goes on at the next one. -/
theorem headerStarts_line {line rest : List UInt8} (h : isHeader (line ++ (crlf ++ rest)) = true)
    (hline : NoCrlf line) :
    headerStarts (line ++ (crlf ++ rest)) = (line ++ (crlf ++ rest)) :: headerStarts rest := by
  rw [headerStarts, List.takeWhile_cons_of_pos h, lineTails_line hline]
  rfl

/-- A last header without a line end is one header. -/
theorem headerStarts_last {s : List UInt8} (h : isHeader s = true) (hs : NoCrlf s) :
    headerStarts s = [s] := by
  rw [headerStarts, List.takeWhile_cons_of_pos h, lineTails_of_noCrlf hs]
  rfl

/-- What `ParsedHeader_parse` reads at offset `p`: the key ends at the first colon, the value
starts two bytes after the colon and ends at the next CRLF. -/
structure HeaderAt (b : List UInt8) (p : Nat) (kv : List UInt8 × List UInt8) : Prop where
  /-- The text at `p` up to its first colon is the key. -/
  key_at : ∃ rest, CStrAt b p (kv.1 ++ 58 :: rest)
  key_colon : 58 ∉ kv.1
  /-- The text two bytes behind the colon, up to its first CRLF, is the value. -/
  value_at : ∃ rest, CStrAt b (p + kv.1.length + 2) (kv.2 ++ (crlf ++ rest))
  value_crlf : NoCrlf kv.2

namespace ParsedHeader

/-- At a header the function stores the key and the value read there. -/
theorem parse_ok {b : List UInt8} {p : Nat} {kv : List UInt8 × List UInt8} {t : HeaderTable}
    (h : HeaderAt b p kv) (ht : t.WellFormed) :
    ∃ t', parse (fun _ => true) t b p = .ok (0, t') ∧ t'.WellFormed ∧
      t'.live = write t.live kv := by
  obtain ⟨rest, hkey⟩ := h.key_at
  obtain ⟨rest', hval⟩ := h.value_at
  obtain ⟨t', hset, hwf, hlive⟩ := set_spec ht kv.1 kv.2
  refine ⟨t', ?_, hwf, hlive⟩
  have hidx : (index b p 58 : Run _) = .ok (some (p + kv.1.length)) := by
    rw [hkey.index_eq, idxOf?_append_of_not_mem h.key_colon]
    rfl
  have hsub : (strstr b (p + kv.1.length + 2) crlf : Run _) =
      .ok (some (p + kv.1.length + 2 + kv.2.length)) := by
    rw [hval.strstr_eq, findSub_crlf h.value_crlf]
    rfl
  simp only [parse, hidx, Exec.ok_bind, hsub, Nat.add_sub_cancel_left, hkey.take_drop,
    hval.take_drop, hset, Exec.pure_eq_ok]

/-- When the function returns 0 there was a header, and it was stored. -/
theorem parse_inv {b s : List UInt8} {p : Nat} {t t' : HeaderTable} (hs : CStrAt b p s)
    (ht : t.WellFormed) (hok : parse (fun _ => true) t b p = .ok (0, t')) :
    ∃ kv, HeaderAt b p kv ∧ t'.WellFormed ∧ t'.live = write t.live kv := by
  have hall := hok
  cases hi : s.idxOf? 58 with
  | none =>
    simp only [parse, hs.index_eq, hi, Exec.ok_bind, Option.map_none] at hok
    cases hok
  | some i =>
    obtain ⟨k, rest, rfl, rfl, hk⟩ := idxOf?_eq_some hi
    simp only [parse, hs.index_eq, hi, Exec.ok_bind, Option.map_some] at hok
    obtain ⟨found, hfound, hok⟩ := Exec.bind_eq_ok.mp hok
    cases found with
    | none => cases hok
    | some index2 =>
      have hread : ∃ v, (cstr b (p + k.length + 2) : Run _) = .ok v := by
        cases hc : (cstr b (p + k.length + 2) : Run _) with
        | error e => simp [strstr, hc] at hfound
        | ok v => exact ⟨v, rfl⟩
      obtain ⟨v, hv⟩ := hread
      have hvAt := cstrAt_of_cstr hv
      rw [hvAt.strstr_eq] at hfound
      cases hsub : findSub crlf v with
      | none => simp [hsub] at hfound
      | some j =>
        obtain ⟨value, rest', rfl, rfl, hno⟩ := findSub_crlf_eq_some hsub
        have hheader : HeaderAt b p (k, value) := ⟨⟨rest, hs⟩, hk, ⟨rest', hvAt⟩, hno⟩
        obtain ⟨t'', hparse, hwf, hlive⟩ := parse_ok hheader ht
        rw [hparse] at hall
        cases hall
        exact ⟨(k, value), hheader, hwf, hlive⟩

/-- The character at the start of a string is its first, or the NUL. -/
theorem charAt_eq {b s : List UInt8} {p : Nat} (h : CStrAt b p s) :
    charAt b p = .ok (s.head?.getD 0) := by
  obtain ⟨post, hp⟩ := h.eq_append
  have hb : b[p]? = (s ++ 0 :: post)[0]? := by rw [← hp, List.getElem?_drop, Nat.add_zero]
  cases s with
  | nil => simp [charAt, hb]
  | cons c s => simp [charAt, hb]

/-- The loop condition is the one stated on the text. -/
theorem atHeader_eq {b s : List UInt8} {c : Nat} (hs : CStrAt b c s) :
    atHeader b c = .ok (isHeader s) := by
  rw [atHeader, charAt_eq hs]
  cases s with
  | nil => simp [isHeader]
  | cons x s =>
    have hx : x ≠ 0 := fun h => hs.1 (by simp [h])
    have hnext : CStrAt b (c + 1) s := CStrAt.suffix (x := [x]) hs
    by_cases hcr : x = 13
    · subst hcr
      have hiff : (s.head?.getD 0 != 10) = isHeader (13 :: s) := by
        rw [Bool.eq_iff_iff, isHeader_iff, crlf_prefix_cons]
        cases s <;> simp
      simp [charAt_eq hnext, hiff]
    · have hyes : isHeader (x :: s) = true := by
        rw [isHeader_iff, crlf_prefix_cons]
        simp [hcr]
      simp [hx, hcr, hyes]

/-- The loop goes on behind the first line end of the text. -/
theorem nextHeader_eq {b s : List UInt8} {c : Nat} (hs : CStrAt b c s) :
    nextHeader b c = .ok ((findSub crlf s).map (c + · + 2)) := by
  rw [nextHeader, hs.strstr_eq]
  cases hi : findSub crlf s with
  | none => rfl
  | some i =>
    obtain ⟨line, rest, rfl, rfl, -⟩ := findSub_crlf_eq_some hi
    have hat : CStrAt b (c + line.length) (crlf ++ rest) := hs.suffix
    have hlen : ¬ (crlf ++ rest).length < 2 := by simp [crlf]
    simp only [Option.map_some, Exec.ok_bind, hat.strlen_eq, hlen, if_false, Exec.pure_eq_ok]

/-- The text behind the first line of a string. -/
theorem cstrAt_nextLine {b line rest : List UInt8} {c : Nat}
    (hs : CStrAt b c (line ++ (crlf ++ rest))) : CStrAt b (c + line.length + 2) rest := by
  have h := CStrAt.suffix (x := line ++ crlf) (by simpa using hs)
  simpa [crlf, Nat.add_assoc] using h

/-- What stands at the places a text is visited at; `stop` is where its string ends. -/
def HeadersAt (b : List UInt8) (stop : Nat) :
    List (List UInt8) → List (List UInt8 × List UInt8) → Prop :=
  List.Forall₂ fun s kv => HeaderAt b (stop - s.length) kv

/-- The loop stores, one after another, the headers that stand at the visited lines. -/
theorem parseLoop_ok {b s : List UInt8} {c fuel : Nat} {t : HeaderTable}
    {kvs : List (List UInt8 × List UInt8)} (hs : CStrAt b c s) (hfuel : s.length < fuel)
    (ht : t.WellFormed) (h : HeadersAt b (c + s.length) (headerStarts s) kvs) :
    ∃ t', parseLoop (fun _ => true) b fuel c t = .ok (0, t') ∧ t'.WellFormed ∧
      t'.live = kvs.foldl write t.live := by
  induction fuel generalizing s c t kvs with
  | zero => omega
  | succ fuel ih =>
    by_cases hhead : isHeader s = true
    · cases hi : findSub crlf s with
      | none =>
        rw [headerStarts_last hhead (findSub_eq_none hi)] at h
        obtain ⟨kv, kvs, hkv, hnil, rfl⟩ := List.forall₂_cons_left_iff.mp h
        obtain rfl := List.forall₂_nil_left_iff.mp hnil
        rw [Nat.add_sub_cancel] at hkv
        obtain ⟨t', hparse, hwf, hlive⟩ := parse_ok hkv ht
        refine ⟨t', ?_, hwf, by simpa using hlive⟩
        simp [parseLoop, atHeader_eq hs, hhead, hparse, nextHeader_eq hs, hi]
      | some i =>
        obtain ⟨line, rest, rfl, rfl, hline⟩ := findSub_crlf_eq_some hi
        rw [headerStarts_line hhead hline] at h
        obtain ⟨kv, kvs, hkv, hrest, rfl⟩ := List.forall₂_cons_left_iff.mp h
        rw [Nat.add_sub_cancel] at hkv
        obtain ⟨t₁, hparse, hwf₁, hlive₁⟩ := parse_ok hkv ht
        have hlen : (line ++ (crlf ++ rest)).length = line.length + 2 + rest.length := by
          simp [crlf]
          omega
        rw [hlen, ← Nat.add_assoc, ← Nat.add_assoc] at hrest
        obtain ⟨t', hloop, hwf, hlive⟩ := ih (cstrAt_nextLine hs) (by omega) hwf₁ hrest
        refine ⟨t', ?_, hwf, by simpa [hlive₁] using hlive⟩
        simp [parseLoop, atHeader_eq hs, hhead, hparse, nextHeader_eq hs, hi, hloop]
    · rw [headerStarts_of_not (by simpa using hhead)] at h
      obtain rfl := List.forall₂_nil_left_iff.mp h
      exact ⟨t, by simp [parseLoop, atHeader_eq hs, hhead], ht, rfl⟩

/-- When the loop succeeds, headers stand at all visited lines and have been stored. -/
theorem parseLoop_inv {b s : List UInt8} {c fuel : Nat} {t t' : HeaderTable} (hs : CStrAt b c s)
    (ht : t.WellFormed) (hok : parseLoop (fun _ => true) b fuel c t = .ok (0, t')) :
    ∃ kvs, HeadersAt b (c + s.length) (headerStarts s) kvs ∧ t'.WellFormed ∧
      t'.live = kvs.foldl write t.live := by
  induction fuel generalizing s c t with
  | zero => cases hok
  | succ fuel ih =>
    simp only [parseLoop, atHeader_eq hs, Exec.ok_bind] at hok
    by_cases hhead : isHeader s = true
    · rw [hhead, if_neg (by simp)] at hok
      obtain ⟨⟨ret, t₁⟩, hparse, hok⟩ := Exec.bind_eq_ok.mp hok
      simp only at hok
      have hret : ret = 0 := by
        by_contra hne
        rw [if_pos hne] at hok
        cases hok
      subst hret
      rw [if_neg (by simp)] at hok
      obtain ⟨kv, hkv, hwf₁, hlive₁⟩ := parse_inv hs ht hparse
      cases hi : findSub crlf s with
      | none =>
        simp only [nextHeader_eq hs, hi, Option.map_none, Exec.ok_bind] at hok
        cases hok
        rw [headerStarts_last hhead (findSub_eq_none hi)]
        refine ⟨[kv], .cons ?_ .nil, hwf₁, by simpa using hlive₁⟩
        rwa [Nat.add_sub_cancel]
      | some i =>
        simp only [nextHeader_eq hs, hi, Option.map_some, Exec.ok_bind] at hok
        obtain ⟨line, rest, rfl, rfl, hline⟩ := findSub_crlf_eq_some hi
        have hlen : (line ++ (crlf ++ rest)).length = line.length + 2 + rest.length := by
          simp [crlf]
          omega
        obtain ⟨kvs, hkvs, hwf, hlive⟩ := ih (cstrAt_nextLine hs) hwf₁ hok
        rw [headerStarts_line hhead hline]
        refine ⟨kv :: kvs, .cons ?_ ?_, hwf, by simpa [hlive₁] using hlive⟩
        · rwa [Nat.add_sub_cancel]
        · rwa [hlen, ← Nat.add_assoc, ← Nat.add_assoc]
    · rw [Bool.not_eq_true] at hhead
      rw [hhead, Bool.not_false, if_pos rfl] at hok
      cases hok
      rw [headerStarts_of_not hhead]
      exact ⟨[], .nil, ht, rfl⟩

end ParsedHeader

end ComputerNetworks.Proxy
