import ComputerNetworks.Proxy.HeaderLines

/-!
# Header sections as written

`renderHeaders` is what `ParsedHeader_printHeaders` writes. A key may contain line
ends: the loop then visits the same entry once for each of its lines, and reads
the tail of the key that starts there. `rereads` lists all that is read from a
rendered section.
-/

namespace ComputerNetworks.Proxy

open LastWrite

/-- One header line: `KEY: VALUE CRLF`. -/
def renderHeader (kv : List UInt8 × List UInt8) : List UInt8 :=
  kv.1 ++ 58 :: 32 :: (kv.2 ++ crlf)

/-- All header lines, without the empty line after them. -/
def renderHeaders (hs : List (List UInt8 × List UInt8)) : List UInt8 := hs.flatMap renderHeader

/-- An entry that can be read back from its line. -/
structure ReadableHeader (kv : List UInt8 × List UInt8) : Prop where
  key_colon : 58 ∉ kv.1
  /-- The line is not taken for the empty one. -/
  key_start : ¬ crlf <+: kv.1
  value_crlf : NoCrlf kv.2
  key_nul : 0 ∉ kv.1
  value_nul : 0 ∉ kv.2

/-- The tails of a key that do not look like the empty line. -/
def keyTails (k : List UInt8) : List (List UInt8) :=
  (lineTails k).takeWhile fun x => ! crlf.isPrefixOf x

/-- The key runs over an empty line, where the header loop stops. -/
def keyStops (k : List UInt8) : Bool := (lineTails k).any fun x => crlf.isPrefixOf x

/-- What is read at the lines of one entry. -/
def entryReads (kv : List UInt8 × List UInt8) : List (List UInt8 × List UInt8) :=
  kv :: (keyTails kv.1).map (·, kv.2)

/-- What the header loop reads from a rendered header section. -/
def rereads : List (List UInt8 × List UInt8) → List (List UInt8 × List UInt8)
  | [] => []
  | kv :: hs => if keyStops kv.1 then entryReads kv else entryReads kv ++ rereads hs

/-- All tails of a key are read unless it runs over an empty line. -/
theorem keyTails_eq_iff {k : List UInt8} : keyTails k = lineTails k ↔ keyStops k = false := by
  rw [keyTails, List.takeWhile_eq_self_iff]
  simp [keyStops, -List.isPrefixOf_iff_prefix]

/-- A colon behind a text does not turn it into an empty line. -/
theorem isHeader_append_colon (x u : List UInt8) :
    isHeader (x ++ 58 :: u) = ! crlf.isPrefixOf x := by
  rw [Bool.eq_iff_iff, isHeader_iff, Bool.not_eq_true', ← Bool.not_eq_true,
    List.isPrefixOf_iff_prefix]
  cases x with
  | nil => simp [crlf, List.cons_prefix_cons]
  | cons a x =>
    cases x with
    | nil => simp [crlf_prefix_cons]
    | cons d x => simp [crlf_prefix_cons]

/-- The lines visited in a section whose first colon ends the key `k`. -/
theorem headerStarts_append_colon {k : List UInt8} (u : List UInt8) (hk : ¬ crlf <+: k) :
    headerStarts (k ++ 58 :: u) = (k :: keyTails k).map (· ++ 58 :: u) ++
      if keyStops k then [] else (lineTails u).takeWhile isHeader := by
  have hhead : isHeader (k ++ 58 :: u) = true := by
    rw [isHeader_append_colon, Bool.not_eq_true', ← Bool.not_eq_true, List.isPrefixOf_iff_prefix]
    exact hk
  rw [headerStarts, List.takeWhile_cons_of_pos hhead, lineTails_append_cons k _ (by decide),
    lineTails_cons_of_ne (by decide), List.map_cons, List.cons_append]
  congr 1
  rw [List.takeWhile_append, List.takeWhile_map, List.length_map, List.length_map]
  have hcomp : (isHeader ∘ fun x => x ++ 58 :: u) = fun x => ! crlf.isPrefixOf x := by
    funext x
    exact isHeader_append_colon x _
  rw [hcomp]
  change (if (keyTails k).length = (lineTails k).length then _ else _) = _
  by_cases hstop : keyStops k = true
  · have hne : (keyTails k).length ≠ (lineTails k).length := by
      intro hlen
      have heq := (List.takeWhile_prefix _).eq_of_length hlen
      rw [keyTails_eq_iff.mp heq] at hstop
      cases hstop
    rw [if_neg hne, if_pos hstop, List.append_nil]
    rfl
  · rw [Bool.not_eq_true] at hstop
    have heq := keyTails_eq_iff.mpr hstop
    rw [if_pos (by rw [heq]), hstop, if_neg Bool.false_ne_true, heq]

/-- Behind a rendered entry the loop goes on at what follows it. -/
theorem headerStarts_entry {k v rest : List UInt8} (hk : ¬ crlf <+: k) (hv : NoCrlf v) :
    headerStarts (k ++ 58 :: 32 :: (v ++ (crlf ++ rest))) =
      (k :: keyTails k).map (· ++ 58 :: 32 :: (v ++ (crlf ++ rest))) ++
        if keyStops k then [] else headerStarts rest := by
  rw [headerStarts_append_colon _ hk, lineTails_cons_of_ne (by decide), lineTails_line hv]
  rfl

/-- A later line of a key is read as the rest of the key, with the same value. -/
theorem HeaderAt.tail {b pre x v : List UInt8} {p : Nat} (h : HeaderAt b p (pre ++ x, v)) :
    HeaderAt b (p + pre.length) (x, v) := by
  obtain ⟨⟨rest, hkey⟩, hcolon, ⟨rest', hval⟩, hv⟩ := h
  simp only [List.append_assoc] at hkey
  refine ⟨⟨rest, hkey.suffix⟩, fun hc => hcolon (List.mem_append_right pre hc), ⟨rest', ?_⟩, hv⟩
  simpa only [List.length_append, Nat.add_assoc] using hval

/-- What is read at the lines inside one entry. -/
theorem headersAt_entry {b k v : List UInt8} {stop c : Nat} (u : List UInt8)
    (h : HeaderAt b c (k, v)) (hstop : c + (k ++ 58 :: u).length = stop) :
    ParsedHeader.HeadersAt b stop ((k :: keyTails k).map (· ++ 58 :: u)) (entryReads (k, v)) := by
  have hmap : entryReads (k, v) = (k :: keyTails k).map (·, v) := rfl
  rw [hmap, ParsedHeader.HeadersAt, List.forall₂_map_left_iff, List.forall₂_map_right_iff,
    List.forall₂_same]
  intro x hx
  have hsuf : x <:+ k := by
    rcases List.mem_cons.mp hx with rfl | hx
    · exact List.suffix_refl _
    · exact suffix_of_mem_lineTails ((List.takeWhile_prefix _).subset hx)
  obtain ⟨pre, rfl⟩ := hsuf
  have hpos : stop - (x ++ 58 :: u).length = c + pre.length := by
    simp only [List.length_append] at hstop ⊢
    omega
  rw [hpos]
  exact h.tail

/-- A printed header is read where it stands. -/
theorem headerAt_of_entry {b k v rest : List UInt8} {c : Nat} (hkv : ReadableHeader (k, v))
    (hs : CStrAt b c (k ++ 58 :: 32 :: (v ++ (crlf ++ rest)))) : HeaderAt b c (k, v) := by
  refine ⟨⟨_, hs⟩, hkv.key_colon, ⟨rest, ?_⟩, hkv.value_crlf⟩
  have hval := CStrAt.suffix (x := k ++ [58, 32]) (y := v ++ (crlf ++ rest)) (by simpa using hs)
  simpa [Nat.add_assoc] using hval

/-- The first header is printed first. -/
theorem renderHeaders_cons (kv : List UInt8 × List UInt8) (hs : List (List UInt8 × List UInt8))
    (rest : List UInt8) : renderHeaders (kv :: hs) ++ rest =
      kv.1 ++ 58 :: 32 :: (kv.2 ++ (crlf ++ (renderHeaders hs ++ rest))) := by
  simp [renderHeaders, renderHeader]

/-- The header loop reads `rereads hs` from the rendered section of `hs`. -/
theorem headersAt_render {b : List UInt8} {c : Nat} (rest : List UInt8)
    {hs : List (List UInt8 × List UInt8)} (hhs : ∀ kv ∈ hs, ReadableHeader kv)
    (hat : CStrAt b c (renderHeaders hs ++ (crlf ++ rest))) :
    ParsedHeader.HeadersAt b (c + (renderHeaders hs ++ (crlf ++ rest)).length)
      (headerStarts (renderHeaders hs ++ (crlf ++ rest))) (rereads hs) := by
  induction hs generalizing c with
  | nil =>
    have hno : isHeader (renderHeaders [] ++ (crlf ++ rest)) = false := isHeader_crlf rest
    rw [headerStarts_of_not hno]
    exact .nil
  | cons kv hs ih =>
    obtain ⟨k, v⟩ := kv
    have hkv := hhs (k, v) (by simp)
    rw [renderHeaders_cons] at hat ⊢
    simp only at hat ⊢
    rw [headerStarts_entry hkv.key_start hkv.value_crlf]
    have hentry := headersAt_entry (32 :: (v ++ (crlf ++ (renderHeaders hs ++ (crlf ++ rest)))))
      (headerAt_of_entry hkv hat) rfl
    by_cases hstop : keyStops k = true
    · rw [if_pos hstop, List.append_nil, rereads, if_pos hstop]
      exact hentry
    · rw [if_neg hstop, rereads, if_neg hstop]
      refine List.rel_append hentry ?_
      have hnext := CStrAt.suffix (x := k ++ (58 :: 32 :: v ++ crlf))
        (y := renderHeaders hs ++ (crlf ++ rest)) (by simpa using hat)
      have htail := ih (fun kv hmem => hhs kv (List.mem_cons_of_mem _ hmem)) hnext
      have hend : c + (k ++ (58 :: 32 :: v ++ crlf)).length +
          (renderHeaders hs ++ (crlf ++ rest)).length =
          c + (k ++ 58 :: 32 :: (v ++ (crlf ++ (renderHeaders hs ++ (crlf ++ rest))))).length := by
        simp only [List.length_append, List.length_cons]
        omega
      rwa [hend] at htail

end ComputerNetworks.Proxy
