import ComputerNetworks.Proxy.Parse

/-!
# Header sections line by line

A request with a complete header section is a request line, header lines that
are not empty, an empty line, and a body. How the header loop ends on it depends
on the last header line and the body alone: without a colon in the line the
search for one goes on into the body.
-/

namespace ComputerNetworks.Proxy

/-- Header lines, each with its line end. -/
def sectionText (hs : List (List UInt8)) : List UInt8 := hs.flatMap (· ++ crlf)

/-- A request of these parts. -/
def requestText (line : List UInt8) (hs : List (List UInt8)) (body : List UInt8) : List UInt8 :=
  line ++ (crlf ++ (sectionText hs ++ (crlf ++ body)))

/-- Lines of a header section, none of them empty. -/
def HeaderLines (hs : List (List UInt8)) : Prop := ∀ l ∈ hs, l ≠ [] ∧ NoCrlf l

/-- The string two bytes behind the first colon of a text; `after` is what the block holds
behind the NUL of the text. -/
def behindColon (text after : List UInt8) : List UInt8 :=
  ((text.dropWhile (· != 58) ++ 0 :: after).drop 2).takeWhile (· != 0)

/-- How the reading of headers ends. -/
inductive Ending where
  /-- A value was found for every key. -/
  | read
  /-- No colon was found. -/
  | refused
  /-- The value has no end: a pointer leaves the block or is null. -/
  | lost
  deriving DecidableEq, Repr

/-- How one header is read from a text. -/
def readingEnds (text after : List UInt8) : Ending :=
  if 58 ∈ text then if crlf <:+: behindColon text after then .read else .lost else .refused

/-- How the header loop ends on header lines with a body behind them. -/
def sectionEnds (hs : List (List UInt8)) (body after : List UInt8) : Ending :=
  match hs.getLast? with
  | none => .read
  | some l => if 58 ∈ l then .read else readingEnds body after

/-- The run ends so. -/
def Ending.Of {α : Type} (run : Run (Int × α)) : Ending → Prop
  | .read => ∃ a, run = .ok (0, a)
  | .refused => ∃ a, run = .ok (-1, a)
  | .lost => run = .error .outOfBounds ∨ run = .error .nullPointer

@[simp] theorem sectionText_nil : sectionText [] = [] := rfl

@[simp] theorem sectionText_cons (l : List UInt8) (ls : List (List UInt8)) :
    sectionText (l :: ls) = l ++ (crlf ++ sectionText ls) := by simp [sectionText]

theorem HeaderLines.tail {l : List UInt8} {ls : List (List UInt8)} (h : HeaderLines (l :: ls)) :
    HeaderLines ls := fun m hm => h m (List.mem_cons_of_mem l hm)

/-- A header line is taken for one. -/
theorem HeaderLines.isHeader {l : List UInt8} {ls : List (List UInt8)}
    (h : HeaderLines (l :: ls)) (rest : List UInt8) : isHeader (l ++ (crlf ++ rest)) = true := by
  obtain ⟨hne, hno⟩ := h l List.mem_cons_self
  refine isHeader_iff.2 ⟨by simp [hne], fun hpre => ?_⟩
  have hpos := List.length_pos_of_ne_nil hne
  exact noCrlf_of_short hno hpre (by simp [crlf]; omega) (List.infix_refl crlf)

/-- An empty line stands right behind the first line or later. -/
theorem crlfcrlf_behind_line {line s : List UInt8} (hline : NoCrlf line)
    (hend : crlfcrlf <:+: line ++ (crlf ++ s)) : crlf <+: s ∨ crlfcrlf <:+: s := by
  obtain ⟨x, y, hxy⟩ := hend
  rw [List.append_assoc, List.append_eq_append_iff] at hxy
  rcases hxy with ⟨t, rfl, ht⟩ | ⟨t, rfl, ht⟩
  · rcases t with _ | ⟨a, _ | ⟨b, t⟩⟩
    · exact .inl ⟨y, by simpa [crlfcrlf, crlf] using ht⟩
    · simp [crlfcrlf, crlf] at ht
    · have hab : a = 13 ∧ b = 10 := by
        simp only [crlfcrlf, crlf, List.cons_append, List.cons.injEq] at ht
        exact ⟨ht.1.symm, ht.2.1.symm⟩
      obtain ⟨rfl, rfl⟩ := hab
      exact absurd ⟨x, t, by simp [crlf]⟩ hline
  · rcases t with _ | ⟨a, _ | ⟨b, t⟩⟩
    · exact .inl ⟨y, by simpa [crlfcrlf, crlf] using ht.symm⟩
    · simp [crlfcrlf, crlf] at ht
    · have hs : s = t ++ (crlfcrlf ++ y) := by
        simp only [crlf, List.cons_append, List.cons.injEq, List.nil_append] at ht
        exact ht.2.2
      exact .inr ⟨t, y, by rw [hs, List.append_assoc]⟩

/-- A start of a request with a complete header section reaches to its empty line. -/
theorem length_le_of_section {u line body : List UInt8} {hs : List (List UInt8)}
    (hline : NoCrlf line) (hlines : HeaderLines hs) (hu : u <+: requestText line hs body)
    (hend : crlfcrlf <:+: u) : (requestText line hs []).length ≤ u.length := by
  induction hs generalizing line u with
  | nil =>
    have hlen := length_le_of_crlfcrlf hline hu hend
    simpa [requestText, crlf] using hlen
  | cons l ls ih =>
    have hlen := length_le_of_crlfcrlf hline hu hend
    obtain ⟨u', hu', rfl⟩ := eq_line_append_of_long hu (by omega)
    have hreq : sectionText (l :: ls) ++ (crlf ++ body) = requestText l ls body := by
      simp [requestText]
    rw [hreq] at hu'
    rcases crlfcrlf_behind_line hline hend with hpre | hin
    · exact absurd (hpre.trans hu') (isHeader_iff.1 (hlines.isHeader _)).2
    · have hle := ih (hlines l List.mem_cons_self).2 hlines.tail hu' hin
      simp only [requestText, sectionText_cons, List.length_append] at hle ⊢
      omega

/-- The empty line of a request ends its header section. -/
theorem crlfcrlf_infix_requestText (line : List UInt8) (hs : List (List UInt8))
    (body : List UInt8) : crlfcrlf <:+: requestText line hs body := by
  have hline : ∀ l : List UInt8, crlf <:+ l ++ crlf := fun l => List.suffix_append l crlf
  obtain ⟨pre, hpre⟩ := crlf_suffix_flatMap hline hs
  refine ⟨line ++ pre, body, ?_⟩
  rw [requestText, sectionText, ← List.append_assoc crlf, ← hpre, crlfcrlf]
  simp only [List.append_assoc]

/-- A text with an empty line in it, behind a line end, is a header section and a body. -/
theorem exists_section {s : List UInt8} (h : crlf <+: s ∨ crlfcrlf <:+: s) :
    ∃ hs body, HeaderLines hs ∧ s = sectionText hs ++ (crlf ++ body) := by
  induction hn : s.length using Nat.strong_induction_on generalizing s with
  | _ n ih =>
    by_cases hpre : crlf <+: s
    · obtain ⟨body, rfl⟩ := hpre
      exact ⟨[], body, nofun, rfl⟩
    · have hin := h.resolve_left hpre
      obtain ⟨i, hi⟩ := findSub_isSome ((List.infix_append [] crlf crlf).trans hin)
      obtain ⟨l, s', rfl, rfl, hl⟩ := findSub_crlf_eq_some hi
      have hne : l ≠ [] := by
        rintro rfl
        exact hpre (List.prefix_append crlf s')
      have hlt : s'.length < n := by
        simp only [crlf, List.length_append, List.length_cons, List.length_nil] at hn
        omega
      obtain ⟨hs, body, hhs, hs'⟩ := ih s'.length hlt (crlfcrlf_behind_line hl hin) rfl
      exact ⟨l :: hs, body, List.forall_mem_cons.2 ⟨⟨hne, hl⟩, hhs⟩, by simp [hs']⟩

/-- A line with a colon has a key in front of the first one. -/
theorem exists_key {text : List UInt8} (h : 58 ∈ text) :
    ∃ k w, text = k ++ 58 :: w ∧ 58 ∉ k ∧ text.idxOf? 58 = some k.length := by
  cases hi : text.idxOf? 58 with
  | none => exact absurd h (by simpa using hi)
  | some i =>
    obtain ⟨k, w, rfl, rfl, hk⟩ := idxOf?_eq_some hi
    exact ⟨k, w, rfl, hk, rfl⟩

/-- The value starts two characters behind the key. -/
theorem behindColon_key {k w after : List UInt8} (hk : 58 ∉ k) :
    behindColon (k ++ 58 :: w) after = ((w ++ 0 :: after).drop 1).takeWhile (· != 0) := by
  rw [behindColon, List.dropWhile_append_of_pos (bne_of_not_mem hk),
    List.dropWhile_cons_of_neg (by simp)]
  rfl

/-- A text without a colon is passed over. -/
theorem behindColon_of_not_mem {x text after : List UInt8} (h : 58 ∉ x) :
    behindColon (x ++ text) after = behindColon text after := by
  rw [behindColon, behindColon, List.dropWhile_append_of_pos (bne_of_not_mem h)]

/-- Behind a colon in a line a line end is found: that of the line or, when the line ends with
its colon, the next one. -/
theorem crlf_behindColon {l text after : List UInt8} (hcolon : 58 ∈ l)
    (h0 : 0 ∉ l ++ (crlf ++ text)) (hend : crlf <:+: text) :
    crlf <:+: behindColon (l ++ (crlf ++ text)) after := by
  obtain ⟨k, w, rfl, hk, -⟩ := exists_key hcolon
  rw [List.append_assoc, List.cons_append, behindColon_key hk]
  have h0' : 0 ∉ w ++ (crlf ++ text) := fun h => h0 (by simp at h ⊢; tauto)
  cases w with
  | nil =>
    have hrest : 0 ∉ 10 :: text := fun h => h0' (List.mem_cons_of_mem 13 h)
    have hdrop : ((([] : List UInt8) ++ (crlf ++ text)) ++ 0 :: after).drop 1 =
        (10 :: text) ++ 0 :: after := rfl
    rw [hdrop, takeWhile_ne_zero_append hrest]
    exact hend.trans (List.suffix_cons 10 text).isInfix
  | cons c w =>
    have hrest : 0 ∉ w ++ (crlf ++ text) := fun h => h0' (List.mem_cons_of_mem c h)
    rw [List.cons_append, List.cons_append, List.drop_one, List.tail_cons,
      takeWhile_ne_zero_append hrest]
    exact (List.prefix_append crlf text).isInfix.trans (List.suffix_append w _).isInfix

/-- A text without a colon is passed over. -/
theorem readingEnds_of_not_mem {x text after : List UInt8} (h : 58 ∉ x) :
    readingEnds (x ++ text) after = readingEnds text after := by
  have hmem : 58 ∈ x ++ text ↔ 58 ∈ text := by simp [h]
  simp only [readingEnds, hmem, behindColon_of_not_mem h]

/-- How a header is read at a line is decided by the line when it has a colon, and by what
follows otherwise. -/
theorem readingEnds_line {l text after : List UInt8} (h0 : 0 ∉ l ++ (crlf ++ text))
    (hend : crlf <:+: text) : readingEnds (l ++ (crlf ++ text)) after =
      if 58 ∈ l then .read else readingEnds text after := by
  have hmem : 58 ∈ l ++ (crlf ++ text) ↔ 58 ∈ l ∨ 58 ∈ text := by simp [crlf]
  by_cases hl : 58 ∈ l
  · rw [readingEnds, if_pos (hmem.2 (.inl hl)), if_pos (crlf_behindColon hl h0 hend), if_pos hl]
  · have hpass : 58 ∉ l ++ crlf := by simp [crlf, hl]
    rw [if_neg hl, ← List.append_assoc, readingEnds_of_not_mem hpass]

/-- The loop goes on after a header that was read, and ends with any other. -/
theorem sectionEnds_cons {l body after : List UInt8} {ls : List (List UInt8)}
    (h0 : 0 ∉ l ++ (crlf ++ (sectionText ls ++ (crlf ++ body)))) :
    sectionEnds (l :: ls) body after =
      if readingEnds (l ++ (crlf ++ (sectionText ls ++ (crlf ++ body)))) after = .read then
        sectionEnds ls body after
      else readingEnds (l ++ (crlf ++ (sectionText ls ++ (crlf ++ body)))) after := by
  have hend : crlf <:+: sectionText ls ++ (crlf ++ body) := ⟨sectionText ls, body, by simp⟩
  rw [readingEnds_line h0 hend]
  induction ls generalizing l with
  | nil =>
    have hpass : readingEnds (sectionText [] ++ (crlf ++ body)) after = readingEnds body after :=
      readingEnds_of_not_mem (x := crlf) (by decide)
    rw [hpass]
    by_cases hl : 58 ∈ l
    · simp [sectionEnds, hl]
    · cases hbody : readingEnds body after <;> simp [sectionEnds, hl, hbody]
  | cons m ms ih =>
    have hnext : sectionText (m :: ms) ++ (crlf ++ body) =
        m ++ (crlf ++ (sectionText ms ++ (crlf ++ body))) := by simp
    have hlast : sectionEnds (l :: m :: ms) body after = sectionEnds (m :: ms) body after := by
      rw [sectionEnds, sectionEnds, List.getLast?_cons_cons]
    have h0' : 0 ∉ m ++ (crlf ++ (sectionText ms ++ (crlf ++ body))) := by
      rw [← hnext]
      exact fun h => h0 (by simp only [List.mem_append] at h ⊢; tauto)
    have hend' : crlf <:+: sectionText ms ++ (crlf ++ body) := ⟨sectionText ms, body, by simp⟩
    by_cases hl : 58 ∈ l
    · simp only [hl, if_true, hlast]
    · rw [hlast, ih h0' hend', if_neg hl, hnext, readingEnds_line h0' hend']
      split <;> simp_all

namespace ParsedHeader

/-- What stands two bytes behind the first colon of a text. -/
theorem drop_behindColon {b k w after : List UInt8} {p : Nat}
    (hat : b.drop p = k ++ 58 :: w ++ 0 :: after) :
    b.drop (p + k.length + 2) = (w ++ 0 :: after).drop 1 := by
  have hsplit : k ++ 58 :: w ++ 0 :: after = (k ++ [58]) ++ (w ++ 0 :: after) := by simp
  have hlen : p + k.length + 2 = p + ((k ++ [58]).length + 1) := by simp; omega
  rw [hlen, ← List.drop_drop, hat, hsplit, ← List.drop_drop, List.drop_left]

/-- When the text ends with its colon, a line end behind it is one behind the NUL. -/
theorem zero_mem_of_crlf {k w after : List UInt8} (hk : 58 ∉ k) (hafter : after = [] ∨ 0 ∈ after)
    (hcrlf : crlf <:+: behindColon (k ++ 58 :: w) after) : 0 ∈ (w ++ 0 :: after).drop 1 := by
  cases w with
  | nil =>
    refine hafter.resolve_left ?_
    rintro rfl
    rw [behindColon_key hk] at hcrlf
    exact absurd hcrlf (by decide)
  | cons c w => simp

/-- Reading one header ends as its text says. -/
theorem parse_readingEnds {b text after : List UInt8} {p : Nat} (t : HeaderTable)
    (hat : b.drop p = text ++ 0 :: after) (h0 : 0 ∉ text) (hafter : after = [] ∨ 0 ∈ after) :
    (readingEnds text after = .read ∧ ∃ kv, HeaderAt b p kv) ∨
    (readingEnds text after = .refused ∧ parse (fun _ => true) t b p = .ok (-1, t)) ∨
    (readingEnds text after = .lost ∧ Ending.lost.Of (parse (fun _ => true) t b p)) := by
  have hkey : CStrAt b p text := cstrAt_of_drop after h0 hat
  by_cases hcolon : 58 ∈ text
  · obtain ⟨k, w, rfl, hk, hidx⟩ := exists_key hcolon
    have hread : (cstr b (p + k.length + 2) : Run _) = if 0 ∈ (w ++ 0 :: after).drop 1 then
        .ok (behindColon (k ++ 58 :: w) after) else .error .outOfBounds := by
      rw [cstr, drop_behindColon hat, behindColon_key hk]
    by_cases hcrlf : crlf <:+: behindColon (k ++ 58 :: w) after
    · left
      refine ⟨by rw [readingEnds, if_pos hcolon, if_pos hcrlf], ?_⟩
      rw [if_pos (zero_mem_of_crlf hk hafter hcrlf)] at hread
      obtain ⟨i, hi⟩ := findSub_isSome hcrlf
      obtain ⟨value, rest, hvalue, -, hno⟩ := findSub_crlf_eq_some hi
      rw [hvalue] at hread
      exact ⟨(k, value), ⟨w, hkey⟩, hk, ⟨rest, cstrAt_of_cstr hread⟩, hno⟩
    · right; right
      refine ⟨by rw [readingEnds, if_pos hcolon, if_neg hcrlf], ?_⟩
      by_cases hzero : 0 ∈ (w ++ 0 :: after).drop 1
      · have hsub : (strstr b (p + k.length + 2) crlf : Run _) = .ok none := by
          rw [strstr, hread, if_pos hzero]
          simp [findSub_none hcrlf]
        simp only [parse, hkey.index_eq, hidx, Option.map_some, Exec.ok_bind, hsub]
        exact Or.inr rfl
      · have hsub : (strstr b (p + k.length + 2) crlf : Run _) = .error .outOfBounds := by
          rw [strstr, hread, if_neg hzero]
          rfl
        simp only [parse, hkey.index_eq, hidx, Option.map_some, Exec.ok_bind, hsub, Exec.error_bind]
        exact Or.inl rfl
  · right; left
    have hnone : text.idxOf? 58 = none := by simpa using hcolon
    refine ⟨by rw [readingEnds, if_neg hcolon], ?_⟩
    simp only [parse, hkey.index_eq, hnone, Option.map_none, Exec.ok_bind, Exec.pure_eq_ok]

/-- The header loop ends as its last line and the body say. -/
theorem parseLoop_sectionEnds {b body after : List UInt8} {hs : List (List UInt8)} {c fuel : Nat}
    {t : HeaderTable} (hlines : HeaderLines hs) (h0 : 0 ∉ sectionText hs ++ (crlf ++ body))
    (hat : b.drop c = sectionText hs ++ (crlf ++ body) ++ 0 :: after)
    (hafter : after = [] ∨ 0 ∈ after) (hfuel : hs.length < fuel) (ht : t.WellFormed) :
    (sectionEnds hs body after).Of (parseLoop (fun _ => true) b fuel c t) := by
  induction hs generalizing c fuel t with
  | nil =>
    obtain ⟨fuel, rfl⟩ := Nat.exists_eq_add_of_lt hfuel
    have hstop := atHeader_eq (cstrAt_of_drop after h0 hat)
    refine ⟨t, ?_⟩
    simp only [sectionText_nil, List.nil_append] at hstop
    simp [parseLoop, hstop, isHeader_crlf]
  | cons l ls ih =>
    obtain ⟨fuel, rfl⟩ := Nat.exists_eq_succ_of_ne_zero (Nat.ne_of_gt (Nat.zero_lt_of_lt hfuel))
    have htext : sectionText (l :: ls) ++ (crlf ++ body) =
        l ++ (crlf ++ (sectionText ls ++ (crlf ++ body))) := by simp
    rw [htext] at h0 hat
    have hs := cstrAt_of_drop after h0 hat
    have hhead := hlines.isHeader (sectionText ls ++ (crlf ++ body))
    rw [sectionEnds_cons h0]
    rcases parse_readingEnds t hat h0 hafter with
      ⟨hends, kv, hkv⟩ | ⟨hends, hparse⟩ | ⟨hends, hparse⟩
    · obtain ⟨t₁, hparse, hwf₁, -⟩ := parse_ok hkv ht
      have hno := (hlines l List.mem_cons_self).2
      have hnext : b.drop (c + l.length + 2) = sectionText ls ++ (crlf ++ body) ++ 0 :: after := by
        have hlen : c + l.length + 2 = c + (l ++ crlf).length := by simp [crlf]; omega
        have hsplit : l ++ (crlf ++ (sectionText ls ++ (crlf ++ body))) ++ 0 :: after =
            (l ++ crlf) ++ (sectionText ls ++ (crlf ++ body) ++ 0 :: after) := by simp
        rw [hlen, ← List.drop_drop, hat, hsplit, List.drop_left]
      have hrest := ih hlines.tail
        (fun h => h0 (by simp only [List.mem_append] at h ⊢; tauto)) hnext
        (Nat.lt_of_succ_lt_succ hfuel) hwf₁
      rw [if_pos hends]
      have hloop : parseLoop (fun _ => true) b (fuel + 1) c t =
          parseLoop (fun _ => true) b fuel (c + l.length + 2) t₁ := by
        simp [parseLoop, atHeader_eq hs, hhead, hparse, nextHeader_eq hs, findSub_crlf hno]
      rw [hloop]
      exact hrest
    · rw [hends, if_neg (by decide)]
      refine ⟨t, ?_⟩
      simp [parseLoop, atHeader_eq hs, hhead, hparse]
    · rw [hends, if_neg (by decide)]
      rcases hparse with hparse | hparse
      · exact Or.inl (by simp [parseLoop, atHeader_eq hs, hhead, hparse])
      · exact Or.inr (by simp [parseLoop, atHeader_eq hs, hhead, hparse])

end ParsedHeader

end ComputerNetworks.Proxy
