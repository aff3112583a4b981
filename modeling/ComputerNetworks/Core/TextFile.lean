import ComputerNetworks.Core.CString

/-!
# Lines of a file and words of a line

`fgets` takes a file apart into lines, each with its newline, as far as they fit
the array they are read into; a `%s` of `sscanf` takes the next word off a text.
Lines that fit are delivered whole, and the newline of a line adds no word.
-/

namespace ComputerNetworks

/-- What the calls `fgets(line, size, fp)` deliver up to the end of a file, with `left` more bytes
in the array behind those of the line so far. -/
def fgetsFrom (size : Nat) : Nat → List UInt8 → List UInt8 → List (List UInt8)
  | _, cur, [] => if cur = [] then [] else [cur]
  | left, cur, c :: s =>
    if c = 10 ∨ left ≤ 1 then (cur ++ [c]) :: fgetsFrom size (size - 1) [] s
    else fgetsFrom size (left - 1) (cur ++ [c]) s

/-- What the calls `fgets(line, size, fp)` deliver up to the end of a file. -/
def fgetsLines (size : Nat) (file : List UInt8) : List (List UInt8) :=
  fgetsFrom size (size - 1) [] file

/-- A line that fits is delivered with its newline. -/
theorem fgetsFrom_line {size left : Nat} {line : List UInt8} (hline : 10 ∉ line)
    (hfit : line.length < left) (cur rest : List UInt8) :
    fgetsFrom size left cur (line ++ 10 :: rest) =
      (cur ++ line ++ [10]) :: fgetsFrom size (size - 1) [] rest := by
  induction line generalizing left cur with
  | nil => rw [List.nil_append, fgetsFrom, if_pos (Or.inl rfl), List.append_nil]
  | cons c line ih =>
    obtain ⟨hc, hline⟩ := not_or.1 (mt List.mem_cons.2 hline)
    rw [List.length_cons] at hfit
    rw [List.cons_append, fgetsFrom, if_neg (not_or.2 ⟨Ne.symm hc, by omega⟩),
      ih hline (by omega), List.append_assoc cur, List.singleton_append]

/-- So is what stands behind the last newline. -/
theorem fgetsFrom_tail {size left : Nat} {tail : List UInt8} (htail : 10 ∉ tail)
    (hfit : tail.length ≤ left) (cur : List UInt8) :
    fgetsFrom size left cur tail = if cur ++ tail = [] then [] else [cur ++ tail] := by
  induction tail generalizing left cur with
  | nil => rw [fgetsFrom, List.append_nil]
  | cons c tail ih =>
    obtain ⟨hc, htail⟩ := not_or.1 (mt List.mem_cons.2 htail)
    rw [List.length_cons] at hfit
    have hne : cur ++ c :: tail ≠ [] := List.append_ne_nil_of_right_ne_nil _ (List.cons_ne_nil _ _)
    rw [fgetsFrom, if_neg hne]
    split
    · rename_i hlast
      have hnil : tail = [] := by
        have := hlast.resolve_left (Ne.symm hc)
        exact List.length_eq_zero_iff.1 (by omega)
      rw [hnil, fgetsFrom, if_pos rfl]
    · rw [ih htail (by omega), List.append_assoc, List.singleton_append, if_neg hne]

/-- Lines that fit are delivered one by one. -/
theorem fgetsLines_eq {size : Nat} {lines : List (List UInt8)} {tail : List UInt8}
    (hlines : ∀ line ∈ lines, 10 ∉ line ∧ line.length + 1 < size) (htail : 10 ∉ tail)
    (hfit : tail.length < size) :
    fgetsLines size (lines.flatMap (fun line => line ++ [10]) ++ tail) =
      lines.map (fun line => line ++ [10]) ++ if tail = [] then [] else [tail] := by
  unfold fgetsLines
  induction lines with
  | nil =>
    rw [List.flatMap_nil, List.nil_append, fgetsFrom_tail htail (by omega)]
    rfl
  | cons line lines ih =>
    obtain ⟨⟨hline, hlen⟩, hlines⟩ := List.forall_mem_cons.1 hlines
    rw [List.flatMap_cons, List.append_assoc, List.append_assoc, List.singleton_append,
      fgetsFrom_line hline (by omega), ih hlines]
    rfl

/-- No line is longer than the array has room for. -/
theorem length_le_of_mem_fgetsFrom {size left : Nat} {cur file line : List UInt8}
    (hleft : 1 ≤ left) (hcur : cur.length + left ≤ size - 1)
    (h : line ∈ fgetsFrom size left cur file) : line.length ≤ size - 1 := by
  induction file generalizing left cur with
  | nil =>
    rw [fgetsFrom] at h
    split at h
    · cases h
    · rw [List.mem_singleton.1 h]
      omega
  | cons c file ih =>
    rw [fgetsFrom] at h
    have hlen : (cur ++ [c]).length = cur.length + 1 := List.length_append
    split at h
    · rcases List.mem_cons.1 h with rfl | h
      · omega
      · exact ih (by omega) (by simp) h
    · exact ih (by omega) (by omega) h

theorem length_le_of_mem_fgetsLines {size : Nat} {file line : List UInt8} (hsize : 2 ≤ size)
    (h : line ∈ fgetsLines size file) : line.length ≤ size - 1 :=
  length_le_of_mem_fgetsFrom (by omega) (by simp) h

/-- A newline only ends a line. -/
theorem newline_notMem_of_mem_fgetsFrom {size left : Nat} {cur file line : List UInt8}
    (hcur : 10 ∉ cur) (h : line ∈ fgetsFrom size left cur file) : 10 ∉ line.dropLast := by
  induction file generalizing left cur with
  | nil =>
    rw [fgetsFrom] at h
    split at h
    · cases h
    · rw [List.mem_singleton.1 h]
      exact fun hmem => hcur (List.dropLast_subset _ hmem)
  | cons c file ih =>
    rw [fgetsFrom] at h
    split at h
    · rcases List.mem_cons.1 h with rfl | h
      · rw [List.dropLast_concat]
        exact hcur
      · exact ih List.not_mem_nil h
    · next hc =>
      apply ih _ h
      rw [List.mem_append, List.mem_singleton]
      exact not_or.2 ⟨hcur, fun heq => hc (Or.inl heq.symm)⟩

theorem newline_notMem_of_mem_fgetsLines {size : Nat} {file line : List UInt8}
    (h : line ∈ fgetsLines size file) : 10 ∉ line.dropLast :=
  newline_notMem_of_mem_fgetsFrom List.not_mem_nil h

/-- `%s` of `sscanf`: the next word of the text and what follows it. -/
def scanWord (s : List UInt8) : Option (List UInt8 × List UInt8) :=
  let s := s.dropWhile isspace
  if s = [] then none
  else some (s.takeWhile fun c => !isspace c, s.dropWhile fun c => !isspace c)

/-- The words that `n` conversions `%s` assign; a failed conversion ends the call. -/
def scanWords : Nat → List UInt8 → List (List UInt8)
  | 0, _ => []
  | n + 1, s =>
    match scanWord s with
    | none => []
    | some (word, rest) => word :: scanWords n rest

/-- No more words are read than were asked for. -/
theorem scanWords_length_le (n : Nat) (s : List UInt8) : (scanWords n s).length ≤ n := by
  induction n generalizing s with
  | zero => exact le_rfl
  | succ n ih =>
    rw [scanWords]
    split
    · exact Nat.zero_le _
    · exact Nat.succ_le_succ (ih _)

/-- The words are stretches of the text. -/
theorem subset_of_mem_scanWords {n : Nat} {s word : List UInt8} (h : word ∈ scanWords n s) :
    word ⊆ s := by
  induction n generalizing s with
  | zero => exact absurd h List.not_mem_nil
  | succ n ih =>
    rw [scanWords, scanWord] at h
    by_cases hnil : s.dropWhile isspace = []
    · rw [if_pos hnil] at h
      exact absurd h List.not_mem_nil
    · rw [if_neg hnil] at h
      have hdrop := (List.dropWhile_suffix (l := s) isspace).subset
      rcases List.mem_cons.1 h with rfl | h
      · exact fun c hc => hdrop ((List.takeWhile_prefix _).subset hc)
      · exact fun c hc => hdrop ((List.dropWhile_suffix _).subset (ih h hc))

theorem dropWhile_concat_of_pos {α : Type} {p : α → Bool} {s : List α} {c : α} (hc : p c = true) :
    (s ++ [c]).dropWhile p = if s.dropWhile p = [] then [] else s.dropWhile p ++ [c] := by
  rw [List.dropWhile_append]
  cases hdrop : s.dropWhile p with
  | nil => simp [hc]
  | cons x rest => simp

/-- A blank behind a text, such as its newline, adds no word. -/
theorem scanWords_concat {c : UInt8} (hc : isspace c = true) (n : Nat) (s : List UInt8) :
    scanWords n (s ++ [c]) = scanWords n s := by
  induction n generalizing s with
  | zero => rfl
  | succ n ih =>
    rw [scanWords, scanWords, scanWord, scanWord, dropWhile_concat_of_pos hc]
    by_cases hnil : s.dropWhile isspace = []
    · rw [if_pos hnil, if_pos hnil, if_pos rfl]
    · have hne : s.dropWhile isspace ++ [c] ≠ [] := List.append_ne_nil_of_right_ne_nil _ (by simp)
      have hstop : [c].takeWhile (fun c => !isspace c) = [] ∧
          [c].dropWhile (fun c => !isspace c) = [c] := by simp [hc]
      rw [if_neg hnil, if_neg hnil, if_neg hne]
      generalize s.dropWhile isspace = t
      have htake : (t ++ [c]).takeWhile (fun c => !isspace c) =
          t.takeWhile fun c => !isspace c := by
        rw [List.takeWhile_append]
        split
        · rename_i hall
          rw [hstop.1, List.append_nil, (List.takeWhile_prefix _).eq_of_length hall]
        · rfl
      have hdrop : (t ++ [c]).dropWhile (fun c => !isspace c) =
          t.dropWhile (fun c => !isspace c) ++ [c] := by
        rw [List.dropWhile_append]
        split
        · rename_i hall
          rw [List.isEmpty_iff.1 hall, hstop.2, List.nil_append]
        · rfl
      rw [htake, hdrop]
      exact congrArg _ (ih _)

end ComputerNetworks
