import ComputerNetworks.Core.CString
import Mathlib.Data.List.Forall2

/-!
# Lines ended by CRLF

A text is cut at each CR LF pair. `lineTails` lists what is left behind each cut,
so the lines a scan of the text starts at are the text itself and its tails.
-/

namespace ComputerNetworks

/-- The line end. -/
def crlf : List UInt8 := [13, 10]

/-- No CR LF pair occurs in the text. -/
def NoCrlf (s : List UInt8) : Prop := ¬ crlf <:+: s

instance (s : List UInt8) : Decidable (NoCrlf s) := inferInstanceAs (Decidable (¬ _))

/-- What is left of the text behind each of its line ends, in order. -/
def lineTails : List UInt8 → List (List UInt8)
  | [] => []
  | c :: s => if crlf.isPrefixOf (c :: s) then s.tail :: lineTails s else lineTails s

/-- A line end is a CR in front of an LF. -/
theorem crlf_prefix_cons {c : UInt8} {s : List UInt8} :
    crlf <+: c :: s ↔ c = 13 ∧ s.head? = some 10 := by
  cases s with
  | nil => simp [crlf, List.cons_prefix_cons]
  | cons d s => simp [crlf, List.cons_prefix_cons, eq_comm]

@[simp] theorem not_crlf_prefix_nil : ¬ crlf <+: [] := by simp [crlf]

theorem noCrlf_cons {c : UInt8} {s : List UInt8} :
    NoCrlf (c :: s) ↔ ¬ crlf <+: c :: s ∧ NoCrlf s := by
  simp only [NoCrlf, List.infix_cons_iff, not_or]

/-- A part of a text without line ends has none. -/
theorem NoCrlf.mono {s t : List UInt8} (h : NoCrlf t) (hs : s <:+: t) : NoCrlf s :=
  fun hc => h (hc.trans hs)

theorem noCrlf_of_not_mem {s : List UInt8} (h : 10 ∉ s) : NoCrlf s :=
  fun hc => h (hc.subset (by decide))

/-- A line end and lines that each end in one end in a line end. -/
theorem crlf_suffix_flatMap {α : Type*} {f : α → List UInt8} (hf : ∀ a, crlf <:+ f a)
    (as : List α) : crlf <:+ crlf ++ as.flatMap f := by
  rcases List.eq_nil_or_concat as with rfl | ⟨as, a, rfl⟩
  · exact List.suffix_append [] crlf
  · rw [List.concat_eq_append, List.flatMap_append, List.flatMap_singleton, ← List.append_assoc]
    exact (hf a).trans (List.suffix_append _ _)

/-- Texts joined by a byte that is not LF have no line end when neither part has one. -/
theorem NoCrlf.append_cons {s t : List UInt8} {c : UInt8} (hs : NoCrlf s) (hc : c ≠ 10)
    (ht : NoCrlf (c :: t)) : NoCrlf (s ++ c :: t) := by
  induction s with
  | nil => exact ht
  | cons a s ih =>
    rw [noCrlf_cons] at hs
    rw [List.cons_append, noCrlf_cons]
    refine ⟨?_, ih hs.2⟩
    rw [crlf_prefix_cons]
    rintro ⟨rfl, hh⟩
    cases s with
    | nil => exact hc (by simpa using hh)
    | cons d s => exact hs.1 (crlf_prefix_cons.mpr ⟨rfl, by simpa using hh⟩)

theorem NoCrlf.cons_of_ne {s : List UInt8} {c : UInt8} (hc : c ≠ 13) (hs : NoCrlf s) :
    NoCrlf (c :: s) :=
  noCrlf_cons.mpr ⟨fun h => hc (crlf_prefix_cons.mp h).1, hs⟩

/-- A pattern does not reach into an appended text it shares no byte with. -/
theorem infix_append_iff {pat x y : List UInt8} (hne : pat ≠ []) (h : ∀ c ∈ pat, c ∉ y) :
    pat <:+: x ++ y ↔ pat <:+: x := by
  refine ⟨?_, fun hx => hx.trans (List.prefix_append x y).isInfix⟩
  rintro ⟨a, b, hab⟩
  rcases List.append_eq_append_iff.mp hab with ⟨t, hx, -⟩ | ⟨t, hx, hy⟩
  · exact ⟨a, t, hx.symm⟩
  · rcases List.eq_nil_or_concat t with rfl | ⟨t, c, rfl⟩
    · exact ⟨a, [], by simpa using hx⟩
    · -- the last byte of the pattern lies in `y`
      obtain ⟨pat, d, rfl⟩ := (List.eq_nil_or_concat pat).resolve_left hne
      rw [List.concat_eq_append] at hx hy h
      rw [List.concat_eq_append, ← List.append_assoc, ← List.append_assoc] at hx
      have hlast : d = c := (List.append_inj' hx rfl).2 |> List.singleton_inj.mp
      exact absurd (by simp [hy, hlast]) (h d (by simp))

/-- Up to its first line end a text has none. -/
theorem noCrlf_of_short {p line rest : List UInt8} (hline : NoCrlf line)
    (hp : p <+: line ++ (crlf ++ rest)) (hlen : p.length < line.length + 2) : NoCrlf p := by
  have hcr : NoCrlf (line ++ [13]) := hline.append_cons (by decide) (by decide)
  have hpre : line ++ [13] <+: line ++ (crlf ++ rest) := ⟨10 :: rest, by simp [crlf]⟩
  apply hcr.mono
  apply List.IsPrefix.isInfix
  apply List.prefix_of_prefix_length_le hp hpre
  rw [List.length_append, List.length_singleton]
  omega

/-- A start of a text that reaches behind its first line end has the same first line. -/
theorem eq_line_append_of_long {p line rest : List UInt8} (hp : p <+: line ++ (crlf ++ rest))
    (hlen : line.length + 2 ≤ p.length) :
    ∃ rest', rest' <+: rest ∧ p = line ++ (crlf ++ rest') := by
  have hpre : line ++ crlf <+: line ++ (crlf ++ rest) := ⟨rest, by simp⟩
  obtain ⟨rest', rfl⟩ := List.prefix_of_prefix_length_le hpre hp
    (by rw [List.length_append]; exact hlen)
  refine ⟨rest', ?_, by simp⟩
  simpa only [List.append_assoc, List.prefix_append_right_inj] using hp

/-- A pattern is found where it first occurs. -/
theorem findSub_append_of_first {pat s t : List UInt8}
    (h : ∀ u, u ≠ [] → u <:+ s → ¬ pat <+: u ++ t) (ht : pat <+: t) (hp : pat ≠ []) :
    findSub pat (s ++ t) = some s.length := by
  induction s with
  | nil =>
    cases t with
    | nil => exact absurd (List.prefix_nil.mp ht) hp
    | cons c t => simp [findSub, List.isPrefixOf_iff_prefix, ht]
  | cons a s ih =>
    have hno : ¬ pat <+: a :: (s ++ t) := h (a :: s) (by simp) (List.suffix_refl _)
    have hrec := ih (fun u hu hs => h u hu (hs.trans (List.suffix_cons a s)))
    simp [findSub, List.isPrefixOf_iff_prefix, hno, hrec]

/-- The first line end of a text is the one after its first line. -/
theorem findSub_crlf {s : List UInt8} (h : NoCrlf s) (t : List UInt8) :
    findSub crlf (s ++ (crlf ++ t)) = some s.length := by
  apply findSub_append_of_first _ (List.prefix_append _ _) (by simp [crlf])
  intro u hu hs hpre
  obtain ⟨a, u, rfl⟩ := List.exists_cons_of_ne_nil hu
  rw [List.cons_append, crlf_prefix_cons] at hpre
  obtain ⟨rfl, hh⟩ := hpre
  cases u with
  | nil => simp [crlf] at hh
  | cons d u =>
    have hd : d = 10 := by simpa using hh
    subst hd
    exact h ((List.prefix_append crlf u).isInfix.trans hs.isInfix)

/-- Where a pattern is found the text splits, and it does not occur before. -/
theorem findSub_eq_some {pat s : List UInt8} {i : Nat} (h : findSub pat s = some i) :
    ∃ t, s = s.take i ++ (pat ++ t) ∧ i ≤ s.length ∧
      ∀ u, u ≠ [] → u <:+ s.take i → ¬ pat <+: u ++ (pat ++ t) := by
  induction s generalizing i with
  | nil =>
    by_cases hp : pat = []
    · have hi : i = 0 := by simpa [findSub, hp, eq_comm] using h
      exact ⟨[], by simp [hp], by simp [hi], fun u hu hs => absurd (by simpa using hs) hu⟩
    · simp [findSub, hp] at h
  | cons c s ih =>
    by_cases hc : pat <+: c :: s
    · rw [findSub, List.isPrefixOf_iff_prefix.mpr hc, if_pos rfl] at h
      cases h
      obtain ⟨t, ht⟩ := hc
      exact ⟨t, by simp [ht], by simp, fun u hu hs => absurd (by simpa using hs) hu⟩
    · simp only [findSub, List.isPrefixOf_iff_prefix, hc, if_false, Option.map_eq_some_iff] at h
      obtain ⟨j, hj, rfl⟩ := h
      obtain ⟨t, hs, hle, hmin⟩ := ih hj
      refine ⟨t, by rw [List.take_succ_cons, List.cons_append, ← hs], by simpa using hle, ?_⟩
      intro u hu hsuf
      rw [List.take_succ_cons, List.suffix_cons_iff] at hsuf
      rcases hsuf with rfl | hsuf
      · rw [List.cons_append, ← hs]
        exact hc
      · exact hmin u hu hsuf

/-- What is not found does not occur. -/
theorem findSub_eq_none {pat s : List UInt8} (h : findSub pat s = none) : ¬ pat <:+: s := by
  induction s with
  | nil =>
    by_cases hp : pat = [] <;> simp [findSub, hp] at h ⊢
  | cons c s ih =>
    by_cases hc : pat <+: c :: s
    · simp [findSub, List.isPrefixOf_iff_prefix, hc] at h
    · have hs : findSub pat s = none := by
        simpa [findSub, List.isPrefixOf_iff_prefix, hc] using h
      rw [List.infix_cons_iff, not_or]
      exact ⟨hc, ih hs⟩

/-- What occurs is found. -/
theorem findSub_isSome {pat s : List UInt8} (h : pat <:+: s) :
    ∃ i, findSub pat s = some i := by
  cases hi : findSub pat s with
  | none => exact absurd h (findSub_eq_none hi)
  | some i => exact ⟨i, rfl⟩

/-- What does not occur is not found. -/
theorem findSub_none {pat s : List UInt8} (h : ¬ pat <:+: s) : findSub pat s = none := by
  cases hi : findSub pat s with
  | none => rfl
  | some i =>
    obtain ⟨t, ht, -⟩ := findSub_eq_some hi
    exact absurd ⟨s.take i, t, by rw [List.append_assoc]; exact ht.symm⟩ h

/-- A text with a line end splits at the first one. -/
theorem findSub_crlf_eq_some {s : List UInt8} {i : Nat} (h : findSub crlf s = some i) :
    ∃ line t, s = line ++ (crlf ++ t) ∧ line.length = i ∧ NoCrlf line := by
  obtain ⟨t, hs, hle, hmin⟩ := findSub_eq_some h
  refine ⟨s.take i, t, hs, by simp [hle], ?_⟩
  rintro ⟨x, y, hxy⟩
  refine hmin (crlf ++ y) (by simp [crlf]) ⟨x, by simpa using hxy⟩ ?_
  rw [List.append_assoc]
  exact List.prefix_append _ _

/-- A text without a line end has one line. -/
theorem lineTails_of_noCrlf {s : List UInt8} (h : NoCrlf s) : lineTails s = [] := by
  induction s with
  | nil => rfl
  | cons c s ih =>
    rw [noCrlf_cons] at h
    simp [lineTails, List.isPrefixOf_iff_prefix, h.1, ih h.2]

/-- Behind a byte that is not LF the tails of both sides are listed in turn. -/
theorem lineTails_append_cons (s t : List UInt8) {c : UInt8} (hc : c ≠ 10) :
    lineTails (s ++ c :: t) = (lineTails s).map (· ++ c :: t) ++ lineTails (c :: t) := by
  induction s with
  | nil => simp [lineTails]
  | cons a s ih =>
    have hiff : crlf <+: a :: (s ++ c :: t) ↔ crlf <+: a :: s := by
      cases s with
      | nil => simp [crlf_prefix_cons, hc]
      | cons d s => simp [crlf_prefix_cons]
    by_cases ha : crlf <+: a :: s
    · have hne : s ≠ [] := by
        rintro rfl
        simp [crlf_prefix_cons] at ha
      simp only [List.cons_append, lineTails, List.isPrefixOf_iff_prefix, hiff, ha, if_true, ih,
        List.map_cons, List.tail_append_of_ne_nil hne]
    · simp only [List.cons_append, lineTails, List.isPrefixOf_iff_prefix, hiff, ha, if_false, ih]

theorem lineTails_cons_of_ne {c : UInt8} (hc : c ≠ 13) (s : List UInt8) :
    lineTails (c :: s) = lineTails s := by
  have hno : ¬ crlf <+: c :: s := fun h => hc (crlf_prefix_cons.mp h).1
  simp [lineTails, List.isPrefixOf_iff_prefix, hno]

/-- A line starts behind a line end. -/
@[simp] theorem lineTails_crlf_append (t : List UInt8) :
    lineTails (crlf ++ t) = t :: lineTails t := by
  have hpre : crlf <+: 13 :: 10 :: t := crlf_prefix_cons.mpr ⟨rfl, rfl⟩
  have h10 : lineTails (10 :: t) = lineTails t := lineTails_cons_of_ne (by decide) t
  simp only [crlf, List.cons_append, List.nil_append]
  rw [lineTails, List.isPrefixOf_iff_prefix.mpr hpre, if_pos rfl, List.tail_cons, h10]

/-- The tails of a text are what follows its first line, and the tails of that. -/
theorem lineTails_line {line : List UInt8} (h : NoCrlf line) (t : List UInt8) :
    lineTails (line ++ (crlf ++ t)) = t :: lineTails t := by
  have hne : (13 : UInt8) ≠ 10 := by decide
  have hsplit := lineTails_append_cons line (10 :: t) hne
  simp only [lineTails_of_noCrlf h, List.map_nil, List.nil_append] at hsplit
  exact hsplit.trans (lineTails_crlf_append t)

/-- A tail stands at the end of the text, behind a line end. -/
theorem crlf_append_suffix_of_mem {s x : List UInt8} (h : x ∈ lineTails s) : crlf ++ x <:+ s := by
  induction s with
  | nil => cases h
  | cons c s ih =>
    have hs : s <:+ c :: s := List.suffix_cons c s
    by_cases hpre : crlf.isPrefixOf (c :: s) = true
    · rw [lineTails, if_pos hpre, List.mem_cons] at h
      rcases h with rfl | h
      · obtain ⟨t, ht⟩ := List.isPrefixOf_iff_prefix.mp hpre
        cases ht
        exact List.suffix_refl _
      · exact (ih h).trans hs
    · rw [lineTails, if_neg hpre] at h
      exact (ih h).trans hs

/-- Each line starts somewhere in the text. -/
theorem suffix_of_mem_lineTails {s x : List UInt8} (h : x ∈ lineTails s) : x <:+ s :=
  (List.suffix_append crlf x).trans (crlf_append_suffix_of_mem h)

/-- The text behind a line end is shorter. -/
theorem length_lt_of_mem_lineTails {s x : List UInt8} (h : x ∈ lineTails s) :
    x.length < s.length := by
  have hle := (crlf_append_suffix_of_mem h).length_le
  simp only [crlf, List.length_append, List.length_cons, List.length_nil] at hle
  omega

/-- Later tails of a text are shorter. -/
theorem pairwise_lineTails (s : List UInt8) :
    (lineTails s).Pairwise fun x y => y.length < x.length := by
  induction s with
  | nil => exact .nil
  | cons c s ih =>
    by_cases hpre : crlf.isPrefixOf (c :: s) = true
    · rw [lineTails, if_pos hpre, List.pairwise_cons]
      refine ⟨fun y hy => ?_, ih⟩
      obtain ⟨t, ht⟩ := List.isPrefixOf_iff_prefix.mp hpre
      cases ht
      have hy' : y ∈ lineTails t := by
        rw [← lineTails_cons_of_ne (show (10 : UInt8) ≠ 13 by decide) t]
        exact hy
      exact length_lt_of_mem_lineTails hy'
    · rw [lineTails, if_neg hpre]
      exact ih

/-- Every line end takes two bytes. -/
theorem length_lineTails_le : ∀ s : List UInt8, 2 * (lineTails s).length ≤ s.length
  | [] => by simp [lineTails]
  | [c] => by simp [lineTails, crlf]
  | c :: d :: t => by
    by_cases hpre : crlf <+: c :: d :: t
    · obtain ⟨rfl, hh⟩ := crlf_prefix_cons.mp hpre
      obtain rfl : d = 10 := by simpa using hh
      have ht : lineTails (13 :: 10 :: t) = t :: lineTails t := lineTails_crlf_append t
      have ih := length_lineTails_le t
      simp only [ht, List.length_cons]
      omega
    · have ht : lineTails (c :: d :: t) = lineTails (d :: t) := by
        simp [lineTails, List.isPrefixOf_iff_prefix, hpre]
      have ih := length_lineTails_le (d :: t)
      simp only [ht, List.length_cons] at ih ⊢
      omega

end ComputerNetworks
