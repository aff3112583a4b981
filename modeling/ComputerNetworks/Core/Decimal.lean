import ComputerNetworks.Core.CString
import Mathlib.Tactic.IntervalCases

/-!
# Numbers as text

`decimal` is what `%u` and `%lu` print. Reading its digits gives the number back,
and except for zero it starts with another digit than `0`.
-/

namespace ComputerNetworks

/-- The number as decimal digits. -/
def decimal (n : Nat) : List UInt8 := (Nat.toDigits 10 n).map fun c => UInt8.ofNat c.toNat

/-- The number that digits of a base stand for. -/
def numberOf (base : Nat) (digit : UInt8 → Nat) (s : List UInt8) : Nat :=
  s.foldl (fun n c => n * base + digit c) 0

/-- The value of a decimal digit. -/
def decimalDigit (c : UInt8) : Nat := c.toNat - 48

/-- A number below ten is one digit. -/
theorem decimal_of_lt {n : Nat} (h : n < 10) : decimal n = [UInt8.ofNat (48 + n)] := by
  rw [decimal, Nat.toDigits_of_lt_base h]
  interval_cases n
  all_goals rfl

/-- A larger number ends in its last digit. -/
theorem decimal_of_le {n : Nat} (h : 10 ≤ n) :
    decimal n = decimal (n / 10) ++ [UInt8.ofNat (48 + n % 10)] := by
  rw [decimal, Nat.toDigits_of_base_le (by decide) h, List.map_append, ← decimal]
  have hlast : n % 10 < 10 := Nat.mod_lt _ (by decide)
  congr 1
  interval_cases n % 10
  all_goals rfl

/-- Numbers are built digit by digit. -/
theorem decimal_induction {P : Nat → List UInt8 → Prop}
    (one : ∀ d < 10, P d [UInt8.ofNat (48 + d)])
    (more : ∀ n d, 0 < n → d < 10 → P n (decimal n) →
      P (10 * n + d) (decimal n ++ [UInt8.ofNat (48 + d)]))
    (n : Nat) : P n (decimal n) := by
  induction n using Nat.strongRecOn with
  | ind n ih =>
    rcases Nat.lt_or_ge n 10 with hlt | hge
    · rw [decimal_of_lt hlt]
      exact one n hlt
    · have hstep := more (n / 10) (n % 10) (by omega) (Nat.mod_lt _ (by decide))
        (ih (n / 10) (by omega))
      rwa [Nat.div_add_mod, ← decimal_of_le hge] at hstep

theorem decimalDigit_ofNat {d : Nat} (h : d < 10) : decimalDigit (UInt8.ofNat (48 + d)) = d := by
  rw [decimalDigit, UInt8.toNat_ofNat']
  omega

theorem isdigit_ofNat {d : Nat} (h : d < 10) : isdigit (UInt8.ofNat (48 + d)) = true := by
  interval_cases d
  all_goals rfl

/-- A number is written in digits. -/
theorem isdigit_of_mem_decimal (n : Nat) : ∀ c ∈ decimal n, isdigit c = true := by
  induction n using decimal_induction with
  | one d h =>
    intro c hc
    rw [List.mem_singleton.1 hc]
    exact isdigit_ofNat h
  | more n d _ h ih =>
    intro c hc
    rcases List.mem_append.1 hc with hc | hc
    · exact ih c hc
    · rw [List.mem_singleton.1 hc]
      exact isdigit_ofNat h

/-- The digits give the number back. -/
theorem numberOf_decimal (n : Nat) : numberOf 10 decimalDigit (decimal n) = n := by
  induction n using decimal_induction with
  | one d h => rw [numberOf, List.foldl_cons, List.foldl_nil, decimalDigit_ofNat h, Nat.zero_mul,
      Nat.zero_add]
  | more n d _ h ih =>
    rw [numberOf] at ih
    rw [numberOf, List.foldl_append, ih, List.foldl_cons, List.foldl_nil, decimalDigit_ofNat h,
      Nat.mul_comm]

/-- A number has at least one digit. -/
theorem decimal_ne_nil (n : Nat) : decimal n ≠ [] := by
  induction n using decimal_induction with
  | one d _ => exact List.cons_ne_nil _ _
  | more n d _ _ _ => exact List.append_ne_nil_of_right_ne_nil _ (List.cons_ne_nil _ _)

/-- A digit is neither a blank nor a sign. -/
theorem isdigit_facts {c : UInt8} (h : isdigit c = true) : isspace c = false ∧ c ≠ 43 ∧ c ≠ 45 := by
  have hrange : 48 ≤ c.toNat := by
    rw [isdigit, Bool.and_eq_true, decide_eq_true_iff, UInt8.le_iff_toNat_le] at h
    exact h.1
  have hbig : ∀ d : UInt8, d.toNat < 48 → c ≠ d := fun d hd heq => absurd (heq ▸ hd) (by omega)
  refine ⟨?_, hbig 43 (by decide), hbig 45 (by decide)⟩
  have hblank : ¬c ≤ 13 := by
    rw [UInt8.le_iff_toNat_le]
    show ¬c.toNat ≤ 13
    omega
  simp [isspace, hbig 32 (by decide), hblank]

/-- The digits of a number start with a digit, so there is no blank and no sign to skip. -/
theorem decimal_start (n : Nat) : (decimal n).dropWhile isspace = decimal n ∧
    (decimal n).head? ≠ some 43 ∧ (decimal n).head? ≠ some 45 ∧
    (decimal n).head?.any isdigit = true := by
  obtain ⟨c, s, hs⟩ := List.exists_cons_of_ne_nil (decimal_ne_nil n)
  have hdigit : isdigit c = true := by
    apply isdigit_of_mem_decimal n
    rw [hs]
    exact List.mem_cons_self
  obtain ⟨hspace, hplus, hminus⟩ := isdigit_facts hdigit
  rw [hs, List.head?_cons, Option.any_some]
  refine ⟨?_, fun h => hplus (Option.some.inj h), fun h => hminus (Option.some.inj h), hdigit⟩
  rw [List.dropWhile_cons_of_neg]
  rw [hspace]
  exact Bool.false_ne_true

/-- `strtol` reads what `%lu` prints. -/
theorem strtol_decimal {n : Nat} (h : n < 2 ^ 63) : strtol (decimal n) = n := by
  obtain ⟨hblank, hplus, hminus, -⟩ := decimal_start n
  have hall : (decimal n).takeWhile isdigit = decimal n := by
    rw [List.takeWhile_eq_self_iff]
    exact isdigit_of_mem_decimal n
  have hnumber := numberOf_decimal n
  unfold numberOf decimalDigit at hnumber
  simp only [strtol, hblank, beq_false_of_ne hminus, beq_false_of_ne hplus, Bool.or_self,
    Bool.false_eq_true, if_false, hall, hnumber]
  omega

/-- A number below a power of ten has no more digits than that. -/
theorem decimal_length_le {n k : Nat} (h : n < 10 ^ k) (hk : 0 < k) : (decimal n).length ≤ k := by
  rw [decimal, List.length_map, Nat.length_toDigits_le_iff (by decide) hk]
  exact h

/-- Zero aside, no number starts with a zero. -/
theorem head_decimal {n : Nat} (h : 0 < n) : (decimal n).head? ≠ some 48 := by
  revert h
  induction n using decimal_induction with
  | one d hlt =>
    intro hpos
    interval_cases d
    all_goals decide
  | more n d hpos _ ih =>
    intro _
    obtain ⟨c, s, hs⟩ := List.exists_cons_of_ne_nil (decimal_ne_nil n)
    rw [hs] at ih ⊢
    exact ih hpos

end ComputerNetworks
