import ComputerNetworks.Core.Decimal
import ComputerNetworks.Core.StructFormat

/-!
# Internet addresses as text

`inet_aton` takes one to four numbers between dots, each decimal, octal or
hexadecimal, the last of which fills the rest of the address; `inet_ntoa` prints
four decimal numbers, which `inet_aton` reads back.
-/

namespace ComputerNetworks

/-- An octal digit. -/
def isodigit (c : UInt8) : Bool := 48 ≤ c && c ≤ 55

/-- `isxdigit`. -/
def isxdigit (c : UInt8) : Bool := isdigit c || (65 ≤ c && c ≤ 70) || (97 ≤ c && c ≤ 102)

/-- The value of a hexadecimal digit. -/
def hexDigit (c : UInt8) : Nat :=
  if isdigit c then c.toNat - 48 else if c ≤ 70 then c.toNat - 55 else c.toNat - 87

/-- `0x` and a hexadecimal digit start the text. -/
def startsHex : List UInt8 → Bool
  | 48 :: x :: c :: _ => (x == 120 || x == 88) && isxdigit c
  | _ => false

/-- `strtoul(s, &end, 0)` of a text that starts with a digit: the number and what is left. -/
def strtoul (s : List UInt8) : Nat × List UInt8 :=
  if startsHex s then
    (numberOf 16 hexDigit ((s.drop 2).takeWhile isxdigit), (s.drop 2).dropWhile isxdigit)
  else if s.head? = some 48 then
    (numberOf 8 decimalDigit (s.takeWhile isodigit), s.dropWhile isodigit)
  else (numberOf 10 decimalDigit (s.takeWhile isdigit), s.dropWhile isdigit)

/-- The loop of `inet_aton` behind the parts of an address; `n` dots may follow. -/
def inetParts : Nat → List UInt8 → List UInt8 → Option (List UInt8)
  | n, parts, s =>
    if (s.head?.map isdigit).getD false then
      match strtoul s with
      | (val, 46 :: rest) =>
        match n with
        | 0 => none
        | n + 1 => if val ≤ 255 then inetParts n (parts ++ [UInt8.ofNat val]) rest else none
      | (val, rest) =>
        -- what follows the first blank behind the address is not looked at
        if (rest.head?.map isspace).getD true ∧ val < 256 ^ (n + 1) then
          some (parts ++ bigEndian (n + 1) val)
        else none
    else none

/-- `inet_aton`: the four bytes of the address in network order. -/
def inetAton (s : List UInt8) : Option (List UInt8) := inetParts 3 [] s

/-- An address in dotted notation. -/
def dotted (a b c d : UInt8) : List UInt8 :=
  decimal a.toNat ++ 46 :: (decimal b.toNat ++ 46 :: (decimal c.toNat ++ 46 :: decimal d.toNat))

/-- `inet_ntoa`. -/
def inetNtoa : List UInt8 → Option (List UInt8)
  | [a, b, c, d] => some (dotted a b c d)
  | _ => none

/-- A number is taken off a text up to its last digit. -/
theorem takeWhile_isdigit (n : Nat) {rest : List UInt8}
    (hrest : (rest.head?.map isdigit).getD false = false) :
    (decimal n ++ rest).takeWhile isdigit = decimal n ∧
      (decimal n ++ rest).dropWhile isdigit = rest := by
  have hall := isdigit_of_mem_decimal n
  rw [List.takeWhile_append_of_pos hall, List.dropWhile_append_of_pos hall]
  cases rest with
  | nil => simp
  | cons c rest =>
    have hc : isdigit c = false := hrest
    simp [hc]

/-- Only a zero can start a hexadecimal number. -/
theorem startsHex_of_head {s : List UInt8} (h : s.head? ≠ some 48) : startsHex s = false := by
  unfold startsHex
  split
  · exact absurd rfl h
  · rfl

/-- A printed number is read back up to a dot or to the end. -/
theorem strtoul_decimal (n : Nat) {rest : List UInt8}
    (hrest : rest = [] ∨ ∃ rest', rest = 46 :: rest') :
    strtoul (decimal n ++ rest) = (n, rest) := by
  rcases Nat.eq_zero_or_pos n with rfl | hpos
  · -- a zero is read as an octal number
    rw [decimal_of_lt (by decide)]
    obtain rfl | ⟨rest', rfl⟩ := hrest
    · rfl
    · cases rest' with
      | nil => rfl
      | cons c rest' => rfl
  · obtain ⟨c, cs, hcs⟩ := List.exists_cons_of_ne_nil (decimal_ne_nil n)
    have hhead : (decimal n ++ rest).head? ≠ some 48 := by
      have hne := head_decimal hpos
      rw [hcs] at hne ⊢
      exact hne
    have hdigit : (rest.head?.map isdigit).getD false = false := by
      obtain rfl | ⟨rest', rfl⟩ := hrest
      · rfl
      · rfl
    obtain ⟨htake, hdrop⟩ := takeWhile_isdigit n hdigit
    rw [strtoul, startsHex_of_head hhead, if_neg Bool.false_ne_true, if_neg hhead, htake, hdrop,
      numberOf_decimal]

/-- A number starts with a digit. -/
theorem head_decimal_isdigit (n : Nat) (rest : List UInt8) :
    (((decimal n ++ rest).head?.map isdigit).getD false) = true := by
  obtain ⟨c, cs, hcs⟩ := List.exists_cons_of_ne_nil (decimal_ne_nil n)
  have hc := isdigit_of_mem_decimal n c (hcs ▸ List.mem_cons_self)
  rw [hcs]
  exact hc

/-- A part and the dot behind it. -/
theorem inetParts_dot (n : Nat) (parts rest : List UInt8) (a : UInt8) :
    inetParts (n + 1) parts (decimal a.toNat ++ 46 :: rest) = inetParts n (parts ++ [a]) rest := by
  have hread := @strtoul_decimal a.toNat (46 :: rest) (Or.inr ⟨rest, rfl⟩)
  have hle : a.toNat ≤ 255 := Nat.le_of_lt_succ a.toNat_lt
  rw [inetParts, if_pos (head_decimal_isdigit _ _), hread]
  simp only [if_pos hle, UInt8.ofNat_toNat]

/-- The last part. -/
theorem inetParts_last (parts : List UInt8) (a : UInt8) :
    inetParts 0 parts (decimal a.toNat) = some (parts ++ [a]) := by
  have hread := @strtoul_decimal a.toNat [] (Or.inl rfl)
  have hhead := head_decimal_isdigit a.toNat []
  rw [List.append_nil] at hread hhead
  have hlt : a.toNat < 256 ^ (0 + 1) := a.toNat_lt
  rw [inetParts, if_pos hhead, hread]
  simp only [List.head?_nil, Option.map_none, Option.getD_none, hlt, and_self, if_true, bigEndian,
    List.nil_append, UInt8.ofNat_toNat]

/-- A printed address is read back. -/
theorem inetAton_dotted (a b c d : UInt8) : inetAton (dotted a b c d) = some [a, b, c, d] := by
  rw [inetAton, dotted, inetParts_dot, inetParts_dot, inetParts_dot, inetParts_last]
  rfl

/-- The parts of an address are as many as are asked for. -/
theorem inetParts_length {n : Nat} {parts s b : List UInt8} (h : inetParts n parts s = some b) :
    b.length = parts.length + (n + 1) := by
  induction n generalizing parts s with
  | zero =>
    unfold inetParts at h
    split at h
    · split at h
      · cases h
      · split at h
        · cases h
          rw [List.length_append, bigEndian_length]
        · cases h
    · cases h
  | succ n ih =>
    unfold inetParts at h
    split at h
    · split at h
      · dsimp only at h
        split at h
        · rw [ih h, List.length_append, List.length_singleton]
          omega
        · cases h
      · split at h
        · cases h
          rw [List.length_append, bigEndian_length]
        · cases h
    · cases h

/-- An address has four bytes. -/
theorem inetAton_length {s b : List UInt8} (h : inetAton s = some b) : b.length = 4 :=
  inetParts_length h

end ComputerNetworks
