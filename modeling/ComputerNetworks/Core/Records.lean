import Mathlib.Data.List.Basic

/-!
# Files of records

A file to which records are only ever appended, each of which says where it ends.
What is read back is what was written, in its order.
-/

namespace ComputerNetworks

/-- A form of records: their bytes, and how the first of them is taken off a text. -/
structure RecordFormat (α : Type*) where
  encode : α → List UInt8
  decode : List UInt8 → Option (α × List UInt8)
  decode_encode : ∀ a rest, decode (encode a ++ rest) = some (a, rest)
  encode_ne_nil : ∀ a, encode a ≠ []

namespace RecordFormat

variable {α : Type*}

/-- Take records off a text until it ends; the number bounds them. -/
def decodeUpTo (F : RecordFormat α) : Nat → List UInt8 → Option (List α)
  | _, [] => some []
  | 0, _ :: _ => none
  | n + 1, c :: s =>
    match F.decode (c :: s) with
    | none => none
    | some (a, rest) => (F.decodeUpTo n rest).map (a :: ·)

/-- The records of a text, unless something else stands in it. -/
def decodeAll (F : RecordFormat α) (s : List UInt8) : Option (List α) := F.decodeUpTo s.length s

variable {F : RecordFormat α}

/-- Records that are not too many are read back. -/
theorem decodeUpTo_encode {n : Nat} (as : List α) (h : as.length ≤ n) :
    F.decodeUpTo n (as.flatMap F.encode) = some as := by
  induction as generalizing n with
  | nil =>
    rw [List.flatMap_nil]
    cases n with
    | zero => rfl
    | succ n => rfl
  | cons a as ih =>
    obtain ⟨n, rfl⟩ := Nat.exists_eq_add_one_of_ne_zero (Nat.ne_zero_of_lt h)
    obtain ⟨c, s, hs⟩ := List.exists_cons_of_ne_nil (F.encode_ne_nil a)
    have hdecode := F.decode_encode a (as.flatMap F.encode)
    rw [hs, List.cons_append] at hdecode
    rw [List.flatMap_cons, hs, List.cons_append, decodeUpTo]
    simp only [hdecode, ih (Nat.le_of_succ_le_succ h)]
    rfl

/-- No record is written in nothing. -/
theorem length_le_flatMap_encode (as : List α) : as.length ≤ (as.flatMap F.encode).length := by
  induction as with
  | nil => exact Nat.le_refl 0
  | cons a as ih =>
    have hpos := List.length_pos_iff.2 (F.encode_ne_nil a)
    rw [List.flatMap_cons, List.length_append, List.length_cons]
    omega

/-- The records of a file are those that were appended to it. -/
theorem decodeAll_encode (as : List α) : F.decodeAll (as.flatMap F.encode) = some as :=
  decodeUpTo_encode as (length_le_flatMap_encode as)

end RecordFormat

end ComputerNetworks
