import ComputerNetworks.Core.BlockHash
import ComputerNetworks.Core.StructFormat
import Mathlib.Data.Fin.VecNotation

/-!
# The secure hash standard

SHA-1 as FIPS 180-1 defines it, for messages of whole octets: eighty words made of
the sixteen of a block, eighty steps over five words, and a message padded to
blocks of sixty-four octets whose last eight hold its length in bits.
-/

namespace ComputerNetworks.SecureHash

/-- The five words of a digest are numbered from 0. -/
instance neZeroFive : NeZero 5 := ⟨Nat.succ_ne_zero 4⟩

/-- The circular left shift `S^n`. -/
def rotl (n : Nat) (x : UInt32) : UInt32 := ⟨x.toBitVec.rotateLeft n⟩

/-- The words `H_0` to `H_4` of the start. -/
def initialValue : Fin 5 → UInt32 := ![0x67452301, 0xEFCDAB89, 0x98BADCFE, 0x10325476, 0xC3D2E1F0]

/-- The word at an index of a block. -/
def blockWord (block : List UInt8) (t : Nat) : UInt32 :=
  UInt32.ofNat (ofBigEndian ((block.drop (4 * t)).take 4))

/-- The words `W_t`. -/
def wordSequence (block : List UInt8) (t : Nat) : UInt32 :=
  if t < 16 then blockWord block t
  else rotl 1 (wordSequence block (t - 3) ^^^ wordSequence block (t - 8) ^^^
    wordSequence block (t - 14) ^^^ wordSequence block (t - 16))

/-- The functions `f_t`. -/
def roundFunction (t : Nat) (b c d : UInt32) : UInt32 :=
  if t < 20 then (b &&& c) ||| (~~~b &&& d)
  else if t < 40 then b ^^^ c ^^^ d
  else if t < 60 then (b &&& c) ||| (b &&& d) ||| (c &&& d)
  else b ^^^ c ^^^ d

/-- The constants `K_t`. -/
def roundConstant (t : Nat) : UInt32 :=
  if t < 20 then 0x5A827999
  else if t < 40 then 0x6ED9EBA1
  else if t < 60 then 0x8F1BBCDC
  else 0xCA62C1D6

/-- One step over the words `A` to `E`. -/
def hashStep (block : List UInt8) (v : Fin 5 → UInt32) (t : Nat) : Fin 5 → UInt32 :=
  ![rotl 5 (v 0) + roundFunction t (v 1) (v 2) (v 3) + v 4 + wordSequence block t + roundConstant t,
    v 0, rotl 30 (v 1), v 2, v 3]

/-- What a block makes of the chaining value. -/
def compress (h : Fin 5 → UInt32) (block : List UInt8) : Fin 5 → UInt32 :=
  fun i => h i + (List.range 80).foldl (hashStep block) h i

/-- The octets behind a message of a length: a one bit, zero bits, and the length in bits. -/
def padding (len : Nat) : List UInt8 :=
  0x80 :: (List.replicate ((119 - len % 64) % 64) 0 ++ bigEndian 8 (8 * len))

/-- The digest of a message of fewer than `2 ^ 61` octets. -/
def digest (m : List UInt8) : Fin 5 → UInt32 :=
  (blocksOf 64 (m ++ padding m.length)).foldl compress initialValue

theorem wordSequence_low {block : List UInt8} {t : Nat} (h : t < 16) :
    wordSequence block t = blockWord block t := by
  rw [wordSequence, if_pos h]

/-- The others are rotated sums of words before them. -/
theorem wordSequence_high {block : List UInt8} {t : Nat} (h : 16 ≤ t) :
    wordSequence block t = rotl 1 (wordSequence block (t - 3) ^^^ wordSequence block (t - 8) ^^^
      wordSequence block (t - 14) ^^^ wordSequence block (t - 16)) := by
  rw [wordSequence, if_neg (Nat.not_lt.2 h)]

/-- A padded message consists of whole blocks. -/
theorem length_padded (m : List UInt8) : (m ++ padding m.length).length % 64 = 0 := by
  rw [padding, List.length_append, List.length_cons, List.length_append, List.length_replicate,
    bigEndian_length]
  omega

/-- The digest is what taking in the padded message leaves. -/
theorem digest_eq_absorb (m : List UInt8) :
    absorb 64 compress (initialValue, []) (m ++ padding m.length) = (digest m, []) := by
  have hlen := @length_absorbed _ _ 64 compress (by decide) initialValue
    (m ++ padding m.length)
  rw [length_padded] at hlen
  have hstate := congrArg Prod.fst (@absorb_eq_blocks _ _ 64 compress (by decide)
    initialValue (m ++ padding m.length))
  exact Prod.ext hstate (List.eq_nil_of_length_eq_zero hlen)

end ComputerNetworks.SecureHash
