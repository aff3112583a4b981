import ComputerNetworks.Core.CString

/-!
# Packed formats

The `struct` module of Python for formats that start with `>`: big-endian numbers
and texts of fixed width, without padding between the fields. A text is cut or
filled with NULs to its width; a number that does not fit is an error, and so is
a body of another size than that of the format.
-/

namespace ComputerNetworks

/-- The low `n` bytes of a number, the most significant first. -/
def bigEndian : Nat → Nat → List UInt8
  | 0, _ => []
  | n + 1, v => bigEndian n (v / 256) ++ [UInt8.ofNat v]

/-- The number that big-endian bytes stand for. -/
def ofBigEndian (b : List UInt8) : Nat := b.foldl (fun n c => n * 256 + c.toNat) 0

/-- A number fills its field. -/
@[simp] theorem bigEndian_length (n v : Nat) : (bigEndian n v).length = n := by
  induction n generalizing v with
  | zero => rfl
  | succ n ih => rw [bigEndian, List.length_append, ih, List.length_singleton]

theorem ofBigEndian_append_singleton (b : List UInt8) (c : UInt8) :
    ofBigEndian (b ++ [c]) = ofBigEndian b * 256 + c.toNat := by
  rw [ofBigEndian, List.foldl_append]
  rfl

/-- A number that fits is read back. -/
theorem ofBigEndian_bigEndian {n v : Nat} (h : v < 256 ^ n) : ofBigEndian (bigEndian n v) = v := by
  induction n generalizing v with
  | zero =>
    rw [Nat.pow_zero, Nat.lt_one_iff] at h
    exact h.symm
  | succ n ih =>
    have hhigh : v / 256 < 256 ^ n := by
      rw [Nat.div_lt_iff_lt_mul (by decide)]
      exact h
    rw [bigEndian, ofBigEndian_append_singleton, ih hhigh, UInt8.toNat_ofNat']
    omega

/-- A number of `n` bytes is less than `256 ^ n`. -/
theorem ofBigEndian_lt (b : List UInt8) : ofBigEndian b < 256 ^ b.length := by
  induction b using List.reverseRecOn with
  | nil => exact Nat.one_pos
  | append_singleton b c ih =>
    have hc := c.toNat_lt
    rw [ofBigEndian_append_singleton, List.length_append, List.length_singleton, Nat.pow_succ]
    omega

/-- Bytes are those of the number they stand for. -/
theorem bigEndian_ofBigEndian (b : List UInt8) : bigEndian b.length (ofBigEndian b) = b := by
  induction b using List.reverseRecOn with
  | nil => rfl
  | append_singleton b c ih =>
    have hc := c.toNat_lt
    have hhigh : (ofBigEndian b * 256 + c.toNat) / 256 = ofBigEndian b := by omega
    have hlow : UInt8.ofNat (ofBigEndian b * 256 + c.toNat) = c := by
      apply UInt8.toNat.inj
      rw [UInt8.toNat_ofNat']
      omega
    rw [List.length_append, List.length_singleton, ofBigEndian_append_singleton, bigEndian, hhigh,
      hlow, ih]

/-- A text cut or filled with NULs to a width. -/
def padded (n : Nat) (s : List UInt8) : List UInt8 := (s ++ List.replicate n 0).take n

/-- The text without its NULs. -/
def stripNulls (s : List UInt8) : List UInt8 := s.filter (· != 0)

@[simp] theorem padded_length (n : Nat) (s : List UInt8) : (padded n s).length = n := by
  rw [padded, List.length_take, List.length_append, List.length_replicate]
  omega

/-- A text that fits is followed by NULs. -/
theorem padded_of_le {n : Nat} {s : List UInt8} (h : s.length ≤ n) :
    padded n s = s ++ List.replicate (n - s.length) 0 := by
  rw [padded, List.take_append, List.take_of_length_le h, List.take_replicate,
    Nat.min_eq_left (Nat.sub_le _ _)]

/-- A text without NULs is left as it is. -/
theorem stripNulls_eq_self {s : List UInt8} (h : 0 ∉ s) : stripNulls s = s := by
  rw [stripNulls, List.filter_eq_self]
  intro c hc
  have hne : c ≠ 0 := fun heq => h (heq ▸ hc)
  simpa using hne

/-- A text without NULs that fits is read back. -/
theorem stripNulls_padded {n : Nat} {s : List UInt8} (h : 0 ∉ s) (hlen : s.length ≤ n) :
    stripNulls (padded n s) = s := by
  have hfill : stripNulls (List.replicate (n - s.length) 0) = [] := by
    rw [stripNulls, List.filter_replicate]
    rfl
  rw [padded_of_le hlen, stripNulls, List.filter_append, ← stripNulls, ← stripNulls,
    stripNulls_eq_self h, hfill, List.append_nil]

/-- A field: a text of `n` bytes or a number of `n` bytes. -/
inductive StructField where
  | text (n : Nat)
  | uint (n : Nat)
  deriving DecidableEq, Repr

namespace StructField

/-- What stands in a field. -/
@[reducible] def Value : StructField → Type
  | text _ => List UInt8
  | uint _ => Int

/-- The number of bytes of a field. -/
def size : StructField → Nat
  | text n => n
  | uint n => n

/-- The value can be packed. -/
def Fits : (f : StructField) → f.Value → Prop
  | text _, _ => True
  | uint n, v => 0 ≤ v ∧ v < (256 ^ n : Nat)

instance Fits.decidable : (f : StructField) → (v : f.Value) → Decidable (f.Fits v)
  | text _, _ => isTrue trivial
  | uint _, _ => inferInstanceAs (Decidable (_ ∧ _))

/-- The bytes of a value that fits. -/
def bytes : (f : StructField) → f.Value → List UInt8
  | text n, s => padded n s
  | uint n, v => bigEndian n v.toNat

/-- The value that the bytes of a field stand for. -/
def value : (f : StructField) → List UInt8 → f.Value
  | text _, b => b
  | uint _, b => ofBigEndian b

/-- A field has its size, whatever its value. -/
theorem bytes_length (f : StructField) (v : f.Value) : (f.bytes v).length = f.size := by
  cases f with
  | text n => exact padded_length n v
  | uint n => exact bigEndian_length n _

/-- What comes back of a value: a text at its full width, or the number. -/
def read : (f : StructField) → f.Value → f.Value
  | text n, s => padded n s
  | uint _, v => v

/-- A value that fits is read back. -/
theorem value_bytes {f : StructField} {v : f.Value} (h : f.Fits v) :
    f.value (f.bytes v) = f.read v := by
  cases f with
  | text n => rfl
  | uint n =>
    have hlt : v.toNat < 256 ^ n := (Int.toNat_lt h.1).2 h.2
    show ((ofBigEndian (bigEndian n v.toNat) : Nat) : Int) = v
    rw [ofBigEndian_bigEndian hlt]
    exact Int.toNat_of_nonneg h.1

end StructField

/-- The values of the fields of a format. -/
@[reducible] def StructValues : List StructField → Type
  | [] => Unit
  | f :: fs => f.Value × StructValues fs

/-- `struct.calcsize`. -/
def calcsize (fmt : List StructField) : Nat := (fmt.map StructField.size).sum

/-- `struct.pack`. -/
def structPack : (fmt : List StructField) → StructValues fmt → Option (List UInt8)
  | [], _ => some []
  | f :: fs, (v, vs) => if f.Fits v then (f.bytes v ++ ·) <$> structPack fs vs else none

/-- The values in a body, field by field. -/
def structRead : (fmt : List StructField) → List UInt8 → StructValues fmt
  | [], _ => ()
  | f :: fs, b => (f.value (b.take f.size), structRead fs (b.drop f.size))

/-- `struct.unpack`. -/
def structUnpack (fmt : List StructField) (b : List UInt8) : Option (StructValues fmt) :=
  if b.length = calcsize fmt then some (structRead fmt b) else none

/-- Every number fits its field. -/
def StructFits : (fmt : List StructField) → StructValues fmt → Prop
  | [], _ => True
  | f :: fs, (v, vs) => f.Fits v ∧ StructFits fs vs

instance StructFits.decidable :
    (fmt : List StructField) → (vs : StructValues fmt) → Decidable (StructFits fmt vs)
  | [], _ => isTrue trivial
  | _ :: fs, (_, vs) =>
    have := StructFits.decidable fs vs
    inferInstanceAs (Decidable (_ ∧ _))

/-- The bytes of values that fit. -/
def structBytes : (fmt : List StructField) → StructValues fmt → List UInt8
  | [], _ => []
  | f :: fs, (v, vs) => f.bytes v ++ structBytes fs vs

/-- What comes back of the values. -/
def structReread : (fmt : List StructField) → StructValues fmt → StructValues fmt
  | [], _ => ()
  | f :: fs, (v, vs) => (f.read v, structReread fs vs)

/-- A structure has its size, whatever its values. -/
@[simp] theorem structBytes_length (fmt : List StructField) (vs : StructValues fmt) :
    (structBytes fmt vs).length = calcsize fmt := by
  induction fmt with
  | nil => rfl
  | cons f fs ih =>
    rw [structBytes, List.length_append, StructField.bytes_length, ih, calcsize, calcsize,
      List.map_cons, List.sum_cons]

/-- Values are packed exactly where all numbers fit. -/
theorem structPack_eq (fmt : List StructField) (vs : StructValues fmt) :
    structPack fmt vs = if StructFits fmt vs then some (structBytes fmt vs) else none := by
  induction fmt with
  | nil => rfl
  | cons f fs ih =>
    obtain ⟨v, vs⟩ := vs
    by_cases hv : f.Fits v
    · rw [structPack, if_pos hv, ih vs]
      by_cases hvs : StructFits fs vs
      · rw [if_pos hvs, if_pos ⟨hv, hvs⟩]
        rfl
      · rw [if_neg hvs, if_neg fun h => hvs h.2]
        rfl
    · rw [structPack, if_neg hv, if_neg fun h => hv h.1]

/-- Values that fit are read back. -/
theorem structRead_bytes {fmt : List StructField} {vs : StructValues fmt} (h : StructFits fmt vs) :
    structRead fmt (structBytes fmt vs) = structReread fmt vs := by
  induction fmt with
  | nil => rfl
  | cons f fs ih =>
    obtain ⟨v, vs⟩ := vs
    obtain ⟨hv, hvs⟩ := h
    have hsize := StructField.bytes_length f v
    rw [structRead, structBytes, List.take_left' hsize, List.drop_left' hsize,
      StructField.value_bytes hv, ih hvs, structReread]

/-- A structure whose values fit is read back. -/
theorem structUnpack_bytes {fmt : List StructField} {vs : StructValues fmt}
    (h : StructFits fmt vs) :
    structUnpack fmt (structBytes fmt vs) = some (structReread fmt vs) := by
  rw [structUnpack, if_pos (structBytes_length fmt vs), structRead_bytes h]

/-- A packed header is read back from the front of a body. -/
theorem structUnpack_take {fmt : List StructField} {vs : StructValues fmt}
    (h : StructFits fmt vs) (rest : List UInt8) :
    structUnpack fmt ((structBytes fmt vs ++ rest).take (calcsize fmt)) =
      some (structReread fmt vs) := by
  rw [List.take_left' (structBytes_length fmt vs), structUnpack_bytes h]

theorem drop_structBytes (fmt : List StructField) (vs : StructValues fmt) (rest : List UInt8) :
    (structBytes fmt vs ++ rest).drop (calcsize fmt) = rest :=
  List.drop_left' (structBytes_length fmt vs)

end ComputerNetworks
