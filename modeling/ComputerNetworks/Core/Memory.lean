import Mathlib.Algebra.Ring.Int.Defs
import Mathlib.Algebra.Ring.Nat
import Mathlib.Data.List.Basic
import Mathlib.Data.List.Infix

/-!
# Memory blocks and faults

A block is the list of its bytes and a pointer into it is an offset. Every read
or write outside the block, and every other step the C standard leaves
undefined, is an explicit fault of the computation, never a silent value.
-/

namespace ComputerNetworks

/-- The ways a call leaves the defined behaviour of the program. `Site` names the
assertions of the component under study. -/
inductive Fault (Site : Type) where
  /-- An access outside the block a pointer belongs to. -/
  | outOfBounds
  /-- A dereference of, or arithmetic on, a null pointer. -/
  | nullPointer
  /-- An access through a pointer whose block has been freed. -/
  | dangling
  /-- A use of a pointer that was never assigned. -/
  | indeterminate
  /-- A signed addition that does not fit its type. -/
  | signedOverflow
  /-- A failed `assert`. -/
  | assertion (site : Site)
  /-- The bound of a modelled loop was reached, which no loop that ends does. -/
  | outOfFuel
  deriving DecidableEq, Repr

/-- The same fault, its assertion named by the caller. -/
def Fault.map {Site Site' : Type} (f : Site → Site') : Fault Site → Fault Site'
  | .outOfBounds => .outOfBounds
  | .nullPointer => .nullPointer
  | .dangling => .dangling
  | .indeterminate => .indeterminate
  | .signedOverflow => .signedOverflow
  | .assertion site => .assertion (f site)
  | .outOfFuel => .outOfFuel

/-- A computation over memory either faults or returns. -/
abbrev Exec (Site α : Type) := Except (Fault Site) α

namespace Exec

variable {Site α β : Type}

/-- A bind returns exactly when its first part returns and its second returns on that. -/
theorem bind_eq_ok {first : Exec Site α} {next : α → Exec Site β} {out : β} :
    (first >>= next) = .ok out ↔ ∃ mid, first = .ok mid ∧ next mid = .ok out := by
  cases first with
  | error fault => exact iff_of_false (fun h => nomatch h) (fun ⟨_, h, _⟩ => nomatch h)
  | ok mid =>
    constructor
    · exact fun h => ⟨mid, rfl, h⟩
    · rintro ⟨mid', hmid, h⟩
      cases hmid
      exact h

/-- A mapped run returns if the run does. -/
theorem map_eq_ok {first : Exec Site α} {f : α → β} {out : β} :
    f <$> first = .ok out ↔ ∃ mid, first = .ok mid ∧ f mid = out := by
  cases first with
  | error fault => exact iff_of_false (fun h => nomatch h) (fun ⟨_, h, _⟩ => nomatch h)
  | ok mid =>
    constructor
    · exact fun h => ⟨mid, rfl, Except.ok.inj h⟩
    · rintro ⟨mid', hmid, rfl⟩
      cases hmid
      rfl

@[simp] theorem ok_bind (a : α) (f : α → Exec Site β) :
    ((.ok a : Exec Site α) >>= f) = f a := rfl

@[simp] theorem error_bind (fault : Fault Site) (f : α → Exec Site β) :
    ((.error fault : Exec Site α) >>= f) = .error fault := rfl

@[simp] theorem pure_eq_ok (a : α) : (pure a : Exec Site α) = .ok a := rfl

/-- Whether a computation ends in a given fault is decided by executing it. -/
instance decidableEqError [DecidableEq Site] (first : Exec Site α) (fault : Fault Site) :
    Decidable (first = .error fault) :=
  match first with
  | .ok _ => isFalse nofun
  | .error fault' => decidable_of_iff (fault' = fault) ⟨congrArg _, Except.error.inj⟩

/-- A call of a component, its assertions named by the caller. -/
def within {Site' : Type} (f : Site → Site') : Exec Site α → Exec Site' α
  | .error fault => .error (fault.map f)
  | .ok a => .ok a

@[simp] theorem within_ok {Site' : Type} (f : Site → Site') (a : α) :
    within f (.ok a) = .ok a := rfl

@[simp] theorem within_error {Site' : Type} (f : Site → Site') (fault : Fault Site) :
    within f (.error fault : Exec Site α) = .error (fault.map f) := rfl

/-- Renaming the assertions changes no result. -/
theorem within_eq_ok {Site' : Type} {f : Site → Site'} {run : Exec Site α} {a : α} :
    within f run = .ok a ↔ run = .ok a := by
  cases run with
  | error fault => exact iff_of_false nofun nofun
  | ok a' => rw [within_ok, Except.ok.injEq, Except.ok.injEq]

end Exec

/-- An assertion of the source: continue when it holds, abort at its site otherwise. -/
def assert {Site : Type} (cond : Prop) [Decidable cond] (site : Site) : Exec Site Unit :=
  if cond then .ok () else .error (.assertion site)

/-- An assertion passes exactly if its condition holds. -/
@[simp] theorem assert_eq_ok {Site : Type} {cond : Prop} [Decidable cond] {site : Site} {u : Unit} :
    assert cond site = .ok u ↔ cond := by
  unfold assert
  by_cases h : cond <;> simp [h]

/-- An assertion whose condition holds passes. -/
theorem assert_of {Site : Type} {cond : Prop} [Decidable cond] {site : Site} (h : cond) :
    assert cond site = .ok () := by simp [assert, h]

/-- An assertion whose condition fails stops the run. -/
theorem assert_not {Site : Type} {cond : Prop} [Decidable cond] {site : Site} (h : ¬cond) :
    assert cond site = .error (.assertion site) := by simp [assert, h]

/-- The `n` bytes a copy reads at an offset of a block. -/
def readAt {Site : Type} (b : List UInt8) (off n : Nat) : Exec Site (List UInt8) :=
  if off + n ≤ b.length then .ok ((b.drop off).take n) else .error .outOfBounds

/-- A read inside the block returns its bytes. -/
theorem readAt_of_le {Site : Type} {b : List UInt8} {off n : Nat} (h : off + n ≤ b.length) :
    (readAt b off n : Exec Site (List UInt8)) = .ok ((b.drop off).take n) := if_pos h

/-- The bytes a block starts with. -/
theorem readAt_prefix {Site : Type} (front rest : List UInt8) :
    (readAt (front ++ rest) 0 front.length : Exec Site (List UInt8)) = .ok front := by
  rw [readAt_of_le, List.drop_zero, List.take_left]
  rw [List.length_append]
  omega

/-- `memcpy(b + off, src, |src|)`: the bytes of `src` replace those of the block at `off`. -/
def memcpyAt {Site : Type} (b : List UInt8) (off : Nat) (src : List UInt8) :
    Exec Site (List UInt8) :=
  if off + src.length ≤ b.length then .ok (b.take off ++ src ++ b.drop (off + src.length))
  else .error .outOfBounds

/-- Copying right after a written prefix extends that prefix. -/
theorem memcpyAt_append {Site : Type} (done rest src : List UInt8)
    (h : src.length ≤ rest.length) :
    (memcpyAt (done ++ rest) done.length src : Exec Site (List UInt8)) =
      .ok (done ++ src ++ rest.drop src.length) := by
  have hl : done.length + src.length ≤ (done ++ rest).length := by
    rw [List.length_append]
    omega
  rw [memcpyAt, if_pos hl]
  simp [List.drop_append]

/-- Copying to the start of a block that is large enough. -/
theorem memcpyAt_zero {Site : Type} {b src : List UInt8} (h : src.length ≤ b.length) :
    (memcpyAt b 0 src : Exec Site (List UInt8)) = .ok (src ++ b.drop src.length) :=
  memcpyAt_append [] b src h

/-- `memcpy(dst, src, n)` between two blocks. -/
def memcpy {Site : Type} (dst src : List UInt8) (n : Nat) : Exec Site (List UInt8) := do
  memcpyAt dst 0 (← readAt src 0 n)

/-- A copy that fits overwrites the start of its target. -/
theorem memcpy_eq {Site : Type} {dst src : List UInt8} {n : Nat} (hsrc : n ≤ src.length)
    (hdst : n ≤ dst.length) :
    (memcpy dst src n : Exec Site (List UInt8)) = .ok (src.take n ++ dst.drop n) := by
  have hlen : (src.take n).length = n := by rw [List.length_take, Nat.min_eq_left hsrc]
  have hread : (readAt src 0 n : Exec Site (List UInt8)) = .ok (src.take n) :=
    readAt_of_le (by omega)
  rw [memcpy, hread, Exec.ok_bind, memcpyAt_zero (by omega), hlen]

/-- `memmove(b, b + off, n)` inside one block. -/
def memmoveFront {Site : Type} (b : List UInt8) (off n : Nat) : Exec Site (List UInt8) := do
  memcpyAt b 0 (← readAt b off n)

/-- The moved bytes now start the block, which keeps its size. -/
theorem memmoveFront_spec {Site : Type} {b : List UInt8} {off n : Nat} (h : off + n ≤ b.length) :
    ∃ b', (memmoveFront b off n : Exec Site (List UInt8)) = .ok b' ∧ b'.length = b.length ∧
      b'.take n = (b.drop off).take n := by
  have hlen : ((b.drop off).take n).length = n := by
    rw [List.length_take, List.length_drop]
    omega
  have hcopy : (memmoveFront b off n : Exec Site (List UInt8)) =
      .ok ((b.drop off).take n ++ b.drop n) := by
    rw [memmoveFront, readAt_of_le h, Exec.ok_bind, memcpyAt_zero (by omega), hlen]
  refine ⟨_, hcopy, ?_, List.take_left' hlen⟩
  rw [List.length_append, hlen, List.length_drop]
  omega

/-- A copy never changes the size of the block. -/
theorem memcpyAt_length {Site : Type} {b b' src : List UInt8} {off : Nat}
    (h : (memcpyAt b off src : Exec Site (List UInt8)) = .ok b') : b'.length = b.length := by
  unfold memcpyAt at h
  split at h
  · cases h
    simp only [List.length_append, List.length_take, List.length_drop]
    omega
  · cases h

/-- A copy replaces the bytes of its range and no others. -/
theorem memcpyAt_spec {Site : Type} {b src : List UInt8} {off : Nat}
    (h : off + src.length ≤ b.length) :
    ∃ b', (memcpyAt b off src : Exec Site (List UInt8)) = .ok b' ∧ b'.length = b.length ∧
      ∀ i, b'[i]? = if off ≤ i ∧ i < off + src.length then src[i - off]? else b[i]? := by
  have hcopy : (memcpyAt b off src : Exec Site (List UInt8)) =
      .ok (b.take off ++ src ++ b.drop (off + src.length)) := if_pos h
  refine ⟨_, hcopy, memcpyAt_length hcopy, fun i => ?_⟩
  have htake : (b.take off).length = off := by
    rw [List.length_take]
    omega
  have hfront : (b.take off ++ src).length = off + src.length := by
    rw [List.length_append, htake]
  by_cases hlow : i < off
  · rw [if_neg (by omega), List.append_assoc, List.getElem?_append_left (by omega),
      List.getElem?_take_of_lt hlow]
  · by_cases hhigh : i < off + src.length
    · rw [if_pos ⟨by omega, hhigh⟩, List.getElem?_append_left (by omega),
        List.getElem?_append_right (by omega), htake]
    · rw [if_neg (by omega), List.getElem?_append_right (by omega), hfront, List.getElem?_drop,
        Nat.add_sub_cancel' (by omega)]

/-- A pointer variable: never assigned, null, or the place it leads to. -/
inductive Pointer (α : Type) where
  | unassigned
  | null
  | into (target : α)
  deriving DecidableEq, Repr

/-- Follow a pointer. -/
def Pointer.follow {Site α : Type} : Pointer α → Exec Site α
  | unassigned => .error .indeterminate
  | null => .error .nullPointer
  | into target => .ok target

end ComputerNetworks
