import ComputerNetworks.Core.Machine
import ComputerNetworks.Mysock.HashTable

/-!
# Runs of the hash table

Any sequence of the macros of `mysock_hash.h`, side by side with the same updates
of a map. The table stops where the map does: at a lookup of the data of an absent
key, which the header rules out, and at a new key for which `malloc` has no memory.
No other assertion of the table fails.
-/

namespace ComputerNetworks.Mysock

/-- The calls of the macros; an insertion comes with what `malloc` returns for it. -/
inductive HashOp (K V : Type) where
  | insert (key : K) (data : V) (mem : Option Addr)
  | setEntry (key : K) (data : V) (mem : Option Addr)
  | delete (key : K)
  | lookup (key : K)
  | lookupPtr (key : K)
  | entryExists (key : K)

/-- What the lookups answer. -/
inductive HashAnswer (V : Type) where
  | data (value : V)
  | holds (present : Bool)
  deriving DecidableEq, Repr

/-- The table with the answers so far, the last one first. -/
structure HashRun (K V : Type) where
  table : HashTable K V
  answers : List (HashAnswer V)

/-- A map with the answers so far. -/
structure MapRun (K V : Type) where
  map : K → Option V
  answers : List (HashAnswer V)

/-- The reasons for which the map takes no further call. -/
inductive HashStop where
  /-- There is no memory for a new key. -/
  | noMemory
  /-- A lookup asked for the data of an absent key. -/
  | absent
  deriving DecidableEq, Repr

/-- The assertion that stands at each reason. -/
def HashStop.site : HashStop → HashAssert
  | noMemory => .allocated
  | absent => .found

section Runs

variable {K V : Type} [DecidableEq K]

namespace MapRun

/-- A new key needs memory. -/
def store (t : MapRun K V) (key : K) (data : V) : Option Addr → Except HashStop (MapRun K V)
  | none => .error .noMemory
  | some _ => .ok { t with map := Function.update t.map key (some data) }

/-- What the calls do to a map. -/
def step (null : V) (t : MapRun K V) : HashOp K V → Except HashStop (MapRun K V)
  | .insert key data mem => t.store key data mem
  | .setEntry key data mem =>
    match t.map key with
    | some _ => .ok { t with map := Function.update t.map key (some data) }
    | none => t.store key data mem
  | .delete key => .ok { t with map := Function.update t.map key none }
  | .lookup key =>
    match t.map key with
    | none => .error .absent
    | some value => .ok { t with answers := .data value :: t.answers }
  | .lookupPtr key => .ok { t with answers := .data ((t.map key).getD null) :: t.answers }
  | .entryExists key => .ok { t with answers := .holds (t.map key).isSome :: t.answers }

end MapRun

namespace HashRun

/-- What the macros do to the table. -/
def step (D : HashDecl K) (null : V) (s : HashRun K V) : HashOp K V → Exec HashAssert (HashRun K V)
  | .insert key data mem => do pure { s with table := ← s.table.insert D key data mem }
  | .setEntry key data mem => do pure { s with table := ← s.table.setEntry D key data mem }
  | .delete key => do pure { s with table := ← s.table.delete D key }
  | .lookup key => do
    pure { s with answers := .data (← s.table.lookup D key) :: s.answers }
  | .lookupPtr key => do
    pure { s with answers := .data (← s.table.lookupPtr D null key) :: s.answers }
  | .entryExists key => do
    pure { s with answers := .holds (← s.table.entryExists D key) :: s.answers }

/-- `malloc` returns unused memory or none, and no key is inserted twice. -/
def Enabled (D : HashDecl K) (s : HashRun K V) : HashOp K V → Prop
  | .insert key _ mem =>
    s.table.entryExists D key = .ok false ∧ ∀ a ∈ mem, (s.table.heap a).isNone
  | .setEntry _ _ mem => ∀ a ∈ mem, (s.table.heap a).isNone
  | .delete _ | .lookup _ | .lookupPtr _ | .entryExists _ => True

/-- The table under any calls. -/
def machine (D : HashDecl K) (null : V) : Machine HashAssert (HashRun K V) (HashOp K V) where
  enabled := Enabled D
  step := step D null

/-- The table stands for the map, and has given its answers. -/
def Stands (D : HashDecl K) (s : HashRun K V) (t : MapRun K V) : Prop :=
  s.table.Holds D t.map ∧ s.answers = t.answers

/-- An insertion of an absent key ends as it does on a map. -/
theorem insert_endsAs {D : HashDecl K} {s : HashRun K V} {t : MapRun K V} (h : s.Stands D t)
    {key : K} (habsent : t.map key = none) (data : V) {mem : Option Addr}
    (hmem : ∀ a ∈ mem, (s.table.heap a).isNone) :
    Machine.EndsAs (Stands D) HashStop.site
      (do pure { s with table := ← s.table.insert D key data mem }) (t.store key data mem) := by
  cases mem with
  | none =>
    rw [HashTable.insert_none]
    rfl
  | some a =>
    obtain ⟨table, hrun, hholds⟩ :=
      HashTable.insert_holds h.1 habsent data (Option.isNone_iff_eq_none.1 (hmem a rfl))
    rw [hrun]
    exact ⟨_, rfl, hholds, h.2⟩

/-- Each call ends as it does on a map. -/
theorem step_endsAs {D : HashDecl K} (null : V) {s : HashRun K V} {t : MapRun K V}
    (h : s.Stands D t) {op : HashOp K V} (henabled : s.Enabled D op) :
    Machine.EndsAs (Stands D) HashStop.site (s.step D null op) (t.step null op) := by
  cases op with
  | insert key data mem =>
    obtain ⟨hnew, hmem⟩ := henabled
    rw [HashTable.entryExists_eq h.1, Except.ok.injEq, Option.isSome_eq_false_iff,
      Option.isNone_iff_eq_none] at hnew
    exact insert_endsAs h hnew data hmem
  | setEntry key data mem =>
    cases hkey : t.map key with
    | none =>
      have hset : s.step D null (.setEntry key data mem) =
          s.step D null (.insert key data mem) := by
        rw [step, step, HashTable.setEntry_absent h.1 hkey]
      rw [hset, MapRun.step, hkey]
      exact insert_endsAs h hkey data henabled
    | some value =>
      obtain ⟨table, hrun, hholds⟩ := HashTable.setEntry_present h.1 hkey data mem
      rw [MapRun.step, hkey, step, hrun]
      exact ⟨_, rfl, hholds, h.2⟩
  | delete key =>
    obtain ⟨table, hrun, hholds⟩ := HashTable.delete_holds h.1 key
    rw [step, hrun]
    exact ⟨_, rfl, hholds, h.2⟩
  | lookup key =>
    cases hkey : t.map key with
    | none =>
      rw [MapRun.step, hkey, step, HashTable.lookup_absent h.1 hkey]
      rfl
    | some value =>
      rw [MapRun.step, hkey, step, HashTable.lookup_present h.1 hkey]
      exact ⟨_, rfl, h.1, congrArg _ h.2⟩
  | lookupPtr key =>
    rw [step, HashTable.lookupPtr_eq h.1]
    exact ⟨_, rfl, h.1, congrArg _ h.2⟩
  | entryExists key =>
    rw [step, HashTable.entryExists_eq h.1]
    exact ⟨_, rfl, h.1, congrArg _ h.2⟩

instance decidableEnabled (D : HashDecl K) (s : HashRun K V) :
    ∀ op, Decidable (s.Enabled D op)
  | .insert _ _ _ => inferInstanceAs (Decidable (_ ∧ _))
  | .setEntry _ _ mem => inferInstanceAs (Decidable (∀ a ∈ mem, _))
  | .delete _ | .lookup _ | .lookupPtr _ | .entryExists _ => inferInstanceAs (Decidable True)

instance machine_decidableEnabled (D : HashDecl K) (null : V) (s : HashRun K V) (op : HashOp K V) :
    Decidable ((machine D null).enabled s op) :=
  decidableEnabled D s op

end HashRun

/-- Any run of the table from its declaration on ends as the same run of a map: with the answers of
the map and a table that stands for it, or at the assertion for which the map stops too. -/
theorem hashTable_refines_map (D : HashDecl K) (null : V)
    (heap : Addr → Option (HashEntry K V)) {ops : List (HashOp K V)}
    (hops : (HashRun.machine D null).Admissible ⟨.empty heap, []⟩ ops) :
    Machine.EndsAs (HashRun.Stands D) HashStop.site
      ((HashRun.machine D null).run ⟨.empty heap, []⟩ ops)
      (ops.foldlM (MapRun.step null) ⟨fun _ => none, []⟩) :=
  Machine.run_endsAs (fun _ _ _ hst henabled => HashRun.step_endsAs null hst henabled)
    ⟨HashTable.holds_empty D heap, rfl⟩ hops

end Runs

/-- Two sockets in one bucket of `listen_table`, the first of them deleted behind the second. -/
def collidingOps : List (HashOp Nat Nat) :=
  [.insert 1 10 (some 100), .insert 65 20 (some 101), .setEntry 65 21 none, .delete 1,
    .lookup 65, .lookupPtr 1, .entryExists 1, .insert 129 30 none]

theorem hashTable_refines_map_colliding :
    Machine.EndsAs (HashRun.Stands (.declare 64 (by decide))) HashStop.site
      ((HashRun.machine (.declare 64 (by decide)) 0).run ⟨.empty fun _ => none, []⟩ collidingOps)
      (collidingOps.foldlM (MapRun.step 0) ⟨fun _ => none, []⟩) :=
  hashTable_refines_map _ 0 _ (by decide +kernel)

/-- An insertion for which there is no memory ends at an assertion. -/
theorem not_hashTable_neverAborts :
    ¬∀ ops : List (HashOp Nat Nat),
      (HashRun.machine (.declare 64 (by decide)) 0).Admissible ⟨.empty fun _ => none, []⟩ ops →
      ∀ site ∈ [HashAssert.index, .allocated, .inserted, .deleted],
        (HashRun.machine (.declare 64 (by decide)) 0).run ⟨.empty fun _ => none, []⟩ ops ≠
          .error (.assertion site) := by
  intro h
  exact h [.insert 1 10 none] (by decide +kernel) .allocated (by decide) (by decide +kernel)

end ComputerNetworks.Mysock
