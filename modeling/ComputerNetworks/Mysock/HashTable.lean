import ComputerNetworks.Core.HashedLists
import ComputerNetworks.Mysock.PacketQueue

/-!
# The hash table

The functions that `HASH_TABLE_DECLARE_EXTENDED` of `mysock_hash.h` declares, for
any key and data types: an array of chains of entries in a heap. Each of
them does to the map that the table stands for what its name says, whatever keys
collide, as long as no key is inserted twice.
-/

namespace ComputerNetworks.Mysock

open HashedLists

/-- The assertions of the hash table. -/
inductive HashAssert where
  /-- `assert(ndx < size)`. -/
  | index
  /-- `assert(tbl[ndx])` after `malloc`. -/
  | allocated
  /-- `assert(_hash_get_entry(key) == tbl[ndx])`. -/
  | inserted
  /-- `assert(e)` of a lookup. -/
  | found
  /-- `assert(!_hash_get_entry(key))`. -/
  | deleted
  deriving DecidableEq, Repr

/-- The hash function and the size a table is declared with. -/
structure HashDecl (K : Type) where
  hashfn : K → Nat → Nat
  size : Nat
  hashfn_lt : ∀ key, hashfn key size < size

/-- The bucket of a key. -/
def HashDecl.hash {K : Type} (D : HashDecl K) (key : K) : Nat := D.hashfn key D.size

/-- An entry of the table; a null pointer is `none`. -/
structure HashEntry (K V : Type) where
  key : K
  data : V
  next : Option Addr

/-- The array of chains, with the heap their entries live in and the number of entries inserted so
far, which bounds every walk along a chain. -/
structure HashTable (K V : Type) where
  heap : Addr → Option (HashEntry K V)
  tbl : Nat → Option Addr
  nodes : Nat

/-- The table of a static declaration, in any heap. -/
def HashTable.empty {K V : Type} (heap : Addr → Option (HashEntry K V)) : HashTable K V :=
  ⟨heap, fun _ => none, 0⟩

/-- Read an entry through a pointer that is not null. -/
def entryOf {K V : Type} (heap : Addr → Option (HashEntry K V)) (a : Addr) :
    Exec HashAssert (HashEntry K V) :=
  match heap a with
  | none => .error .dangling
  | some e => .ok e

theorem entryOf_some {K V : Type} {heap : Addr → Option (HashEntry K V)} {a : Addr}
    {e : HashEntry K V} (h : heap a = some e) : entryOf heap a = .ok e := by
  rw [entryOf, h]

/-- `ndx = hashfn(key, size)` with its assert. -/
def HashDecl.ndx {K : Type} (D : HashDecl K) (key : K) : Exec HashAssert Nat := do
  assert (D.hash key < D.size) .index
  pure (D.hash key)

/-- The index is the hash of the key, which lies in the table. -/
theorem HashDecl.ndx_eq {K : Type} (D : HashDecl K) (key : K) : D.ndx key = .ok (D.hash key) := by
  have hlt : D.hash key < D.size := D.hashfn_lt key
  rw [ndx, assert_of hlt]
  rfl

/-- `HASH_TABLE_DECLARE`, with `HASH_DEFAULT_HASH_FN` on keys that are not negative. -/
def HashDecl.declare (size : Nat) (hsize : 0 < size) : HashDecl Nat where
  hashfn := fun key size => key % size
  size := size
  hashfn_lt := fun key => Nat.mod_lt key hsize

namespace HashTable

variable {K V : Type} [DecidableEq K]

/-- The loops along a chain from `e` on: the entry passed last and the one with the key. -/
def findEntry (heap : Addr → Option (HashEntry K V)) (key : K) :
    Nat → Option Addr → Option Addr → Exec HashAssert (Option Addr × Option Addr)
  | _, prev, none => .ok (prev, none)
  | 0, _, some _ => .error .outOfFuel
  | fuel + 1, prev, some a => do
    let e ← entryOf heap a
    if e.key = key then pure (prev, some a) else findEntry heap key fuel (some a) e.next

/-- `_hash_get_entry`. -/
def getEntry (D : HashDecl K) (t : HashTable K V) (key : K) : Exec HashAssert (Option Addr) := do
  let ndx ← D.ndx key
  let (_, e) ← findEntry t.heap key t.nodes none (t.tbl ndx)
  pure e

/-- `_hash_insert`, with what `malloc` returns. -/
def insert (D : HashDecl K) (t : HashTable K V) (key : K) (data : V) (mem : Option Addr) :
    Exec HashAssert (HashTable K V) := do
  let ndx ← D.ndx key
  let oldHead := t.tbl ndx
  match mem with
  | none => .error (.assertion .allocated)
  | some a => do
    let t : HashTable K V :=
      ⟨Function.update t.heap a (some ⟨key, data, oldHead⟩), Function.update t.tbl ndx (some a),
        t.nodes + 1⟩
    let e ← getEntry D t key
    assert (e = t.tbl ndx) .inserted
    pure t

/-- `_hash_lookup`. -/
def lookup (D : HashDecl K) (t : HashTable K V) (key : K) : Exec HashAssert V := do
  match ← getEntry D t key with
  | none => .error (.assertion .found)
  | some a => do
    let e ← entryOf t.heap a
    pure e.data

/-- `_hash_lookup_ptr`, where the data are pointers with the null pointer `null`. -/
def lookupPtr (D : HashDecl K) (t : HashTable K V) (null : V) (key : K) : Exec HashAssert V := do
  match ← getEntry D t key with
  | none => pure null
  | some a => do
    let e ← entryOf t.heap a
    pure e.data

/-- `_hash_entry_exists`. -/
def entryExists (D : HashDecl K) (t : HashTable K V) (key : K) : Exec HashAssert Bool := do
  let e ← getEntry D t key
  pure e.isSome

/-- `_hash_set_entry`. -/
def setEntry (D : HashDecl K) (t : HashTable K V) (key : K) (data : V) (mem : Option Addr) :
    Exec HashAssert (HashTable K V) := do
  match ← getEntry D t key with
  | some a => do
    let e ← entryOf t.heap a
    pure { t with heap := Function.update t.heap a (some { e with data }) }
  | none => insert D t key data mem

/-- The write of `e->next` through the conditional pointer to the head of the chain or to the link
of the entry before. -/
def unlinkEntry (t : HashTable K V) (ndx : Nat) (prev : Option Addr) (a : Addr) :
    Exec HashAssert (HashTable K V) := do
  let e ← entryOf t.heap a
  if t.tbl ndx = some a then pure { t with tbl := Function.update t.tbl ndx e.next }
  else
    match prev with
    | none => .error .nullPointer
    | some b => do
      let p ← entryOf t.heap b
      pure { t with heap := Function.update t.heap b (some { p with next := e.next }) }

/-- `_hash_delete`. -/
def delete (D : HashDecl K) (t : HashTable K V) (key : K) : Exec HashAssert (HashTable K V) := do
  let ndx ← D.ndx key
  let (prev, e) ← findEntry t.heap key t.nodes none (t.tbl ndx)
  let t ← match e with
    | none => pure t
    | some a => do
      let t ← unlinkEntry t ndx prev a
      -- `free(e)`
      pure { t with heap := Function.update t.heap a none }
  let left ← getEntry D t key
  assert (left = none) .deleted
  pure t

end HashTable

/-- A cell of a chain: where an entry is and what it holds. -/
abbrev HashCell (K V : Type) := Addr × HashEntry K V

namespace HashTable

variable {K V : Type}

/-- What an entry maps to what. -/
def binding (c : HashCell K V) : K × V := (c.2.key, c.2.data)

/-- The bindings of each chain. -/
def bindings (cells : Nat → List (HashCell K V)) (i : Nat) : List (K × V) :=
  (cells i).map binding

/-- Writing to one bucket changes the bindings of that bucket. -/
theorem bindings_update (cells : Nat → List (HashCell K V)) (i : Nat)
    (cells' : List (HashCell K V)) :
    bindings (Function.update cells i cells') =
      Function.update (bindings cells) i (cells'.map binding) :=
  funext (Function.apply_update (fun _ => List.map binding) cells i cells')

/-- The chains spell these cells, every entry in its own bucket and no key twice. -/
structure Rep (D : HashDecl K) (t : HashTable K V) (cells : Nat → List (HashCell K V)) :
    Prop where
  chain : ∀ i, Chain HashEntry.next t.heap (t.tbl i) (cells i)
  hashed : Hashed D.hash (bindings cells)
  length_le : ∀ i, (cells i).length ≤ t.nodes

namespace Rep

variable {D : HashDecl K} {t : HashTable K V} {cells : Nat → List (HashCell K V)}

/-- An address is on one chain, once. -/
theorem eq_of_addr (h : Rep D t cells) {i j : Nat} {c d : HashCell K V} (hc : c ∈ cells i)
    (hd : d ∈ cells j) (haddr : c.1 = d.1) : c = d ∧ i = j := by
  have hheap := (h.chain i).heap_eq hc
  rw [haddr, (h.chain j).heap_eq hd] at hheap
  have heq : c = d := Prod.ext haddr (Option.some.inj hheap).symm
  refine ⟨heq, ?_⟩
  rw [← h.hashed.own i _ (List.mem_map_of_mem hc), heq, h.hashed.own j _ (List.mem_map_of_mem hd)]

/-- No cell occurs twice in a bucket. -/
theorem nodup (h : Rep D t cells) (i : Nat) : ((cells i).map Prod.fst).Nodup := by
  have hkeys := h.hashed.nodup i
  rw [bindings, List.map_map] at hkeys
  refine List.Nodup.map_on (fun c hc d hd haddr => (h.eq_of_addr hc hd haddr).1) ?_
  exact hkeys.of_map

section Split

variable {i : Nat} {front rest : List (HashCell K V)} {a : Addr} {e : HashEntry K V}

theorem mem_split (hbucket : cells i = front ++ (a, e) :: rest) : (a, e) ∈ cells i := by
  rw [hbucket]
  exact List.mem_append_right _ List.mem_cons_self

/-- The bindings of a bucket in which a key occurs. -/
theorem bindings_split {key : K} (hbucket : cells i = front ++ (a, e) :: rest)
    (hkey : e.key = key) :
    bindings cells i = front.map binding ++ (key, e.data) :: rest.map binding := by
  rw [bindings, hbucket, List.map_append, List.map_cons, binding, hkey]

/-- The other cells of the chain are elsewhere. -/
theorem addr_ne (h : Rep D t cells) (hbucket : cells i = front ++ (a, e) :: rest) :
    ∀ b ∈ (front ++ rest).map Prod.fst, b ≠ a := by
  have hnodup := h.nodup i
  rw [hbucket, List.map_append, List.map_cons] at hnodup
  rw [List.map_append]
  rintro b hb rfl
  exact (List.nodup_cons.1 (List.nodup_middle.1 hnodup)).1 hb

/-- So are the cells of the other chains. -/
theorem addr_ne_other (h : Rep D t cells) (hbucket : cells i = front ++ (a, e) :: rest) {j : Nat}
    (hj : j ≠ i) {c : HashCell K V} (hc : c ∈ cells j) : c.1 ≠ a :=
  fun haddr => hj (h.eq_of_addr hc (mem_split hbucket) haddr).2

/-- Unlinking an entry, the head of its chain or an inner one, leaves the chain of the others. -/
theorem unlinkEntry (h : Rep D t cells)
    (hbucket : cells i = front ++ (a, e) :: rest) :
    ∃ t' front', t.unlinkEntry i (Chain.lastPassed none front) a = .ok t' ∧
      Chain HashEntry.next t'.heap (t'.tbl i) (front' ++ rest) ∧
      front'.map Prod.fst = front.map Prod.fst ∧ front'.map binding = front.map binding ∧
      (∀ j, j ≠ i → t'.tbl j = t.tbl j) ∧
      (∀ b, b ∉ front.map Prod.fst → t'.heap b = t.heap b) ∧ t'.nodes = t.nodes := by
  have hentry : t.heap a = some e := (h.chain i).heap_eq (mem_split hbucket)
  have hchain := h.chain i
  rw [hbucket] at hchain
  rcases List.eq_nil_or_concat' front with rfl | ⟨front, ⟨b, p⟩, rfl⟩
  · let t' : HashTable K V := { t with tbl := Function.update t.tbl i e.next }
    have hhead : t'.tbl i = e.next := Function.update_self ..
    refine ⟨t', [], ?_, ?_, rfl, rfl, fun j hj => Function.update_of_ne hj _ _, fun _ _ => rfl, rfl⟩
    · rw [HashTable.unlinkEntry, entryOf_some hentry, Exec.ok_bind, if_pos hchain.1]
      rfl
    · rw [hhead]
      exact hchain.2.2
  · have hothers := h.addr_ne hbucket
    have hinner : t.tbl i ≠ some a := by
      intro hhead
      rw [hhead] at hchain
      have hmem := hchain.head_mem (by simp)
      exact hothers a (by rw [List.map_append]; exact List.mem_append_left _ hmem) rfl
    rw [List.append_assoc] at hbucket hchain
    have hprev : t.heap b = some p := hchain.heap_eq (List.mem_append_right _ List.mem_cons_self)
    let p' : HashEntry K V := { p with next := e.next }
    let t' : HashTable K V := { t with heap := Function.update t.heap b (some p') }
    have hframe : ∀ c ∈ (front ++ (a, e) :: rest).map Prod.fst, t'.heap c = t.heap c := fun c hc =>
      Function.update_of_ne (h.addr_ne hbucket c hc) _ _
    rw [List.map_append, List.map_cons] at hframe
    have hrest : Chain HashEntry.next t'.heap e.next rest := hchain.rest.2.2.frame fun c hc =>
      hframe c (List.mem_append_right _ (List.mem_cons_of_mem _ hc))
    refine ⟨t', front ++ [(b, p')], ?_, ?_, ?_, ?_, fun _ _ => rfl, ?_, rfl⟩
    · rw [Chain.lastPassed_append, HashTable.unlinkEntry, entryOf_some hentry, Exec.ok_bind,
        if_neg hinner]
      simp only [entryOf_some hprev, Exec.ok_bind]
      rfl
    · rw [List.append_assoc]
      exact hchain.splice (fun c hc => hframe c (List.mem_append_left _ hc))
        (Function.update_self ..) hrest
    · simp
    · simp [binding, p']
    · intro c hc
      refine Function.update_of_ne ?_ _ _
      rintro rfl
      exact hc (by simp)

end Split

end Rep

variable [DecidableEq K]

/-- A walk stops at an entry with the key, or at the end of the chain. -/
theorem findEntry_spec {heap : Addr → Option (HashEntry K V)} (key : K) {fuel : Nat}
    {p : Option Addr} {cells : List (HashCell K V)}
    (hchain : Chain HashEntry.next heap p cells) (hfuel : cells.length ≤ fuel) :
    ((∀ c ∈ cells, c.2.key ≠ key) ∧
      ∃ prev, findEntry heap key fuel none p = .ok (prev, none)) ∨
    ∃ front a e rest, cells = front ++ (a, e) :: rest ∧ e.key = key ∧
      findEntry heap key fuel none p = .ok (Chain.lastPassed none front, some a) := by
  let done (prev found : Option Addr) : Exec HashAssert (Option Addr × Option Addr) :=
    .ok (prev, found)
  have hend (fuel : Nat) (prev : Option Addr) :
      findEntry heap key fuel prev none = done prev none := by
    unfold findEntry
    rfl
  have hstop (fuel : Nat) (prev : Option Addr) (a : Addr) (e : HashEntry K V)
      (hheap : heap a = some e) (hkey : e.key = key) :
      findEntry heap key (fuel + 1) prev (some a) = done prev (some a) := by
    rw [findEntry, entryOf_some hheap, Exec.ok_bind, if_pos hkey]
    rfl
  have hnext (fuel : Nat) (prev : Option Addr) (a : Addr) (e : HashEntry K V)
      (hheap : heap a = some e) (hkey : e.key ≠ key) :
      findEntry heap key (fuel + 1) prev (some a) = findEntry heap key fuel (some a) e.next := by
    rw [findEntry, entryOf_some hheap, Exec.ok_bind, if_neg hkey]
  rcases hchain.search hend hstop hnext none hfuel with
    hmiss | ⟨front, a, e, rest, hcells, -, hkey, hrun⟩
  · exact .inl hmiss
  · exact .inr ⟨front, a, e, rest, hcells, hkey, hrun⟩

/-- The table stands for a map. -/
def Holds (D : HashDecl K) (t : HashTable K V) (m : K → Option V) : Prop :=
  ∃ cells, Rep D t cells ∧ toMap D.hash (bindings cells) = m

theorem holds_empty (D : HashDecl K) (heap : Addr → Option (HashEntry K V)) :
    Holds D (empty heap) fun _ => none :=
  ⟨fun _ => [], ⟨fun _ => rfl, hashed_empty D.hash, fun _ => Nat.le_refl 0⟩, rfl⟩

namespace Rep

variable {D : HashDecl K} {t : HashTable K V} {cells : Nat → List (HashCell K V)}

/-- A walk for an absent key passes the whole chain. -/
theorem find_absent (h : Rep D t cells) {key : K}
    (habsent : toMap D.hash (bindings cells) key = none) :
    ∃ prev, findEntry t.heap key t.nodes none (t.tbl (D.hash key)) = .ok (prev, none) := by
  rcases findEntry_spec key (h.chain (D.hash key)) (h.length_le _) with
    ⟨-, hrun⟩ | ⟨front, a, e, rest, hbucket, hkey, -⟩
  · exact hrun
  · exact nomatch habsent.symm.trans (h.hashed.toMap_eq_some (bindings_split hbucket hkey))

/-- A walk for a key that is present finds its entry. -/
theorem find_present (h : Rep D t cells) {key : K} {value : V}
    (hpresent : toMap D.hash (bindings cells) key = some value) :
    ∃ front a e rest, cells (D.hash key) = front ++ (a, e) :: rest ∧ e.key = key ∧
      e.data = value ∧ findEntry t.heap key t.nodes none (t.tbl (D.hash key)) =
        .ok (Chain.lastPassed none front, some a) := by
  rcases findEntry_spec key (h.chain (D.hash key)) (h.length_le _) with
    ⟨hmiss, -⟩ | ⟨front, a, e, rest, hbucket, hkey, hrun⟩
  · have hnone : toMap D.hash (bindings cells) key = none := by
      refine lookup_eq_none.2 fun b hb => ?_
      obtain ⟨c, hc, rfl⟩ := List.mem_map.1 hb
      exact hmiss c hc
    exact nomatch hpresent.symm.trans hnone
  · have hvalue := h.hashed.toMap_eq_some (bindings_split hbucket hkey)
    exact ⟨front, a, e, rest, hbucket, hkey,
      Option.some.inj (hvalue.symm.trans hpresent), hrun⟩

/-- An absent key is not found. -/
theorem getEntry_absent (h : Rep D t cells) {key : K}
    (habsent : toMap D.hash (bindings cells) key = none) : t.getEntry D key = .ok none := by
  obtain ⟨prev, hrun⟩ := h.find_absent habsent
  rw [HashTable.getEntry, D.ndx_eq, Exec.ok_bind, hrun]
  rfl

/-- A present key is found in its bucket. -/
theorem getEntry_present (h : Rep D t cells) {key : K} {value : V}
    (hpresent : toMap D.hash (bindings cells) key = some value) :
    ∃ front a e rest, cells (D.hash key) = front ++ (a, e) :: rest ∧ e.key = key ∧
      e.data = value ∧ t.getEntry D key = .ok (some a) := by
  obtain ⟨front, a, e, rest, hbucket, hkey, hvalue, hrun⟩ := h.find_present hpresent
  refine ⟨front, a, e, rest, hbucket, hkey, hvalue, ?_⟩
  rw [HashTable.getEntry, D.ndx_eq, Exec.ok_bind, hrun]
  rfl

/-- One chain of the table has changed, and with it the map. -/
theorem change (h : Rep D t cells) {t' : HashTable K V} {i : Nat} {cells' : List (HashCell K V)}
    {m' : K → Option V} (hother : ∀ j, j ≠ i → t'.tbl j = t.tbl j)
    (hheap : ∀ j, j ≠ i → ∀ c ∈ cells j, t'.heap c.1 = t.heap c.1)
    (hchain : Chain HashEntry.next t'.heap (t'.tbl i) cells')
    (hlength : cells'.length ≤ t'.nodes) (hnodes : t.nodes ≤ t'.nodes)
    (hmap : Hashed D.hash (Function.update (bindings cells) i (cells'.map binding)) ∧
      toMap D.hash (Function.update (bindings cells) i (cells'.map binding)) = m') :
    t'.Holds D m' := by
  rw [← bindings_update] at hmap
  refine ⟨Function.update cells i cells', ⟨fun j => ?_, hmap.1, fun j => ?_⟩, hmap.2⟩
  · by_cases hj : j = i
    · rw [hj, Function.update_self]
      exact hchain
    · rw [Function.update_of_ne hj, hother j hj]
      refine (h.chain j).frame fun b hb => ?_
      obtain ⟨c, hc, rfl⟩ := List.mem_map.1 hb
      exact hheap j hj c hc
  · by_cases hj : j = i
    · rw [hj, Function.update_self]
      exact hlength
    · rw [Function.update_of_ne hj]
      exact (h.length_le j).trans hnodes

end Rep

section Operations

variable {D : HashDecl K} {t : HashTable K V} {m : K → Option V}

/-- An entry in new memory becomes the head of the chain of a key that was absent. -/
theorem insert_holds (h : t.Holds D m) {key : K} (habsent : m key = none) (data : V) {a : Addr}
    (hfresh : t.heap a = none) :
    ∃ t', t.insert D key data (some a) = .ok t' ∧
      t'.Holds D (Function.update m key (some data)) := by
  obtain ⟨cells, hrep, rfl⟩ := h
  let e : HashEntry K V := ⟨key, data, t.tbl (D.hash key)⟩
  let t' : HashTable K V := ⟨Function.update t.heap a (some e),
    Function.update t.tbl (D.hash key) (some a), t.nodes + 1⟩
  have hheap : ∀ j, ∀ b ∈ (cells j).map Prod.fst, t'.heap b = t.heap b := by
    intro j b hb
    refine Function.update_of_ne ?_ _ _
    rintro rfl
    exact (hrep.chain j).fresh_notMem hfresh hb
  have hchain : Chain HashEntry.next t'.heap (t'.tbl (D.hash key))
      ((a, e) :: cells (D.hash key)) :=
    ⟨Function.update_self .., Function.update_self .., (hrep.chain _).frame (hheap (D.hash key))⟩
  have hholds : t'.Holds D (Function.update (toMap D.hash (bindings cells)) key (some data)) :=
    hrep.change (fun j hj => Function.update_of_ne hj _ _)
      (fun j _ c hc => hheap j c.1 (List.mem_map_of_mem hc)) hchain
      (Nat.succ_le_succ (hrep.length_le _)) (Nat.le_succ _) (hrep.hashed.put habsent data)
  have hhead : t'.tbl (D.hash key) = some a := Function.update_self ..
  have hentry : t'.heap a = some e := Function.update_self ..
  -- the walk of the assert stops at the new head
  have hget : t'.getEntry D key = .ok (t'.tbl (D.hash key)) := by
    rw [HashTable.getEntry, D.ndx_eq, Exec.ok_bind, hhead, findEntry, entryOf_some hentry,
      Exec.ok_bind, if_pos rfl]
    rfl
  have hrun : t.insert D key data (some a) = (do
      let found ← t'.getEntry D key
      assert (found = t'.tbl (D.hash key)) .inserted
      pure t') := by
    rw [HashTable.insert, D.ndx_eq]
    rfl
  refine ⟨t', ?_, hholds⟩
  rw [hrun, hget, Exec.ok_bind, assert_of rfl]
  rfl

/-- Without memory an insertion ends at the assert on what `malloc` returned. -/
theorem insert_none (key : K) (data : V) :
    t.insert D key data none = .error (.assertion .allocated) := by
  rw [HashTable.insert, D.ndx_eq]
  rfl

/-- The entry of a key that is present gets the new data. -/
theorem setEntry_present (h : t.Holds D m) {key : K} {value : V} (hpresent : m key = some value)
    (data : V) (mem : Option Addr) :
    ∃ t', t.setEntry D key data mem = .ok t' ∧
      t'.Holds D (Function.update m key (some data)) := by
  obtain ⟨cells, hrep, rfl⟩ := h
  obtain ⟨front, a, e, rest, hbucket, rfl, -, hget⟩ := hrep.getEntry_present hpresent
  have hentry : t.heap a = some e := (hrep.chain _).heap_eq (Rep.mem_split hbucket)
  let e' : HashEntry K V := { e with data }
  let t' : HashTable K V := { t with heap := Function.update t.heap a (some e') }
  have hset : t.setEntry D e.key data mem = .ok t' := by
    rw [HashTable.setEntry, hget, Exec.ok_bind]
    simp only [entryOf_some hentry, Exec.ok_bind]
    rfl
  have hframe : ∀ b ∈ (front ++ rest).map Prod.fst, t'.heap b = t.heap b := fun b hb =>
    Function.update_of_ne (hrep.addr_ne hbucket b hb) _ _
  rw [List.map_append] at hframe
  have hold := hrep.chain (D.hash e.key)
  rw [hbucket] at hold
  have hchain : Chain HashEntry.next t'.heap (t'.tbl (D.hash e.key)) (front ++ (a, e') :: rest) :=
    hold.splice (fun b hb => hframe b (List.mem_append_left _ hb)) (Function.update_self ..)
      (hold.rest.frame fun b hb => hframe b (List.mem_append_right _ hb))
  have hlength := hrep.length_le (D.hash e.key)
  have hmap := hrep.hashed.set (Rep.bindings_split hbucket rfl) data
  refine ⟨t', hset, hrep.change (fun _ _ => rfl) (fun j hj c hc => ?_) hchain ?_ (Nat.le_refl _) ?_⟩
  · exact Function.update_of_ne (hrep.addr_ne_other hbucket hj hc) _ _
  · rw [hbucket, List.length_append, List.length_cons] at hlength
    rw [List.length_append, List.length_cons]
    exact hlength
  · rw [List.map_append, List.map_cons]
    exact hmap

/-- A key that is absent is inserted. -/
theorem setEntry_absent (h : t.Holds D m) {key : K} (habsent : m key = none) (data : V)
    (mem : Option Addr) : t.setEntry D key data mem = t.insert D key data mem := by
  obtain ⟨cells, hrep, rfl⟩ := h
  rw [HashTable.setEntry, hrep.getEntry_absent habsent]
  rfl

/-- An entry that is unlinked and freed is out of the map. -/
theorem unlinkEntry_holds {cells : Nat → List (HashCell K V)} (h : Rep D t cells)
    {front rest : List (HashCell K V)} {a : Addr} {e : HashEntry K V}
    (hbucket : cells (D.hash e.key) = front ++ (a, e) :: rest) :
    ∃ t', t.unlinkEntry (D.hash e.key) (Chain.lastPassed none front) a = .ok t' ∧
      ({ t' with heap := Function.update t'.heap a none } : HashTable K V).Holds D
        (Function.update (toMap D.hash (bindings cells)) e.key none) := by
  obtain ⟨t', front', hunlink, hchain, haddr, hbinding, htbl, hheap, hnodes⟩ :=
    h.unlinkEntry hbucket
  have hchain' : Chain HashEntry.next (Function.update t'.heap a none) (t'.tbl (D.hash e.key))
      (front' ++ rest) := by
    refine hchain.frame fun b hb => Function.update_of_ne (h.addr_ne hbucket b ?_) _ _
    rw [List.map_append, ← haddr, ← List.map_append]
    exact hb
  have hother : ∀ j, j ≠ D.hash e.key → ∀ c ∈ cells j,
      Function.update t'.heap a none c.1 = t.heap c.1 := by
    intro j hj c hc
    have hnotMem : c.1 ∉ front.map Prod.fst := by
      intro hmem
      obtain ⟨d, hd, haddr'⟩ := List.mem_map.1 hmem
      have hd' : d ∈ cells (D.hash e.key) := by
        rw [hbucket]
        exact List.mem_append_left _ hd
      exact hj (h.eq_of_addr hc hd' haddr'.symm).2
    rw [Function.update_of_ne (h.addr_ne_other hbucket hj hc), hheap c.1 hnotMem]
  have hlength : (front' ++ rest).length ≤ t'.nodes := by
    have hle := h.length_le (D.hash e.key)
    rw [hbucket, List.length_append, List.length_cons] at hle
    rw [List.length_append, ← List.length_map Prod.fst, haddr, List.length_map, hnodes]
    omega
  have hmap := h.hashed.erase (Rep.bindings_split hbucket rfl)
  rw [← hbinding, ← List.map_append] at hmap
  exact ⟨t', hunlink, h.change htbl hother hchain' hlength hnodes.ge hmap⟩

/-- The assert at the end of a deletion. -/
theorem assert_deleted {t' : HashTable K V} {key : K}
    (h : t'.Holds D (Function.update m key none)) :
    (do
      let left ← t'.getEntry D key
      assert (left = none) .deleted
      pure t') = .ok t' := by
  obtain ⟨cells, hrep, hmap⟩ := h
  have habsent : toMap D.hash (bindings cells) key = none := by
    rw [hmap, Function.update_self]
  rw [hrep.getEntry_absent habsent, Exec.ok_bind, assert_of rfl]
  rfl

/-- Deleting a key takes its entry out of its chain; an absent key is let be. -/
theorem delete_holds (h : t.Holds D m) (key : K) :
    ∃ t', t.delete D key = .ok t' ∧ t'.Holds D (Function.update m key none) := by
  cases hkey : m key with
  | none =>
    have hsame : Function.update m key none = m := by
      rw [← hkey, Function.update_eq_self]
    have hholds : t.Holds D (Function.update m key none) := by
      rw [hsame]
      exact h
    obtain ⟨cells, hrep, rfl⟩ := h
    obtain ⟨prev, hrun⟩ := hrep.find_absent hkey
    refine ⟨t, ?_, hholds⟩
    rw [HashTable.delete, D.ndx_eq, Exec.ok_bind, hrun]
    exact assert_deleted hholds
  | some value =>
    obtain ⟨cells, hrep, rfl⟩ := h
    obtain ⟨front, a, e, rest, hbucket, rfl, -, hrun⟩ := hrep.find_present hkey
    obtain ⟨t', hunlink, hholds⟩ := unlinkEntry_holds hrep hbucket
    refine ⟨_, ?_, hholds⟩
    rw [HashTable.delete, D.ndx_eq, Exec.ok_bind, hrun, Exec.ok_bind]
    simp only [hunlink, Exec.ok_bind, Exec.pure_eq_ok]
    exact assert_deleted hholds

/-- Looking up an absent key fails the assertion. -/
theorem lookup_absent (h : t.Holds D m) {key : K} (habsent : m key = none) :
    t.lookup D key = .error (.assertion .found) := by
  obtain ⟨cells, hrep, rfl⟩ := h
  rw [HashTable.lookup, hrep.getEntry_absent habsent]
  rfl

/-- Looking up a present key yields its value. -/
theorem lookup_present (h : t.Holds D m) {key : K} {value : V} (hpresent : m key = some value) :
    t.lookup D key = .ok value := by
  obtain ⟨cells, hrep, rfl⟩ := h
  obtain ⟨front, a, e, rest, hbucket, -, rfl, hget⟩ := hrep.getEntry_present hpresent
  rw [HashTable.lookup, hget, Exec.ok_bind]
  simp only [entryOf_some ((hrep.chain _).heap_eq (Rep.mem_split hbucket)), Exec.ok_bind,
    Exec.pure_eq_ok]

/-- Looking up a pointer yields null where there is none. -/
theorem lookupPtr_eq (h : t.Holds D m) (null : V) (key : K) :
    t.lookupPtr D null key = .ok ((m key).getD null) := by
  obtain ⟨cells, hrep, rfl⟩ := h
  cases hkey : toMap D.hash (bindings cells) key with
  | none =>
    rw [HashTable.lookupPtr, hrep.getEntry_absent hkey]
    rfl
  | some value =>
    obtain ⟨front, a, e, rest, hbucket, -, rfl, hget⟩ := hrep.getEntry_present hkey
    rw [HashTable.lookupPtr, hget, Exec.ok_bind]
    simp only [entryOf_some ((hrep.chain _).heap_eq (Rep.mem_split hbucket)), Exec.ok_bind,
      Exec.pure_eq_ok, Option.getD_some]

/-- The test asks whether the map has the key. -/
theorem entryExists_eq (h : t.Holds D m) (key : K) :
    t.entryExists D key = .ok (m key).isSome := by
  obtain ⟨cells, hrep, rfl⟩ := h
  cases hkey : toMap D.hash (bindings cells) key with
  | none =>
    rw [HashTable.entryExists, hrep.getEntry_absent hkey]
    rfl
  | some value =>
    obtain ⟨front, a, e, rest, -, -, -, hget⟩ := hrep.getEntry_present hkey
    rw [HashTable.entryExists, hget]
    rfl

end Operations

end HashTable

end ComputerNetworks.Mysock
