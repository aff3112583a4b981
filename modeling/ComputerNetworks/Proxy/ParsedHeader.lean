import ComputerNetworks.Core.Memory
import ComputerNetworks.Core.LastWrite

/-!
# The header store of a parsed request

`ParsedHeader_set`, `ParsedHeader_get` and `ParsedHeader_remove` work on a growing
array whose removed entries stay behind as tombstones with a null key. The live
entries of the array are an ordered last-write-wins map of keys to values.
-/

namespace ComputerNetworks.Proxy

open LastWrite

/-- A computation of the proxy. Its sources contain no assertion. -/
abbrev Run (α : Type) := Exec Empty α

/-- `struct ParsedHeader`; the key is null once the entry has been removed. -/
structure ParsedHeader where
  /-- The owned copy of the key, if the entry is live. -/
  key : Option (List UInt8)
  /-- The owned copy of the value; freed, and never read, once the key is null. -/
  value : List UInt8
  deriving DecidableEq, Repr

/-- The header fields of `struct ParsedRequest`. -/
structure HeaderTable where
  /-- The array, null after a failed `realloc`. -/
  headers : Option (List ParsedHeader)
  /-- Entries in use, tombstones included. -/
  headersused : Nat
  /-- Entries allocated. -/
  headerslen : Nat
  deriving DecidableEq, Repr

/-- `DEFAULT_NHDRS`. -/
def defaultNhdrs : Nat := 8

namespace ParsedHeader

/-- `ParsedHeader_create`. -/
def create : HeaderTable := ⟨some [], 0, defaultNhdrs⟩

/-- The scan of `ParsedHeader_get`, with `n` entries left from index `i` on. -/
def getLoop (hs : List ParsedHeader) (key : List UInt8) : Nat → Nat → Run (Option Nat)
  | 0, _ => .ok none
  | n + 1, i =>
    match hs[i]? with
    | none => .error .outOfBounds
    | some tmp => if tmp.key = some key then .ok (some i) else getLoop hs key n (i + 1)

/-- `ParsedHeader_get`: the index of the entry with this key. -/
def get (t : HeaderTable) (key : List UInt8) : Run (Option Nat) :=
  match t.headers with
  | none => if t.headersused = 0 then .ok none else .error .nullPointer
  | some hs => getLoop hs key t.headersused 0

/-- `ParsedHeader_remove`: free the entry's strings and leave a null key. -/
def remove (t : HeaderTable) (key : List UInt8) : Run (Int × HeaderTable) := do
  match ← get t key with
  | none => return (-1, t)
  | some i =>
    let hs := t.headers.map fun hs => hs.modify i fun tmp => { tmp with key := none }
    return (0, { t with headers := hs })

/-- `ParsedHeader_set`. `reallocOk n` says whether growing to `n` entries succeeds. -/
def set (reallocOk : Nat → Bool) (t : HeaderTable) (key value : List UInt8) :
    Run (Int × HeaderTable) := do
  let (_, t) ← remove t key
  let full := t.headerslen ≤ t.headersused + 1
  let headerslen := if full then t.headerslen * 2 else t.headerslen
  if full ∧ ¬ reallocOk headerslen then
    return (-1, { t with headers := none, headerslen := headerslen })
  match t.headers with
  | none => .error .nullPointer
  | some hs =>
    if t.headersused < headerslen then
      return (0, ⟨some (hs.take t.headersused ++ [⟨some key, value⟩]), t.headersused + 1,
        headerslen⟩)
    else .error .outOfBounds

end ParsedHeader

/-- The entry as a live pair, unless it is a tombstone. -/
def ParsedHeader.pair (h : ParsedHeader) : Option (List UInt8 × List UInt8) :=
  h.key.map (·, h.value)

/-- The live headers, in array order. -/
def HeaderTable.live (t : HeaderTable) : List (List UInt8 × List UInt8) :=
  (t.headers.getD []).filterMap ParsedHeader.pair

/-- The store between two calls: the array is there with room for one more entry, and no key
is live twice. -/
structure HeaderTable.WellFormed (t : HeaderTable) : Prop where
  /-- Every entry in use stands in the array. -/
  used : ∃ hs, t.headers = some hs ∧ hs.length = t.headersused
  /-- There is always room for one more write. -/
  room : t.headersused < t.headerslen
  /-- Keys of live entries are distinct. -/
  nodup : (t.live.map Prod.fst).Nodup

theorem ParsedHeader.create_wellFormed : create.WellFormed :=
  ⟨⟨[], rfl, rfl⟩, by decide, by simp [create, HeaderTable.live]⟩

@[simp] theorem ParsedHeader.live_create : create.live = [] := rfl

namespace ParsedHeader

/-- The scan finds the first entry with the key, wherever it starts. -/
theorem getLoop_eq (hs : List ParsedHeader) (key : List UInt8) (n i : Nat)
    (h : i + n = hs.length) :
    getLoop hs key n i = .ok (((hs.drop i).findIdx? (·.key = some key)).map (· + i)) := by
  induction n generalizing i with
  | zero =>
    have hd : hs.drop i = [] := List.drop_eq_nil_iff.mpr (by omega)
    simp [getLoop, hd]
  | succ n ih =>
    have hi : i < hs.length := by omega
    have hd : hs.drop i = hs[i] :: hs.drop (i + 1) := List.drop_eq_getElem_cons hi
    rw [getLoop, List.getElem?_eq_getElem hi, hd, List.findIdx?_cons]
    by_cases hk : hs[i].key = some key
    · simp [hk]
    · simp only [hk, if_false, ih (i + 1) (by omega), decide_false, Bool.false_eq_true,
        Option.map_map]
      congr 2
      funext j
      simp only [Function.comp_apply]
      omega

/-- `ParsedHeader_get` returns the first header with the key. -/
theorem get_eq {t : HeaderTable} {hs : List ParsedHeader} (hh : t.headers = some hs)
    (hu : hs.length = t.headersused) (key : List UInt8) :
    get t key = .ok (hs.findIdx? (·.key = some key)) := by
  simp only [get, hh, ← hu]
  rw [getLoop_eq hs key hs.length 0 (by omega)]
  simp

/-- Clearing the first entry of a key removes just that entry from the live ones. -/
theorem filterMap_modify_findIdx {hs : List ParsedHeader} {key : List UInt8} {i : Nat}
    (hi : hs.findIdx? (·.key = some key) = some i)
    (hn : ((hs.filterMap pair).map Prod.fst).Nodup) :
    (hs.modify i fun tmp => { tmp with key := none }).filterMap pair =
      (hs.filterMap pair).filter (fun x => x.1 ≠ key) := by
  induction hs generalizing i with
  | nil => simp at hi
  | cons h hs ih =>
    rw [List.findIdx?_cons] at hi
    by_cases hk : h.key = some key
    · -- the entry is the head: its key occurs nowhere else among the live ones
      simp only [hk, decide_true, if_true, Option.some.injEq] at hi
      subst hi
      have hpair : pair h = some (key, h.value) := by simp [pair, hk]
      rw [List.filterMap_cons_some hpair, List.map_cons, List.nodup_cons] at hn
      rw [List.filterMap_cons_some hpair, List.filter_cons_of_neg (by simp)]
      have hall : (hs.filterMap pair).filter (fun x => x.1 ≠ key) = hs.filterMap pair := by
        apply List.filter_eq_self.mpr
        intro x hx
        have hmem : x.1 ∈ (hs.filterMap pair).map Prod.fst := List.mem_map_of_mem hx
        have hne : x.1 ≠ key := fun he => hn.1 (he ▸ hmem)
        simpa using hne
      rw [hall, List.modify_zero_cons, List.filterMap_cons_none rfl]
    · simp only [hk, decide_false, Bool.false_eq_true, if_false, Option.map_eq_some_iff] at hi
      obtain ⟨j, hj, rfl⟩ := hi
      have hcases : pair h = none ∨ ∃ x, pair h = some x ∧ x.1 ≠ key := by
        cases hkey : h.key with
        | none => exact Or.inl (by simp [pair, hkey])
        | some k =>
          refine Or.inr ⟨(k, h.value), by simp [pair, hkey], ?_⟩
          rintro rfl
          exact hk hkey
      rw [List.modify_succ_cons]
      rcases hcases with hnone | ⟨x, hx, hne⟩
      · rw [List.filterMap_cons_none hnone] at hn ⊢
        rw [List.filterMap_cons_none hnone, ih hj hn]
      · rw [List.filterMap_cons_some hx, List.map_cons, List.nodup_cons] at hn
        rw [List.filterMap_cons_some hx, List.filterMap_cons_some hx, ih hj hn.2,
          List.filter_cons_of_pos (by simpa using hne)]

/-- Removing a key drops it from the live entries and keeps the store well formed. -/
theorem remove_spec {t : HeaderTable} (h : t.WellFormed) (key : List UInt8) :
    ∃ r t', remove t key = .ok (r, t') ∧ t'.WellFormed ∧ t'.headerslen = t.headerslen ∧
      t'.headersused = t.headersused ∧ t'.live = t.live.filter (fun x => x.1 ≠ key) := by
  obtain ⟨hs, hh, hu⟩ := h.used
  have hlive : t.live = hs.filterMap pair := by simp [HeaderTable.live, hh]
  cases hi : hs.findIdx? (·.key = some key) with
  | none =>
    refine ⟨-1, t, by simp [remove, get_eq hh hu, hi], h, rfl, rfl, ?_⟩
    have hall := List.findIdx?_eq_none_iff.mp hi
    rw [hlive, eq_comm, List.filter_eq_self]
    intro x hx
    obtain ⟨e, he, hex⟩ := List.mem_filterMap.mp hx
    have hne : e.key ≠ some key := by simpa using hall e he
    simp only [pair, Option.map_eq_some_iff] at hex
    obtain ⟨k, hk, rfl⟩ := hex
    simpa using fun hkk : k = key => hne (hkk ▸ hk)
  | some i =>
    have hn := h.nodup
    rw [hlive] at hn
    have hlive' := filterMap_modify_findIdx hi hn
    refine ⟨0, { t with headers := some (hs.modify i fun tmp => { tmp with key := none }) },
      by simp [remove, get_eq hh hu, hi, hh], ?_, rfl, rfl, ?_⟩
    · refine ⟨⟨_, rfl, by simp [hu]⟩, h.room, ?_⟩
      simp only [HeaderTable.live, Option.getD_some, hlive']
      exact hn.sublist ((List.filter_sublist).map Prod.fst)
    · simp only [HeaderTable.live, Option.getD_some, hlive', hh]

/-- Setting a header, with memory available, is one write of the last-write-wins map. -/
theorem set_spec {t : HeaderTable} (h : t.WellFormed) (key value : List UInt8) :
    ∃ t', set (fun _ => true) t key value = .ok (0, t') ∧ t'.WellFormed ∧
      t'.live = write t.live (key, value) := by
  obtain ⟨r, t₁, hrem, hwf, hlen, hused, hlive⟩ := remove_spec h key
  obtain ⟨hs, hh, hu⟩ := hwf.used
  have hroom := hwf.room
  have hlt : t₁.headersused <
      if t₁.headerslen ≤ t₁.headersused + 1 then t₁.headerslen * 2 else t₁.headerslen := by
    split <;> omega
  have htake : hs.take t₁.headersused = hs := List.take_of_length_le (le_of_eq hu)
  have hl₁ : hs.filterMap pair = t.live.filter (fun x => x.1 ≠ key) := by
    rw [← hlive]
    simp [HeaderTable.live, hh]
  have hp : List.filterMap pair [⟨some key, value⟩] = [(key, value)] := rfl
  refine ⟨⟨some (hs ++ [⟨some key, value⟩]), t₁.headersused + 1,
    if t₁.headerslen ≤ t₁.headersused + 1 then t₁.headerslen * 2 else t₁.headerslen⟩, ?_, ?_, ?_⟩
  · simp [set, hrem, hh, hlt, htake]
  · refine ⟨⟨_, rfl, by simp [hu]⟩, ?_, ?_⟩
    · split <;> simp only <;> omega
    · simp only [HeaderTable.live, Option.getD_some, List.filterMap_append, hp, hl₁]
      rw [List.map_append, List.nodup_append]
      refine ⟨h.nodup.sublist ((List.filter_sublist).map Prod.fst), by simp, ?_⟩
      intro a ha b hb
      obtain ⟨x, hx, rfl⟩ := List.mem_map.mp ha
      have hxk : x.1 ≠ key := by simpa using (List.mem_filter.mp hx).2
      have hbk : b = key := by simpa using hb
      exact hbk ▸ hxk
  · simp only [HeaderTable.live, Option.getD_some, List.filterMap_append, hp, hl₁, write]

end ParsedHeader

end ComputerNetworks.Proxy
