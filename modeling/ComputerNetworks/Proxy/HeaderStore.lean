import ComputerNetworks.Core.Machine
import ComputerNetworks.Proxy.ParsedHeader

/-!
# Runs of the header store

Any sequence of `ParsedHeader_set`, `ParsedHeader_remove` and `ParsedHeader_get`.
Tombstones pile up in the array and the array grows under them, but the live
entries are at any time the writes that stand of the edits made so far.
-/

namespace ComputerNetworks.Proxy

open LastWrite ParsedHeader

/-- A call on the store, with copies of its arguments. -/
inductive HeaderOp where
  | set (key value : List UInt8)
  | remove (key : List UInt8)
  | get (key : List UInt8)
  deriving DecidableEq, Repr

/-- What a call edits. -/
def HeaderOp.edit : HeaderOp → Option (Edit (List UInt8) (List UInt8))
  | .set key value => some (.write key value)
  | .remove key => some (.erase key)
  | .get _ => none

/-- The edits of a sequence of calls. -/
def edits (ops : List HeaderOp) : List (Edit (List UInt8) (List UInt8)) :=
  ops.filterMap HeaderOp.edit

/-- The calls on the store of a request, with memory available. -/
def headerMachine : Machine Empty HeaderTable HeaderOp where
  enabled := fun _ _ => True
  step := fun t op =>
    match op with
    | .set key value => Prod.snd <$> ParsedHeader.set (fun _ => true) t key value
    | .remove key => Prod.snd <$> ParsedHeader.remove t key
    | .get key => (fun _ => t) <$> ParsedHeader.get t key

/-- An entry of the array. -/
def HeaderTable.entry (t : HeaderTable) (i : Nat) : Option ParsedHeader := (t.headers.getD [])[i]?

/-- The scan stops at the entry of the live pair with the key. -/
theorem map_findIdx_key (hs : List ParsedHeader) (key : List UInt8) :
    (hs.findIdx? (·.key = some key)).map (fun i => hs[i]?) =
      ((hs.filterMap ParsedHeader.pair).find? fun x => x.1 = key).map
        fun x => some ⟨some x.1, x.2⟩ := by
  induction hs with
  | nil => rfl
  | cons h hs ih =>
    obtain ⟨k, v⟩ := h
    rw [List.findIdx?_cons]
    by_cases hk : k = some key
    · subst hk
      simp [pair]
    · have hlater : ((hs.filterMap ParsedHeader.pair).find? fun x => x.1 = key) =
          (List.filterMap ParsedHeader.pair (⟨k, v⟩ :: hs)).find? fun x => x.1 = key := by
        cases k with
        | none => rfl
        | some k => simp_all [pair]
      rw [← hlater, ← ih]
      simp only [hk, decide_false, Bool.false_eq_true, if_false, Option.map_map]
      rfl

/-- `ParsedHeader_get` returns the entry of the live pair with the key, or null. -/
theorem get_entry {t : HeaderTable} (h : t.WellFormed) (key : List UInt8) :
    ∃ found, ParsedHeader.get t key = .ok found ∧
      found.map t.entry = (t.live.find? fun x => x.1 = key).map fun x => some ⟨some x.1, x.2⟩ := by
  obtain ⟨hs, hh, hu⟩ := h.used
  refine ⟨_, get_eq hh hu key, ?_⟩
  have hentry : t.entry = fun i => hs[i]? := by
    funext i
    rw [HeaderTable.entry, hh]
    rfl
  have hlive : t.live = hs.filterMap ParsedHeader.pair := by rw [HeaderTable.live, hh]; rfl
  rw [hentry, hlive, map_findIdx_key]

/-- `ParsedHeader_remove` returns 0 for a live key and -1 otherwise. -/
theorem remove_ret {t t' : HeaderTable} {key : List UInt8} {ret : Int} (h : t.WellFormed)
    (hremove : ParsedHeader.remove t key = .ok (ret, t')) :
    ret = if key ∈ t.live.map Prod.fst then 0 else -1 := by
  obtain ⟨found, hget, hentry⟩ := get_entry h key
  rw [ParsedHeader.remove, hget, Exec.ok_bind] at hremove
  have hlive : key ∈ t.live.map Prod.fst ↔ found ≠ none := by
    have hsome := congrArg Option.isSome hentry
    rw [Option.isSome_map, Option.isSome_map, Bool.eq_iff_iff, List.find?_isSome] at hsome
    rw [← Option.isSome_iff_ne_none, hsome]
    simp
  cases found with
  | none =>
    cases hremove
    rw [if_neg (by simp [hlive])]
  | some i =>
    cases hremove
    rw [if_pos (by simp [hlive])]

/-- Each call does to the live entries what its edit does. -/
theorem headerMachine_step {t : HeaderTable} (h : t.WellFormed) (op : HeaderOp) :
    ∃ t', headerMachine.step t op = .ok t' ∧ t'.WellFormed ∧
      t'.live = (op.edit.toList).foldl Edit.apply t.live := by
  cases op with
  | set key value =>
    obtain ⟨t', hset, hwf, hlive⟩ := set_spec h key value
    exact ⟨t', Exec.map_eq_ok.2 ⟨_, hset, rfl⟩, hwf, hlive⟩
  | remove key =>
    obtain ⟨ret, t', hremove, hwf, -, -, hlive⟩ := remove_spec h key
    refine ⟨t', Exec.map_eq_ok.2 ⟨_, hremove, rfl⟩, hwf, ?_⟩
    rw [hlive]
    exact (List.append_nil _).symm
  | get key =>
    obtain ⟨found, hget, -⟩ := get_entry h key
    exact ⟨t, Exec.map_eq_ok.2 ⟨_, hget, rfl⟩, h, rfl⟩

/-- A run of calls does to the live entries what its edits do one after the other. -/
theorem headerMachine_run {t : HeaderTable} (h : t.WellFormed) (ops : List HeaderOp) :
    ∃ t', headerMachine.run t ops = .ok t' ∧ t'.WellFormed ∧
      t'.live = (edits ops).foldl Edit.apply t.live := by
  induction ops generalizing t with
  | nil => exact ⟨t, rfl, h, rfl⟩
  | cons op ops ih =>
    obtain ⟨t₁, hstep, hwf₁, hlive₁⟩ := headerMachine_step h op
    obtain ⟨t', hrun, hwf, hlive⟩ := ih hwf₁
    refine ⟨t', (Machine.run_of_ok hstep ops).trans hrun, hwf, ?_⟩
    have hedits : edits (op :: ops) = op.edit.toList ++ edits ops := by
      rw [edits, List.filterMap_cons]
      cases op.edit <;> rfl
    rw [hlive, hlive₁, hedits, List.foldl_append]

/-- The store of a fresh request is an ordered last-write-wins map: after any sequence of calls
`ParsedHeader_get` returns the entry with the value of the last set not followed by a remove, or
null; no key is live twice; the live entries stand in the order of their last set;
`ParsedHeader_remove` returns 0 exactly for a live key; and there is room for one more entry before
each write. -/
theorem headerStore_exact (ops : List HeaderOp) :
    ∃ t, headerMachine.run ParsedHeader.create ops = .ok t ∧
      (∀ key, ∃ found, ParsedHeader.get t key = .ok found ∧
        found.map t.entry = (lastValue key (edits ops)).map fun value => some ⟨some key, value⟩) ∧
      (t.live.map Prod.fst).Nodup ∧ t.live = standing (edits ops) ∧
      (∀ key, ∃ t', ParsedHeader.remove t key =
        .ok (if key ∈ (standing (edits ops)).map Prod.fst then 0 else -1, t')) ∧
      t.headersused < t.headerslen := by
  obtain ⟨t, hrun, hwf, hlive⟩ := headerMachine_run create_wellFormed ops
  rw [live_create, foldl_apply] at hlive
  refine ⟨t, hrun, fun key => ?_, hwf.nodup, hlive, fun key => ?_, hwf.room⟩
  · obtain ⟨found, hget, hentry⟩ := get_entry hwf key
    refine ⟨found, hget, hentry.trans ?_⟩
    rw [hlive, find_standing, Option.map_map]
    rfl
  · obtain ⟨ret, t', hremove, -⟩ := remove_spec hwf key
    refine ⟨t', ?_⟩
    rw [hremove, remove_ret hwf hremove, hlive]

end ComputerNetworks.Proxy
