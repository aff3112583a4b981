import Mathlib.Data.List.Nodup
import Mathlib.Logic.Function.Basic

/-!
# Singly linked queues in a heap

A heap maps addresses to nodes, and `next` reads the link field of a node.
`Linked` says that the links from `head` spell a list of distinct cells and that
`tail` points to the last of them. Each lemma here is one pointer update: the
new heap still spells a list, and which one.
-/

namespace ComputerNetworks

variable {α ν : Type} {next : ν → Option α}

/-- Following the links from the pointer visits exactly these cells, the last one with a null
link. -/
def Chain (next : ν → Option α) (heap : α → Option ν) : Option α → List (α × ν) → Prop
  | p, [] => p = none
  | p, (a, n) :: cells => p = some a ∧ heap a = some n ∧ Chain next heap (next n) cells

namespace Chain

variable {heap heap' : α → Option ν} {p : Option α} {cells : List (α × ν)}

/-- A cell of the chain stands in the heap. -/
theorem heap_eq (h : Chain next heap p cells) {c : α × ν} (hc : c ∈ cells) :
    heap c.1 = some c.2 := by
  induction cells generalizing p with
  | nil => exact nomatch hc
  | cons d cells ih =>
    rcases List.mem_cons.1 hc with rfl | hc
    · exact h.2.1
    · exact ih h.2.2 hc

/-- An address that is not allocated is not on any chain. -/
theorem fresh_notMem (h : Chain next heap p cells) {a : α} (ha : heap a = none) :
    a ∉ cells.map Prod.fst := by
  intro hmem
  obtain ⟨c, hc, rfl⟩ := List.mem_map.1 hmem
  exact nomatch ha.symm.trans (h.heap_eq hc)

/-- The pointer leads to one of the first cells, where there are any. -/
theorem head_mem {a : α} {front rest : List (α × ν)} (h : Chain next heap (some a) (front ++ rest))
    (hne : front ≠ []) : a ∈ front.map Prod.fst := by
  cases front with
  | nil => exact absurd rfl hne
  | cons c front => exact List.mem_map.2 ⟨c, List.mem_cons_self, (Option.some.inj h.1).symm⟩

/-- A heap that agrees on the visited addresses spells the same list. -/
theorem frame (h : Chain next heap p cells)
    (hheap : ∀ a ∈ cells.map Prod.fst, heap' a = heap a) : Chain next heap' p cells := by
  induction cells generalizing p with
  | nil => exact h
  | cons c cells ih =>
    refine ⟨h.1, ?_, ih h.2.2 fun a ha => hheap a (List.mem_cons_of_mem _ ha)⟩
    rw [hheap c.1 List.mem_cons_self]
    exact h.2.1

/-- Writing every cell but for its link leaves the cells in their order. -/
theorem map (h : Chain next heap p cells) {f : ν → ν} (hf : ∀ n, next (f n) = next n)
    (hheap : ∀ c ∈ cells, heap' c.1 = some (f c.2)) :
    Chain next heap' p (cells.map fun c => (c.1, f c.2)) := by
  induction cells generalizing p with
  | nil => exact h
  | cons c cells ih =>
    refine ⟨h.1, hheap c List.mem_cons_self, ?_⟩
    rw [hf]
    exact ih h.2.2 fun d hd => hheap d (List.mem_cons_of_mem _ hd)

/-- Redirecting the link of a cell leaves the cells up to it, followed by what it now leads to. -/
theorem splice {a : α} {n n' : ν} {rest cells' : List (α × ν)}
    (h : Chain next heap p (cells ++ (a, n) :: rest))
    (hagree : ∀ b ∈ cells.map Prod.fst, heap' b = heap b) (ha : heap' a = some n')
    (hnext : Chain next heap' (next n') cells') :
    Chain next heap' p (cells ++ (a, n') :: cells') := by
  induction cells generalizing p with
  | nil => exact ⟨h.1, ha, hnext⟩
  | cons c cells ih =>
    refine ⟨h.1, ?_, ih h.2.2 fun b hb => hagree b (List.mem_cons_of_mem _ hb)⟩
    rw [hagree c.1 List.mem_cons_self]
    exact h.2.1

/-- Two chains meet where the last node of the first links to the head of the second. -/
theorem append {a : α} {n n' : ν} {cells' : List (α × ν)}
    (h : Chain next heap p (cells ++ [(a, n)]))
    (hagree : ∀ b ∈ cells.map Prod.fst, heap' b = heap b)
    (ha : heap' a = some n') (hnext : Chain next heap' (next n') cells') :
    Chain next heap' p (cells ++ (a, n') :: cells') :=
  h.splice hagree ha hnext

/-- The cells behind a given one. -/
theorem rest {a : α} {n : ν} {rest : List (α × ν)}
    (h : Chain next heap p (cells ++ (a, n) :: rest)) : Chain next heap (next n) rest := by
  induction cells generalizing p with
  | nil => exact h.2.2
  | cons c cells ih => exact ih h.2.2

/-- Writing the first cell keeps the cells behind it. -/
theorem tail_update [DecidableEq α] {c : α × ν} (h : Chain next heap p (c :: cells))
    (hnodup : ((c :: cells).map Prod.fst).Nodup) (v : Option ν) :
    Chain next (Function.update heap c.1 v) (next c.2) cells := by
  refine h.2.2.frame fun a ha => Function.update_of_ne ?_ _ _
  exact fun heq => (List.nodup_cons.1 hnodup).1 (heq ▸ ha)

/-- The last node of a chain has a null link. -/
theorem next_last {a : α} {n : ν} (h : Chain next heap p (cells ++ [(a, n)])) :
    next n = none := h.rest

/-- The address a walk has passed last. -/
def lastPassed (prev : Option α) (front : List (α × ν)) : Option α :=
  (front.map Prod.fst).getLast?.or prev

theorem lastPassed_cons (prev : Option α) (c : α × ν) (front : List (α × ν)) :
    lastPassed prev (c :: front) = lastPassed (some c.1) front := by
  unfold lastPassed
  rw [List.map_cons, List.getLast?_cons]
  cases (front.map Prod.fst).getLast? <;> rfl

theorem lastPassed_append (prev : Option α) (front : List (α × ν)) (c : α × ν) :
    lastPassed prev (front ++ [c]) = some c.1 := by
  simp [lastPassed]

/-- A loop that follows the links until it hits a node, or the end of the chain. `done` is how it
ends, with the address passed last and the one hit. -/
theorem search {ρ : Type} {find : Nat → Option α → Option α → ρ} {done : Option α → Option α → ρ}
    {hit : α → ν → Prop} (hend : ∀ fuel prev, find fuel prev none = done prev none)
    (hstop : ∀ fuel prev a n, heap a = some n → hit a n →
      find (fuel + 1) prev (some a) = done prev (some a))
    (hnext : ∀ fuel prev a n, heap a = some n → ¬ hit a n →
      find (fuel + 1) prev (some a) = find fuel (some a) (next n))
    {fuel : Nat} (prev : Option α) (h : Chain next heap p cells) (hfuel : cells.length ≤ fuel) :
    ((∀ c ∈ cells, ¬ hit c.1 c.2) ∧ ∃ prev', find fuel prev p = done prev' none) ∨
    ∃ front a n rest, cells = front ++ (a, n) :: rest ∧ (∀ c ∈ front, ¬ hit c.1 c.2) ∧ hit a n ∧
      find fuel prev p = done (lastPassed prev front) (some a) := by
  induction cells generalizing fuel prev p with
  | nil =>
    cases h
    exact .inl ⟨nofun, prev, hend fuel prev⟩
  | cons c cells ih =>
    obtain ⟨a, n⟩ := c
    obtain ⟨rfl, hheap, hrest⟩ := h
    obtain ⟨fuel, rfl⟩ := Nat.exists_eq_add_one_of_ne_zero (Nat.ne_zero_of_lt hfuel)
    by_cases hhit : hit a n
    · exact .inr ⟨[], a, n, cells, rfl, nofun, hhit, hstop fuel prev a n hheap hhit⟩
    · have hstep := hnext fuel prev a n hheap hhit
      rcases ih (some a) hrest (Nat.le_of_succ_le_succ hfuel) with
        ⟨hmiss, prev', hrun⟩ | ⟨front, b, m, rest, rfl, hfront, hhit', hrun⟩
      · exact .inl ⟨List.forall_mem_cons.2 ⟨hhit, hmiss⟩, prev', hstep.trans hrun⟩
      · refine .inr ⟨(a, n) :: front, b, m, rest, rfl, List.forall_mem_cons.2 ⟨hhit, hfront⟩,
          hhit', ?_⟩
        rw [lastPassed_cons]
        exact hstep.trans hrun

end Chain

/-- A queue of distinct cells from `head` to `tail`. -/
structure Linked (next : ν → Option α) (heap : α → Option ν) (head tail : Option α)
    (cells : List (α × ν)) : Prop where
  /-- The links from `head` spell the cells. -/
  chain : Chain next heap head cells
  /-- No cell is visited twice. -/
  nodup : (cells.map Prod.fst).Nodup
  /-- `tail` is the last cell. -/
  tail_eq : tail = (cells.map Prod.fst).getLast?

namespace Linked

variable {heap : α → Option ν} {head tail : Option α} {cells : List (α × ν)}

theorem empty (heap : α → Option ν) : Linked next heap none none [] :=
  ⟨rfl, List.nodup_nil, rfl⟩

/-- The head is null exactly if the queue is empty. -/
theorem head_eq_none (h : Linked next heap head tail cells) : head = none ↔ cells = [] := by
  cases cells with
  | nil => exact iff_of_true h.chain rfl
  | cons c cells => exact iff_of_false (by rw [h.chain.1]; exact nofun) nofun

theorem tail_eq_none (h : Linked next heap head tail cells) : tail = none ↔ cells = [] := by
  rw [h.tail_eq, List.getLast?_eq_none_iff, List.map_eq_nil_iff]

/-- The two ends are null together. -/
theorem head_none_iff_tail_none (h : Linked next heap head tail cells) :
    head = none ↔ tail = none :=
  h.head_eq_none.trans h.tail_eq_none.symm

/-- The cell `tail` points to, with its null link. -/
theorem exists_last (h : Linked next heap head tail cells) (hne : cells ≠ []) :
    ∃ front a n, cells = front ++ [(a, n)] ∧ tail = some a ∧ heap a = some n ∧ next n = none := by
  obtain ⟨front, ⟨a, n⟩, rfl⟩ := List.eq_nil_or_concat' cells |>.resolve_left hne
  have hlast : (a, n) ∈ front ++ [(a, n)] := by simp
  refine ⟨front, a, n, rfl, ?_, h.chain.heap_eq hlast, h.chain.next_last⟩
  rw [h.tail_eq]
  simp

variable [DecidableEq α]

/-- A new cell is the whole of an empty queue. -/
theorem singleton {a : α} {n : ν} (hn : next n = none) :
    Linked next (Function.update heap a (some n)) (some a) (some a) [(a, n)] :=
  ⟨⟨rfl, Function.update_self .., hn⟩, List.nodup_singleton a, rfl⟩

/-- Linking a new cell behind the tail appends it. -/
theorem push {front : List (α × ν)} {t a : α} {n n' m : ν}
    (h : Linked next heap head tail (front ++ [(t, n)])) (ha : heap a = none)
    (hn' : next n' = some a) (hm : next m = none) :
    Linked next (Function.update (Function.update heap a (some m)) t (some n'))
      head (some a) (front ++ [(t, n'), (a, m)]) := by
  have hfresh := h.chain.fresh_notMem ha
  have hnd := h.nodup
  simp only [List.map_append, List.map_cons, List.map_nil, List.mem_append, List.mem_singleton,
    not_or] at hfresh hnd
  have ht : t ∉ front.map Prod.fst := fun hmem =>
    (List.nodup_append.1 hnd).2.2 t hmem t List.mem_cons_self rfl
  refine ⟨h.chain.append ?_ (Function.update_self ..) ?_, ?_, ?_⟩
  · intro b hb
    have hbt : b ≠ t := fun hbt => ht (hbt ▸ hb)
    have hba : b ≠ a := fun hba => hfresh.1 (hba ▸ hb)
    rw [Function.update_of_ne hbt, Function.update_of_ne hba]
  · refine ⟨hn', ?_, hm⟩
    rw [Function.update_of_ne hfresh.2, Function.update_self]
  · have hnd' : ((front.map Prod.fst ++ [t]) ++ [a]).Nodup := by
      refine hnd.append (List.nodup_singleton a) ?_
      simpa [and_comm] using hfresh
    simpa using hnd'
  · simp

/-- Replacing the contents of the first cell, not its link, changes that cell only. -/
theorem setHead {a : α} {n n' : ν} (h : Linked next heap head tail ((a, n) :: cells))
    (hn' : next n' = next n) :
    Linked next (Function.update heap a (some n')) head tail ((a, n') :: cells) := by
  refine ⟨⟨h.chain.1, Function.update_self .., ?_⟩, h.nodup, h.tail_eq⟩
  rw [hn']
  exact h.chain.tail_update h.nodup _

/-- Unlinking and freeing the first cell of several. -/
theorem pop {a b : α} {n m : ν} (h : Linked next heap head tail ((a, n) :: (b, m) :: cells)) :
    Linked next (Function.update heap a none) (next n) tail ((b, m) :: cells) := by
  refine ⟨h.chain.tail_update h.nodup none, (List.nodup_cons.1 h.nodup).2, ?_⟩
  rw [h.tail_eq]
  simp

end Linked

end ComputerNetworks
