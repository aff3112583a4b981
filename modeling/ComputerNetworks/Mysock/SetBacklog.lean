import ComputerNetworks.Mysock.Backlog

/-!
# Changing the backlog

A second `mylisten` on a socket changes the length of its array of requests. A
shorter array leaves the slots behind its end occupied but out of sight, a
longer one clears what it finds there, and when `realloc` moves the array the
entries of the completed queue keep pointing to the old one.
-/

namespace ComputerNetworks.Mysock

/-- The assertions of `_mysock_set_backlog` and of the demultiplexer. -/
inductive ListenAssert where
  | demux (site : DemuxAssert)
  /-- `assert(local_port > 0)`. -/
  | localPort
  /-- `assert(q)`. -/
  | queue
  /-- `assert(q->local_port == local_port)`. -/
  | samePort
  /-- `assert(q->connection_queue)`. -/
  | connectionQueue
  deriving DecidableEq, Repr

/-- What `realloc` does with the array: nothing, or it stays where it is, or it moves. -/
inductive Realloc where
  | fails
  | inPlace
  | moves
  deriving DecidableEq, Repr

/-- The rest of a `listen_queue_t`, and its array in memory. -/
structure QueueBlock where
  localPort : Nat
  /-- The slots of the block from `max_len` on. -/
  spare : List ConnectRequest
  /-- The number of completed entries, at the front, that point into a freed array. -/
  stale : Nat
  deriving DecidableEq, Repr

/-- The tables, with the memory of each listen queue. -/
structure ListenState where
  sys : Demux
  block : Int → QueueBlock

/-- Write a listen queue and its memory. -/
def ListenState.setQueue (s : ListenState) (sd : Int) (q : ListenQueue) (block : QueueBlock) :
    ListenState :=
  { s with sys := s.sys.setQueue sd q, block := Function.update s.block sd block }

@[simp] theorem ListenState.block_setQueue (s : ListenState) (sd : Int) (q : ListenQueue)
    (block : QueueBlock) : (s.setQueue sd q block).block sd = block := Function.update_self ..

@[simp] theorem ListenState.listenTable_setQueue (s : ListenState) (sd : Int) (q : ListenQueue)
    (block : QueueBlock) : (s.setQueue sd q block).sys.listenTable sd = some q :=
  Function.update_self ..

/-- The queue with an array of another length: new slots are cleared. -/
def ListenQueue.resize (q : ListenQueue) (maxLen : Nat) : ListenQueue :=
  { q with
    maxLen
    connectionQueue := q.connectionQueue.take maxLen ++
      List.replicate (maxLen - q.maxLen) .cleared }

@[simp] theorem ListenQueue.maxLen_resize (q : ListenQueue) (maxLen : Nat) :
    (q.resize maxLen).maxLen = maxLen := rfl

/-- The part of `_mysock_set_backlog` that changes the array of the queue it has found. -/
def resizeQueue (s : ListenState) (sd : Int) (q : ListenQueue) (block : QueueBlock) (maxLen : Nat)
    (realloc : Realloc) : Exec ListenAssert ListenState :=
  if q.maxLen < maxLen then
    match realloc with
    | .fails => .error (.assertion .connectionQueue)
    | .inPlace => .ok (s.setQueue sd (q.resize maxLen) { block with spare := [] })
    | .moves => .ok (s.setQueue sd (q.resize maxLen)
        { block with spare := [], stale := q.completedQueue.length })
  else .ok (s.setQueue sd (q.resize maxLen)
    { block with spare := q.connectionQueue.drop maxLen ++ block.spare })

/-- `_mysock_set_backlog`. `localPort` is the port that `getsockname` reports. -/
def setBacklog (s : ListenState) (ctx : MysockContext) (backlog localPort : Nat) (calloc : Bool)
    (realloc : Realloc) : Exec ListenAssert ListenState := do
  let maxLen := (backlog + 1) % 2 ^ 32
  assert (ctx.listening = true ∧ ctx.bound = true) (.demux .ctxListening)
  assert (0 < localPort) .localPort
  let (q, block) ← match ← Exec.within .demux (getConnectionQueue s.sys ctx) with
    | some q => pure (q, s.block ctx.mySd)
    | none => do
      assert (calloc = true) .queue
      pure (⟨0, 0, [], []⟩, ⟨localPort, [], 0⟩)
  assert (block.localPort = localPort) .samePort
  resizeQueue s ctx.mySd q block maxLen realloc

/-- `_mysock_dequeue_connection` from the end of its wait on, through the pointer to the slot. -/
def dequeueRequest (s : ListenState) (ctxSd : Nat) : Exec ListenAssert (Entry × ListenState) := do
  let ctx ← Exec.within .demux (derefContext s.sys ctxSd)
  assert (ctx.listening = true ∧ ctx.bound = true) (.demux .ctxListening)
  match ← Exec.within .demux (getConnectionQueue s.sys ctx) with
  | none => .error (.assertion (.demux .queueFound))
  | some q =>
    match q.completedQueue with
    | [] => .error .nullPointer
    | none :: _ => .error (.assertion (.demux .request))
    | some k :: completedQueue =>
      let block := s.block ctx.mySd
      if 0 < block.stale then .error .dangling
      else
        match (q.connectionQueue ++ block.spare)[k]? with
        | none => .error .outOfBounds
        | some r => do
          let new ← Exec.within .demux (getContext s.sys r.sd)
          assert (0 < q.curLen) (.demux .curLen)
          let slots := (q.connectionQueue ++ block.spare).set k .cleared
          pure (new, s.setQueue ctx.mySd
            { q with
              connectionQueue := slots.take q.connectionQueue.length
              completedQueue
              curLen := q.curLen - 1 }
            { block with spare := slots.drop q.connectionQueue.length })

/-- A call on a listening socket. -/
inductive BacklogOp where
  | call (op : DemuxOp)
  | setBacklog (backlog localPort : Nat) (realloc : Realloc)
  deriving DecidableEq, Repr

/-- The tables and memory, and the serial numbers of the connections completed and returned. -/
structure BacklogRun where
  state : ListenState
  completed : List Nat
  returned : List Nat

/-- The run without the memory of the listen queue. -/
def BacklogRun.tables (run : BacklogRun) : DemuxRun := ⟨run.state.sys, run.completed, run.returned⟩

/-- The run with other tables. -/
def BacklogRun.withTables (run : BacklogRun) (tables : DemuxRun) : BacklogRun :=
  ⟨{ run.state with sys := tables.sys }, tables.completed, tables.returned⟩

/-- The surroundings ask for what they ask without the memory; the port of a listening socket stays
the one it was bound to. -/
def BacklogOp.Enabled (L : Nat) (run : BacklogRun) : BacklogOp → Prop
  | .call op => op.Enabled L run.tables
  | .setBacklog _ localPort _ => 0 < localPort ∧ (run.state.block L).localPort = localPort

instance BacklogOp.decidableEnabled (L : Nat) (run : BacklogRun) :
    (op : BacklogOp) → Decidable (op.Enabled L run)
  | .call op => inferInstanceAs (Decidable (op.Enabled L run.tables))
  | .setBacklog _ localPort _ =>
    inferInstanceAs (Decidable (0 < localPort ∧ (run.state.block L).localPort = localPort))

/-- The atomic calls on the listening socket `L`, with changes of its backlog. -/
def backlogMachine (L : Nat) : Machine ListenAssert BacklogRun BacklogOp where
  enabled := fun run op => op.Enabled L run
  step := fun run op =>
    match op with
    | .call .dequeue => do
      let (e, state) ← dequeueRequest run.state L
      pure { run with state, returned := run.returned ++ [e.serial] }
    | .call op => run.withTables <$> Exec.within .demux ((demuxMachine L).step run.tables op)
    | .setBacklog backlog localPort realloc => do
      let ctx ← Exec.within .demux (derefContext run.state.sys L)
      let state ← setBacklog run.state ctx backlog localPort true realloc
      pure { run with state }

instance backlogMachine_decidableEnabled (L : Nat) (run : BacklogRun) (op : BacklogOp) :
    Decidable ((backlogMachine L).enabled run op) :=
  inferInstanceAs (Decidable (op.Enabled L run))

/-- The connections are where the queue says: the count is that of the occupied slots; each
connection that is still to complete occupies a slot below the limit; each completed entry points
to a slot of the array, and the connections returned and then queued are those completed, each once
and in order. -/
def BacklogRun.KeepsConnections (L : Nat) (run : BacklogRun) : Prop :=
  ∃ (q : ListenQueue) (done : List (Nat × Nat)), run.state.sys.listenTable L = some q ∧
    q.curLen = q.connectionQueue.countP (fun r => r.sd ≠ -1) ∧
    q.connectionQueue.length = q.maxLen ∧
    (∀ (sd : Nat) (e : Entry), run.state.sys.globalCtx sd = some e → e.ctx.listenSd = L →
      e.ctx.blocking = true → ∃ i < q.maxLen, ∃ r, q.connectionQueue[i]? = some r ∧ r.sd = sd) ∧
    (run.state.block L).stale = 0 ∧
    q.completedQueue = (done.map fun d => some d.1) ∧ (done.map Prod.fst).Nodup ∧
    (∀ d ∈ done, d.1 < q.maxLen ∧ ∃ (r : ConnectRequest) (sd : Nat) (e : Entry),
      q.connectionQueue[d.1]? = some r ∧ r.sd = sd ∧ run.state.sys.globalCtx sd = some e ∧
      e.serial = d.2) ∧
    run.returned ++ done.map Prod.snd = run.completed ∧ run.completed.Nodup

/-- A new limit that is not larger leaves every occupied slot below it; for a larger one there is
memory, and no completed connection waits while the array moves. -/
def BacklogOp.Fits (L : Nat) (run : BacklogRun) : BacklogOp → Prop
  | .call _ => True
  | .setBacklog backlog _ realloc =>
    if (run.tables.slots L).length < (backlog + 1) % 2 ^ 32 then
      realloc ≠ .fails ∧ (realloc = .moves → run.tables.completedQueue L = [])
    else ∀ r ∈ (run.tables.slots L).drop ((backlog + 1) % 2 ^ 32), r.sd = -1

/-- The occupied slots are the same, in the same places. -/
structure ListenQueue.Resized (q q' : ListenQueue) : Prop where
  size : q'.connectionQueue.length = q'.maxLen
  curLen_eq : q'.curLen = q.curLen
  completedQueue_eq : q'.completedQueue = q.completedQueue
  count : q'.connectionQueue.countP (fun r => r.sd ≠ -1) =
    q.connectionQueue.countP (fun r => r.sd ≠ -1)
  free : ∀ r ∈ q'.connectionQueue, r.sd = -1 → r ∈ q.connectionQueue ∨ r = .cleared
  slot : ∀ (i : Nat) (r : ConnectRequest), r.sd ≠ -1 →
    (q'.connectionQueue[i]? = some r ↔ q.connectionQueue[i]? = some r)

/-- The occupied slots below a limit and the others. -/
theorem ListenQueue.countP_occupied (q : ListenQueue) (maxLen : Nat) :
    q.connectionQueue.countP (fun r => r.sd ≠ -1) =
      (q.connectionQueue.take maxLen).countP (fun r => r.sd ≠ -1) +
        (q.connectionQueue.drop maxLen).countP (fun r => r.sd ≠ -1) := by
  rw [← List.countP_append, List.take_append_drop]

namespace ListenQueue.Resized

variable {q q' : ListenQueue}

/-- A request that is left was there before. -/
theorem mem (h : q.Resized q') {r : ConnectRequest} (hr : r ∈ q'.connectionQueue)
    (hocc : r.sd ≠ -1) : r ∈ q.connectionQueue := by
  obtain ⟨i, hi⟩ := List.mem_iff_getElem?.1 hr
  exact List.mem_of_getElem? ((h.slot i r hocc).1 hi)

/-- Resizing keeps a queue well formed. -/
theorem wellFormed (h : q.Resized q') (hq : q.WellFormed) : q'.WellFormed where
  size := h.size
  count := by rw [h.curLen_eq, hq.count, h.count]
  free := by
    intro r hr hfree
    rcases h.free r hr hfree with hr | hr
    · exact hq.free r hr hfree
    · exact hr
  occupied := fun r hr hocc => hq.occupied r (h.mem hr hocc) hocc
  distinct := fun i j r r' hr hr' hocc hocc' hsame =>
    hq.distinct i j r r' ((h.slot i r hocc).1 hr) ((h.slot j r' hocc').1 hr') hocc hocc' hsame

/-- Resizing keeps the backlog in order. -/
theorem backlog (h : q.Resized q') {L allocated : Nat} {card : Nat → Option Card}
    {done : List (Nat × Nat)} {completed returned : List Nat}
    (hq : Backlog L card allocated q done completed returned) :
    Backlog L card allocated q' done completed returned where
  queue := h.wellFormed hq.queue
  table := hq.table
  serials := hq.serials
  held := fun r hr hocc => hq.held r (h.mem hr hocc) hocc
  pending := by
    intro k c hc hlisten hblocking
    obtain ⟨r, hr, hsd⟩ := hq.pending k c hc hlisten hblocking
    obtain ⟨i, hi⟩ := List.mem_iff_getElem?.1 hr
    exact ⟨r, List.mem_of_getElem? ((h.slot i r (by omega)).2 hi), hsd⟩
  completedQueue := h.completedQueue_eq.trans hq.completedQueue
  nodup := hq.nodup
  ready := by
    intro d hd
    obtain ⟨r, sd, c, hr, hsd, hrest⟩ := hq.ready d hd
    exact ⟨r, sd, c, (h.slot d.1 r (by omega)).2 hr, hsd, hrest⟩
  order := hq.order
  once := hq.once
  past := hq.past
  fresh := hq.fresh

/-- A longer array. -/
theorem grow (hq : q.WellFormed) {maxLen : Nat} (hlt : q.maxLen < maxLen) :
    q.Resized (q.resize maxLen) := by
  have hall : q.connectionQueue.take maxLen = q.connectionQueue :=
    List.take_of_length_le (by rw [hq.size]; omega)
  have hslots : (q.resize maxLen).connectionQueue =
      q.connectionQueue ++ List.replicate (maxLen - q.maxLen) .cleared := by
    rw [ListenQueue.resize, hall]
  refine ⟨?_, rfl, rfl, ?_, ?_, ?_⟩
  · rw [hslots, List.length_append, List.length_replicate, hq.size, maxLen_resize]
    omega
  · rw [hslots, List.countP_append, List.countP_replicate, if_neg (by decide), Nat.add_zero]
  · intro r hr _
    rw [hslots] at hr
    rcases List.mem_append.1 hr with hr | hr
    · exact .inl hr
    · exact .inr (List.mem_replicate.1 hr).2
  · intro i r hocc
    rw [hslots]
    by_cases hi : i < q.connectionQueue.length
    · rw [List.getElem?_append_left hi]
    · rw [List.getElem?_append_right (by omega),
        List.getElem?_eq_none (l := q.connectionQueue) (by omega)]
      refine iff_of_false (fun hr => ?_) nofun
      exact hocc (by rw [(List.mem_replicate.1 (List.mem_of_getElem? hr)).2]; rfl)

/-- An array that is not longer, with all occupied slots below its end. -/
theorem shrink (hq : q.WellFormed) {maxLen : Nat} (hle : maxLen ≤ q.maxLen)
    (hfree : ∀ r ∈ q.connectionQueue.drop maxLen, r.sd = -1) : q.Resized (q.resize maxLen) := by
  have hslots : (q.resize maxLen).connectionQueue = q.connectionQueue.take maxLen := by
    rw [ListenQueue.resize, Nat.sub_eq_zero_of_le hle, List.replicate_zero, List.append_nil]
  refine ⟨?_, rfl, rfl, ?_, ?_, ?_⟩
  · rw [hslots, List.length_take, hq.size, maxLen_resize]
    omega
  · have hnone : (q.connectionQueue.drop maxLen).countP (fun r => r.sd ≠ -1) = 0 :=
      List.countP_eq_zero.2 fun r hr => by simpa using hfree r hr
    rw [hslots, q.countP_occupied maxLen, hnone, Nat.add_zero]
  · intro r hr _
    rw [hslots] at hr
    exact .inl (List.mem_of_mem_take hr)
  · intro i r hocc
    rw [hslots]
    by_cases hi : i < maxLen
    · rw [List.getElem?_take_of_lt hi]
    · rw [List.getElem?_eq_none (l := q.connectionQueue.take maxLen)
        (by rw [List.length_take]; omega)]
      refine iff_of_false nofun fun hr => hocc (hfree r (List.mem_of_getElem? (i := i - maxLen) ?_))
      rw [List.getElem?_drop, Nat.add_sub_cancel' (by omega), hr]

end ListenQueue.Resized

/-- The listening socket is open, its queue is in order and nothing points to a freed array. -/
def BacklogRun.Listens (L : Nat) (run : BacklogRun) : Prop :=
  (∃ q done listener, run.tables.Listens L q done listener) ∧ (run.state.block L).stale = 0

namespace BacklogRun

variable {L : Nat} {run : BacklogRun}

/-- A socket that listens has kept its connections. -/
theorem Listens.keeps (h : run.Listens L) : run.KeepsConnections L := by
  obtain ⟨⟨q, done, listener, h⟩, hstale⟩ := h
  have hq := h.backlog.queue
  have hbelow {i : Nat} {r : ConnectRequest} (hi : q.connectionQueue[i]? = some r) :
      i < q.maxLen := by
    rw [← hq.size]
    exact (List.getElem?_eq_some_iff.1 hi).1
  refine ⟨q, done, h.lookup, hq.count, hq.size, ?_, hstale, h.backlog.completedQueue,
    h.backlog.nodup, ?_, h.backlog.order, h.backlog.once⟩
  · intro sd e he hlisten hblocking
    obtain ⟨r, hr, hsd⟩ := h.backlog.pending sd e.card (Demux.card_eq_some he) hlisten hblocking
    obtain ⟨i, hi⟩ := List.mem_iff_getElem?.1 hr
    exact ⟨i, hbelow hi, r, hi, hsd⟩
  · intro d hd
    obtain ⟨r, sd, c, hr, hsd, hc, hserial, -⟩ := h.backlog.ready d hd
    obtain ⟨e, he, rfl⟩ := Option.map_eq_some_iff.1 hc
    exact ⟨hbelow hr, r, sd, e, hr, hsd, he, hserial⟩

/-- `_mysock_set_backlog` on a queue that is there. -/
theorem setBacklog_eq {s : ListenState} {ctx : MysockContext} {q : ListenQueue} {localPort : Nat}
    (hopen : ctx.listening = true ∧ ctx.bound = true) (hq : s.sys.listenTable ctx.mySd = some q)
    (hport : 0 < localPort) (hsame : (s.block ctx.mySd).localPort = localPort) (backlog : Nat)
    (calloc : Bool) (realloc : Realloc) :
    setBacklog s ctx backlog localPort calloc realloc =
      resizeQueue s ctx.mySd q (s.block ctx.mySd) ((backlog + 1) % 2 ^ 32) realloc := by
  have hqueue : getConnectionQueue s.sys ctx = .ok (some q) := by
    rw [getConnectionQueue, assert_of hopen, Exec.ok_bind, hq, Exec.pure_eq_ok]
  simp only [setBacklog, assert_of hopen, Exec.ok_bind, assert_of hport, hqueue, Exec.within_ok,
    assert_of hsame, Exec.pure_eq_ok]

/-- The connections keep their places in an array of another length. -/
theorem listens_setQueue {q q' : ListenQueue} {done : List (Nat × Nat)} {listener : Entry}
    (h : run.tables.Listens L q done listener) (hq : q.Resized q') {block : QueueBlock}
    (hstale : block.stale = 0) :
    BacklogRun.Listens L { run with state := run.state.setQueue L q' block } := by
  have hlookup := run.state.listenTable_setQueue L q' block
  refine ⟨⟨q', done, listener, hlookup, h.entry, h.open_, h.notPassive, hq.backlog h.backlog⟩, ?_⟩
  exact (congrArg QueueBlock.stale (ListenState.block_setQueue ..)).trans hstale

/-- A change of the backlog, once the asserts have been passed. -/
theorem setBacklog_step {q : ListenQueue} {done : List (Nat × Nat)} {listener : Entry}
    (h : run.tables.Listens L q done listener) {backlog localPort : Nat} {realloc : Realloc}
    (henabled : (backlogMachine L).enabled run (.setBacklog backlog localPort realloc)) :
    (backlogMachine L).step run (.setBacklog backlog localPort realloc) =
      (fun state => { run with state }) <$> resizeQueue run.state L q (run.state.block L)
        ((backlog + 1) % 2 ^ 32) realloc := by
  have hderef : derefContext run.state.sys L = .ok listener.ctx := by
    rw [derefContext, show run.state.sys.globalCtx L = some listener from h.entry]
  have hsame : (run.state.block listener.ctx.mySd).localPort = localPort := by
    rw [h.mySd_eq]
    exact henabled.2
  have hcall := setBacklog_eq h.open_ h.lookup_listener henabled.1 hsame backlog true realloc
  rw [h.mySd_eq] at hcall
  change (do
    let ctx ← Exec.within ListenAssert.demux (derefContext run.state.sys L)
    let state ← setBacklog run.state ctx backlog localPort true realloc
    pure { run with state }) = _
  rw [hderef, ← hcall]
  rfl

/-- The slots of the table are those of the queue. -/
theorem slots_eq {q : ListenQueue} (h : run.state.sys.listenTable L = some q) :
    run.tables.slots L = q.connectionQueue ∧ run.tables.completedQueue L = q.completedQueue := by
  rw [DemuxRun.slots, DemuxRun.completedQueue, tables, h]
  exact ⟨rfl, rfl⟩

/-- A change that fits keeps everything in place. -/
theorem setBacklog_keeps (h : run.Listens L) {backlog localPort : Nat} {realloc : Realloc}
    (henabled : (backlogMachine L).enabled run (.setBacklog backlog localPort realloc))
    (hfits : BacklogOp.Fits L run (.setBacklog backlog localPort realloc)) :
    ∃ run', (backlogMachine L).step run (.setBacklog backlog localPort realloc) = .ok run' ∧
      run'.Listens L := by
  obtain ⟨⟨q, done, listener, h⟩, hstale⟩ := h
  have hq := h.backlog.queue
  obtain ⟨hslots, hcompleted⟩ := slots_eq h.lookup
  rw [setBacklog_step h henabled]
  unfold resizeQueue
  rw [BacklogOp.Fits, hslots, hcompleted, hq.size] at hfits
  by_cases hgrow : q.maxLen < (backlog + 1) % 2 ^ 32
  · rw [if_pos hgrow] at hfits ⊢
    have hresized := ListenQueue.Resized.grow hq hgrow
    cases realloc with
    | fails => exact absurd rfl hfits.1
    | inPlace => exact ⟨_, rfl, listens_setQueue h hresized hstale⟩
    | moves =>
      refine ⟨_, rfl, listens_setQueue h hresized ?_⟩
      rw [hfits.2 rfl]
      rfl
  · rw [if_neg hgrow] at hfits ⊢
    have hresized := ListenQueue.Resized.shrink hq (Nat.le_of_not_lt hgrow) hfits
    exact ⟨_, rfl, listens_setQueue h hresized hstale⟩

/-- A change that does not fit loses a connection: it fails, the array moves under a completed
entry, or an occupied slot is cut off. -/
theorem setBacklog_loses (h : run.Listens L) {backlog localPort : Nat} {realloc : Realloc}
    (henabled : (backlogMachine L).enabled run (.setBacklog backlog localPort realloc))
    (hno : ¬ BacklogOp.Fits L run (.setBacklog backlog localPort realloc)) {run' : BacklogRun}
    (hstep : (backlogMachine L).step run (.setBacklog backlog localPort realloc) = .ok run') :
    ¬ run'.KeepsConnections L := by
  obtain ⟨⟨q, done, listener, h⟩, hstale⟩ := h
  have hq := h.backlog.queue
  obtain ⟨hslots, hcompleted⟩ := slots_eq h.lookup
  rw [setBacklog_step h henabled] at hstep
  unfold resizeQueue at hstep
  rw [BacklogOp.Fits, hslots, hcompleted, hq.size] at hno
  rintro ⟨q', done', hlookup', hcount', -, -, hstale', -⟩
  by_cases hgrow : q.maxLen < (backlog + 1) % 2 ^ 32
  · rw [if_pos hgrow] at hno hstep
    cases realloc with
    | fails => cases hstep
    | inPlace => exact hno ⟨by decide, by simp⟩
    | moves =>
      obtain ⟨state, hstate, rfl⟩ := Exec.map_eq_ok.1 hstep
      cases hstate
      have hmoved := (congrArg QueueBlock.stale (ListenState.block_setQueue ..)).symm.trans hstale'
      exact hno ⟨by decide, fun _ => List.eq_nil_of_length_eq_zero hmoved⟩
  · rw [if_neg hgrow] at hno hstep
    obtain ⟨state, hstate, rfl⟩ := Exec.map_eq_ok.1 hstep
    cases hstate
    cases (ListenState.listenTable_setQueue ..).symm.trans hlookup'
    have hcut : (q.resize ((backlog + 1) % 2 ^ 32)).connectionQueue =
        q.connectionQueue.take ((backlog + 1) % 2 ^ 32) := by
      rw [ListenQueue.resize, Nat.sub_eq_zero_of_le (Nat.le_of_not_lt hgrow), List.replicate_zero,
        List.append_nil]
    have hall : q.curLen = _ := hcount'
    rw [hcut, hq.count, q.countP_occupied ((backlog + 1) % 2 ^ 32)] at hall
    refine hno fun r hr => ?_
    have hnone := List.countP_eq_zero.1 (Nat.add_eq_left.1 hall) r hr
    simpa using hnone

/-- Through a pointer into the array `myaccept` takes what it takes by the index. -/
theorem dequeueRequest_eq {s : ListenState} {ctxSd : Nat} {e : Entry} {sys : Demux}
    (hstale : ∀ ctx, derefContext s.sys ctxSd = .ok ctx → (s.block ctx.mySd).stale = 0)
    (h : dequeueConnection s.sys ctxSd = .ok (e, sys)) :
    ∃ block, dequeueRequest s ctxSd = .ok (e, ⟨sys, block⟩) ∧
      ∀ key, (block key).stale = (s.block key).stale := by
  obtain ⟨ctx, hderef, h⟩ := Exec.bind_eq_ok.1 h
  obtain ⟨_, hopen, h⟩ := Exec.bind_eq_ok.1 h
  obtain ⟨found, hqueue, h⟩ := Exec.bind_eq_ok.1 h
  rw [assert_eq_ok] at hopen
  cases found with
  | none => cases h
  | some q =>
    simp only [dequeueRequest, hderef, Exec.within_ok, Exec.ok_bind, assert_of hopen, hqueue]
    cases hcompleted : q.completedQueue with
    | nil =>
      simp only [hcompleted] at h
      cases h
    | cons entry completedQueue =>
      cases entry with
      | none =>
        simp only [hcompleted] at h
        cases h
      | some k =>
        simp only [hcompleted] at h
        cases hk : q.connectionQueue[k]? with
        | none =>
          simp only [hk] at h
          cases h
        | some r =>
          simp only [hk] at h
          obtain ⟨new, hnew, h⟩ := Exec.bind_eq_ok.1 h
          obtain ⟨_, hpos, h⟩ := Exec.bind_eq_ok.1 h
          rw [assert_eq_ok] at hpos
          cases h
          have hlt := (List.getElem?_eq_some_iff.1 hk).1
          have hslot : (q.connectionQueue ++ (s.block ctx.mySd).spare)[k]? = some r := by
            rw [List.getElem?_append_left hlt, hk]
          have hwrite : (q.connectionQueue ++ (s.block ctx.mySd).spare).set k .cleared =
              q.connectionQueue.set k .cleared ++ (s.block ctx.mySd).spare :=
            List.set_append_left _ _ hlt
          have hlen : (q.connectionQueue.set k .cleared).length = q.connectionQueue.length :=
            List.length_set
          simp only [hstale ctx hderef, Nat.lt_irrefl, if_false, hslot, hnew, Exec.within_ok,
            Exec.ok_bind, assert_of hpos, hwrite, Exec.pure_eq_ok, List.take_left' hlen]
          refine ⟨_, rfl, fun key => ?_⟩
          by_cases hkey : key = ctx.mySd
          · rw [hkey, Function.update_self]
            exact (hstale ctx hderef).symm
          · rw [Function.update_of_ne hkey]

/-- Every other call does what it does without the memory. -/
theorem call_keeps (h : run.Listens L) {op : DemuxOp}
    (henabled : (backlogMachine L).enabled run (.call op)) :
    ∃ run', (backlogMachine L).step run (.call op) = .ok run' ∧ run'.Listens L := by
  obtain ⟨tables, hstale⟩ := h
  obtain ⟨tables', hstep, htables'⟩ := demuxMachine_preserves L run.tables op tables henabled
  have hother (hop : (backlogMachine L).step run (.call op) = run.withTables <$>
      Exec.within .demux ((demuxMachine L).step run.tables op)) :
      ∃ run', (backlogMachine L).step run (.call op) = .ok run' ∧ run'.Listens L := by
    rw [hop, hstep]
    exact ⟨_, rfl, htables', hstale⟩
  cases op with
  | enqueue packet peer socket => exact hother rfl
  | unblock sd => exact hother rfl
  | openSocket socket => exact hother rfl
  | closeSocket sd => exact hother rfl
  | dequeue =>
    obtain ⟨q, done, listener, h⟩ := tables
    obtain ⟨⟨e, sys⟩, hdequeue, hend⟩ := Exec.bind_eq_ok.1 hstep
    cases hend
    have hnoStale (ctx : MysockContext) (hctx : derefContext run.state.sys L = .ok ctx) :
        (run.state.block ctx.mySd).stale = 0 := by
      rw [derefContext, show run.state.sys.globalCtx L = some listener from h.entry] at hctx
      cases hctx
      rw [h.mySd_eq, hstale]
    obtain ⟨block, hrequest, hblock⟩ := dequeueRequest_eq hnoStale hdequeue
    refine ⟨⟨⟨sys, block⟩, run.completed, run.returned ++ [e.serial]⟩, ?_, htables', ?_⟩
    · change (do
        let (e, state) ← dequeueRequest run.state L
        pure ({ run with state, returned := run.returned ++ [e.serial] } : BacklogRun)) = _
      rw [hrequest]
      rfl
    · rw [hblock L, hstale]

end BacklogRun

/-- A socket that has just been made to listen, with nothing behind the end of its array. -/
structure ListenState.StartsListening (L backlog : Nat) (s : ListenState) : Prop where
  tables : s.sys.StartsListening L backlog
  stale : (s.block L).stale = 0

/-- The first call of `_mysock_set_backlog` builds such a queue. -/
theorem setBacklog_first {s : ListenState} {ctx : MysockContext} {backlog localPort : Nat}
    {realloc : Realloc} (hopen : ctx.listening = true ∧ ctx.bound = true)
    (hnone : s.sys.listenTable ctx.mySd = none) (hport : 0 < localPort)
    (hrealloc : realloc ≠ .fails) :
    setBacklog s ctx backlog localPort true realloc =
      .ok (s.setQueue ctx.mySd (.new backlog) ⟨localPort, [], 0⟩) := by
  have hqueue : getConnectionQueue s.sys ctx = .ok none := by
    rw [getConnectionQueue, assert_of hopen, Exec.ok_bind, hnone, Exec.pure_eq_ok]
  have hnew : (⟨0, 0, [], []⟩ : ListenQueue).resize ((backlog + 1) % 2 ^ 32) = .new backlog := by
    rw [ListenQueue.resize, List.take_nil, List.nil_append, Nat.sub_zero]
    rfl
  have hresize : resizeQueue s ctx.mySd ⟨0, 0, [], []⟩ ⟨localPort, [], 0⟩ ((backlog + 1) % 2 ^ 32)
      realloc = .ok (s.setQueue ctx.mySd (.new backlog) ⟨localPort, [], 0⟩) := by
    unfold resizeQueue
    rw [hnew]
    split
    · cases realloc with
      | fails => exact absurd rfl hrealloc
      | inPlace => rfl
      | moves => rfl
    · rw [List.drop_nil]
      rfl
  simp only [setBacklog, assert_of hopen, Exec.ok_bind, assert_of hport, hqueue, Exec.within_ok,
    assert_of, hresize, Exec.pure_eq_ok]

/-- Every connection keeps its place through a run exactly if each change of the backlog fits. -/
theorem keepsConnections_iff {L backlog : Nat} {s : ListenState} (hs : s.StartsListening L backlog)
    {ops : List BacklogOp} (hops : (backlogMachine L).Admissible ⟨s, [], []⟩ ops) :
    (∀ before, before <+: ops → ∃ run, (backlogMachine L).run ⟨s, [], []⟩ before = .ok run ∧
      run.KeepsConnections L) ↔
      ((backlogMachine L).restrict (BacklogOp.Fits L)).Admissible ⟨s, [], []⟩ ops := by
  obtain ⟨listener, hstart⟩ := hs.tables.listens
  have hlistens : BacklogRun.Listens L ⟨s, [], []⟩ := ⟨⟨_, [], listener, hstart⟩, hs.stale⟩
  refine Machine.good_throughout_iff (fun run h => h.keeps) ?_ ?_ hlistens hops
  · intro run op h henabled hfits
    cases op with
    | call op => exact BacklogRun.call_keeps h henabled
    | setBacklog backlog localPort realloc => exact BacklogRun.setBacklog_keeps h henabled hfits
  · intro run op run' h henabled hno hstep
    cases op with
    | call op => exact absurd trivial hno
    | setBacklog backlog localPort realloc =>
      exact BacklogRun.setBacklog_loses h henabled hno hstep

/-- Socket 0 listens on port 80. -/
def ListenState.listening (backlog : Nat) : ListenState :=
  ⟨Demux.listening backlog, fun _ => ⟨80, [], 0⟩⟩

theorem ListenState.startsListening_listening (backlog : Nat) :
    (ListenState.listening backlog).StartsListening 0 backlog :=
  ⟨Demux.startsListening_listening backlog, rfl⟩

/-- A connection request from a port of the host 1. -/
def synFrom (port : UInt16) : BacklogOp :=
  .call (.enqueue ((List.replicate 20 0).set 13 2) ⟨afInet, port, 1, 0⟩ 4)

/-- A completed connection waits while the array grows in place. -/
def growOps : List BacklogOp :=
  [synFrom 80, .call (.unblock 1), .setBacklog 2 80 .inPlace, synFrom 81, .call .dequeue]

theorem growOps_admissible :
    (backlogMachine 0).Admissible ⟨.listening 0, [], []⟩ growOps := by decide +kernel

theorem keepsConnections_growOps :
    (∀ before, before <+: growOps → ∃ run,
      (backlogMachine 0).run ⟨.listening 0, [], []⟩ before = .ok run ∧ run.KeepsConnections 0) ↔
      ((backlogMachine 0).restrict (BacklogOp.Fits 0)).Admissible ⟨.listening 0, [], []⟩ growOps :=
  keepsConnections_iff (ListenState.startsListening_listening 0) growOps_admissible

/-- Two connections, and a limit for one. -/
def cutOffOps : List BacklogOp := [synFrom 80, synFrom 81, .setBacklog 0 80 .inPlace]

/-- A completed connection waits while the array moves. -/
def movedOps : List BacklogOp :=
  [synFrom 80, .call (.unblock 1), .setBacklog 1 80 .moves, .call .dequeue]

/-- The second connection is cut off by the new limit, and `myaccept` follows the pointer of a
completed entry into the array that has been freed. -/
theorem not_keepsConnections :
    ((backlogMachine 0).Admissible ⟨.listening 1, [], []⟩ cutOffOps ∧
      ¬ ∃ run, (backlogMachine 0).run ⟨.listening 1, [], []⟩ cutOffOps = .ok run ∧
        run.KeepsConnections 0) ∧
      (backlogMachine 0).Admissible ⟨.listening 0, [], []⟩ movedOps ∧
      (backlogMachine 0).run ⟨.listening 0, [], []⟩ movedOps = .error .dangling := by
  refine ⟨⟨by decide +kernel, ?_⟩, by decide +kernel, by decide +kernel⟩
  rintro ⟨run, hrun, q, done, hlookup, hcount, -⟩
  have hcounts : (fun run : BacklogRun => (run.state.sys.listenTable 0).map fun q =>
      decide (q.curLen = q.connectionQueue.countP fun r => r.sd ≠ -1)) <$>
        (backlogMachine 0).run ⟨.listening 1, [], []⟩ cutOffOps = .ok (some false) := by
    decide +kernel
  obtain ⟨run', hrun', hfalse⟩ := Exec.map_eq_ok.1 hcounts
  cases hrun.symm.trans hrun'
  rw [show run.state.sys.listenTable 0 = some q from hlookup, Option.map_some] at hfalse
  simp [hcount] at hfalse

end ComputerNetworks.Mysock
