import ComputerNetworks.Mysock.Context

/-!
# Demultiplexing of connection requests

`connection_demux.c` with the descriptor table of `mysock.c`. A listening socket
has an array of connection requests, and the requests whose handshake is over
wait in a queue of their own until `myaccept` takes them. Calls are atomic.
-/

namespace ComputerNetworks.Mysock

/-- The assertions of the demultiplexer and of what it calls. -/
inductive DemuxAssert where
  /-- `assert(ctx && ctx->listening && ctx->bound)`. -/
  | ctxListening
  /-- `assert(peer_addr_len > 0)`. -/
  | peerAddrLen
  /-- `assert(peer_addr->sa_family == AF_INET)`. -/
  | peerFamily
  /-- `assert(r->sd == -1 || peer_addr_len == r->peer_addr_len)`. -/
  | sameAddrLen
  /-- `assert(queue_entry)`. -/
  | slotFound
  /-- `assert(queue_entry->sd == -1)`. -/
  | slotFree
  /-- `assert(!user_data)`. -/
  | noUserData
  /-- `assert(!listening)` on the new context. -/
  | newNotListening
  /-- `assert(!is_active)` on the new context. -/
  | newNotActive
  /-- The checks of `verify_mysocket_descriptor`. -/
  | descriptor
  /-- `assert(ctx->blocking)`. -/
  | blocking
  /-- `assert(ctx->listen_sd >= 0)`. -/
  | listenSd
  /-- `assert(connection_req)`. -/
  | requestFound
  /-- `assert(q)`. -/
  | queueFound
  /-- `assert(r->request)`. -/
  | request
  /-- `assert(q->cur_len > 0)`. -/
  | curLen
  deriving DecidableEq, Repr

/-- `connect_request_t`; `sd` is `-1` in a free slot. -/
structure ConnectRequest where
  peerAddr : Sockaddr
  peerAddrLen : Int
  sd : Int
  userData : Nat
  deriving DecidableEq, Repr

/-- `INVALIDATE_CONNECT_REQUEST`. -/
def ConnectRequest.cleared : ConnectRequest := ⟨⟨0, 0, 0, 0⟩, 0, -1, 0⟩

/-- `listen_queue_t`. An entry of the completed queue points to a slot, or nowhere. -/
structure ListenQueue where
  maxLen : Nat
  curLen : Nat
  connectionQueue : List ConnectRequest
  completedQueue : List (Option Nat)
  deriving DecidableEq, Repr

/-- What the first `_mysock_set_backlog` of a socket builds; `backlog + 1` is unsigned. -/
def ListenQueue.new (backlog : Nat) : ListenQueue :=
  ⟨(backlog + 1) % 2 ^ 32, 0, List.replicate ((backlog + 1) % 2 ^ 32) .cleared, []⟩

/-- A context in the descriptor table, with the number of the allocation it comes from, which
tells it from earlier contexts under the same descriptor. -/
structure Entry where
  serial : Nat
  ctx : MysockContext
  deriving DecidableEq, Repr

/-- `MAX_NUM_CONNECTIONS`. -/
def maxNumConnections : Nat := 64

/-- The descriptor table, the number of contexts allocated so far, and the listen table. -/
structure Demux where
  globalCtx : Nat → Option Entry
  allocated : Nat
  listenTable : Int → Option ListenQueue

/-- Write a context through its pointer. -/
def Demux.setContext (s : Demux) (sd : Nat) (ctx : MysockContext) : Demux :=
  { s with
    globalCtx := Function.update s.globalCtx sd ((s.globalCtx sd).map fun e => { e with ctx }) }

/-- Write a listen queue through its pointer. -/
def Demux.setQueue (s : Demux) (sd : Int) (q : ListenQueue) : Demux :=
  { s with listenTable := Function.update s.listenTable sd (some q) }

theorem Demux.setContext_eq {s : Demux} {sd : Nat} {e : Entry} {ctx : MysockContext}
    (he : s.globalCtx sd = some e) :
    s.setContext sd ctx =
      { s with globalCtx := Function.update s.globalCtx sd (some { e with ctx }) } := by
  rw [setContext, he]
  rfl

/-- `_mysock_get_context`, which verifies the descriptor. -/
def getContext (s : Demux) (sd : Int) : Exec DemuxAssert Entry :=
  if 0 ≤ sd ∧ sd < maxNumConnections then
    match s.globalCtx sd.toNat with
    | none => .error (.assertion .descriptor)
    | some e => do
      assert (e.ctx.mySd = sd) .descriptor
      pure e
  else .error (.assertion .descriptor)

/-- A context a thread holds a pointer to. -/
def derefContext (s : Demux) (sd : Nat) : Exec DemuxAssert MysockContext :=
  match s.globalCtx sd with
  | none => .error .dangling
  | some e => .ok e.ctx

/-- `_mysock_allocate_context`, with the socket the system returned. -/
def allocateContext (sd : Nat) (socket : Int) : MysockContext where
  isActive := false
  network := ⟨⟨0, 0, 0, 0⟩, 0, false, socket, -1, false⟩
  bound := false
  listening := false
  mySd := sd
  listenSd := -1
  blocking := true
  networkRecvQueue := []

/-- `_mysock_new_mysocket`; no descriptor when the table is full. -/
def newMysocket (s : Demux) (socket : Int) : Demux × Option Nat :=
  match (List.range maxNumConnections).find? fun k => (s.globalCtx k).isNone with
  | none => (s, none)
  | some k =>
    ({ s with
      globalCtx := Function.update s.globalCtx k (some ⟨s.allocated, allocateContext k socket⟩)
      allocated := s.allocated + 1 }, some k)

/-- `_get_connection_queue`. -/
def getConnectionQueue (s : Demux) (ctx : MysockContext) :
    Exec DemuxAssert (Option ListenQueue) := do
  assert (ctx.listening = true ∧ ctx.bound = true) .ctxListening
  pure (s.listenTable ctx.mySd)

/-- `_debug_print_connection`, of which the check remains without `DEBUG`. -/
def debugPrintConnection (peerAddr : Sockaddr) : Exec DemuxAssert Unit :=
  assert (peerAddr.family = afInet) .peerFamily

/-- Report a dropped request. -/
def dropRequest (s : Demux) (peerAddr : Sockaddr) : Exec DemuxAssert (Bool × Demux) := do
  debugPrintConnection peerAddr
  pure (false, s)

/-- The test for a packet that is no connection setup request: a short one, or no `TH_SYN` in
`th_flags`. -/
def notSyn (packet : List UInt8) (packetLen : Nat) : Exec DemuxAssert Bool :=
  if packetLen < headerSize then .ok true
  else
    match packet[13]? with
    | none => .error .outOfBounds
    | some flags => .ok (flags &&& 2 == 0)

/-- `!memcmp(&r->peer_addr, peer_addr, peer_addr_len)`. -/
def samePeer (r : ConnectRequest) (peerAddr : Sockaddr) (peerAddrLen : Int) :
    Exec DemuxAssert Bool :=
  if peerAddrLen ≤ 16 then
    .ok (r.peerAddr.bytes.take peerAddrLen.toNat == peerAddr.bytes.take peerAddrLen.toNat)
  else .error .outOfBounds

/-- The search for a queued request of the same peer. -/
def isRetransmission (peerAddr : Sockaddr) (peerAddrLen : Int) :
    List ConnectRequest → Exec DemuxAssert Bool
  | [] => .ok false
  | r :: slots => do
    assert (r.sd = -1 ∨ peerAddrLen = r.peerAddrLen) .sameAddrLen
    if ← samePeer r peerAddr peerAddrLen then .ok true
    else isRetransmission peerAddr peerAddrLen slots

/-- `_network_update_passive_state`: the accepted connection moves to the new context. -/
def networkUpdatePassiveState (new : MysockContext) (accept : NetworkContext) (userData : Nat) :
    Exec DemuxAssert (MysockContext × NetworkContext) := do
  assert (userData = 0) .noUserData
  assert (new.listening = false) .newNotListening
  assert (new.isActive = false) .newNotActive
  pure ({ new with network := { new.network with socket := accept.newSocket, connected := true } },
    { accept with newSocket := -1 })

/-- `_mysock_transport_init` of a passive context, of which the threads are not modelled here. -/
def transportInit (new : MysockContext) : Exec DemuxAssert MysockContext := do
  assert (new.listening = false) .newNotListening
  pure { new with isActive := false }

/-- The part of `_mysock_enqueue_connection` that fills a free slot, `cur_len` already counting
it. -/
def establish (s : Demux) (ctxSd : Nat) (ctx : MysockContext) (q : ListenQueue) (k : Nat)
    (packet : List UInt8) (packetLen : Nat) (peerAddr : Sockaddr) (peerAddrLen : Int)
    (userData : Nat) (socket : Int) : Exec DemuxAssert (Bool × Demux) :=
  match newMysocket s socket with
  | (s, none) => do
    debugPrintConnection peerAddr
    pure (false, s.setQueue ctx.mySd { q with
      connectionQueue := q.connectionQueue.set k .cleared, curLen := q.curLen - 1 })
  | (s, some sd) => do
    let new ← getContext s sd
    let new := { new.ctx with
      listenSd := ctx.mySd
      network := { new.ctx.network with
        peerAddr, peerAddrLen := peerAddrLen.toNat, peerAddrValid := true } }
    debugPrintConnection peerAddr
    let (new, accept) ← networkUpdatePassiveState new ctx.network userData
    let new ← transportInit new
    let data ← readAt packet 0 packetLen
    let new := { new with networkRecvQueue := new.networkRecvQueue ++ [data] }
    pure (true, ((s.setContext sd new).setContext ctxSd { ctx with network := accept }).setQueue
       ctx.mySd { q with
         connectionQueue := q.connectionQueue.set k ⟨peerAddr, peerAddrLen, sd, userData⟩ })

/-- `_mysock_enqueue_connection` on the listening context under a descriptor. -/
def enqueueConnection (s : Demux) (ctxSd : Nat) (packet : List UInt8) (packetLen : Nat)
    (peerAddr : Sockaddr) (peerAddrLen : Int) (userData : Nat) (socket : Int) :
    Exec DemuxAssert (Bool × Demux) := do
  let ctx ← derefContext s ctxSd
  assert (ctx.listening = true ∧ ctx.bound = true) .ctxListening
  assert (0 < peerAddrLen) .peerAddrLen
  if ← notSyn packet packetLen then dropRequest s peerAddr
  else do
    match ← getConnectionQueue s ctx with
    | none => dropRequest s peerAddr
    | some q =>
      if ← isRetransmission peerAddr peerAddrLen q.connectionQueue then dropRequest s peerAddr
      else if q.curLen < q.maxLen then
        match q.connectionQueue.findIdx? fun r => r.sd < 0 with
        | none => .error (.assertion .slotFound)
        | some k => do
          assert (q.connectionQueue[k]?.map ConnectRequest.sd = some (-1)) .slotFree
          establish s ctxSd ctx { q with curLen := q.curLen + 1 } k packet packetLen peerAddr
            peerAddrLen userData socket
      else dropRequest s peerAddr

/-- `_mysock_passive_connection_complete`. -/
def passiveConnectionComplete (s : Demux) (ctx : MysockContext) : Exec DemuxAssert Demux := do
  assert (0 ≤ ctx.listenSd) .listenSd
  let listener ← getContext s ctx.listenSd
  match ← getConnectionQueue s listener.ctx with
  | none => pure s
  | some q =>
    match q.connectionQueue.findIdx? fun r => r.sd = ctx.mySd with
    | none => .error (.assertion .requestFound)
    | some k =>
      pure (s.setQueue listener.ctx.mySd { q with completedQueue := q.completedQueue ++ [some k] })

/-- `ctx->blocking = FALSE`. -/
def MysockContext.unblock (ctx : MysockContext) : MysockContext := { ctx with blocking := false }

/-- `stcp_unblock_application`, which completes a passive connection at most once. -/
def stcpUnblockApplication (s : Demux) (sd : Nat) : Exec DemuxAssert Demux := do
  let e ← getContext s sd
  assert (e.ctx.blocking = true) .blocking
  let s := s.setContext sd e.ctx.unblock
  if e.ctx.isActive then pure s else passiveConnectionComplete s e.ctx.unblock

/-- `_mysock_dequeue_connection` from the end of its wait on. -/
def dequeueConnection (s : Demux) (ctxSd : Nat) : Exec DemuxAssert (Entry × Demux) := do
  let ctx ← derefContext s ctxSd
  assert (ctx.listening = true ∧ ctx.bound = true) .ctxListening
  match ← getConnectionQueue s ctx with
  | none => .error (.assertion .queueFound)
  | some q =>
    match q.completedQueue with
    | [] => .error .nullPointer
    | none :: _ => .error (.assertion .request)
    | some k :: completedQueue =>
      match q.connectionQueue[k]? with
      | none => .error .outOfBounds
      | some r => do
        let new ← getContext s r.sd
        assert (0 < q.curLen) .curLen
        pure (new, s.setQueue ctx.mySd { q with
          connectionQueue := q.connectionQueue.set k .cleared
          completedQueue
          curLen := q.curLen - 1 })

/-- What the lookup returns stands under the descriptor. -/
theorem getConnectionQueue_eq_ok {s : Demux} {ctx : MysockContext} {q : Option ListenQueue}
    (h : getConnectionQueue s ctx = .ok q) : s.listenTable ctx.mySd = q := by
  obtain ⟨-, -, h⟩ := Exec.bind_eq_ok.1 h
  cases h
  rfl

/-- A completed connection is put behind the others, if its listener still has a queue. -/
theorem passiveConnectionComplete_cases {s s' : Demux} {ctx : MysockContext}
    (h : passiveConnectionComplete s ctx = .ok s') :
    s' = s ∨ ∃ key q k, s.listenTable key = some q ∧
      s' = s.setQueue key { q with completedQueue := q.completedQueue ++ [some k] } := by
  obtain ⟨_, -, h⟩ := Exec.bind_eq_ok.1 h
  obtain ⟨listener, -, h⟩ := Exec.bind_eq_ok.1 h
  obtain ⟨q, hq, h⟩ := Exec.bind_eq_ok.1 h
  cases q with
  | none =>
    cases h
    exact .inl rfl
  | some q =>
    simp only at h
    split at h
    · cases h
    · cases h
      exact .inr ⟨_, q, _, getConnectionQueue_eq_ok hq, rfl⟩

/-- The first completed connection is taken out of its slot. -/
theorem dequeueConnection_cases {s s' : Demux} {sd : Nat} {e : Entry}
    (h : dequeueConnection s sd = .ok (e, s')) :
    ∃ key q k completedQueue, s.listenTable key = some q ∧
      s' = s.setQueue key { q with
        connectionQueue := q.connectionQueue.set k .cleared
        completedQueue
        curLen := q.curLen - 1 } := by
  obtain ⟨ctx, -, h⟩ := Exec.bind_eq_ok.1 h
  obtain ⟨_, -, h⟩ := Exec.bind_eq_ok.1 h
  obtain ⟨q, hq, h⟩ := Exec.bind_eq_ok.1 h
  cases q with
  | none => cases h
  | some q =>
    simp only at h
    split at h
    · cases h
    · cases h
    · split at h
      · cases h
      · obtain ⟨new, -, h⟩ := Exec.bind_eq_ok.1 h
        obtain ⟨_, -, h⟩ := Exec.bind_eq_ok.1 h
        cases h
        exact ⟨_, q, _, _, getConnectionQueue_eq_ok hq, rfl⟩

/-- The slots and their count move together: a free slot is cleared, and no two occupied ones
share a descriptor or a peer. -/
structure ListenQueue.WellFormed (q : ListenQueue) : Prop where
  size : q.connectionQueue.length = q.maxLen
  count : q.curLen = q.connectionQueue.countP fun r => r.sd ≠ -1
  free : ∀ r ∈ q.connectionQueue, r.sd = -1 → r = .cleared
  occupied : ∀ r ∈ q.connectionQueue, r.sd ≠ -1 → 0 ≤ r.sd ∧ r.peerAddrLen = 16
  distinct : ∀ (i j : Nat) (r r' : ConnectRequest), q.connectionQueue[i]? = some r →
    q.connectionQueue[j]? = some r' → r.sd ≠ -1 → r'.sd ≠ -1 →
    (r.sd = r'.sd ∨ r.peerAddr = r'.peerAddr) → i = j

/-- What an array holds after one write. -/
theorem getElem?_set_cases {α : Type} {l : List α} {k i : Nat} {a b : α}
    (h : (l.set k a)[i]? = some b) : (i = k ∧ b = a) ∨ (i ≠ k ∧ l[i]? = some b) := by
  by_cases hik : i = k
  · subst hik
    rw [List.getElem?_set_self'] at h
    obtain ⟨-, -, rfl⟩ := Option.map_eq_some_iff.1 h
    exact .inl ⟨rfl, rfl⟩
  · rw [List.getElem?_set_ne (Ne.symm hik)] at h
    exact .inr ⟨hik, h⟩

namespace ListenQueue.WellFormed

variable {q : ListenQueue}

/-- An empty queue is well formed. -/
theorem new (backlog : Nat) : (ListenQueue.new backlog).WellFormed where
  size := by simp [ListenQueue.new]
  count := by simp [ListenQueue.new, ConnectRequest.cleared, List.countP_replicate]
  free := fun r hr _ => (List.mem_replicate.1 hr).2
  occupied := by
    intro r hr hsd
    exact absurd ((List.mem_replicate.1 hr).2 ▸ rfl) hsd
  distinct := by
    intro i j r r' hr _ hsd
    exact absurd ((List.mem_replicate.1 (List.mem_of_getElem? hr)).2 ▸ rfl) hsd

theorem curLen_le (h : q.WellFormed) : q.curLen ≤ q.maxLen := by
  rw [h.count, ← h.size]
  exact List.countP_le_length

/-- When the count is short of the array, the search finds a slot, and a free one. -/
theorem exists_free (h : q.WellFormed) (hlt : q.curLen < q.maxLen) :
    ∃ k r, q.connectionQueue.findIdx? (fun r => decide (r.sd < 0)) = some k ∧
      q.connectionQueue[k]? = some r ∧ r.sd = -1 := by
  rw [h.count, ← h.size] at hlt
  cases hfind : q.connectionQueue.findIdx? fun r => decide (r.sd < 0) with
  | none =>
    rw [List.findIdx?_eq_none_iff] at hfind
    refine absurd (List.countP_eq_length.2 fun r hr => ?_) hlt.ne
    have hr' := hfind r hr
    simp only [decide_eq_false_iff_not, decide_eq_true_eq] at hr' ⊢
    omega
  | some k =>
    obtain ⟨hk, hneg, -⟩ := List.findIdx?_eq_some_iff_getElem.1 hfind
    refine ⟨k, q.connectionQueue[k], rfl, List.getElem?_eq_getElem hk, ?_⟩
    simp only [decide_eq_true_eq] at hneg
    by_contra hsd
    have := (h.occupied _ (List.getElem_mem hk) hsd).1
    omega

/-- Filling a free slot with a new descriptor and a new peer. -/
theorem fill (h : q.WellFormed) {k sd : Nat} {r₀ : ConnectRequest} {peer : Sockaddr}
    (hk : q.connectionQueue[k]? = some r₀) (hr₀ : r₀.sd = -1)
    (hsd : ∀ r ∈ q.connectionQueue, r.sd ≠ sd)
    (hpeer : ∀ r ∈ q.connectionQueue, r.peerAddr ≠ peer) :
    ListenQueue.WellFormed { q with
      curLen := q.curLen + 1
      connectionQueue := q.connectionQueue.set k ⟨peer, 16, sd, 0⟩ } where
  size := by rw [List.length_set, h.size]
  count := by
    obtain ⟨hlt, rfl⟩ := List.getElem?_eq_some_iff.1 hk
    have hnew : ((sd : Int) ≠ -1) := by omega
    simp only [List.countP_set hlt, hr₀, h.count, hnew, ne_eq, not_true_eq_false, not_false_eq_true,
      decide_false, decide_true, Bool.false_eq_true, if_false, if_true, Nat.sub_zero]
  free := by
    intro r hr hfree
    rcases List.mem_or_eq_of_mem_set hr with hr | rfl
    · exact h.free r hr hfree
    · exact nomatch hfree
  occupied := by
    intro r hr hocc
    rcases List.mem_or_eq_of_mem_set hr with hr | rfl
    · exact h.occupied r hr hocc
    · exact ⟨Int.natCast_nonneg sd, rfl⟩
  distinct := by
    intro i j r r' hr hr' hocc hocc' hsame
    rcases getElem?_set_cases hr with ⟨rfl, rfl⟩ | ⟨-, hold⟩ <;>
      rcases getElem?_set_cases hr' with ⟨rfl, rfl⟩ | ⟨-, hold'⟩
    · rfl
    · have hmem := List.mem_of_getElem? hold'
      exact absurd hsame (not_or.2 ⟨fun he => hsd r' hmem he.symm, fun he => hpeer r' hmem he.symm⟩)
    · have hmem := List.mem_of_getElem? hold
      exact absurd hsame (not_or.2 ⟨hsd r hmem, hpeer r hmem⟩)
    · exact h.distinct i j r r' hold hold' hocc hocc' hsame

/-- Clearing an occupied slot; the completed queue plays no part. -/
theorem clear (h : q.WellFormed) {k : Nat} {r₀ : ConnectRequest}
    (completedQueue : List (Option Nat)) (hk : q.connectionQueue[k]? = some r₀) (hr₀ : r₀.sd ≠ -1) :
    0 < q.curLen ∧ ListenQueue.WellFormed
      ⟨q.maxLen, q.curLen - 1, q.connectionQueue.set k .cleared, completedQueue⟩ := by
  obtain ⟨hlt, rfl⟩ := List.getElem?_eq_some_iff.1 hk
  constructor
  · rw [h.count, List.countP_pos_iff]
    exact ⟨_, List.getElem_mem hlt, by simpa using hr₀⟩
  · refine ⟨by rw [List.length_set, h.size], ?_, ?_, ?_, ?_⟩
    · simp only [List.countP_set hlt, hr₀, h.count, ConnectRequest.cleared, ne_eq,
        not_true_eq_false, not_false_eq_true, decide_false, decide_true, Bool.false_eq_true,
        if_false, if_true, Nat.add_zero]
    · intro r hr hfree
      rcases List.mem_or_eq_of_mem_set hr with hr | rfl
      · exact h.free r hr hfree
      · rfl
    · intro r hr hocc
      rcases List.mem_or_eq_of_mem_set hr with hr | rfl
      · exact h.occupied r hr hocc
      · exact absurd rfl hocc
    · intro i j r r' hr hr' hocc hocc' hsame
      rcases getElem?_set_cases hr with ⟨-, rfl⟩ | ⟨-, hold⟩
      · exact absurd rfl hocc
      rcases getElem?_set_cases hr' with ⟨-, rfl⟩ | ⟨-, hold'⟩
      · exact absurd rfl hocc'
      exact h.distinct i j r r' hold hold' hocc hocc' hsame

end ListenQueue.WellFormed

/-- The packet is a connection setup request. -/
def IsSyn (packet : List UInt8) (packetLen : Nat) : Prop :=
  headerSize ≤ packetLen ∧ ∃ flags, packet[13]? = some flags ∧ flags &&& 2 ≠ 0

/-- The test passes on a header with the SYN flag alone. -/
theorem notSyn_eq {packet : List UInt8} {packetLen : Nat} (h : packetLen ≤ packet.length) :
    ∃ b, notSyn packet packetLen = .ok b ∧ (b = false ↔ IsSyn packet packetLen) := by
  unfold notSyn IsSyn
  by_cases hshort : packetLen < headerSize
  · exact ⟨true, if_pos hshort, iff_of_false nofun fun h => absurd h.1 (Nat.not_le.2 hshort)⟩
  · have hlt : 13 < packet.length := by
      unfold headerSize at hshort
      omega
    rw [if_neg hshort, List.getElem?_eq_getElem hlt]
    refine ⟨_, rfl, ?_⟩
    simp only [beq_eq_false_iff_ne, Option.some.injEq, exists_eq_left', Nat.le_of_not_lt hshort,
      true_and]

/-- Addresses of sixteen bytes are compared as a whole. -/
theorem samePeer_eq (r : ConnectRequest) (peer : Sockaddr) :
    samePeer r peer 16 = .ok (decide (r.peerAddr = peer)) := by
  have hbytes : (r.peerAddr.bytes == peer.bytes) = decide (r.peerAddr = peer) := by
    by_cases hr : r.peerAddr = peer
    · rw [hr, beq_self_eq_true, decide_eq_true rfl]
    · rw [decide_eq_false hr, beq_eq_false_iff_ne]
      exact fun hb => hr (Sockaddr.bytes_injective hb)
  have htake (a : Sockaddr) : a.bytes.take (16 : Int).toNat = a.bytes :=
    List.take_of_length_le (Sockaddr.bytes_length a).le
  rw [samePeer, if_pos (by omega), htake, htake, hbytes]

/-- The loop finds a slot of the same peer, if there is one. -/
theorem isRetransmission_eq {peer : Sockaddr} {slots : List ConnectRequest}
    (h : ∀ r ∈ slots, r.sd = -1 ∨ 16 = r.peerAddrLen) :
    ∃ b, isRetransmission peer 16 slots = .ok b ∧ (b = false ↔ ∀ r ∈ slots, r.peerAddr ≠ peer) := by
  induction slots with
  | nil => exact ⟨false, rfl, by simp⟩
  | cons r slots ih =>
    obtain ⟨b, hb, hiff⟩ := ih fun x hx => h x (List.mem_cons_of_mem r hx)
    rw [isRetransmission, assert_of (h r List.mem_cons_self), Exec.ok_bind, samePeer_eq,
      Exec.ok_bind]
    by_cases hr : r.peerAddr = peer
    · exact ⟨true, by simp [hr], by simp [hr]⟩
    · refine ⟨b, by simp [hr, hb], ?_⟩
      rw [hiff]
      simp [hr]

/-- The table with a new context under a free descriptor. -/
def Demux.allocate (s : Demux) (k : Nat) (socket : Int) : Demux :=
  { s with
    globalCtx := Function.update s.globalCtx k (some ⟨s.allocated, allocateContext k socket⟩)
    allocated := s.allocated + 1 }

/-- A new mysocket takes a free descriptor, and fails only when there is none. -/
theorem newMysocket_cases (s : Demux) (socket : Int) :
    (newMysocket s socket = (s, none) ∧ ∀ k < maxNumConnections, s.globalCtx k ≠ none) ∨
    ∃ k, k < maxNumConnections ∧ s.globalCtx k = none ∧
      newMysocket s socket = (s.allocate k socket, some k) := by
  unfold newMysocket
  cases hfind : (List.range maxNumConnections).find? fun k => (s.globalCtx k).isNone with
  | none =>
    refine .inl ⟨rfl, fun k hk hnone => ?_⟩
    exact absurd (Option.isNone_iff_eq_none.2 hnone)
      (List.find?_eq_none.1 hfind k (List.mem_range.2 hk))
  | some k =>
    have hnone := List.find?_some hfind
    exact .inr ⟨k, List.mem_range.1 (List.mem_of_find?_eq_some hfind),
      Option.isNone_iff_eq_none.1 hnone, rfl⟩

/-- What a request needs to be accepted: a SYN of a peer that is not queued, a free slot and a free
descriptor. -/
structure Acceptable (s : Demux) (q : ListenQueue) (packet : List UInt8) (packetLen : Nat)
    (peer : Sockaddr) : Prop where
  syn : IsSyn packet packetLen
  newPeer : ∀ r ∈ q.connectionQueue, r.peerAddr ≠ peer
  slot : q.curLen < q.maxLen
  descriptor : ∃ k, k < maxNumConnections ∧ s.globalCtx k = none

/-- The context of an accepted request, on the connection its SYN came over. -/
def passiveContext (sd : Nat) (listenSd : Int) (peer : Sockaddr) (socket : Int)
    (syn : List UInt8) : MysockContext where
  isActive := false
  network := ⟨peer, 16, true, socket, -1, true⟩
  bound := false
  listening := false
  mySd := sd
  listenSd := listenSd
  blocking := true
  networkRecvQueue := [syn]

/-- The listener after its accepted connection was passed on. -/
def MysockContext.passOn (ctx : MysockContext) : MysockContext :=
  { ctx with network := { ctx.network with newSocket := -1 } }

/-- The queue with a request of the peer in slot `k`. -/
def ListenQueue.addRequest (q : ListenQueue) (k sd : Nat) (peer : Sockaddr) : ListenQueue :=
  { q with
    curLen := q.curLen + 1
    connectionQueue := q.connectionQueue.set k ⟨peer, 16, sd, 0⟩ }

/-- The state after a request was accepted under descriptor `sd` in slot `k`. -/
def Demux.accept (s : Demux) (ctxSd : Nat) (listener : Entry) (q : ListenQueue) (k sd : Nat)
    (syn : List UInt8) (peer : Sockaddr) : Demux where
  globalCtx := Function.update (Function.update s.globalCtx sd (some ⟨s.allocated,
    passiveContext sd listener.ctx.mySd peer listener.ctx.network.newSocket syn⟩)) ctxSd
    (some { listener with ctx := listener.ctx.passOn })
  allocated := s.allocated + 1
  listenTable := Function.update s.listenTable listener.ctx.mySd (some (q.addRequest k sd peer))

theorem Demux.setContext_allocate (s : Demux) (sd : Nat) (socket : Int) (ctx : MysockContext) :
    (s.allocate sd socket).setContext sd ctx =
      { s with
        globalCtx := Function.update s.globalCtx sd (some ⟨s.allocated, ctx⟩)
        allocated := s.allocated + 1 } := by
  have he : (s.allocate sd socket).globalCtx sd =
      some ⟨s.allocated, allocateContext sd socket⟩ := Function.update_self ..
  rw [setContext_eq he]
  simp only [allocate, Function.update_idem]

/-- A lookup that returns has found an open context. -/
theorem globalCtx_of_getContext {s : Demux} {sd : Int} {e : Entry} (h : getContext s sd = .ok e) :
    s.globalCtx sd.toNat = some e := by
  unfold getContext at h
  split at h
  · cases hglobal : s.globalCtx sd.toNat with
    | none => rw [hglobal] at h; cases h
    | some e' =>
      rw [hglobal] at h
      obtain ⟨_, -, h⟩ := Exec.bind_eq_ok.1 h
      cases h
      rfl
  · cases h

/-- An open context that knows its descriptor is found. -/
theorem getContext_eq {s : Demux} {sd : Nat} {e : Entry} (hsd : sd < maxNumConnections)
    (he : s.globalCtx sd = some e) (hmine : e.ctx.mySd = sd) : getContext s sd = .ok e := by
  have hrange : 0 ≤ (sd : Int) ∧ (sd : Int) < maxNumConnections := by omega
  simp only [getContext, if_pos hrange, Int.toNat_natCast, he, assert_of hmine, Exec.ok_bind,
    Exec.pure_eq_ok]

/-- The branch of `establish` that ends with a new connection. -/
theorem establish_some {s : Demux} {ctxSd k sd : Nat} {listener : Entry} {q : ListenQueue}
    {packet : List UInt8} {packetLen : Nat} {peer : Sockaddr} {socket : Int}
    (hctx : s.globalCtx ctxSd = some listener) (hsd : sd < maxNumConnections)
    (hnone : s.globalCtx sd = none) (hnew : newMysocket s socket = (s.allocate sd socket, some sd))
    (hlen : packetLen ≤ packet.length) (hpeer : peer.family = afInet) :
    establish s ctxSd listener.ctx { q with curLen := q.curLen + 1 } k packet packetLen peer 16 0
        socket =
      .ok (true, s.accept ctxSd listener q k sd (packet.take packetLen) peer) := by
  have hne : ctxSd ≠ sd := fun h => by simp [h, hnone] at hctx
  have hget : getContext (s.allocate sd socket) sd =
      .ok ⟨s.allocated, allocateContext sd socket⟩ :=
    getContext_eq hsd (Function.update_self ..) rfl
  have hlistener (e : Entry) : Function.update s.globalCtx sd (some e) ctxSd = some listener := by
    rw [Function.update_of_ne hne, hctx]
  have hread : (readAt packet 0 packetLen : Exec DemuxAssert (List UInt8)) =
      .ok (packet.take packetLen) := readAt_of_le (by omega)
  simp only [establish, hnew, hget, Exec.ok_bind, debugPrintConnection, assert_of hpeer,
    networkUpdatePassiveState, transportInit, allocateContext, assert_of, hread, Exec.pure_eq_ok]
  rw [Demux.setContext_allocate, Demux.setContext_eq (hlistener _)]
  rfl

/-- The failing branch of `establish` restores the queue. -/
theorem establish_none {s : Demux} {ctxSd k : Nat} {listener : Entry} {q : ListenQueue}
    {packet : List UInt8} {packetLen : Nat} {peer : Sockaddr} {socket : Int}
    (hq : s.listenTable listener.ctx.mySd = some q) (hwf : q.WellFormed) {r : ConnectRequest}
    (hk : q.connectionQueue[k]? = some r) (hr : r.sd = -1)
    (hnew : newMysocket s socket = (s, none)) (hpeer : peer.family = afInet) :
    establish s ctxSd listener.ctx { q with curLen := q.curLen + 1 } k packet packetLen peer 16 0
      socket = .ok (false, s) := by
  obtain ⟨hlt, rfl⟩ := List.getElem?_eq_some_iff.1 hk
  have hslots : q.connectionQueue.set k .cleared = q.connectionQueue := by
    rw [← hwf.free _ (List.getElem_mem hlt) hr, List.set_getElem_self]
  have hself : s.setQueue listener.ctx.mySd q = s := by
    rw [Demux.setQueue, ← hq, Function.update_eq_self]
  simp only [establish, hnew, debugPrintConnection, assert_of hpeer, Exec.ok_bind, hslots,
    Nat.add_sub_cancel, hself, Exec.pure_eq_ok]

/-- The tests of the call on a well-formed queue, in their order. -/
theorem enqueueConnection_eq {s : Demux} {ctxSd : Nat} {listener : Entry} {q : ListenQueue}
    {packet : List UInt8} {packetLen : Nat} {peer : Sockaddr} {socket : Int}
    (hctx : s.globalCtx ctxSd = some listener)
    (hlisten : listener.ctx.listening = true ∧ listener.ctx.bound = true)
    (hq : s.listenTable listener.ctx.mySd = some q) (hwf : q.WellFormed)
    (hlen : packetLen ≤ packet.length) :
    ∃ bsyn bpeer, (bsyn = false ↔ IsSyn packet packetLen) ∧
      (bpeer = false ↔ ∀ r ∈ q.connectionQueue, r.peerAddr ≠ peer) ∧
      enqueueConnection s ctxSd packet packetLen peer 16 0 socket =
        if bsyn then dropRequest s peer
        else if bpeer then dropRequest s peer
        else if q.curLen < q.maxLen then
          match q.connectionQueue.findIdx? fun r => r.sd < 0 with
          | none => .error (.assertion .slotFound)
          | some k => do
            assert (q.connectionQueue[k]?.map ConnectRequest.sd = some (-1)) .slotFree
            establish s ctxSd listener.ctx { q with curLen := q.curLen + 1 } k packet packetLen
              peer 16 0 socket
        else dropRequest s peer := by
  have hderef : derefContext s ctxSd = .ok listener.ctx := by rw [derefContext, hctx]
  have hqueue : getConnectionQueue s listener.ctx = .ok (some q) := by
    rw [getConnectionQueue, assert_of hlisten, Exec.ok_bind, hq, Exec.pure_eq_ok]
  have hpos : (0 : Int) < 16 := by omega
  obtain ⟨bsyn, hsyn, hsyniff⟩ := notSyn_eq hlen
  obtain ⟨bpeer, hretrans, hpeeriff⟩ := @isRetransmission_eq peer q.connectionQueue fun r hr =>
    (eq_or_ne r.sd (-1)).imp_right fun hsd => (hwf.occupied r hr hsd).2.symm
  refine ⟨bsyn, bpeer, hsyniff, hpeeriff, ?_⟩
  simp only [enqueueConnection, hderef, Exec.ok_bind, assert_of hlisten, assert_of hpos, hsyn,
    hqueue, hretrans]

/-- A request is accepted exactly when it is acceptable; otherwise nothing changes at all. -/
theorem enqueueConnection_cases {s : Demux} {ctxSd : Nat} {listener : Entry} {q : ListenQueue}
    {packet : List UInt8} {packetLen : Nat} {peer : Sockaddr} {socket : Int}
    (hctx : s.globalCtx ctxSd = some listener)
    (hlisten : listener.ctx.listening = true ∧ listener.ctx.bound = true)
    (hq : s.listenTable listener.ctx.mySd = some q) (hwf : q.WellFormed)
    (hlen : packetLen ≤ packet.length) (hpeer : peer.family = afInet) :
    (¬Acceptable s q packet packetLen peer ∧
      enqueueConnection s ctxSd packet packetLen peer 16 0 socket = .ok (false, s)) ∨
    (Acceptable s q packet packetLen peer ∧ ∃ k sd r, q.connectionQueue[k]? = some r ∧ r.sd = -1 ∧
      sd < maxNumConnections ∧ s.globalCtx sd = none ∧
      enqueueConnection s ctxSd packet packetLen peer 16 0 socket =
        .ok (true, s.accept ctxSd listener q k sd (packet.take packetLen) peer)) := by
  have hdrop : dropRequest s peer = .ok (false, s) := by
    rw [dropRequest, debugPrintConnection, assert_of hpeer, Exec.ok_bind, Exec.pure_eq_ok]
  obtain ⟨bsyn, bpeer, hsyn, hnew, heq⟩ :=
    @enqueueConnection_eq s ctxSd listener q packet packetLen peer socket hctx hlisten hq hwf hlen
  rw [heq, hdrop]
  cases bsyn with
  | true => exact .inl ⟨fun h => (nomatch hsyn.2 h.syn), rfl⟩
  | false =>
  cases bpeer with
  | true => exact .inl ⟨fun h => (nomatch hnew.2 h.newPeer), rfl⟩
  | false =>
  by_cases hslot : q.curLen < q.maxLen
  · obtain ⟨k, r, hfind, hk, hr⟩ := hwf.exists_free hslot
    have hfree : q.connectionQueue[k]?.map ConnectRequest.sd = some (-1) := by rw [hk, ← hr]; rfl
    simp only [Bool.false_eq_true, if_false, if_pos hslot, hfind, assert_of hfree, Exec.ok_bind]
    rcases newMysocket_cases s socket with ⟨hfail, hfull⟩ | ⟨sd, hsd, hnone, hsome⟩
    · refine .inl ⟨fun h => ?_, establish_none hq hwf hk hr hfail hpeer⟩
      obtain ⟨k', hk', hnone⟩ := h.descriptor
      exact hfull k' hk' hnone
    · exact .inr ⟨⟨hsyn.1 rfl, hnew.1 rfl, hslot, sd, hsd, hnone⟩, k, sd, r, hk, hr, hsd, hnone,
        establish_some hctx hsd hnone hsome hlen hpeer⟩
  · exact .inl ⟨fun h => hslot h.slot, by simp only [Bool.false_eq_true, if_false, if_neg hslot]⟩

end ComputerNetworks.Mysock
