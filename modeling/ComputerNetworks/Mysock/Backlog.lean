import ComputerNetworks.Core.Machine
import ComputerNetworks.Mysock.ConnectionDemux
import Mathlib.Data.List.Nodup

/-!
# Runs of a listen queue

Requests arrive, handshakes complete and `myaccept` takes connections, in any
order, while the application opens and closes sockets of its own. The slots, the
completed queue, the descriptor table and the history of the run are tied by one
invariant, kept by each of the calls.
-/

namespace ComputerNetworks.Mysock

/-- What the demultiplexer relies on in a context. -/
structure Card where
  serial : Nat
  mySd : Int
  listenSd : Int
  blocking : Bool
  deriving DecidableEq, Repr

/-- The card of a context. -/
def Entry.card (e : Entry) : Card := ⟨e.serial, e.ctx.mySd, e.ctx.listenSd, e.ctx.blocking⟩

/-- The cards of the descriptor table. -/
def Demux.card (s : Demux) : Nat → Option Card := Option.map Entry.card ∘ s.globalCtx

theorem Demux.card_eq_some {s : Demux} {k : Nat} {e : Entry} (he : s.globalCtx k = some e) :
    s.card k = some e.card := by
  rw [card, Function.comp_apply, he, Option.map_some]

theorem Demux.card_eq_none {s : Demux} {k : Nat} (he : s.globalCtx k = none) : s.card k = none := by
  rw [card, Function.comp_apply, he, Option.map_none]

/-- Accepting a request adds one card; the listener keeps its own. -/
theorem Demux.card_accept {s : Demux} {L k sd : Nat} {listener : Entry} {q : ListenQueue}
    {syn : List UInt8} {peer : Sockaddr} (hL : s.globalCtx L = some listener) (hne : L ≠ sd) :
    (s.accept L listener q k sd syn peer).card =
      Function.update s.card sd (some ⟨s.allocated, sd, listener.ctx.mySd, true⟩) := by
  have hself : Function.update s.card L (some listener.card) = s.card := by
    rw [← card_eq_some hL, Function.update_eq_self]
  rw [card, accept, Function.comp_update, Function.comp_update, ← card,
    Function.update_comm hne.symm]
  exact congrArg (Function.update · sd _) hself

/-- What an updated table holds was written, or was there before. -/
theorem update_cases {α β : Type} [DecidableEq α] {f : α → Option β} {a b : α} {v : Option β}
    {x : β} (h : Function.update f a v b = some x) :
    (b = a ∧ v = some x) ∨ (b ≠ a ∧ f b = some x) := by
  by_cases hab : b = a
  · subst hab
    rw [Function.update_self] at h
    exact .inl ⟨rfl, h⟩
  · rw [Function.update_of_ne hab] at h
    exact .inr ⟨hab, h⟩

/-- The listen queue of socket `L`, over the cards of the table and the history of the run. `done`
lists the completed queue as pairs of a slot and the serial number of its context. -/
structure Backlog (L : Nat) (card : Nat → Option Card) (allocated : Nat) (q : ListenQueue)
    (done : List (Nat × Nat)) (completed returned : List Nat) : Prop where
  queue : q.WellFormed
  /-- Every context knows its descriptor and has a serial number of the past. -/
  table : ∀ (k : Nat) (c : Card), card k = some c →
    k < maxNumConnections ∧ c.mySd = k ∧ c.serial < allocated
  /-- No two contexts share a serial number. -/
  serials : ∀ (k k' : Nat) (c c' : Card), card k = some c → card k' = some c' →
    c.serial = c'.serial → k = k'
  /-- An occupied slot holds the descriptor of a context of this listener. -/
  held : ∀ r ∈ q.connectionQueue, r.sd ≠ -1 →
    ∃ (sd : Nat) (c : Card), r.sd = sd ∧ card sd = some c ∧ c.listenSd = L
  /-- A context that is still to complete is in a slot. -/
  pending : ∀ (k : Nat) (c : Card), card k = some c → c.listenSd = L → c.blocking = true →
    ∃ r ∈ q.connectionQueue, r.sd = k
  /-- The completed queue lists slots, each once. -/
  completedQueue : q.completedQueue = done.map fun d => some d.1
  nodup : (done.map Prod.fst).Nodup
  ready : ∀ d ∈ done, ∃ (r : ConnectRequest) (sd : Nat) (c : Card),
    q.connectionQueue[d.1]? = some r ∧ r.sd = sd ∧ card sd = some c ∧ c.serial = d.2 ∧
      c.blocking = false
  /-- What was returned, then what is queued, is what was completed. -/
  order : returned ++ done.map Prod.snd = completed
  once : completed.Nodup
  past : ∀ n ∈ completed, n < allocated
  /-- A context that is still to complete has not completed before. -/
  fresh : ∀ (k : Nat) (c : Card), card k = some c → c.blocking = true → c.serial ∉ completed

namespace Backlog

variable {L allocated : Nat} {card : Nat → Option Card} {q : ListenQueue}
  {done : List (Nat × Nat)} {completed returned : List Nat}

/-- A new context, with its request in the queue if this listener made it. -/
theorem extend (h : Backlog L card allocated q done completed returned) {k : Nat} {listenSd : Int}
    {q' : ListenQueue} (hk : k < maxNumConnections) (hnone : card k = none) (hq' : q'.WellFormed)
    (hqueue : q'.completedQueue = q.completedQueue)
    (hheld : ∀ r ∈ q'.connectionQueue, r ∈ q.connectionQueue ∨ (r.sd = k ∧ listenSd = L))
    (hkeep : ∀ (i : Nat) (r : ConnectRequest), q.connectionQueue[i]? = some r → r.sd ≠ -1 →
      q'.connectionQueue[i]? = some r)
    (hnew : listenSd = L → ∃ r ∈ q'.connectionQueue, r.sd = k) :
    Backlog L (Function.update card k (some ⟨allocated, k, listenSd, true⟩)) (allocated + 1) q' done
      completed returned := by
  have hold (j : Nat) (c : Card) (hj : card j = some c) :
      Function.update card k (some ⟨allocated, k, listenSd, true⟩) j = some c := by
    rw [Function.update_of_ne (fun hjk => by simp [hjk, hnone] at hj), hj]
  constructor
  case queue => exact hq'
  case table =>
    intro j c hj
    rcases update_cases hj with ⟨rfl, hc⟩ | ⟨-, hj⟩
    · cases hc
      exact ⟨hk, rfl, Nat.lt_succ_self allocated⟩
    · obtain ⟨hlt, hmine, hserial⟩ := h.table j c hj
      exact ⟨hlt, hmine, Nat.lt_succ_of_lt hserial⟩
  case serials =>
    intro j j' c c' hj hj' hsame
    rcases update_cases hj with ⟨rfl, hc⟩ | ⟨-, hc⟩ <;>
      rcases update_cases hj' with ⟨rfl, hc'⟩ | ⟨-, hc'⟩
    · rfl
    · cases hc
      exact absurd hsame.symm (h.table j' c' hc').2.2.ne
    · cases hc'
      exact absurd hsame (h.table j c hc).2.2.ne
    · exact h.serials j j' c c' hc hc' hsame
  case held =>
    intro r hr hocc
    rcases hheld r hr with hr | ⟨hsd, hlisten⟩
    · obtain ⟨sd, c, hsd, hc, hlisten⟩ := h.held r hr hocc
      exact ⟨sd, c, hsd, hold sd c hc, hlisten⟩
    · exact ⟨k, _, hsd, Function.update_self .., hlisten⟩
  case pending =>
    intro j c hj hlisten hblocking
    rcases update_cases hj with ⟨rfl, hc⟩ | ⟨-, hj⟩
    · cases hc
      exact hnew hlisten
    · obtain ⟨r, hr, hsd⟩ := h.pending j c hj hlisten hblocking
      obtain ⟨i, hi⟩ := List.mem_iff_getElem?.1 hr
      exact ⟨r, List.mem_of_getElem? (hkeep i r hi (by omega)), hsd⟩
  case completedQueue => exact hqueue.trans h.completedQueue
  case nodup => exact h.nodup
  case ready =>
    intro d hd
    obtain ⟨r, sd, c, hr, hsd, hc, hserial, hblocking⟩ := h.ready d hd
    exact ⟨r, sd, c, hkeep d.1 r hr (by omega), hsd, hold sd c hc, hserial, hblocking⟩
  case order => exact h.order
  case once => exact h.once
  case past =>
    exact fun n hn => Nat.lt_succ_of_lt (h.past n hn)
  case fresh =>
    intro j c hj hblocking
    rcases update_cases hj with ⟨rfl, hc⟩ | ⟨-, hj⟩
    · cases hc
      exact fun hmem => absurd rfl (h.past allocated hmem).ne
    · exact h.fresh j c hj hblocking

/-- The application opens a socket. -/
theorem openSocket (h : Backlog L card allocated q done completed returned) {k : Nat}
    (hk : k < maxNumConnections) (hnone : card k = none) :
    Backlog L (Function.update card k (some ⟨allocated, k, -1, true⟩)) (allocated + 1) q done
      completed returned :=
  h.extend hk hnone h.queue rfl (fun _ hr => .inl hr) (fun _ _ hr _ => hr) (fun hL => by omega)

/-- A request is accepted in a free slot. -/
theorem request (h : Backlog L card allocated q done completed returned) {i sd : Nat}
    {r₀ : ConnectRequest} {peer : Sockaddr} (hi : q.connectionQueue[i]? = some r₀)
    (hr₀ : r₀.sd = -1) (hsd : sd < maxNumConnections) (hnone : card sd = none)
    (hpeer : ∀ r ∈ q.connectionQueue, r.peerAddr ≠ peer) :
    Backlog L (Function.update card sd (some ⟨allocated, sd, L, true⟩)) (allocated + 1)
      (q.addRequest i sd peer) done completed returned := by
  have hunused : ∀ r ∈ q.connectionQueue, r.sd ≠ sd := by
    intro r hr heq
    obtain ⟨sd', c, hsd', hc, -⟩ := h.held r hr (by omega)
    obtain rfl : sd' = sd := by omega
    exact nomatch hnone.symm.trans hc
  have hlt := (List.getElem?_eq_some_iff.1 hi).1
  refine h.extend hsd hnone (h.queue.fill hi hr₀ hunused hpeer) rfl ?_ ?_ ?_
  · intro r hr
    rcases List.mem_or_eq_of_mem_set hr with hr | rfl
    · exact .inl hr
    · exact .inr ⟨rfl, rfl⟩
  · intro j r hr hocc
    have hij : i ≠ j := fun hij => hocc (Option.some.inj (hi.symm.trans (hij ▸ hr)) ▸ hr₀)
    rw [ListenQueue.addRequest, List.getElem?_set_ne hij, hr]
  · exact fun _ => ⟨_, List.mem_set hlt _, rfl⟩

/-- A context that is in no slot is freed. -/
theorem closeSocket (h : Backlog L card allocated q done completed returned) {k : Nat}
    (hk : ∀ r ∈ q.connectionQueue, r.sd ≠ k) :
    Backlog L (Function.update card k none) allocated q done completed returned := by
  have hcard (j : Nat) (c : Card) (hj : Function.update card k none j = some c) :
      card j = some c := by
    rcases update_cases hj with ⟨-, hc⟩ | ⟨-, hc⟩
    · exact nomatch hc
    · exact hc
  have hold (j : Nat) (c : Card) (hjk : j ≠ k) (hj : card j = some c) :
      Function.update card k none j = some c := by rw [Function.update_of_ne hjk, hj]
  constructor
  case queue => exact h.queue
  case table => exact fun j c hj => h.table j c (hcard j c hj)
  case serials =>
    exact fun j j' c c' hj hj' => h.serials j j' c c' (hcard j c hj) (hcard j' c' hj')
  case held =>
    intro r hr hocc
    obtain ⟨sd, c, hsd, hc, hlisten⟩ := h.held r hr hocc
    exact ⟨sd, c, hsd, hold sd c (fun hsk => hk r hr (hsk ▸ hsd)) hc, hlisten⟩
  case pending =>
    exact fun j c hj => h.pending j c (hcard j c hj)
  case completedQueue => exact h.completedQueue
  case nodup => exact h.nodup
  case ready =>
    intro d hd
    obtain ⟨r, sd, c, hr, hsd, hc, hrest⟩ := h.ready d hd
    have hmem := List.mem_of_getElem? hr
    exact ⟨r, sd, c, hr, hsd, hold sd c (fun hsk => hk r hmem (hsk ▸ hsd)) hc, hrest⟩
  case order => exact h.order
  case once => exact h.once
  case past => exact h.past
  case fresh => exact fun j c hj => h.fresh j c (hcard j c hj)

/-- A handshake is over: the slot of its context joins the completed queue. -/
theorem complete (h : Backlog L card allocated q done completed returned) {sd i : Nat} {c : Card}
    (hc : card sd = some c) (hblocking : c.blocking = true) {r₀ : ConnectRequest}
    (hi : q.connectionQueue[i]? = some r₀) (hr₀ : r₀.sd = sd) :
    Backlog L (Function.update card sd (some { c with blocking := false })) allocated
      { q with completedQueue := q.completedQueue ++ [some i] } (done ++ [(i, c.serial)])
      (completed ++ [c.serial]) returned := by
  have hcard (j : Nat) (c' : Card)
      (hj : Function.update card sd (some { c with blocking := false }) j = some c') :
      ∃ c₀, card j = some c₀ ∧ c'.serial = c₀.serial ∧ c'.mySd = c₀.mySd ∧
        c'.listenSd = c₀.listenSd ∧ (c'.blocking = true → c₀.blocking = true ∧ j ≠ sd) := by
    rcases update_cases hj with ⟨rfl, hc'⟩ | ⟨hne, hj⟩
    · cases hc'
      exact ⟨c, hc, rfl, rfl, rfl, nofun⟩
    · exact ⟨c', hj, rfl, rfl, rfl, fun hb => ⟨hb, hne⟩⟩
  have hnotDone : i ∉ done.map Prod.fst := by
    intro hmem
    obtain ⟨d, hd, rfl⟩ := List.mem_map.1 hmem
    obtain ⟨r, sd', c', hr, hsd', hc', -, hb⟩ := h.ready d hd
    cases hi.symm.trans hr
    obtain rfl : sd' = sd := by omega
    cases hc.symm.trans hc'
    exact nomatch hblocking.symm.trans hb
  constructor
  case queue =>
    exact ⟨h.queue.size, h.queue.count, h.queue.free, h.queue.occupied, h.queue.distinct⟩
  case table =>
    intro j c' hj
    obtain ⟨c₀, hc₀, hserial, hmine, -⟩ := hcard j c' hj
    rw [hserial, hmine]
    exact h.table j c₀ hc₀
  case serials =>
    intro j j' c₁ c₂ hj hj' hsame
    obtain ⟨c₁', hc₁, hserial₁, -⟩ := hcard j c₁ hj
    obtain ⟨c₂', hc₂, hserial₂, -⟩ := hcard j' c₂ hj'
    exact h.serials j j' c₁' c₂' hc₁ hc₂ (by rw [← hserial₁, ← hserial₂, hsame])
  case held =>
    intro r hr hocc
    obtain ⟨sd', c', hsd', hc', hlisten⟩ := h.held r hr hocc
    by_cases hsame : sd' = sd
    · subst hsame
      cases hc.symm.trans hc'
      exact ⟨sd', _, hsd', Function.update_self .., hlisten⟩
    · exact ⟨sd', c', hsd', by rw [Function.update_of_ne hsame, hc'], hlisten⟩
  case pending =>
    intro j c' hj hlisten hb
    obtain ⟨c₀, hc₀, -, -, hlisten₀, hblock⟩ := hcard j c' hj
    exact h.pending j c₀ hc₀ (hlisten₀ ▸ hlisten) (hblock hb).1
  case completedQueue =>
    rw [List.map_append, ← h.completedQueue]
    rfl
  case nodup =>
    rw [List.map_append]
    refine h.nodup.append (List.nodup_singleton i) ?_
    simpa using hnotDone
  case ready =>
    intro d hd
    rcases List.mem_append.1 hd with hd | hd
    · obtain ⟨r, sd', c', hr, hsd', hc', hserial, hb⟩ := h.ready d hd
      refine ⟨r, sd', c', hr, hsd', ?_, hserial, hb⟩
      rw [Function.update_of_ne, hc']
      rintro rfl
      cases hc.symm.trans hc'
      exact nomatch hblocking.symm.trans hb
    · cases List.mem_singleton.1 hd
      exact ⟨r₀, sd, _, hi, hr₀, Function.update_self .., rfl, rfl⟩
  case order =>
    rw [List.map_append, ← List.append_assoc, h.order]
    rfl
  case once =>
    refine h.once.append (List.nodup_singleton c.serial) ?_
    simpa using h.fresh sd c hc hblocking
  case past =>
    intro n hn
    rcases List.mem_append.1 hn with hn | hn
    · exact h.past n hn
    · cases List.mem_singleton.1 hn
      exact (h.table sd c hc).2.2
  case fresh =>
    intro j c' hj hb hmem
    obtain ⟨c₀, hc₀, hserial, -, -, hblock⟩ := hcard j c' hj
    rw [hserial] at hmem
    rcases List.mem_append.1 hmem with hmem | hmem
    · exact h.fresh j c₀ hc₀ (hblock hb).1 hmem
    · exact (hblock hb).2 (h.serials j sd c₀ c hc₀ hc (List.mem_singleton.1 hmem))

/-- The first completed connection is taken and its slot freed. -/
theorem take {d : Nat × Nat} (h : Backlog L card allocated q (d :: done) completed returned)
    {r₀ : ConnectRequest} (hd : q.connectionQueue[d.1]? = some r₀) (hr₀ : r₀.sd ≠ -1) :
    Backlog L card allocated ⟨q.maxLen, q.curLen - 1, q.connectionQueue.set d.1 .cleared,
      done.map fun d => some d.1⟩ done completed (returned ++ [d.2]) := by
  have hnodup := List.nodup_cons.1 h.nodup
  constructor
  case queue => exact (h.queue.clear _ hd hr₀).2
  case table => exact h.table
  case serials => exact h.serials
  case held =>
    intro r hr hocc
    rcases List.mem_or_eq_of_mem_set hr with hr | rfl
    · exact h.held r hr hocc
    · exact absurd rfl hocc
  case pending =>
    intro k c hc hlisten hb
    obtain ⟨r, hr, hsd⟩ := h.pending k c hc hlisten hb
    obtain ⟨i, hi⟩ := List.mem_iff_getElem?.1 hr
    refine ⟨r, List.mem_of_getElem? (i := i) ?_, hsd⟩
    rw [List.getElem?_set_ne, hi]
    rintro rfl
    -- the context in the first completed slot is not blocking any more
    obtain ⟨r', sd', c', hr', hsd', hc', -, hb'⟩ := h.ready d List.mem_cons_self
    cases hi.symm.trans hr'
    obtain rfl : sd' = k := by omega
    cases hc.symm.trans hc'
    exact nomatch hb.symm.trans hb'
  case completedQueue => exact rfl
  case nodup => exact hnodup.2
  case ready =>
    intro e he
    obtain ⟨r, sd, c, hr, hrest⟩ := h.ready e (List.mem_cons_of_mem d he)
    refine ⟨r, sd, c, ?_, hrest⟩
    rw [List.getElem?_set_ne, hr]
    exact fun hde => hnodup.1 (hde ▸ List.mem_map_of_mem he)
  case order =>
    rw [List.append_assoc]
    exact h.order
  case once => exact h.once
  case past => exact h.past
  case fresh => exact h.fresh

end Backlog

/-- The calls on a listening socket, and what the application does meanwhile with other sockets:
it opens one, for which the system has a socket at hand, or closes one. -/
inductive DemuxOp where
  | enqueue (packet : List UInt8) (peer : Sockaddr) (socket : Int)
  | unblock (sd : Nat)
  | dequeue
  | openSocket (socket : Int)
  | closeSocket (sd : Nat)
  deriving DecidableEq, Repr

/-- The tables, and the serial numbers of the connections completed and returned so far. -/
structure DemuxRun where
  sys : Demux
  completed : List Nat
  returned : List Nat

/-- The slots of the listen queue. -/
def DemuxRun.slots (run : DemuxRun) (L : Nat) : List ConnectRequest :=
  ((run.sys.listenTable L).map ListenQueue.connectionQueue).getD []

/-- The completed queue. -/
def DemuxRun.completedQueue (run : DemuxRun) (L : Nat) : List (Option Nat) :=
  ((run.sys.listenTable L).map ListenQueue.completedQueue).getD []

/-- Peers are AF_INET; a passive context of the listener completes while its application is blocked,
so once; `myaccept` goes on once a connection has completed; and a socket is closed while it is in
no slot. -/
def DemuxOp.Enabled (L : Nat) (run : DemuxRun) : DemuxOp → Prop
  | .enqueue _ peer _ => peer.family = afInet
  | .unblock sd => ∃ e ∈ run.sys.globalCtx sd,
      e.ctx.isActive = false ∧ e.ctx.listenSd = L ∧ e.ctx.blocking = true
  | .dequeue => run.completedQueue L ≠ []
  | .openSocket _ => True
  | .closeSocket sd => sd ≠ L ∧ ∀ r ∈ run.slots L, r.sd ≠ sd

instance DemuxOp.decidableEnabled (L : Nat) (run : DemuxRun) :
    (op : DemuxOp) → Decidable (op.Enabled L run)
  | .enqueue _ peer _ => inferInstanceAs (Decidable (peer.family = afInet))
  | .unblock sd => inferInstanceAs (Decidable (∃ e ∈ run.sys.globalCtx sd,
      e.ctx.isActive = false ∧ e.ctx.listenSd = L ∧ e.ctx.blocking = true))
  | .dequeue => inferInstanceAs (Decidable (run.completedQueue L ≠ []))
  | .openSocket _ => inferInstanceAs (Decidable True)
  | .closeSocket sd => inferInstanceAs (Decidable (sd ≠ L ∧ ∀ r ∈ run.slots L, r.sd ≠ sd))

/-- The atomic calls on the listening socket `L`. -/
def demuxMachine (L : Nat) : Machine DemuxAssert DemuxRun DemuxOp where
  enabled := fun run op => op.Enabled L run
  step := fun run op =>
    match op with
    | .enqueue packet peer socket => do
      let (_, sys) ← enqueueConnection run.sys L packet packet.length peer 16 0 socket
      pure { run with sys }
    | .unblock sd => do
      let e ← getContext run.sys sd
      let sys ← stcpUnblockApplication run.sys sd
      pure { run with sys, completed := run.completed ++ [e.serial] }
    | .dequeue => do
      let (e, sys) ← dequeueConnection run.sys L
      pure { run with sys, returned := run.returned ++ [e.serial] }
    | .openSocket socket => pure { run with sys := (newMysocket run.sys socket).1 }
    | .closeSocket sd =>
      pure { run with
        sys := { run.sys with globalCtx := Function.update run.sys.globalCtx sd none } }

instance demuxMachine_decidableEnabled (L : Nat) (run : DemuxRun) (op : DemuxOp) :
    Decidable ((demuxMachine L).enabled run op) :=
  inferInstanceAs (Decidable (op.Enabled L run))

/-- The listening socket is open and its queue is in order. -/
structure DemuxRun.Listens (L : Nat) (run : DemuxRun) (q : ListenQueue) (done : List (Nat × Nat))
    (listener : Entry) : Prop where
  lookup : run.sys.listenTable L = some q
  entry : run.sys.globalCtx L = some listener
  open_ : listener.ctx.listening = true ∧ listener.ctx.bound = true
  notPassive : listener.ctx.listenSd ≠ L
  backlog : Backlog L run.sys.card run.sys.allocated q done run.completed run.returned

namespace DemuxRun.Listens

variable {L : Nat} {run : DemuxRun} {q : ListenQueue} {done : List (Nat × Nat)} {listener : Entry}

theorem mySd_eq (h : run.Listens L q done listener) : listener.ctx.mySd = L :=
  (h.backlog.table L listener.card (Demux.card_eq_some h.entry)).2.1

theorem lookup_listener (h : run.Listens L q done listener) :
    run.sys.listenTable listener.ctx.mySd = some q := by rw [h.mySd_eq, h.lookup]

/-- A request that is accepted takes a slot and a descriptor. -/
theorem accept (h : run.Listens L q done listener) {k sd : Nat} {r : ConnectRequest}
    (syn : List UInt8) {peer : Sockaddr} (hk : q.connectionQueue[k]? = some r) (hr : r.sd = -1)
    (hsd : sd < maxNumConnections) (hnone : run.sys.globalCtx sd = none)
    (hpeer : ∀ r ∈ q.connectionQueue, r.peerAddr ≠ peer) :
    DemuxRun.Listens L { run with sys := run.sys.accept L listener q k sd syn peer }
      (q.addRequest k sd peer) done { listener with ctx := listener.ctx.passOn } := by
  have hne : L ≠ sd := fun hL => by simp [← hL, h.entry] at hnone
  refine ⟨?_, ?_, h.open_, h.notPassive, ?_⟩
  · simp only [Demux.accept, h.mySd_eq, Function.update_self]
  · simp only [Demux.accept, Function.update_self]
  · rw [Demux.card_accept h.entry hne, h.mySd_eq]
    exact h.backlog.request hk hr hsd (Demux.card_eq_none hnone) hpeer

/-- A request that arrives is accepted or leaves everything as it was. -/
theorem enqueue (h : run.Listens L q done listener) (packet : List UInt8) {peer : Sockaddr}
    (socket : Int) (hpeer : peer.family = afInet) :
    ∃ run' q' listener', (demuxMachine L).step run (.enqueue packet peer socket) = .ok run' ∧
      run'.Listens L q' done listener' := by
  rcases @enqueueConnection_cases run.sys L listener q packet packet.length peer socket h.entry
    h.open_ h.lookup_listener h.backlog.queue le_rfl hpeer with
    ⟨-, hcall⟩ | ⟨hacc, k, sd, r, hk, hr, hsd, hnone, hcall⟩
  · refine ⟨run, q, listener, ?_, h⟩
    simp only [demuxMachine, hcall, Exec.ok_bind, Exec.pure_eq_ok]
  · refine ⟨_, _, _, ?_, h.accept (packet.take packet.length) hk hr hsd hnone hacc.newPeer⟩
    simp only [demuxMachine, hcall, Exec.ok_bind, Exec.pure_eq_ok]

/-- Opening a socket leaves the listening one alone. -/
theorem openSocket (h : run.Listens L q done listener) (socket : Int) :
    DemuxRun.Listens L { run with sys := (newMysocket run.sys socket).1 } q done listener := by
  rcases newMysocket_cases run.sys socket with ⟨hcall, -⟩ | ⟨k, hk, hnone, hcall⟩
  · rw [hcall]
    exact h
  · have hne : L ≠ k := fun hL => by simp [← hL, h.entry] at hnone
    rw [hcall]
    refine ⟨h.lookup, ?_, h.open_, h.notPassive, ?_⟩
    · simp only [Demux.allocate, Function.update_of_ne hne, h.entry]
    · rw [Demux.card, Demux.allocate, Function.comp_update, ← Demux.card]
      exact h.backlog.openSocket hk (Demux.card_eq_none hnone)

/-- Closing a socket that is not in the queue leaves the listening one alone. -/
theorem closeSocket (h : run.Listens L q done listener) {sd : Nat} (hne : sd ≠ L)
    (hsd : ∀ r ∈ q.connectionQueue, r.sd ≠ sd) :
    DemuxRun.Listens L { run with
      sys := { run.sys with globalCtx := Function.update run.sys.globalCtx sd none } }
      q done listener := by
  refine ⟨h.lookup, ?_, h.open_, h.notPassive, ?_⟩
  · simp only [Function.update_of_ne hne.symm, h.entry]
  · rw [Demux.card, Function.comp_update, ← Demux.card]
    exact h.backlog.closeSocket hsd

theorem getConnectionQueue_eq (h : run.Listens L q done listener) {s : Demux}
    (hs : s.listenTable = run.sys.listenTable) :
    getConnectionQueue s listener.ctx = .ok (some q) := by
  rw [getConnectionQueue, assert_of h.open_, Exec.ok_bind, hs, h.lookup_listener, Exec.pure_eq_ok]

/-- The search of `_mysock_passive_connection_complete` finds the slot of a blocked context. -/
theorem findRequest (h : run.Listens L q done listener) {sd : Nat} {e : Entry}
    (he : run.sys.globalCtx sd = some e) (hlisten : e.ctx.listenSd = L)
    (hblocking : e.ctx.blocking = true) :
    ∃ k r, q.connectionQueue.findIdx? (fun r => decide (r.sd = (sd : Int))) = some k ∧
      q.connectionQueue[k]? = some r ∧ r.sd = sd := by
  obtain ⟨r, hr, hsd⟩ :=
    h.backlog.pending sd e.card (Demux.card_eq_some he) hlisten hblocking
  cases hfind : q.connectionQueue.findIdx? fun r => decide (r.sd = (sd : Int)) with
  | none =>
    have := List.findIdx?_eq_none_iff.1 hfind r hr
    simp [hsd] at this
  | some k =>
    obtain ⟨hk, hsd', -⟩ := List.findIdx?_eq_some_iff_getElem.1 hfind
    exact ⟨k, _, rfl, List.getElem?_eq_getElem hk, of_decide_eq_true hsd'⟩

/-- The listener does not wait in its own queue. -/
theorem ne_of_passive (h : run.Listens L q done listener) {sd : Nat} {e : Entry}
    (he : run.sys.globalCtx sd = some e) (hlisten : e.ctx.listenSd = L) : L ≠ sd := by
  rintro rfl
  cases he.symm.trans h.entry
  exact h.notPassive hlisten

/-- The call that unblocks a passive context puts its slot in the completed queue. -/
theorem stcpUnblockApplication_eq (h : run.Listens L q done listener) {sd k : Nat} {e : Entry}
    (he : run.sys.globalCtx sd = some e) (hactive : e.ctx.isActive = false)
    (hlisten : e.ctx.listenSd = L) (hblocking : e.ctx.blocking = true)
    (hfind : q.connectionQueue.findIdx? (fun r => decide (r.sd = (sd : Int))) = some k) :
    stcpUnblockApplication run.sys sd = .ok ((run.sys.setContext sd e.ctx.unblock).setQueue L
      { q with completedQueue := q.completedQueue ++ [some k] }) := by
  obtain ⟨hsd, hmine, -⟩ := h.backlog.table sd e.card (Demux.card_eq_some he)
  have hlistener : getContext (run.sys.setContext sd e.ctx.unblock) L = .ok listener := by
    refine getContext_eq (h.backlog.table L _ (Demux.card_eq_some h.entry)).1 ?_ h.mySd_eq
    exact (Function.update_of_ne (h.ne_of_passive he hlisten) _ _).trans h.entry
  have hqueue := h.getConnectionQueue_eq (s := run.sys.setContext sd e.ctx.unblock) rfl
  have hpos : (0 : Int) ≤ L := Int.natCast_nonneg L
  have hlisten' : e.ctx.unblock.listenSd = L := hlisten
  have hmine' : e.ctx.unblock.mySd = sd := hmine
  simp only [stcpUnblockApplication, getContext_eq hsd he hmine, Exec.ok_bind, assert_of hblocking,
    hactive, Bool.false_eq_true, if_false, passiveConnectionComplete, assert_of hpos, hlisten',
    hlistener, hqueue, hmine', hfind, h.mySd_eq, Exec.pure_eq_ok]

/-- A blocked passive context completes. -/
theorem unblock (h : run.Listens L q done listener) {sd : Nat} {e : Entry}
    (he : run.sys.globalCtx sd = some e) (hactive : e.ctx.isActive = false)
    (hlisten : e.ctx.listenSd = L) (hblocking : e.ctx.blocking = true) :
    ∃ run' q' done', (demuxMachine L).step run (.unblock sd) = .ok run' ∧
      run'.Listens L q' done' listener := by
  obtain ⟨hsd, hmine, -⟩ := h.backlog.table sd e.card (Demux.card_eq_some he)
  obtain ⟨k, r, hfind, hk, hr⟩ := h.findRequest he hlisten hblocking
  refine ⟨⟨(run.sys.setContext sd e.ctx.unblock).setQueue L
      { q with completedQueue := q.completedQueue ++ [some k] }, run.completed ++ [e.serial],
      run.returned⟩,
    { q with completedQueue := q.completedQueue ++ [some k] }, done ++ [(k, e.serial)], ?_,
    Function.update_self .., ?_, h.open_, h.notPassive, ?_⟩
  · simp only [demuxMachine, getContext_eq hsd he hmine, Exec.ok_bind,
      h.stcpUnblockApplication_eq he hactive hlisten hblocking hfind, Exec.pure_eq_ok]
  · exact (Function.update_of_ne (h.ne_of_passive he hlisten) _ _).trans h.entry
  · rw [Demux.setContext_eq he, Demux.card, Demux.setQueue, Function.comp_update, ← Demux.card]
    exact h.backlog.complete (Demux.card_eq_some he) hblocking hk hr

/-- `myaccept` takes the first completed connection. -/
theorem dequeue (h : run.Listens L q done listener) (hne : q.completedQueue ≠ []) :
    ∃ run' q' done', (demuxMachine L).step run .dequeue = .ok run' ∧
      run'.Listens L q' done' listener := by
  cases done with
  | nil => exact absurd h.backlog.completedQueue hne
  | cons d done =>
    obtain ⟨r, sd, c, hr, hsd, hc, hserial, -⟩ := h.backlog.ready d List.mem_cons_self
    obtain ⟨e, he, rfl⟩ := Option.map_eq_some_iff.1 hc
    obtain ⟨hlt, hmine, -⟩ := h.backlog.table sd e.card hc
    have hocc : r.sd ≠ -1 := by omega
    have hpos := (h.backlog.queue.clear [] hr hocc).1
    have hderef : derefContext run.sys L = .ok listener.ctx := by rw [derefContext, h.entry]
    have hqueue : q.completedQueue = some d.1 :: done.map fun d => some d.1 :=
      h.backlog.completedQueue
    let q' : ListenQueue :=
      ⟨q.maxLen, q.curLen - 1, q.connectionQueue.set d.1 .cleared, done.map fun d => some d.1⟩
    refine ⟨⟨run.sys.setQueue L q', run.completed, run.returned ++ [d.2]⟩, q', done, ?_,
      Function.update_self .., h.entry, h.open_, h.notPassive, h.backlog.take hr hocc⟩
    simp only [demuxMachine, dequeueConnection, hderef, Exec.ok_bind, assert_of h.open_,
      h.getConnectionQueue_eq rfl, hqueue, hr, hsd, getContext_eq hlt he hmine, assert_of hpos,
      Exec.pure_eq_ok, h.mySd_eq, ← hserial]
    rfl

/-- What the application does leaves the listener's context as it is. -/
theorem application (h : run.Listens L q done listener) {op : DemuxOp} (hop : op.Enabled L run)
    (hnot : ∀ packet peer socket, op ≠ .enqueue packet peer socket) :
    ∃ run' q' done', (demuxMachine L).step run op = .ok run' ∧
      run'.Listens L q' done' listener := by
  cases op with
  | enqueue packet peer socket => exact absurd rfl (hnot packet peer socket)
  | unblock sd =>
    obtain ⟨e, he, hactive, hlisten, hblocking⟩ := hop
    exact h.unblock he hactive hlisten hblocking
  | dequeue =>
    have hqueue : run.completedQueue L = q.completedQueue := by
      rw [DemuxRun.completedQueue, h.lookup]
      rfl
    exact h.dequeue (hqueue ▸ hop)
  | openSocket socket => exact ⟨_, q, done, rfl, h.openSocket socket⟩
  | closeSocket sd =>
    have hslots : run.slots L = q.connectionQueue := by
      rw [DemuxRun.slots, h.lookup]
      rfl
    exact ⟨_, q, done, rfl, h.closeSocket hop.1 (hslots ▸ hop.2)⟩

/-- A write to a context that keeps its card. -/
theorem setContext (h : run.Listens L q done listener) {k : Nat} {e : Entry} {ctx : MysockContext}
    (he : run.sys.globalCtx k = some e) (hcard : Entry.card { e with ctx } = e.card)
    (hopen : k = L → ctx.listening = true ∧ ctx.bound = true) :
    ∃ listener', DemuxRun.Listens L { run with sys := run.sys.setContext k ctx } q done listener' ∧
      (k ≠ L → listener' = listener) ∧ (k = L → listener' = { listener with ctx }) := by
  have hcards : (run.sys.setContext k ctx).card = run.sys.card := by
    rw [Demux.setContext_eq he, Demux.card, Function.comp_update, Option.map_some, hcard,
      ← Option.map_some, ← he, ← Function.comp_apply (f := Option.map Entry.card),
      Function.update_eq_self, Demux.card]
  have hbacklog : Backlog L (run.sys.setContext k ctx).card run.sys.allocated q done run.completed
      run.returned := hcards ▸ h.backlog
  by_cases hkL : k = L
  · subst hkL
    cases he.symm.trans h.entry
    refine ⟨{ listener with ctx }, ⟨h.lookup, ?_, hopen rfl, ?_, hbacklog⟩,
      fun hne => absurd rfl hne, fun _ => rfl⟩
    · rw [Demux.setContext_eq he]
      exact Function.update_self ..
    · exact fun hlisten => h.notPassive ((congrArg Card.listenSd hcard).symm.trans hlisten)
  · refine ⟨listener, ⟨h.lookup, ?_, h.open_, h.notPassive, hbacklog⟩, fun _ => rfl,
      fun hk => absurd hk hkL⟩
    exact (Function.update_of_ne (Ne.symm hkL) _ _).trans h.entry

end DemuxRun.Listens

/-- No operation ends the listening socket. -/
theorem demuxMachine_preserves (L : Nat) : (demuxMachine L).Preserves
    fun run => ∃ q done listener, run.Listens L q done listener := by
  rintro run op ⟨q, done, listener, h⟩ henabled
  by_cases hop : ∃ packet peer socket, op = .enqueue packet peer socket
  · obtain ⟨packet, peer, socket, rfl⟩ := hop
    obtain ⟨run', q', listener', hstep, h'⟩ := h.enqueue packet socket henabled
    exact ⟨run', hstep, q', done, listener', h'⟩
  · obtain ⟨run', q', done', hstep, h'⟩ := h.application henabled
      fun packet peer socket hop' => hop ⟨packet, peer, socket, hop'⟩
    exact ⟨run', hstep, q', done', listener, h'⟩

/-- A socket that has just been made to listen: its queue is new, and no context in the table is a
connection of it that is still to complete. -/
structure Demux.StartsListening (L backlog : Nat) (s : Demux) : Prop where
  lookup : s.listenTable L = some (ListenQueue.new backlog)
  listener : ∃ e, s.globalCtx L = some e ∧ e.ctx.listening = true ∧ e.ctx.bound = true ∧
    e.ctx.listenSd ≠ L
  table : ∀ (k : Nat) (e : Entry), s.globalCtx k = some e →
    k < maxNumConnections ∧ e.ctx.mySd = k ∧ e.serial < s.allocated ∧
      (e.ctx.listenSd = L → e.ctx.blocking = false)
  serials : ∀ (k k' : Nat) (e e' : Entry), s.globalCtx k = some e → s.globalCtx k' = some e' →
    e.serial = e'.serial → k = k'

/-- A socket that has just been made to listen listens. -/
theorem Demux.StartsListening.listens {L backlog : Nat} {s : Demux}
    (h : s.StartsListening L backlog) :
    ∃ listener, DemuxRun.Listens L ⟨s, [], []⟩ (ListenQueue.new backlog) [] listener := by
  obtain ⟨listener, hentry, hlistening, hbound, hnotPassive⟩ := h.listener
  have hentryOf (k : Nat) (c : Card) (hc : s.card k = some c) :
      ∃ e, s.globalCtx k = some e ∧ e.card = c := Option.map_eq_some_iff.1 hc
  refine ⟨listener, h.lookup, hentry, ⟨hlistening, hbound⟩, hnotPassive,
    .new backlog, ?_, ?_, ?_, ?_, rfl, List.nodup_nil, nofun, rfl, List.nodup_nil, nofun, nofun⟩
  · intro k c hc
    obtain ⟨e, he, rfl⟩ := hentryOf k c hc
    obtain ⟨hlt, hmine, hserial, -⟩ := h.table k e he
    exact ⟨hlt, hmine, hserial⟩
  · intro k k' c c' hc hc' hsame
    obtain ⟨e, he, rfl⟩ := hentryOf k c hc
    obtain ⟨e', he', rfl⟩ := hentryOf k' c' hc'
    exact h.serials k k' e e' he he' hsame
  · intro r hr hocc
    exact absurd ((List.mem_replicate.1 hr).2 ▸ rfl) hocc
  · intro k c hc hlisten hblocking
    obtain ⟨e, he, rfl⟩ := hentryOf k c hc
    exact nomatch ((h.table k e he).2.2.2 hlisten).symm.trans hblocking

/-- The backlog over every run: the count is the number of occupied slots, which differ in
descriptor and peer, free slots are cleared, the completed queue lists distinct occupied slots, the
connections returned and then queued are those completed, each once and in order, no assertion
fails, and a request that is refused leaves the queue as it was. -/
theorem backlog_invariant {L backlog : Nat} {s : Demux} (hs : s.StartsListening L backlog)
    {ops : List DemuxOp} (hops : (demuxMachine L).Admissible ⟨s, [], []⟩ ops) :
    ∃ (run : DemuxRun) (q : ListenQueue) (done : List (Nat × Nat)),
      (demuxMachine L).run ⟨s, [], []⟩ ops = .ok run ∧ run.sys.listenTable L = some q ∧
      q.curLen = q.connectionQueue.countP (fun r => r.sd ≠ -1) ∧ q.curLen ≤ q.maxLen ∧
      (∀ (i j : Nat) (r r' : ConnectRequest), q.connectionQueue[i]? = some r →
        q.connectionQueue[j]? = some r' → i ≠ j → r.sd ≠ -1 → r'.sd ≠ -1 →
        r.sd ≠ r'.sd ∧ r.peerAddr ≠ r'.peerAddr) ∧
      (∀ r ∈ q.connectionQueue, r.sd = -1 → r = .cleared) ∧
      q.completedQueue = (done.map fun d => some d.1) ∧ (done.map Prod.fst).Nodup ∧
      (∀ d ∈ done, ∃ (r : ConnectRequest) (sd : Nat) (e : Entry),
        q.connectionQueue[d.1]? = some r ∧ r.sd = sd ∧ run.sys.globalCtx sd = some e ∧
        e.serial = d.2) ∧
      run.returned ++ done.map Prod.snd = run.completed ∧ run.completed.Nodup ∧
      ∀ (packet : List UInt8) (peer : Sockaddr) (socket : Int) (s' : Demux),
        peer.family = afInet →
        enqueueConnection run.sys L packet packet.length peer 16 0 socket = .ok (false, s') →
        s'.listenTable L = some q := by
  obtain ⟨listener, hstart⟩ := hs.listens
  obtain ⟨run, hrun, q, done, listener, h⟩ :=
    (demuxMachine_preserves L).run ⟨_, _, _, hstart⟩ hops
  have hq := h.backlog.queue
  refine ⟨run, q, done, hrun, h.lookup, hq.count, hq.curLen_le, ?_, hq.free,
    h.backlog.completedQueue, h.backlog.nodup, ?_, h.backlog.order, h.backlog.once, ?_⟩
  · intro i j r r' hr hr' hij hocc hocc'
    have hdistinct := fun hsame => hij (hq.distinct i j r r' hr hr' hocc hocc' hsame)
    exact ⟨fun hsd => hdistinct (.inl hsd), fun hpeer => hdistinct (.inr hpeer)⟩
  · intro d hd
    obtain ⟨r, sd, c, hr, hsd, hc, hserial, -⟩ := h.backlog.ready d hd
    obtain ⟨e, he, rfl⟩ := Option.map_eq_some_iff.1 hc
    exact ⟨r, sd, e, hr, hsd, he, hserial⟩
  · intro packet peer socket s' hpeer hcall
    rcases @enqueueConnection_cases run.sys L listener q packet packet.length peer socket h.entry
      h.open_ h.lookup_listener hq le_rfl hpeer with ⟨-, hrefused⟩ | ⟨-, k, sd, r, -, -, -, -, hacc⟩
    · cases hcall.symm.trans hrefused
      exact h.lookup
    · exact nomatch hcall.symm.trans hacc

/-- A table in which only socket 0 is open, and listens. -/
def Demux.listening (backlog : Nat) : Demux where
  globalCtx := Function.update (fun _ => none) 0 (some ⟨0,
    { allocateContext 0 3 with bound := true, listening := true }⟩)
  allocated := 1
  listenTable := Function.update (fun _ => none) 0 (some (.new backlog))

theorem Demux.listening_globalCtx {backlog k : Nat} {e : Entry}
    (h : (Demux.listening backlog).globalCtx k = some e) :
    k = 0 ∧ e = ⟨0, { allocateContext 0 3 with bound := true, listening := true }⟩ := by
  simp only [Demux.listening] at h
  rcases update_cases h with ⟨rfl, he⟩ | ⟨-, he⟩
  · exact ⟨rfl, (Option.some.inj he).symm⟩
  · exact nomatch he

/-- The process of the examples has just been made to listen. -/
theorem Demux.startsListening_listening (backlog : Nat) :
    (Demux.listening backlog).StartsListening 0 backlog where
  lookup := rfl
  listener := ⟨_, rfl, rfl, rfl, nofun⟩
  table := by
    intro k e he
    obtain ⟨rfl, rfl⟩ := listening_globalCtx he
    exact ⟨by decide, rfl, Nat.zero_lt_one, nofun⟩
  serials := by
    intro k k' e e' he he' _
    rw [(listening_globalCtx he).1, (listening_globalCtx he').1]

/-- A SYN, its retransmission, its handshake and its `myaccept`, after which the same peer comes
again. -/
def reconnectOps : List DemuxOp :=
  [.enqueue ((List.replicate 20 0).set 13 2) ⟨afInet, 80, 1, 0⟩ 4,
    .enqueue ((List.replicate 20 0).set 13 2) ⟨afInet, 80, 1, 0⟩ 5,
    .unblock 1, .dequeue,
    .enqueue ((List.replicate 20 0).set 13 2) ⟨afInet, 80, 1, 0⟩ 6]

/-- A peer that comes back does not fill the queue. -/
theorem backlog_invariant_reconnect :
    ∃ run q, (demuxMachine 0).run ⟨Demux.listening 0, [], []⟩ reconnectOps = .ok run ∧
      run.sys.listenTable 0 = some q ∧ q.curLen ≤ q.maxLen := by
  have hops : (demuxMachine 0).Admissible ⟨Demux.listening 0, [], []⟩ reconnectOps := by decide
  obtain ⟨run, q, -, hrun, hq, -, hle, -⟩ :=
    backlog_invariant (Demux.startsListening_listening 0) hops
  exact ⟨run, q, hrun, hq, hle⟩

end ComputerNetworks.Mysock
