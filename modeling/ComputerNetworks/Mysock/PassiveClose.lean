import ComputerNetworks.Mysock.Backlog
import ComputerNetworks.Mysock.ListenThreads

/-!
# Closing a listening socket

`_mysock_close_passive_socket` takes `listen_lock` for writing and then waits for
the transport threads of the queued connections, each of which takes the lock for
reading once. A thread that has not done so by then never ends, and neither does
`myclose`.
-/

namespace ComputerNetworks.Mysock

/-- The closer holds the lock for writing and waits for a transport thread that waits for the
lock. -/
def Threads.Deadlocked (s : Threads) : Prop :=
  ∃ q k sd, s.application = .joining q k sd ∧ s.lock = .exclusive .application ∧
    s.transport sd = some .waiting

/-- The connections for which `myclose` comes to wait: each queued one, but only the first where its
thread never ends. -/
def joinedSlots (returns : Bool) (slots : List ConnectRequest) : List ConnectRequest :=
  if returns then slots.filter fun r => r.sd ≠ -1 else (slots.filter fun r => r.sd ≠ -1).take 1

/-- The thread need not take the lock any more. -/
def Past (pc : Option TransportPc) : Prop := pc ≠ some .started ∧ pc ≠ some .waiting

instance Past.decidable (pc : Option TransportPc) : Decidable (Past pc) :=
  inferInstanceAs (Decidable (_ ∧ _))

/-- The queue of the listening socket. -/
def Threads.listenQueue (s : Threads) (L : Nat) : Option ListenQueue :=
  (s.demux.globalCtx L).bind fun e => s.demux.listenTable e.ctx.mySd

/-- Where `myclose` takes the lock for writing, each thread it comes to wait for is past it. -/
def ThreadOp.InTime (returns : Bool) (L : Nat) (s : Threads) : ThreadOp → Prop
  | .application => s.application = .locking ∧ s.lock = .shared [] →
    ∀ queue ∈ s.listenQueue L, ∀ r ∈ joinedSlots returns queue.connectionQueue,
      Past (s.transport r.sd.toNat)
  | _ => True

instance ThreadOp.decidableInTime (returns : Bool) (L : Nat) (s : Threads) :
    (op : ThreadOp) → Decidable (op.InTime returns L s)
  | .application => inferInstanceAs (Decidable (s.application = .locking ∧ s.lock = .shared [] →
      ∀ queue ∈ s.listenQueue L, ∀ r ∈ joinedSlots returns queue.connectionQueue,
        Past (s.transport r.sd.toNat)))
  | .accept | .close | .receiver .. | .receiverExit | .transport _ => isTrue trivial

/-- A free slot has no thread to wait for. -/
theorem joinedSlots_free {r : ConnectRequest} (hfree : r.sd = -1) (returns : Bool)
    (slots : List ConnectRequest) :
    joinedSlots returns (r :: slots) = joinedSlots returns slots := by
  unfold joinedSlots
  rw [List.filter_cons_of_neg (by simp [hfree])]

/-- The first occupied slot is among them, and so are the next ones where its thread ends. -/
theorem joinedSlots_occupied {r : ConnectRequest} (hocc : r.sd ≠ -1) (returns : Bool)
    (slots : List ConnectRequest) : r ∈ joinedSlots returns (r :: slots) ∧
      (returns = true → joinedSlots returns slots ⊆ joinedSlots returns (r :: slots)) := by
  unfold joinedSlots
  rw [List.filter_cons_of_pos (by simpa using hocc)]
  cases returns with
  | true => exact ⟨List.mem_cons_self, fun _ => List.subset_cons_self ..⟩
  | false => exact ⟨List.mem_cons_self, nofun⟩

/-- A slot of some listen queue holds the descriptor. -/
def Demux.Queued (s : Demux) (sd : Int) : Prop :=
  sd ≠ -1 ∧ ∃ key q, s.listenTable key = some q ∧ ∃ r ∈ q.connectionQueue, r.sd = sd

/-- Writing to one queue makes only its own slots new. -/
theorem Demux.Queued.of_setQueue {s : Demux} {key sd : Int} {q : ListenQueue}
    (h : (s.setQueue key q).Queued sd) : s.Queued sd ∨ ∃ r ∈ q.connectionQueue, r.sd = sd := by
  obtain ⟨hsd, key', q', hq', r, hr, rfl⟩ := h
  by_cases hkey : key' = key
  · subst hkey
    cases (Function.update_self ..).symm.trans hq'
    exact .inr ⟨r, hr, rfl⟩
  · have hold : s.listenTable key' = some q' := (Function.update_of_ne hkey ..).symm.trans hq'
    exact .inl ⟨hsd, key', q', hold, r, hr, rfl⟩

/-- Writing one slot queues no other descriptor. -/
theorem Demux.Queued.of_setSlot {s : Demux} {key sd : Int} {q q' : ListenQueue} {k : Nat}
    {r : ConnectRequest} (hq : s.listenTable key = some q)
    (hslots : q'.connectionQueue = q.connectionQueue.set k r)
    (h : (s.setQueue key q').Queued sd) : s.Queued sd ∨ r.sd = sd := by
  have hsd := h.1
  rcases h.of_setQueue with h | ⟨r', hr', rfl⟩
  · exact .inl h
  · rw [hslots] at hr'
    rcases List.mem_or_eq_of_mem_set hr' with hr' | rfl
    · exact .inl ⟨hsd, key, q, hq, r', hr', rfl⟩
    · exact .inr rfl

/-- Only the queues count. -/
theorem Demux.queued_congr {s s' : Demux} (h : s'.listenTable = s.listenTable) (sd : Int) :
    s'.Queued sd ↔ s.Queued sd := by
  unfold Queued
  rw [h]

/-- A new socket joins no queue by itself. -/
theorem newMysocket_listenTable (s : Demux) (socket : Int) :
    (newMysocket s socket).1.listenTable = s.listenTable := by
  unfold newMysocket
  split <;> rfl

/-- A request that is dropped changes nothing. -/
theorem dropRequest_eq_ok {s s' : Demux} {peerAddr : Sockaddr} {queued : Bool}
    (h : dropRequest s peerAddr = .ok (queued, s')) : s' = s := by
  obtain ⟨-, -, h⟩ := Exec.bind_eq_ok.1 h
  cases h
  rfl

/-- A request queues the descriptor of its new socket, if any. -/
theorem establish_queued {s s' : Demux} {L : Nat} {ctx : MysockContext} {q q₀ : ListenQueue}
    {k packetLen : Nat} {packet : List UInt8} {peerAddr : Sockaddr} {peerAddrLen : Int}
    {userData : Nat} {socket : Int} {queued : Bool} (hq : s.listenTable ctx.mySd = some q₀)
    (hslots : q.connectionQueue = q₀.connectionQueue)
    (h : establish s L ctx q k packet packetLen peerAddr peerAddrLen userData socket =
      .ok (queued, s')) {sd : Int} (hsd : s'.Queued sd) :
    s.Queued sd ∨ (queued = true ∧ ∃ n : Nat, (newMysocket s socket).2 = some n ∧ sd = n) := by
  have htable := newMysocket_listenTable s socket
  unfold establish at h
  rcases hnew : newMysocket s socket with ⟨s₁, n⟩
  rw [hnew] at h htable
  cases n with
  | none =>
    obtain ⟨-, -, h⟩ := Exec.bind_eq_ok.1 h
    cases h
    rcases hsd.of_setSlot (htable ▸ hq) (congrArg (·.set k .cleared) hslots) with hsd' | hclear
    · exact .inl ((Demux.queued_congr htable sd).1 hsd')
    · exact absurd hclear.symm hsd.1
  | some n =>
    obtain ⟨e, -, h⟩ := Exec.bind_eq_ok.1 h
    obtain ⟨-, -, h⟩ := Exec.bind_eq_ok.1 h
    obtain ⟨⟨new, accept⟩, -, h⟩ := Exec.bind_eq_ok.1 h
    obtain ⟨new', -, h⟩ := Exec.bind_eq_ok.1 h
    obtain ⟨data, -, h⟩ := Exec.bind_eq_ok.1 h
    cases h
    rcases hsd.of_setSlot (htable ▸ hq) 
        (congrArg (·.set k ⟨peerAddr, peerAddrLen, n, userData⟩) hslots) with hsd' | rfl
    · exact .inl ((Demux.queued_congr htable sd).1 hsd')
    · exact .inr ⟨rfl, n, rfl, rfl⟩

/-- A connection that joins a queue is the one that was just allocated. -/
theorem enqueueConnection_queued {s s' : Demux} {L packetLen : Nat} {packet : List UInt8}
    {peerAddr : Sockaddr} {peerAddrLen : Int} {userData : Nat} {socket : Int} {queued : Bool}
    (h : enqueueConnection s L packet packetLen peerAddr peerAddrLen userData socket =
      .ok (queued, s')) {sd : Int} (hsd : s'.Queued sd) :
    s.Queued sd ∨ (queued = true ∧ ∃ n : Nat, (newMysocket s socket).2 = some n ∧ sd = n) := by
  obtain ⟨ctx, -, h⟩ := Exec.bind_eq_ok.1 h
  obtain ⟨-, -, h⟩ := Exec.bind_eq_ok.1 h
  obtain ⟨-, -, h⟩ := Exec.bind_eq_ok.1 h
  obtain ⟨noSyn, -, h⟩ := Exec.bind_eq_ok.1 h
  have hdrop : dropRequest s peerAddr = .ok (queued, s') → s.Queued sd := fun hd =>
    dropRequest_eq_ok hd ▸ hsd
  cases noSyn with
  | true => exact .inl (hdrop h)
  | false =>
    obtain ⟨q, hq, h⟩ := Exec.bind_eq_ok.1 h
    cases q with
    | none => exact .inl (hdrop h)
    | some q =>
      obtain ⟨again, -, h⟩ := Exec.bind_eq_ok.1 h
      cases again with
      | true => exact .inl (hdrop h)
      | false =>
        by_cases hroom : q.curLen < q.maxLen
        · simp only [Bool.false_eq_true, if_false, if_pos hroom] at h
          split at h
          · cases h
          · obtain ⟨-, -, h⟩ := Exec.bind_eq_ok.1 h
            have hslots : { q with curLen := q.curLen + 1 }.connectionQueue =
                q.connectionQueue := rfl
            exact establish_queued (getConnectionQueue_eq_ok hq) hslots h hsd
        · simp only [Bool.false_eq_true, if_false, if_neg hroom] at h
          exact .inl (hdrop h)

/-- Completing a connection puts none into a queue. -/
theorem passiveConnectionComplete_queued {s s' : Demux} {ctx : MysockContext}
    (h : passiveConnectionComplete s ctx = .ok s') {sd : Int} (hsd : s'.Queued sd) :
    s.Queued sd := by
  obtain rfl | ⟨key, q, k, hq, rfl⟩ := passiveConnectionComplete_cases h
  · exact hsd
  · rcases hsd.of_setQueue with hsd' | ⟨r, hr, hr'⟩
    · exact hsd'
    · exact ⟨hsd.1, _, q, hq, r, hr, hr'⟩

/-- Taking a connection off puts none into a queue. -/
theorem dequeueConnection_queued {s s' : Demux} {L : Nat} {e : Entry}
    (h : dequeueConnection s L = .ok (e, s')) {sd : Int} (hsd : s'.Queued sd) : s.Queued sd := by
  obtain ⟨key, q, k, completedQueue, hq, rfl⟩ := dequeueConnection_cases h
  rcases hsd.of_setSlot hq rfl with hsd' | hclear
  · exact hsd'
  · exact absurd hclear.symm hsd.1

/-- The application thread has the lock for writing. -/
def ApplicationPc.Writes : ApplicationPc → Prop
  | .closing _ _ | .joining _ _ _ | .unlocking => True
  | _ => False

/-- The threads that `myclose` still comes to wait for are past the lock. -/
def Threads.Ahead (returns : Bool) (s : Threads) : ApplicationPc → Prop
  | .closing q k => ∀ queue, s.demux.listenTable q = some queue →
    ∀ r ∈ joinedSlots returns (queue.connectionQueue.drop k), Past (s.transport r.sd.toNat)
  | .joining q k sd => Past (s.transport sd) ∧
    if returns then ∀ queue, s.demux.listenTable q = some queue →
      ∀ r ∈ joinedSlots returns (queue.connectionQueue.drop (k + 1)), Past (s.transport r.sd.toNat)
    else s.transport sd ≠ none
  | _ => True

/-- The threads in the sections of the readers hold the lock, and the closer comes too late for no
thread it waits for. -/
structure Threads.Inv (returns : Bool) (s : Threads) : Prop where
  receiver : s.receiver = .dispatching ∨ s.receiver = .dispatched → s.lock.Reads .receiver
  transport : ∀ sd, s.transport sd = some .completing ∨ s.transport sd = some .completed →
    s.lock.Reads (.transport sd)
  writes : s.application.Writes → s.lock = .exclusive .application
  ahead : s.Ahead returns s.application
  /-- Where no transport thread ends, each queued connection has one. -/
  threads : returns = false → (∀ sd, s.transport sd ≠ some .exited) ∧
    ∀ sd, s.demux.Queued sd → s.transport sd.toNat ≠ none

variable {returns : Bool} {s s' : Threads} {L : Nat}

/-- A thread that holds no write lock is ahead of no other. -/
theorem Threads.ahead_of_not_writes {pc : ApplicationPc} (h : ¬pc.Writes) :
    s.Ahead returns pc := by
  cases pc with
  | closing q k => exact absurd trivial h
  | joining q k sd => exact absurd trivial h
  | _ => trivial

/-- Where a thread reads, the application does not write. -/
theorem Threads.Inv.not_writes (h : s.Inv returns) {t : ThreadId} (ht : s.lock.Reads t) :
    ¬s.application.Writes := by
  intro hw
  rw [h.writes hw] at ht
  exact RwLock.not_reads_exclusive _ _ ht

/-- Where a thread gets the lock for reading, the application does not write. -/
theorem Threads.Inv.not_writes_of_rdlock (h : s.Inv returns) {t : ThreadId} {lock : RwLock ThreadId}
    (hlock : s.lock.rdlock t = some lock) : ¬s.application.Writes := by
  intro hw
  rw [h.writes hw] at hlock
  cases hlock

/-- A step in which no thread falls back and the queues keep their slots. -/
theorem Threads.Ahead.mono {pc : ApplicationPc} (h : s.Ahead returns pc)
    (htable : s'.demux.listenTable = s.demux.listenTable)
    (hpast : ∀ sd, Past (s.transport sd) → Past (s'.transport sd))
    (hsome : ∀ sd, s.transport sd ≠ none → s'.transport sd ≠ none) : s'.Ahead returns pc := by
  cases pc with
  | closing q k =>
    intro queue hqueue r hr
    exact hpast _ (h queue (htable ▸ hqueue) r hr)
  | joining q k sd =>
    obtain ⟨hpast', hrest⟩ := h
    refine ⟨hpast _ hpast', ?_⟩
    cases returns with
    | true =>
      intro queue hqueue r hr
      exact hpast _ (hrest queue (htable ▸ hqueue) r hr)
    | false => exact hsome _ hrest
  | _ => trivial

/-- The invariant holds before the first connection. -/
theorem Threads.inv_start {demux : Demux} (hempty : ∀ sd, ¬demux.Queued sd) :
    (Threads.start demux).Inv returns where
  receiver := by
    rintro (h | h)
    · cases h
    · cases h
  transport := by
    rintro sd (h | h)
    · cases h
    · cases h
  writes := nofun
  ahead := trivial
  threads := fun _ => ⟨nofun, fun sd hsd => absurd hsd (hempty sd)⟩

/-- A transport thread moves on: no other reader loses the lock, nothing changes for a writing
application, and the thread does not fall back. -/
theorem Threads.Inv.goto (h : s.Inv returns) {sd : Nat} {old pc : TransportPc}
    (hold : s.transport sd = some old) {demux : Demux} {lock : RwLock ThreadId}
    (hreads : ∀ t, t ≠ .transport sd → s.lock.Reads t → lock.Reads t)
    (hself : pc = .completing ∨ pc = .completed → lock.Reads (.transport sd))
    (hwrites : s.application.Writes → lock = s.lock ∧
      demux.listenTable = s.demux.listenTable)
    (hfall : Past (some old) → Past (some pc)) (hexit : pc = .exited → returns = true)
    (hqueued : ∀ sd, demux.Queued sd → s.demux.Queued sd) :
    ({ s with demux, lock }.goto sd pc).Inv returns := by
  have hother : ∀ {sd'}, sd' ≠ sd →
      ({ s with demux, lock }.goto sd pc).transport sd' = s.transport sd' :=
    fun hne => Function.update_of_ne hne ..
  have hsd : ({ s with demux, lock }.goto sd pc).transport sd = some pc := Function.update_self ..
  have hsome : ∀ sd', s.transport sd' ≠ none →
      ({ s with demux, lock }.goto sd pc).transport sd' ≠ none := by
    intro sd' hne
    by_cases heq : sd' = sd
    · rw [heq, hsd]
      exact nofun
    · rw [hother heq]
      exact hne
  refine ⟨fun hr => hreads _ nofun (h.receiver hr), ?_, ?_, ?_, fun hreturns => ⟨?_, ?_⟩⟩
  · intro sd' hin
    by_cases heq : sd' = sd
    · rw [heq, hsd] at hin
      rw [heq]
      exact hself (hin.imp Option.some.inj Option.some.inj)
    · rw [hother heq] at hin
      exact hreads _ (fun hsame => heq (ThreadId.transport.inj hsame)) (h.transport sd' hin)
  · exact fun hw => (hwrites hw).1.trans (h.writes hw)
  · by_cases hw : s.application.Writes
    · refine h.ahead.mono (hwrites hw).2 (fun sd' hpast => ?_) hsome
      by_cases heq : sd' = sd
      · rw [heq, hold] at hpast
        rw [heq, hsd]
        exact hfall hpast
      · rw [hother heq]
        exact hpast
    · exact ahead_of_not_writes hw
  · intro sd' hexited
    by_cases heq : sd' = sd
    · rw [heq, hsd] at hexited
      exact absurd (hexit (Option.some.inj hexited)) (by simp [hreturns])
    · rw [hother heq] at hexited
      exact (h.threads hreturns).1 sd' hexited
  · exact fun sd' hq => hsome _ ((h.threads hreturns).2 sd' (hqueued sd' hq))

/-- A step of a transport thread keeps it. -/
theorem Threads.Inv.transportStep (h : s.Inv returns) {sd : Nat}
    (hstep : transportStep returns s sd = .ok s') : s'.Inv returns := by
  cases hthread : s.transport sd with
  | none =>
    simp only [Mysock.transportStep, hthread] at hstep
    cases hstep
    exact h
  | some pc =>
  simp only [Mysock.transportStep, hthread] at hstep
  cases pc with
  | started =>
    obtain ⟨⟨demux, passive⟩, hunblock, hstep⟩ := Exec.bind_eq_ok.1 hstep
    cases hstep
    have htable : demux.listenTable = s.demux.listenTable := by
      obtain ⟨e, -, hunblock⟩ := Exec.bind_eq_ok.1 hunblock
      obtain ⟨-, -, hunblock⟩ := Exec.bind_eq_ok.1 hunblock
      cases hunblock
      rfl
    refine h.goto hthread (fun _ _ ht => ht) ?_ (fun _ => ⟨rfl, htable⟩) ?_ ?_
      fun sd' => (Demux.queued_congr htable sd').1
    · cases passive <;> simp
    · exact fun hpast => absurd rfl hpast.1
    · cases passive <;> simp
  | waiting =>
    simp only at hstep
    split at hstep
    · cases hstep
      exact h
    · rename_i lock hlock
      cases hstep
      exact h.goto hthread (fun _ _ ht => ht.rdlock hlock)
        (fun _ => RwLock.reads_of_rdlock hlock)
        (fun hw => absurd hw (h.not_writes_of_rdlock hlock)) (fun hpast => absurd rfl hpast.2) nofun
        fun _ hq => hq
  | completing =>
    have hreads := h.transport sd (.inl hthread)
    obtain ⟨ctx, -, hstep⟩ := Exec.bind_eq_ok.1 hstep
    obtain ⟨demux, hcomplete, hstep⟩ := Exec.bind_eq_ok.1 hstep
    cases hstep
    exact h.goto hthread (fun _ _ ht => ht) (fun _ => hreads)
      (fun hw => absurd hw (h.not_writes hreads)) (fun _ => by decide) nofun
      fun _ hq => passiveConnectionComplete_queued hcomplete hq
  | completed =>
    have hreads := h.transport sd (.inr hthread)
    cases hstep
    refine h.goto hthread (fun _ hne ht => ht.unlock hne) ?_
      (fun hw => absurd hw (h.not_writes hreads)) (fun _ => by decide) nofun fun _ hq => hq
    rintro (h | h)
    · cases h
    · cases h
  | looping =>
    cases hstep
    by_cases hreturns : returns = true
    · rw [if_pos hreturns]
      refine h.goto hthread (fun _ _ ht => ht) ?_ (fun _ => ⟨rfl, rfl⟩) (fun _ => by decide)
        (fun _ => hreturns) fun _ hq => hq
      rintro (h | h)
      · cases h
      · cases h
    · rw [if_neg hreturns]
      exact h
  | exited =>
    cases hstep
    exact h

/-- A step of another thread: the transport threads stay and keep the lock. -/
theorem Threads.Inv.frame (h : s.Inv returns) (htransport : s'.transport = s.transport)
    (hreads : ∀ sd, s.lock.Reads (.transport sd) → s'.lock.Reads (.transport sd))
    (hreceiver : s'.receiver = .dispatching ∨ s'.receiver = .dispatched → s'.lock.Reads .receiver)
    (hwrites : s'.application.Writes → s'.lock = .exclusive .application)
    (hahead : s'.Ahead returns s'.application)
    (hqueued : ∀ sd, s'.demux.Queued sd → s.demux.Queued sd) : s'.Inv returns := by
  refine ⟨hreceiver, fun sd hin => ?_, hwrites, hahead, fun hreturns => ⟨?_, fun sd hq => ?_⟩⟩
  · rw [htransport] at hin
    exact hreads sd (h.transport sd hin)
  · rw [htransport]
    exact (h.threads hreturns).1
  · rw [htransport]
    exact (h.threads hreturns).2 sd (hqueued sd hq)

/-- The dispatch of a packet, with the start of a thread for a new connection. -/
theorem Threads.Inv.dispatch (h : s.Inv returns) (hpc : s.receiver = .dispatching) {queued : Bool}
    {demux : Demux} {socket : Int} (hqueued : ∀ sd, demux.Queued sd → s.demux.Queued sd ∨
      (queued = true ∧ ∃ n : Nat, (newMysocket s.demux socket).2 = some n ∧ sd = n)) :
    (match queued, (newMysocket s.demux socket).2 with
      | true, some sd => { s with demux, receiver := .dispatched }.goto sd .started
      | _, _ => { s with demux, receiver := .dispatched }).Inv returns := by
  have hreads := h.receiver (.inl hpc)
  have hnot := h.not_writes hreads
  split
  · rename_i sd hnew
    have hother : ∀ {sd'}, sd' ≠ sd → ({ s with demux, receiver := .dispatched }.goto sd
        .started).transport sd' = s.transport sd' := fun hne => Function.update_of_ne hne ..
    have hsd : ({ s with demux, receiver := .dispatched }.goto sd .started).transport sd =
        some .started := Function.update_self ..
    refine ⟨fun _ => hreads, fun sd' hin => ?_, fun hw => absurd hw hnot,
      ahead_of_not_writes hnot, fun hreturns => ⟨fun sd' hexited => ?_, fun sd' hq => ?_⟩⟩
    · by_cases heq : sd' = sd
      · rw [heq, hsd] at hin
        rcases hin with hin | hin
        · cases hin
        · cases hin
      · rw [hother heq] at hin
        exact h.transport sd' hin
    · by_cases heq : sd' = sd
      · rw [heq, hsd] at hexited
        cases hexited
      · rw [hother heq] at hexited
        exact (h.threads hreturns).1 sd' hexited
    · by_cases heq : sd'.toNat = sd
      · rw [heq, hsd]
        exact nofun
      · rw [hother heq]
        rcases hqueued sd' hq with hold | ⟨-, n, hn, rfl⟩
        · exact (h.threads hreturns).2 sd' hold
        · cases hnew.symm.trans hn
          exact absurd (Int.toNat_natCast sd) heq
  · rename_i hnone
    refine h.frame rfl (fun _ ht => ht) (fun _ => hreads) (fun hw => absurd hw hnot)
      (ahead_of_not_writes hnot) fun sd hq => ?_
    rcases hqueued sd hq with hold | ⟨rfl, n, hn, -⟩
    · exact hold
    · exact (hnone n rfl hn).elim

/-- A step of the receive thread keeps it. -/
theorem Threads.Inv.receiverStep (h : s.Inv returns) {packet : List UInt8} {packetLen : Nat}
    {peerAddr : Sockaddr} {peerAddrLen : Int} {userData : Nat} {socket : Int}
    (hstep : receiverStep L s packet packetLen peerAddr peerAddrLen userData socket = .ok s') :
    s'.Inv returns := by
  cases hpc : s.receiver with
  | polling =>
    simp only [Mysock.receiverStep, hpc] at hstep
    split at hstep
    · cases hstep
      exact h
    · rename_i lock hlock
      cases hstep
      have hnot := h.not_writes_of_rdlock hlock
      exact h.frame rfl (fun _ ht => ht.rdlock hlock) (fun _ => RwLock.reads_of_rdlock hlock)
        (fun hw => absurd hw hnot) (ahead_of_not_writes hnot) fun _ hq => hq
  | dispatching =>
    simp only [Mysock.receiverStep, hpc] at hstep
    obtain ⟨⟨queued, demux⟩, henqueue, hstep⟩ := Exec.bind_eq_ok.1 hstep
    have hinv := h.dispatch hpc fun _ hq => enqueueConnection_queued henqueue hq
    cases queued with
    | false =>
      cases hstep
      exact hinv
    | true =>
      cases hnew : (newMysocket s.demux socket).2 with
      | none =>
        simp only [hnew] at hstep hinv
        cases hstep
        exact hinv
      | some sd =>
        simp only [hnew] at hstep hinv
        cases hstep
        exact hinv
  | dispatched =>
    simp only [Mysock.receiverStep, hpc] at hstep
    cases hstep
    have hnot := h.not_writes (h.receiver (.inr hpc))
    refine h.frame rfl (fun _ ht => ht.unlock nofun) ?_ (fun hw => absurd hw hnot)
      (ahead_of_not_writes hnot) fun _ hq => hq
    rintro (h | h)
    · cases h
    · cases h
  | exited =>
    simp only [Mysock.receiverStep, hpc] at hstep
    cases hstep
    exact h

/-- The round of the loop over the slots. -/
theorem Threads.Inv.closeSlot (h : s.Inv returns) {q : Int} {k : Nat}
    (hpc : s.application = .closing q k) (hstep : closeSlot s q k = .ok s') : s'.Inv returns := by
  have hlock : s.lock = .exclusive .application := h.writes (hpc ▸ trivial)
  have hahead : s.Ahead returns (.closing q k) := hpc ▸ h.ahead
  unfold Mysock.closeSlot at hstep
  split at hstep
  · cases hstep
  · rename_i queue hqueue
    split at hstep
    · split at hstep
      · cases hstep
      · rename_i r hr
        obtain ⟨hlt, hget⟩ := List.getElem?_eq_some_iff.1 hr
        have hdrop : queue.connectionQueue.drop k = r :: queue.connectionQueue.drop (k + 1) := by
          rw [List.drop_eq_getElem_cons hlt, hget]
        have hslots := hahead queue hqueue
        rw [hdrop] at hslots
        split at hstep
        · rename_i hfree
          cases hstep
          rw [joinedSlots_free hfree] at hslots
          refine h.frame rfl (fun _ ht => ht) h.receiver (fun _ => hlock) ?_ fun _ hq => hq
          intro queue' hqueue'
          cases hqueue.symm.trans hqueue'
          exact hslots
        · rename_i hocc
          obtain ⟨e, -, hstep⟩ := Exec.bind_eq_ok.1 hstep
          cases hstep
          obtain ⟨hfirst, hnext⟩ := joinedSlots_occupied hocc returns
            (queue.connectionQueue.drop (k + 1))
          refine h.frame rfl (fun _ ht => ht) h.receiver (fun _ => hlock) ⟨hslots r hfirst, ?_⟩
            fun _ hq => hq
          cases returns with
          | true =>
            intro queue' hqueue' r' hr'
            cases hqueue.symm.trans hqueue'
            exact hslots r' (hnext rfl hr')
          | false =>
            have hmem : r ∈ queue.connectionQueue := List.mem_of_getElem? hr
            exact (h.threads rfl).2 r.sd ⟨hocc, q, queue, hqueue, r, hmem, rfl⟩
    · cases hstep
      refine h.frame rfl (fun _ ht => ht) h.receiver (fun _ => hlock) trivial ?_
      rintro sd ⟨hsd, key, queue', hqueue', hslot⟩
      by_cases hkey : key = q
      · subst hkey
        cases (Function.update_self ..).symm.trans hqueue'
      · exact ⟨hsd, key, queue', (Function.update_of_ne hkey ..).symm.trans hqueue', hslot⟩

theorem freeConnection_transport (s : Threads) (q : Int) (k sd sd' : Nat) :
    (freeConnection s q k sd).transport sd' = if sd' = sd then none else s.transport sd' :=
  Function.update_apply ..

/-- The end of the wait for a transport thread. -/
theorem Threads.Inv.freeConnection (h : s.Inv returns) {q : Int} {k sd : Nat}
    (hpc : s.application = .joining q k sd)
    (hend : s.transport sd = some .exited ∨ s.transport sd = none) :
    (freeConnection s q k sd).Inv returns := by
  have hlock : s.lock = .exclusive .application := h.writes (hpc ▸ trivial)
  have hahead : s.Ahead returns (.joining q k sd) := hpc ▸ h.ahead
  cases returns with
  | false =>
    rcases hend with hend | hend
    · exact absurd hend ((h.threads rfl).1 sd)
    · exact absurd hend hahead.2
  | true =>
    refine ⟨h.receiver, fun sd' hin => ?_, fun _ => hlock, fun queue hqueue r hr => ?_, nofun⟩
    · rw [freeConnection_transport] at hin
      split at hin
      · exact hin.elim nofun nofun
      · exact h.transport sd' hin
    · rw [freeConnection_transport]
      split
      · exact ⟨nofun, nofun⟩
      · exact hahead.2 queue hqueue r hr

/-- The application thread lets go of the lock. -/
theorem Threads.Inv.unlockApplication (h : s.Inv returns)
    (hlock : s'.lock = s.lock.unlock .application) (htransport : s'.transport = s.transport)
    (hreceiver : s'.receiver = s.receiver) (hwrites : ¬s'.application.Writes)
    (hqueued : ∀ sd, s'.demux.Queued sd → s.demux.Queued sd) : s'.Inv returns := by
  refine h.frame htransport (fun _ ht => ?_) (fun hr => ?_) (fun hw => absurd hw hwrites)
    (ahead_of_not_writes hwrites) hqueued
  · rw [hlock]
    exact ht.unlock nofun
  · rw [hreceiver] at hr
    rw [hlock]
    exact (h.receiver hr).unlock nofun

/-- The closer takes the lock and starts its loop, or has none to start. -/
theorem Threads.Inv.lockApplication (h : s.Inv returns)
    (hcond : ThreadOp.application.InTime returns L s) (hpc : s.application = .locking)
    (hstep : applicationStep L s = .ok s') : s'.Inv returns := by
  simp only [Mysock.applicationStep, hpc] at hstep
  cases hwrlock : s.lock.wrlock .application with
  | none =>
    rw [hwrlock] at hstep
    cases hstep
    exact h
  | some lock =>
    simp only [hwrlock] at hstep
    obtain ⟨hfree, rfl⟩ := RwLock.wrlock_eq_some hwrlock
    have hnoReader : ∀ t, ¬s.lock.Reads t := by
      rintro t ⟨readers, hreaders, ht⟩
      rw [hfree] at hreaders
      cases hreaders
      cases ht
    obtain ⟨ctx, hctx, hstep⟩ := Exec.bind_eq_ok.1 hstep
    obtain ⟨q, hq, hstep⟩ := Exec.bind_eq_ok.1 hstep
    cases q with
    | none =>
      cases hstep
      exact h.frame rfl (fun _ ht => absurd ht (hnoReader _))
        (fun hr => absurd (h.receiver hr) (hnoReader _)) (fun _ => rfl) trivial fun _ hq => hq
    | some q =>
      cases hstep
      refine h.frame rfl (fun _ ht => absurd ht (hnoReader _))
        (fun hr => absurd (h.receiver hr) (hnoReader _)) (fun _ => rfl) ?_ fun _ hq => hq
      -- the closer starts its loop here: the condition is what the loop needs
      intro queue hqueue
      refine hcond ⟨hpc, hfree⟩ queue ?_
      unfold derefContext at hctx
      split at hctx
      · cases hctx
      · rename_i e he
        cases hctx
        rw [listenQueue, he]
        exact hqueue

/-- The application thread takes a completed connection, or waits for one. -/
theorem Threads.Inv.acceptApplication (h : s.Inv returns) (hpc : s.application = .accepting)
    (hstep : applicationStep L s = .ok s') : s'.Inv returns := by
  simp only [Mysock.applicationStep, hpc] at hstep
  obtain ⟨ctx, -, hstep⟩ := Exec.bind_eq_ok.1 hstep
  obtain ⟨q, -, hstep⟩ := Exec.bind_eq_ok.1 hstep
  cases q with
  | none => cases hstep
  | some q =>
    simp only at hstep
    split at hstep
    · cases hstep
      exact h
    · obtain ⟨⟨e, demux⟩, hdequeue, hstep⟩ := Exec.bind_eq_ok.1 hstep
      cases hstep
      exact h.frame rfl (fun _ ht => ht) h.receiver nofun trivial
        fun _ hq => dequeueConnection_queued hdequeue hq

/-- A step of the application in time keeps it. -/
theorem Threads.Inv.applicationStep (h : s.Inv returns)
    (hcond : ThreadOp.application.InTime returns L s) (hstep : applicationStep L s = .ok s') :
    s'.Inv returns := by
  cases hpc : s.application with
  | running | closed =>
    simp only [Mysock.applicationStep, hpc] at hstep
    cases hstep
    exact h
  | accepting => exact h.acceptApplication hpc hstep
  | accepted =>
    simp only [Mysock.applicationStep, hpc] at hstep
    cases hstep
    exact h.unlockApplication rfl rfl rfl nofun fun _ hq => hq
  | stopping =>
    simp only [Mysock.applicationStep, hpc] at hstep
    cases hstep
    split
    · exact h.frame rfl (fun _ ht => ht) h.receiver nofun trivial fun _ hq => hq
    · exact h
  | locking => exact h.lockApplication hcond hpc hstep
  | closing q k =>
    simp only [Mysock.applicationStep, hpc] at hstep
    exact h.closeSlot hpc hstep
  | joining q k sd =>
    simp only [Mysock.applicationStep, hpc] at hstep
    split at hstep
    · rename_i hend
      cases hstep
      exact h.freeConnection hpc (.inl hend)
    · rename_i hend
      cases hstep
      exact h.freeConnection hpc (.inr hend)
    · cases hstep
      exact h
  | unlocking =>
    simp only [Mysock.applicationStep, hpc] at hstep
    cases hstep
    exact h.unlockApplication rfl rfl rfl nofun fun _ hq => hq

/-- Each thread's step keeps the invariant, where the closer takes the lock in time. -/
theorem closeMachine_keeps {op : ThreadOp} (h : s.Inv returns) (hcond : op.InTime returns L s)
    (hstep : (closeMachine returns L).step s op = .ok s') : s'.Inv returns := by
  cases op with
  | accept =>
    simp only [closeMachine] at hstep
    split at hstep
    · rename_i lock hpc hlock
      cases hstep
      exact h.frame rfl (fun _ ht => ht.rdlock hlock) (fun hr => (h.receiver hr).rdlock hlock) nofun
        trivial fun _ hq => hq
    · cases hstep
      exact h
  | close =>
    simp only [closeMachine] at hstep
    cases hstep
    split
    · exact h.frame rfl (fun _ ht => ht) h.receiver nofun trivial fun _ hq => hq
    · exact h
  | application => exact h.applicationStep hcond hstep
  | receiver packet packetLen peerAddr peerAddrLen userData socket => exact h.receiverStep hstep
  | receiverExit =>
    simp only [closeMachine] at hstep
    cases hstep
    split
    · exact h.frame rfl (fun _ ht => ht) (fun hr => hr.elim nofun nofun) h.writes h.ahead
        fun _ hq => hq
    · exact h
  | transport sd => exact h.transportStep hstep

/-- Where it holds, some thread can go on. -/
theorem Threads.Inv.not_deadlocked (h : s.Inv returns) : ¬s.Deadlocked := by
  rintro ⟨q, k, sd, hpc, -, hwaiting⟩
  have hahead : s.Ahead returns (.joining q k sd) := hpc ▸ h.ahead
  exact hahead.1.2 hwaiting

/-- From a listening socket with no connection queued, in every order of the threads: where each
`myclose` takes the lock for writing only when the transport threads it comes to wait for are past
it, it never waits for one that waits for the lock. -/
theorem close_not_deadlocked (returns : Bool) (L : Nat) {demux : Demux}
    (hempty : ∀ sd, ¬demux.Queued sd) {ops : List ThreadOp}
    (hops : ((closeMachine returns L).restrict fun s op => op.InTime returns L s).Admissible
      (Threads.start demux) ops) {s : Threads}
    (hrun : (closeMachine returns L).run (Threads.start demux) ops = .ok s) : ¬s.Deadlocked := by
  rw [← Machine.restrict_run fun s op => op.InTime returns L s] at hrun
  have hkeep : ∀ s op s', s.Inv returns → ((closeMachine returns L).restrict
      fun s op => op.InTime returns L s).enabled s op →
      (closeMachine returns L).step s op = .ok s' → s'.Inv returns :=
    fun _ _ _ hs henabled hstep => closeMachine_keeps hs henabled.2 hstep
  exact (Machine.run_ok hkeep (Threads.inv_start hempty) hops hrun).not_deadlocked

/-- The receive thread finds a SYN, or goes on with it. -/
def receiveSyn : ThreadOp :=
  .receiver ((List.replicate 20 0).set 13 2) 20 ⟨afInet, 80, 1, 0⟩ 16 0 4

theorem Demux.listening_not_queued (backlog : Nat) (sd : Int) :
    ¬(Demux.listening backlog).Queued sd := by
  rintro ⟨hsd, key, q, hq, r, hr, rfl⟩
  simp only [listening] at hq
  rcases update_cases hq with ⟨-, hq⟩ | ⟨-, hq⟩
  · cases hq
    exact hsd ((List.mem_replicate.1 hr).2 ▸ rfl)
  · cases hq

/-- A connection completes before its listening socket is closed. -/
def completeThenClose : List ThreadOp :=
  [receiveSyn, receiveSyn, receiveSyn, .transport 1, .transport 1, .transport 1,
    .transport 1, .close, .receiverExit, .application, .application, .application, .application]

theorem close_not_deadlocked_sample :
    ∃ s, (closeMachine false 0).run (Threads.start (Demux.listening 0)) completeThenClose = .ok s ∧
      s.application = .joining 0 0 1 ∧ ¬s.Deadlocked := by
  have hops : ((closeMachine false 0).restrict fun s op => op.InTime false 0 s).Admissible
      (Threads.start (Demux.listening 0)) completeThenClose := by decide +kernel
  exact ⟨_, rfl, rfl, close_not_deadlocked false 0 (Demux.listening_not_queued 0) hops rfl⟩

/-- A SYN arrives, and the socket is closed before the transport thread asks for the lock: the
closer and the thread wait for each other, with no way out. -/
theorem close_deadlocks :
    ∃ s, (closeMachine false 0).run (Threads.start (Demux.listening 0))
        [receiveSyn, receiveSyn, receiveSyn, .close, .receiverExit, .application, .application,
          .transport 1, .application] = .ok s ∧ s.Deadlocked ∧
      (closeMachine false 0).step s .application = .ok s ∧
      (closeMachine false 0).step s (.transport 1) = .ok s :=
  ⟨_, rfl, ⟨0, 0, 1, rfl, rfl, rfl⟩, rfl, rfl⟩

end ComputerNetworks.Mysock
