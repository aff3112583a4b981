import ComputerNetworks.Router.ArpQueue

/-!
# Runs of the ARP request queue

Any sequence of `sr_arpcache_queuereq`, `sr_arpcache_insert` and
`sr_arpreq_destroy` from an initialised cache. Beside the cache a run keeps the
requests as the calls alone determine them: which are waiting, with which
packets, and which an insert returned that are not destroyed yet.
-/

namespace ComputerNetworks.Router

/-- A call, with the pointers its caller passes and what the allocator returned to it. -/
inductive ArpOp where
  | queuereq (ip : UInt32) (packet : Option (List UInt8)) (packetLen : Nat)
      (iface : Option (List UInt8)) (mem : QueueMem)
  | insert (mac : EtherAddr) (ip : UInt32) (now : Int)
  | destroy (entry : Option Addr)
  deriving DecidableEq, Repr

/-- The cache, and the requests that the calls so far leave waiting or in their callers' hands. -/
structure ArpRun where
  cache : ArpCache
  waiting : List Waiting
  taken : List Waiting

/-- An initialised cache, in any heaps. -/
def ArpRun.start (reqs : Addr → Option ArpReq) (pkts : Addr → Option SrPacket) : ArpRun :=
  ⟨arpcacheInit reqs pkts, [], []⟩

/-- The caller of `sr_arpcache_queuereq` passes a frame of the length it gives and a string,
and the allocator succeeds; the caller of `sr_arpreq_destroy` passes a request that is not
freed, or null. -/
def ArpOp.Enabled (r : ArpRun) : ArpOp → Prop
  | .queuereq _ packet packetLen iface mem =>
    mem.Fresh r.cache packetLen ∧ (∀ block ∈ packet, packetLen ≤ block.length) ∧
      ∀ block ∈ iface, 0 ∈ block
  | .insert _ _ _ => True
  | .destroy entry => ∀ a ∈ entry, a ∈ (r.waiting ++ r.taken).map Waiting.addr

instance ArpOp.decidableEnabled (r : ArpRun) : (op : ArpOp) → Decidable (op.Enabled r)
  | .queuereq _ packet packetLen iface mem => inferInstanceAs (Decidable
      (mem.Fresh r.cache packetLen ∧ (∀ block ∈ packet, packetLen ≤ block.length) ∧
        ∀ block ∈ iface, 0 ∈ block))
  | .insert _ _ _ => isTrue trivial
  | .destroy entry =>
    inferInstanceAs (Decidable (∀ a ∈ entry, a ∈ (r.waiting ++ r.taken).map Waiting.addr))

/-- The calls, with what they mean for the requests. -/
def arpMachine : Machine Empty ArpRun ArpOp where
  enabled := fun r op => op.Enabled r
  step := fun r op =>
    match op with
    | .queuereq ip packet packetLen iface mem => do
      let (cache, _) ← arpcacheQueuereq r.cache ip packet packetLen iface mem
      let packet := queuedPacket packet packetLen iface
      pure { r with cache, waiting := Waiting.push ip packet (mem.req.getD 0) r.waiting }
    | .insert mac ip now => do
      let (cache, _) ← arpcacheInsert r.cache mac ip now
      pure ⟨cache, r.waiting.eraseP fun w => w.ip == ip,
        (r.waiting.find? fun w => w.ip == ip).toList ++ r.taken⟩
    | .destroy none => do
      let cache ← arpreqDestroy r.cache none
      pure { r with cache }
    | .destroy (some a) => do
      let cache ← arpreqDestroy r.cache (some a)
      pure ⟨cache, r.waiting.eraseP fun w => w.addr == a, r.taken.eraseP fun w => w.addr == a⟩

instance arpMachine_decidableEnabled (r : ArpRun) (op : ArpOp) :
    Decidable (arpMachine.enabled r op) :=
  inferInstanceAs (Decidable (op.Enabled r))

/-- Each address waits once, and each name is a string. -/
def ArpRun.Inv (r : ArpRun) : Prop :=
  r.cache.Holds r.waiting r.taken ∧ (r.waiting.map Waiting.ip).Nodup ∧
    ∀ w ∈ r.waiting ++ r.taken, ∀ packet ∈ w.packets, 0 ∉ packet.name

/-- The empty cache meets the invariant. -/
theorem ArpRun.inv_start (reqs : Addr → Option ArpReq) (pkts : Addr → Option SrPacket) :
    (ArpRun.start reqs pkts).Inv := by
  refine ⟨⟨[], [], ⟨rfl, ?_⟩, .nil, .nil⟩, List.nodup_nil, nofun⟩
  exact ⟨nofun, nofun, List.nodup_nil, List.nodup_nil, Nat.zero_le _, nofun⟩

/-- Queueing a packet adds no second request for an address. -/
theorem Waiting.nodup_push {ws : List Waiting} (h : (ws.map Waiting.ip).Nodup) (ip : UInt32)
    (packet : Option QueuedPacket) (fresh : Addr) :
    ((push ip packet fresh ws).map Waiting.ip).Nodup := by
  unfold push
  split
  · rw [map_addTo fun _ _ => rfl]
    exact h
  · rename_i hany
    refine List.nodup_cons.2 ⟨fun hmem => hany ?_, h⟩
    obtain ⟨w, hw, heq⟩ := List.mem_map.1 hmem
    exact List.any_eq_true.2 ⟨w, hw, beq_iff_eq.2 heq⟩

/-- A packet that waits after a call waited before it or is the one queued. -/
theorem Waiting.mem_packets_push {ws : List Waiting} {ip : UInt32} {packet : Option QueuedPacket}
    {fresh : Addr} {w : Waiting} (hw : w ∈ push ip packet fresh ws) {q : QueuedPacket}
    (hq : q ∈ w.packets) : q ∈ packet ∨ ∃ w' ∈ ws, q ∈ w'.packets := by
  unfold push at hw
  split at hw
  · clear * - hw hq
    induction ws with
    | nil => exact absurd hw List.not_mem_nil
    | cons w' ws ih =>
      unfold addTo at hw
      split at hw
      · rcases List.mem_cons.1 hw with rfl | hw
        · rcases List.mem_append.1 hq with hq | hq
          · exact .inl (Option.mem_toList.1 hq)
          · exact .inr ⟨w', List.mem_cons_self, hq⟩
        · exact .inr ⟨w, List.mem_cons_of_mem _ hw, hq⟩
      · rcases List.mem_cons.1 hw with rfl | hw
        · exact .inr ⟨w, List.mem_cons_self, hq⟩
        · rcases ih hw with hq | ⟨w'', hw'', hq⟩
          · exact .inl hq
          · exact .inr ⟨w'', List.mem_cons_of_mem _ hw'', hq⟩
  · rcases List.mem_cons.1 hw with rfl | hw
    · exact .inl (Option.mem_toList.1 hq)
    · exact .inr ⟨w, hw, hq⟩

/-- The interface name of a queued packet is free of NULs. -/
theorem queuedPacket_name {packet : Option (List UInt8)} {packetLen : Nat}
    {iface : Option (List UInt8)} {q : QueuedPacket}
    (hq : q ∈ queuedPacket packet packetLen iface) : 0 ∉ q.name := by
  unfold queuedPacket at hq
  split at hq
  · split at hq
    · cases hq
      exact fun hmem => by simpa using List.mem_takeWhile_imp hmem
    · cases hq
  · cases hq

/-- Each call does to the queue what it means for the requests. -/
theorem arpMachine_preserves : arpMachine.Preserves ArpRun.Inv := by
  rintro r op ⟨hholds, hnodup, hnames⟩ henabled
  rw [List.forall_mem_append] at hnames
  cases op with
  | queuereq ip packet packetLen iface mem =>
    obtain ⟨hmem, hpacket, hiface⟩ := henabled
    obtain ⟨c', a, hrun, hholds', -⟩ :=
      @arpcacheQueuereq_spec Empty _ _ _ hholds ip _ _ _ _ hmem hpacket hiface
    refine ⟨{ r with
      cache := c'
      waiting := Waiting.push ip (queuedPacket packet packetLen iface) (mem.req.getD 0) r.waiting },
      ?_, hholds', Waiting.nodup_push hnodup _ _ _, List.forall_mem_append.2 ⟨?_, hnames.2⟩⟩
    · simp only [arpMachine, hrun, Exec.ok_bind, Exec.pure_eq_ok]
    · intro w hw q hq
      rcases Waiting.mem_packets_push hw hq with hnew | ⟨w', hw', hq⟩
      · exact queuedPacket_name hnew
      · exact hnames.1 w' hw' q hq
  | insert mac ip now =>
    obtain ⟨c', hrun, hholds', -⟩ := @arpcacheInsert_spec Empty _ _ _ hholds mac ip now
    refine ⟨⟨c', r.waiting.eraseP fun w => w.ip == ip,
      (r.waiting.find? fun w => w.ip == ip).toList ++ r.taken⟩, ?_, hholds',
      hnodup.sublist (List.eraseP_sublist.map _), ?_⟩
    · simp only [arpMachine, hrun, Exec.ok_bind, Exec.pure_eq_ok]
    · rw [List.forall_mem_append, List.forall_mem_append]
      refine ⟨fun w hw => hnames.1 w (List.mem_of_mem_eraseP hw), fun w hw => ?_, hnames.2⟩
      exact hnames.1 w (List.mem_of_find?_eq_some (Option.mem_toList.1 hw))
  | destroy entry =>
    cases entry with
    | none => exact ⟨r, rfl, hholds, hnodup, List.forall_mem_append.2 hnames⟩
    | some a =>
      obtain ⟨c', hrun, hholds', -⟩ := @arpreqDestroy_spec Empty _ _ _ hholds a (henabled a rfl)
      refine ⟨⟨c', r.waiting.eraseP fun w => w.addr == a, r.taken.eraseP fun w => w.addr == a⟩,
        ?_, hholds', hnodup.sublist (List.eraseP_sublist.map _), ?_⟩
      · simp only [arpMachine, hrun, Exec.ok_bind, Exec.pure_eq_ok]
      · rw [List.forall_mem_append]
        exact ⟨fun w hw => hnames.1 w (List.mem_of_mem_eraseP hw),
          fun w hw => hnames.2 w (List.mem_of_mem_eraseP hw)⟩

/-- Where no two elements agree on a key, the first with it is the only one. -/
theorem eraseP_eq_filter {α κ : Type} [DecidableEq κ] {key : α → κ} {l : List α}
    (h : (l.map key).Nodup) (k : κ) :
    l.eraseP (fun a => key a == k) = l.filter fun a => key a != k := by
  have hcount : (l.filter fun a => key a == k).length = (l.map key).count k := by
    rw [List.count, List.countP_map, List.countP_eq_length_filter]
    rfl
  refine eraseP_eq_filter_not ?_
  rw [hcount]
  exact List.nodup_iff_count_le_one.1 h k

/-- In every run of the three calls the queue holds exactly the waiting requests, one for each
address, with exactly the packets queued on each. An insert returns null exactly when none waits for
the address, and otherwise that request, with its packets, and takes it and no other off the queue;
a destroy removes exactly the request it is given. -/
theorem arpQueue_exact (reqs : Addr → Option ArpReq) (pkts : Addr → Option SrPacket)
    {ops : List ArpOp} (hops : arpMachine.Admissible (ArpRun.start reqs pkts) ops) :
    ∃ r, arpMachine.run (ArpRun.start reqs pkts) ops = .ok r ∧
      r.cache.Holds r.waiting r.taken ∧ (r.waiting.map Waiting.ip).Nodup ∧
      (∀ w ∈ r.waiting ++ r.taken, ∀ packet ∈ w.packets, packet.name.length < ifaceNamelen →
        CStrAt (nameBlock packet.name) 0 packet.name) ∧
      (∀ mac ip now, ∃ c' found, arpcacheInsert r.cache mac ip now =
        (.ok (c', found) : Exec Empty _) ∧
        (found = none ↔ ip ∉ r.waiting.map Waiting.ip) ∧
        (found = none → c'.Holds r.waiting r.taken) ∧
        ∀ a, found = some a → ∃ front w rest, r.waiting = front ++ w :: rest ∧ w.ip = ip ∧
          w.addr = a ∧ c'.Holds (front ++ rest) (w :: r.taken)) ∧
      ∀ a ∈ (r.waiting ++ r.taken).map Waiting.addr, ∃ c',
        arpreqDestroy r.cache (some a) = (.ok c' : Exec Empty _) ∧
        c'.Holds (r.waiting.filter fun w => w.addr != a) (r.taken.filter fun w => w.addr != a) := by
  obtain ⟨r, hrun, hholds, hnodup, hnames⟩ :=
    arpMachine_preserves.run (ArpRun.inv_start reqs pkts) hops
  refine ⟨r, hrun, hholds, hnodup, ?_, ?_, ?_⟩
  · exact fun w hw packet hpacket hlen => nameBlock_cstrAt (hnames w hw packet hpacket) hlen
  · intro mac ip now
    obtain ⟨c', hinsert, hholds', -⟩ := @arpcacheInsert_spec Empty _ _ _ hholds mac ip now
    cases hfind : r.waiting.find? fun w => w.ip == ip with
    | none =>
      have hnot : ∀ w ∈ r.waiting, (w.ip == ip) = false := by
        simpa using List.find?_eq_none.1 hfind
      rw [hfind] at hinsert hholds'
      rw [(find_erase_of_forall hnot).2] at hholds'
      refine ⟨c', none, hinsert, iff_of_true rfl ?_, fun _ => hholds', nofun⟩
      rintro hmem
      obtain ⟨w, hw, rfl⟩ := List.mem_map.1 hmem
      simpa using hnot w hw
    | some w =>
      obtain ⟨hw, front, rest, hsplit, hfront⟩ := List.find?_eq_some_iff_append.1 hfind
      have hmiss : ∀ w' ∈ front, (w'.ip == ip) = false := by simpa using hfront
      rw [hfind] at hinsert hholds'
      rw [hsplit, (find_erase_of_split rest hmiss hw).2] at hholds'
      refine ⟨c', some w.addr, hinsert, iff_of_false nofun fun hnot => hnot ?_, nofun, ?_⟩
      · rw [← beq_iff_eq.1 hw]
        exact List.mem_map_of_mem (List.mem_of_find?_eq_some hfind)
      · rintro _ ⟨⟩
        exact ⟨front, w, rest, hsplit, beq_iff_eq.1 hw, rfl, hholds'⟩
  · intro a ha
    obtain ⟨c', hdestroy, hholds', -⟩ := @arpreqDestroy_spec Empty _ _ _ hholds a ha
    have haddrs := hholds.nodup_addr
    rw [List.map_append, List.nodup_append] at haddrs
    rw [eraseP_eq_filter haddrs.1, eraseP_eq_filter haddrs.2.1] at hholds'
    exact ⟨c', hdestroy, hholds'⟩

/-- Two addresses, three packets, an insert whose request is destroyed by its caller, and one that
finds no request. -/
theorem arpQueue_exact_sample :
    ∃ r, arpMachine.run (ArpRun.start (fun _ => none) fun _ => none)
        [.queuereq 7 (some [1, 2]) 2 (some [101, 0]) ⟨some 1, some 1, some [0, 0],
            some (List.replicate 32 9)⟩,
          .queuereq 8 (some [3]) 1 (some [102, 0]) ⟨some 2, some 2, some [0],
            some (List.replicate 32 9)⟩,
          .queuereq 7 (some [4]) 1 (some [101, 0]) ⟨some 3, some 3, some [0],
            some (List.replicate 32 9)⟩,
          .insert ⟨1, 2, 3, 4, 5, 6⟩ 7 10, .destroy (some 1),
          .insert ⟨1, 2, 3, 4, 5, 6⟩ 9 11] = .ok r ∧
      r.cache.Holds r.waiting r.taken ∧ (r.waiting.map Waiting.ip).Nodup ∧
      (∀ w ∈ r.waiting ++ r.taken, ∀ packet ∈ w.packets, packet.name.length < ifaceNamelen →
        CStrAt (nameBlock packet.name) 0 packet.name) ∧
      (∀ mac ip now, ∃ c' found, arpcacheInsert r.cache mac ip now =
        (.ok (c', found) : Exec Empty _) ∧
        (found = none ↔ ip ∉ r.waiting.map Waiting.ip) ∧
        (found = none → c'.Holds r.waiting r.taken) ∧
        ∀ a, found = some a → ∃ front w rest, r.waiting = front ++ w :: rest ∧ w.ip = ip ∧
          w.addr = a ∧ c'.Holds (front ++ rest) (w :: r.taken)) ∧
      ∀ a ∈ (r.waiting ++ r.taken).map Waiting.addr, ∃ c',
        arpreqDestroy r.cache (some a) = (.ok c' : Exec Empty _) ∧
        c'.Holds (r.waiting.filter fun w => w.addr != a) (r.taken.filter fun w => w.addr != a) :=
  arpQueue_exact _ _ (by decide +kernel)

end ComputerNetworks.Router
