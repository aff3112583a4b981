import ComputerNetworks.Router.ArpQueue
import Mathlib.Data.List.Chain

/-!
# The life of an unanswered request

`sr_arpcache_sweepreqs` hands each queued request to `handle_arpreq` and then
destroys it if it was sent five times. The fifth send is counted in the same
round of the loop, so the request is destroyed at once and its link is read
after it was freed. Until then every request keeps to its life cycle.
-/

namespace ComputerNetworks.Router

variable {Site : Type}

/-- What `handle_arpreq` makes of a request sent fewer than five times. -/
def ArpReq.handled (now : Int) (req : ArpReq) : ArpReq :=
  if now - req.sent > 1 then
    { req with sent := now, timesSent := if req.sent = 0 then 1 else req.timesSent + 1 }
  else req

/-- The branch it takes there. -/
def ArpReq.handling (now : Int) (req : ArpReq) : Handling :=
  if now - req.sent > 1 then .counted else .notDue

/-- Only the time and the count of a request change. -/
theorem ArpReq.handled_frame (now : Int) (req : ArpReq) :
    (req.handled now).ip = req.ip ∧ (req.handled now).packets = req.packets ∧
      (req.handled now).next = req.next := by
  unfold handled
  split
  · exact ⟨rfl, rfl, rfl⟩
  · exact ⟨rfl, rfl, rfl⟩

/-- A request that was sent less than five times is sent again or left alone. -/
theorem handleArpreq_eq {c : ArpCache} {a : Addr} {req : ArpReq} (h : c.reqs a = some req)
    (htimes : req.timesSent < 5) (now : Int) :
    (handleArpreq c a now : Exec Site _) =
      .ok ({ c with reqs := Function.update c.reqs a (some (req.handled now)) },
        req.handling now) := by
  rw [handleArpreq, deref_some h, Exec.ok_bind, ArpReq.handled, ArpReq.handling]
  by_cases hdue : now - req.sent > 1
  · rw [if_pos hdue, if_pos hdue, if_pos hdue, if_neg (Nat.not_le.2 htimes)]
    split
    · rfl
    · rfl
  · rw [if_neg hdue, if_neg hdue, if_neg hdue, ← h, Function.update_eq_self]
    rfl

/-- A destroyed request is freed. -/
theorem arpreqDestroy_frees {c c' : ArpCache} {a : Addr}
    (h : (arpreqDestroy c (some a) : Exec Site ArpCache) = .ok c') : c'.reqs a = none := by
  rw [arpreqDestroy] at h
  obtain ⟨⟨prev, found⟩, -, h⟩ := Exec.bind_eq_ok.1 h
  obtain ⟨c₁, -, h⟩ := Exec.bind_eq_ok.1 h
  obtain ⟨node, -, h⟩ := Exec.bind_eq_ok.1 h
  obtain ⟨pkts, -, h⟩ := Exec.bind_eq_ok.1 h
  cases h
  exact Function.update_self ..

/-- The record of a request that a sweep leaves on the queue. -/
def ReqCell.swept (now : Int) (q : ReqCell) : Swept := ⟨q.addr, q.node, q.node.handling now, false⟩

/-- The round of the loop at a request whose count stays below five. -/
theorem sweepFrom_step {c : ArpCache} {q : ReqCell} (hq : c.reqs q.addr = some q.node)
    {now : Int} (htimes : q.node.timesSent < 5) (hless : (q.node.handled now).timesSent < 5)
    (fuel : Nat) :
    (sweepFrom now (fuel + 1) c (some q.addr) : Exec Site _) = (do
      let (c, swept) ← sweepFrom now fuel
        { c with reqs := Function.update c.reqs q.addr (some (q.node.handled now)) } q.node.next
      pure (c, q.swept now :: swept)) := by
  have hnew : Function.update c.reqs q.addr (some (q.node.handled now)) q.addr =
      some (q.node.handled now) := Function.update_self ..
  have hless' : ¬5 ≤ (q.node.handled now).timesSent := Nat.not_le.2 hless
  rw [sweepFrom, deref_some hq, Exec.ok_bind, handleArpreq_eq hq htimes, Exec.ok_bind]
  simp only [deref_some hnew, Exec.ok_bind, if_neg hless', Exec.pure_eq_ok,
    (ArpReq.handled_frame now q.node).2.2, decide_eq_false hless', ReqCell.swept]

/-- The round of the loop at a request that `handle_arpreq` leaves with a count of five or more
never returns: the request is read after it was freed. -/
theorem sweepFrom_full {c : ArpCache} {a : Addr} {now : Int}
    (hfull : ∀ c' handling, (handleArpreq c a now : Exec Site _) = .ok (c', handling) →
      ∃ req, c'.reqs a = some req ∧ 5 ≤ req.timesSent)
    (fuel : Nat) (out : ArpCache × List Swept) :
    (sweepFrom now fuel c (some a) : Exec Site _) ≠ .ok out := by
  intro hrun
  cases fuel with
  | zero => cases hrun
  | succ fuel =>
    obtain ⟨found, -, hrun⟩ := Exec.bind_eq_ok.1 hrun
    obtain ⟨⟨c₁, handling⟩, hhandle, hrun⟩ := Exec.bind_eq_ok.1 hrun
    obtain ⟨req, hreq, hfive⟩ := hfull c₁ handling hhandle
    simp only [deref_some hreq, Exec.ok_bind, if_pos hfive] at hrun
    obtain ⟨c', hdestroy, hrun⟩ := Exec.bind_eq_ok.1 hrun
    obtain ⟨req', hread, -⟩ := Exec.bind_eq_ok.1 hrun
    rw [deref, arpreqDestroy_frees hdestroy] at hread
    cases hread

/-- A request sent five times keeps its count. -/
theorem handleArpreq_of_full {c c' : ArpCache} {a : Addr} {req : ArpReq} {now : Int}
    {handling : Handling} (h : c.reqs a = some req) (hfive : 5 ≤ req.timesSent)
    (hrun : (handleArpreq c a now : Exec Site _) = .ok (c', handling)) : c' = c := by
  rw [handleArpreq, deref_some h, Exec.ok_bind, if_pos hfive] at hrun
  split at hrun
  · obtain ⟨_, -, hrun⟩ := Exec.bind_eq_ok.1 hrun
    cases hrun
    rfl
  · cases hrun
    rfl

/-- The request was sent five times, or its fifth send is due. -/
def ArpReq.Full (now : Int) (req : ArpReq) : Prop :=
  5 ≤ req.timesSent ∨ 5 ≤ (req.handled now).timesSent

/-- At such a request the loop does not get further. -/
theorem sweepFrom_fifth {c : ArpCache} {q : ReqCell} (hq : c.reqs q.addr = some q.node)
    {now : Int} (hfull : q.node.Full now) (fuel : Nat) (out : ArpCache × List Swept) :
    (sweepFrom now fuel c (some q.addr) : Exec Site _) ≠ .ok out := by
  refine sweepFrom_full (fun c' handling hrun => ?_) fuel out
  by_cases hfive : 5 ≤ q.node.timesSent
  · rw [handleArpreq_of_full hq hfive hrun]
    exact ⟨q.node, hq, hfive⟩
  · rw [handleArpreq_eq hq (Nat.lt_of_not_le hfive)] at hrun
    cases hrun
    exact ⟨_, Function.update_self .., hfull.resolve_left hfive⟩

/-- A sweep over requests whose counts stay below five handles each of them once. -/
theorem sweepFrom_ok {c : ArpCache} {queued : List ReqCell} {p : Option Addr} {now : Int}
    {fuel : Nat} (hchain : Chain ArpReq.next c.reqs p (queued.map ReqCell.cell))
    (hnodup : (queued.map ReqCell.addr).Nodup)
    (hless : ∀ q ∈ queued, q.node.timesSent < 5 ∧ (q.node.handled now).timesSent < 5)
    (hfuel : queued.length ≤ fuel) :
    ∃ reqs', (sweepFrom now fuel c p : Exec Site _) =
        .ok ({ c with reqs := reqs' }, queued.map (ReqCell.swept now)) ∧
      (∀ q ∈ queued, reqs' q.addr = some (q.node.handled now)) ∧
      ∀ b, b ∉ queued.map ReqCell.addr → reqs' b = c.reqs b := by
  induction queued generalizing c p fuel with
  | nil =>
    cases hchain
    refine ⟨c.reqs, ?_, nofun, fun _ _ => rfl⟩
    unfold sweepFrom
    rfl
  | cons q queued ih =>
    have hframe := chain_tail_update hchain hnodup (some (q.node.handled now))
    obtain ⟨rfl, hq, -⟩ := hchain
    obtain ⟨fuel, rfl⟩ := Nat.exists_eq_add_one_of_ne_zero (Nat.ne_zero_of_lt hfuel)
    obtain ⟨hnotMem, hnodup⟩ := List.nodup_cons.1 hnodup
    obtain ⟨⟨htimes, hstill⟩, hless⟩ := List.forall_mem_cons.1 hless
    obtain ⟨reqs', hrun, hhandled, hother⟩ :=
      @ih { c with reqs := Function.update c.reqs q.addr (some (q.node.handled now)) } _ fuel hframe
        hnodup hless (Nat.le_of_succ_le_succ hfuel)
    refine ⟨reqs', ?_, List.forall_mem_cons.2 ⟨?_, hhandled⟩, fun b hb => ?_⟩
    · have hstep := @sweepFrom_step Site c q hq now htimes hstill fuel
      rw [hrun] at hstep
      exact hstep
    · rw [hother q.addr hnotMem]
      exact Function.update_self ..
    · rw [List.map_cons, List.mem_cons, not_or] at hb
      rw [hother b hb.2]
      exact Function.update_of_ne hb.1 _ _

/-- A sweep over a request that was or would be sent five times does not return. -/
theorem sweepFrom_ne_ok {c : ArpCache} {queued : List ReqCell} {p : Option Addr} {now : Int}
    {fuel : Nat} (hchain : Chain ArpReq.next c.reqs p (queued.map ReqCell.cell))
    (hnodup : (queued.map ReqCell.addr).Nodup) (hfull : ∃ q ∈ queued, q.node.Full now)
    (out : ArpCache × List Swept) :
    (sweepFrom now fuel c p : Exec Site _) ≠ .ok out := by
  induction queued generalizing c p fuel out with
  | nil => exact absurd hfull (by simp)
  | cons q queued ih =>
    have hframe := chain_tail_update hchain hnodup (some (q.node.handled now))
    obtain ⟨rfl, hq, -⟩ := hchain
    by_cases hfirst : q.node.Full now
    · exact sweepFrom_fifth hq hfirst fuel out
    · have hlater : ∃ q' ∈ queued, q'.node.Full now := by
        obtain ⟨q', hq', hfull⟩ := hfull
        rcases List.mem_cons.1 hq' with rfl | hq'
        · exact absurd hfull hfirst
        · exact ⟨q', hq', hfull⟩
      obtain ⟨htimes, hstill⟩ := not_or.1 hfirst
      cases fuel with
      | zero => exact nofun
      | succ fuel =>
        intro hrun
        have hstep := @sweepFrom_step Site c q hq now (Nat.lt_of_not_le htimes)
          (Nat.lt_of_not_le hstill) fuel
        obtain ⟨out', hout', -⟩ := Exec.bind_eq_ok.1 (hstep.symm.trans hrun)
        exact @ih
          { c with reqs := Function.update c.reqs q.addr (some (q.node.handled now)) } _ fuel
          hframe (List.nodup_cons.1 hnodup).2 hlater out' hout'

/-- What a sweep makes of a waiting request sent fewer than five times. -/
def Waiting.handled (now : Int) (w : Waiting) : Waiting :=
  if now - w.sent > 1 then
    { w with sent := now, timesSent := if w.sent = 0 then 1 else w.timesSent + 1 }
  else w

/-- The request after a sweep. -/
def ReqCell.handled (now : Int) (q : ReqCell) : ReqCell := { q with node := q.node.handled now }

/-- A handled cell stands for the handled request. -/
theorem ReqCell.Stands.handled {q : ReqCell} {w : Waiting} (h : q.Stands w) (now : Int) :
    (q.handled now).Stands (w.handled now) := by
  obtain ⟨haddr, hip, hsent, htimes, hpackets⟩ := h
  unfold ReqCell.handled ArpReq.handled Waiting.handled
  rw [hsent]
  split
  · exact ⟨haddr, hip, rfl, by rw [htimes], hpackets⟩
  · exact ⟨haddr, hip, hsent, htimes, hpackets⟩

/-- The queue after a sweep that wrote all of its requests, and no other. -/
theorem ArpCache.Rep.handled {c : ArpCache} {queued detached : List ReqCell} {now : Int}
    (h : c.Rep queued detached) {reqs' : Addr → Option ArpReq}
    (hreqs : ∀ q ∈ queued, reqs' q.addr = some (q.node.handled now))
    (hother : ∀ b, b ∉ queued.map ReqCell.addr → reqs' b = c.reqs b) :
    ({ c with reqs := reqs' } : ArpCache).Rep (queued.map (ReqCell.handled now)) detached := by
  have hchain' : Chain ArpReq.next reqs' c.requests
      ((queued.map (ReqCell.handled now)).map ReqCell.cell) := by
    have hcells : ∀ cell ∈ queued.map ReqCell.cell,
        reqs' cell.1 = some (cell.2.handled now) := by
      intro cell hcell
      obtain ⟨q, hq, rfl⟩ := List.mem_map.1 hcell
      exact hreqs q hq
    have hmap := h.chain.map (fun req => (ArpReq.handled_frame now req).2.2) hcells
    rw [List.map_map] at hmap ⊢
    exact hmap
  have haddr : (queued.map (ReqCell.handled now) ++ detached).map ReqCell.addr =
      (queued ++ detached).map ReqCell.addr := by
    rw [List.map_append, List.map_append, List.map_map]
    rfl
  have hpackets : packetAddrs (queued.map (ReqCell.handled now) ++ detached) =
      packetAddrs (queued ++ detached) := by
    rw [packetAddrs, packetAddrs, List.flatMap_append, List.flatMap_append, List.flatMap_map]
    rfl
  have hdisjoint : ∀ q ∈ detached, q.addr ∉ queued.map ReqCell.addr := by
    have hnodup := h.live.nodup
    rw [List.map_append, List.nodup_append] at hnodup
    exact fun q hq hmem => hnodup.2.2 _ hmem _ (List.mem_map_of_mem hq) rfl
  refine ⟨hchain', ?_, ?_, haddr ▸ h.live.nodup, hpackets ▸ h.live.packets_nodup, ?_, ?_⟩
  · refine List.forall_mem_append.2 ⟨fun q' hq' => ?_, fun q hq => ?_⟩
    · obtain ⟨q, hq, rfl⟩ := List.mem_map.1 hq'
      exact hreqs q hq
    · exact (hother _ (hdisjoint q hq)).trans (h.live.stored q (List.mem_append_right _ hq))
  · refine List.forall_mem_append.2 ⟨fun q' hq' => ?_, fun q hq => ?_⟩
    · obtain ⟨q, hq, rfl⟩ := List.mem_map.1 hq'
      have hlinked := h.live.linked q (List.mem_append_left _ hq)
      rw [← (ArpReq.handled_frame now q.node).2.1] at hlinked
      exact hlinked
    · exact h.live.linked q (List.mem_append_right _ hq)
  · rw [List.length_append, List.length_map, ← List.length_append]
    exact h.live.length_le
  · refine List.forall_mem_append.2 ⟨fun q' hq' => ?_, fun q hq => ?_⟩
    · obtain ⟨q, hq, rfl⟩ := List.mem_map.1 hq'
      exact h.live.packets_le q (List.mem_append_left _ hq)
    · exact h.live.packets_le q (List.mem_append_right _ hq)

/-- The times and counts on the queue are those of the waiting requests. -/
theorem ArpCache.Holds.queuedReqs_sent {c : ArpCache} {waiting taken : List Waiting}
    (h : c.Holds waiting taken) :
    c.queuedReqs.map (fun req => (req.sent, req.timesSent)) =
      waiting.map fun w => (w.sent, w.timesSent) :=
  h.map_queuedReqs fun q w hqw => by rw [hqw.2.2.1, hqw.2.2.2.1]

/-- What a record of a sweep says of a request that waits on. -/
def Swept.outcome (s : Swept) : Addr × Handling × Bool := (s.addr, s.handling, s.destroyed)

/-- What a sweep does to the cells, in terms of the requests they stand for. -/
theorem outcome_swept {queued : List ReqCell} {waiting : List Waiting}
    (h : List.Forall₂ ReqCell.Stands queued waiting) (now : Int) :
    (queued.map (ReqCell.swept now)).map Swept.outcome = waiting.map fun w =>
      (w.addr, if now - w.sent > 1 then Handling.counted else Handling.notDue, false) := by
  induction h with
  | nil => rfl
  | cons hq _ ih =>
    obtain ⟨haddr, -, hsent, -, -⟩ := hq
    simp only [List.map_cons, ih, ReqCell.swept, Swept.outcome, ArpReq.handling, haddr, hsent]

/-- A sweep that finds no fifth send due handles each waiting request once and destroys none. -/
theorem arpcacheSweepreqs_spec {c : ArpCache} {waiting taken : List Waiting}
    (h : c.Holds waiting taken) {now : Int}
    (hless : ∀ w ∈ waiting, w.timesSent < 5 ∧ (w.handled now).timesSent < 5) :
    ∃ c' swept, (arpcacheSweepreqs c now : Exec Site _) = .ok (c', swept) ∧
      c'.Holds (waiting.map (Waiting.handled now)) taken ∧
      swept.map Swept.outcome = waiting.map fun w =>
        (w.addr, if now - w.sent > 1 then Handling.counted else Handling.notDue, false) := by
  obtain ⟨queued, detached, hrep, hqueued, hdetached⟩ := h
  have hless' : ∀ q ∈ queued, q.node.timesSent < 5 ∧ (q.node.handled now).timesSent < 5 := by
    intro q hq
    obtain ⟨w, hw, hqw⟩ := forall₂_mem_right hqueued.flip hq
    have htimes : q.node.timesSent = w.timesSent := hqw.2.2.2.1
    have hhandled : (q.node.handled now).timesSent = (w.handled now).timesSent :=
      (ReqCell.Stands.handled hqw now).2.2.2.1
    rw [htimes, hhandled]
    exact hless w hw
  obtain ⟨reqs', hrun, hhandled, hother⟩ :=
    @sweepFrom_ok Site c queued _ now _ hrep.chain hrep.nodup hless' hrep.length_le
  refine ⟨_, _, hrun, ⟨_, _, hrep.handled hhandled hother, ?_, hdetached⟩, ?_⟩
  · exact List.rel_map (fun q w hqw => hqw.handled now) hqueued
  · exact outcome_swept hqueued now

/-- A sweep that finds a request sent five times, or whose fifth send is due, does not return. -/
theorem arpcacheSweepreqs_ne_ok {c : ArpCache} {waiting taken : List Waiting}
    (h : c.Holds waiting taken) {now : Int}
    (hfull : ∃ w ∈ waiting, 5 ≤ w.timesSent ∨ 5 ≤ (w.handled now).timesSent)
    (out : ArpCache × List Swept) : (arpcacheSweepreqs c now : Exec Site _) ≠ .ok out := by
  obtain ⟨queued, detached, hrep, hqueued, hdetached⟩ := h
  refine sweepFrom_ne_ok hrep.chain hrep.nodup ?_ out
  obtain ⟨w, hw, hfull⟩ := hfull
  obtain ⟨q, hq, hqw⟩ := forall₂_mem_right hqueued hw
  have htimes : q.node.timesSent = w.timesSent := hqw.2.2.2.1
  have hhandled : (q.node.handled now).timesSent = (w.handled now).timesSent :=
    (hqw.handled now).2.2.2.1
  refine ⟨q, hq, ?_⟩
  rw [ArpReq.Full, htimes, hhandled]
  exact hfull

/-- A packet is queued, or the requests are swept at a time. -/
inductive SweepOp where
  | queuereq (ip : UInt32) (packet : Option (List UInt8)) (packetLen : Nat)
      (iface : Option (List UInt8)) (mem : QueueMem)
  | sweep (now : Int)
  deriving DecidableEq, Repr

/-- The cache, and what each sweep did with each request. -/
structure SweepRun where
  cache : ArpCache
  log : List (Int × Swept)

/-- An initialised cache, in any heaps. -/
def SweepRun.start (reqs : Addr → Option ArpReq) (pkts : Addr → Option SrPacket) : SweepRun :=
  ⟨arpcacheInit reqs pkts, []⟩

/-- The caller of `sr_arpcache_queuereq` passes a frame of the length it gives and a string, and the
allocator succeeds. -/
def SweepOp.Enabled (r : SweepRun) : SweepOp → Prop
  | .queuereq _ packet packetLen iface mem =>
    mem.Fresh r.cache packetLen ∧ (∀ block ∈ packet, packetLen ≤ block.length) ∧
      ∀ block ∈ iface, 0 ∈ block
  | .sweep _ => True

/-- Packets queued and sweeps, in any order and at any times. -/
def sweepMachine : Machine Empty SweepRun SweepOp where
  enabled := fun r op => op.Enabled r
  step := fun r op =>
    match op with
    | .queuereq ip packet packetLen iface mem => do
      let (cache, _) ← arpcacheQueuereq r.cache ip packet packetLen iface mem
      pure { r with cache }
    | .sweep now => do
      let (cache, swept) ← arpcacheSweepreqs r.cache now
      pure ⟨cache, r.log ++ swept.map fun s => (now, s)⟩

/-- The times at which a request was counted as sent. -/
def sendTimes (log : List (Int × Swept)) (a : Addr) : List Int :=
  (log.filter fun e => e.2.addr = a ∧ e.2.handling = .counted).map Prod.fst

/-- Each request is counted as sent at most five times, more than a second apart, and destroyed only
by a sweep that finds it sent five times, the last time more than a second ago. -/
def SweepRun.LifeCycle (r : SweepRun) : Prop :=
  (∀ a, (sendTimes r.log a).length ≤ 5 ∧ (sendTimes r.log a).IsChain fun t t' => t' - t > 1) ∧
    ∀ e ∈ r.log, e.2.destroyed = true →
      e.2.found.timesSent = 5 ∧ e.1 - e.2.found.sent > 1 ∧ e.2.handling = .gaveUp

/-- No sweep finds a request that was sent four times, the last time more than a second ago. -/
def SweepOp.NoFifth (r : SweepRun) : SweepOp → Prop
  | .queuereq _ _ _ _ _ => True
  | .sweep now => ∀ req ∈ r.cache.queuedReqs, ¬(req.timesSent = 4 ∧ now - req.sent > 1)

/-- The times of a request's sends agree with its fields. -/
structure SentAt (times : List Int) (sent : Int) (timesSent : Nat) : Prop where
  length_eq : times.length = timesSent
  last_eq : times.getLast?.getD 0 = sent
  gaps : times.IsChain fun t t' => t' - t > 1
  late : ∀ t ∈ times, 1 < t

/-- A time of 0 stands for a request never sent. -/
theorem SentAt.timesSent_eq_zero {times : List Int} {timesSent : Nat}
    (h : SentAt times 0 timesSent) : timesSent = 0 := by
  obtain ⟨rfl, hlast, -, hlate⟩ := h
  rcases List.eq_nil_or_concat' times with rfl | ⟨times, t, rfl⟩
  · rfl
  · have hzero : t = 0 := by simpa using hlast
    have hone : 1 < t := hlate t (by simp)
    omega

/-- The times at which a request was sent grow by the present one if it is sent. -/
theorem SentAt.handled {times : List Int} {w : Waiting} (h : SentAt times w.sent w.timesSent)
    (now : Int) :
    SentAt (times ++ if now - w.sent > 1 then [now] else []) (w.handled now).sent
      (w.handled now).timesSent := by
  unfold Waiting.handled
  by_cases hdue : now - w.sent > 1
  · rw [if_pos hdue, if_pos hdue]
    obtain ⟨hlength, hlast, hgaps, hlate⟩ := h
    rcases List.eq_nil_or_concat' times with rfl | ⟨times, t, rfl⟩
    · have hsent : w.sent = 0 := hlast.symm
      refine ⟨?_, rfl, List.isChain_singleton _, ?_⟩
      · simp [hsent]
      · simp only [List.nil_append, List.mem_singleton]
        rintro _ rfl
        omega
    · have hsent : t = w.sent := by simpa using hlast
      have hlate' : 1 < t := hlate t (by simp)
      refine ⟨?_, by simp, hgaps.append (List.isChain_singleton _) ?_, ?_⟩
      · rw [if_neg (by omega), ← hlength]
        simp
      · simp only [List.getLast?_concat, Option.mem_def, Option.some.injEq, List.head?_cons]
        rintro _ rfl _ rfl
        omega
      · simp only [List.forall_mem_append] at hlate ⊢
        refine ⟨hlate, ?_⟩
        simp only [List.mem_singleton]
        rintro _ rfl
        omega
  · rw [if_neg hdue, if_neg hdue, List.append_nil]
    exact h

/-- The requests are on the queue with the sends the log records, and none was destroyed. -/
def SweepRun.Inv (r : SweepRun) : Prop :=
  ∃ waiting, r.cache.Holds waiting [] ∧
    (∀ w ∈ waiting, w.timesSent < 5 ∧ SentAt (sendTimes r.log w.addr) w.sent w.timesSent) ∧
    (∀ a, a ∉ waiting.map Waiting.addr → sendTimes r.log a = []) ∧
    ∀ e ∈ r.log, e.2.destroyed = false

/-- The empty cache meets the invariant. -/
theorem SweepRun.inv_start (reqs : Addr → Option ArpReq) (pkts : Addr → Option SrPacket) :
    (SweepRun.start reqs pkts).Inv := by
  refine ⟨[], ⟨[], [], ⟨rfl, ?_⟩, .nil, .nil⟩, nofun, fun _ _ => rfl, nofun⟩
  exact ⟨nofun, nofun, List.nodup_nil, List.nodup_nil, Nat.zero_le _, nofun⟩

/-- The invariant gives every request its life cycle. -/
theorem SweepRun.Inv.lifeCycle {r : SweepRun} (h : r.Inv) : r.LifeCycle := by
  obtain ⟨waiting, -, hsent, hnone, hdestroyed⟩ := h
  refine ⟨fun a => ?_, fun e he hd => ?_⟩
  · by_cases ha : a ∈ waiting.map Waiting.addr
    · obtain ⟨w, hw, rfl⟩ := List.mem_map.1 ha
      obtain ⟨hless, hat⟩ := hsent w hw
      exact ⟨hat.length_eq.trans_le hless.le, hat.gaps⟩
    · rw [hnone a ha]
      exact ⟨Nat.zero_le _, List.isChain_nil⟩
  · exact absurd ((hdestroyed e he).symm.trans hd) Bool.false_ne_true

/-- The fifth send is due at a sweep exactly where a waiting request would be counted to five. -/
theorem noFifth_iff {c : ArpCache} {waiting : List Waiting} (h : c.Holds waiting []) {now : Int}
    (hsent : ∀ w ∈ waiting, w.timesSent < 5 ∧ ∃ times, SentAt times w.sent w.timesSent) :
    (∀ req ∈ c.queuedReqs, ¬(req.timesSent = 4 ∧ now - req.sent > 1)) ↔
      ∀ w ∈ waiting, (w.handled now).timesSent < 5 := by
  have hpairs : (∀ req ∈ c.queuedReqs, ¬(req.timesSent = 4 ∧ now - req.sent > 1)) ↔
      ∀ w ∈ waiting, ¬(w.timesSent = 4 ∧ now - w.sent > 1) := by
    have hall :=
      congrArg (fun l : List (Int × Nat) => ∀ x ∈ l, ¬(x.2 = 4 ∧ now - x.1 > 1)) h.queuedReqs_sent
    simpa using hall
  rw [hpairs]
  refine forall₂_congr fun w hw => ?_
  obtain ⟨hless, times, hat⟩ := hsent w hw
  unfold Waiting.handled
  by_cases hdue : now - w.sent > 1
  · rw [if_pos hdue]
    by_cases hzero : w.sent = 0
    · have hnever : w.timesSent = 0 := (hzero ▸ hat).timesSent_eq_zero
      simp [hzero, hnever]
    · simp only [hdue, and_true, if_neg hzero]
      omega
  · rw [if_neg hdue]
    exact iff_of_true (fun hfour => hdue hfour.2) hless

/-- Distinct keys leave one element to a key. -/
theorem filter_key_eq {α κ : Type} [DecidableEq κ] {key : α → κ} {l : List α}
    (h : (l.map key).Nodup) {a : α} (ha : a ∈ l) : l.filter (fun b => key b = key a) = [a] := by
  induction l with
  | nil => exact absurd ha List.not_mem_nil
  | cons b l ih =>
    obtain ⟨hnot, hnodup⟩ := List.nodup_cons.1 h
    rcases List.mem_cons.1 ha with rfl | ha
    · have hrest : l.filter (fun b => key b = key a) = [] := by
        refine List.filter_eq_nil_iff.2 fun b hb hkey => hnot ?_
        exact of_decide_eq_true hkey ▸ List.mem_map_of_mem hb
      rw [List.filter_cons_of_pos (by simp), hrest]
    · have hne : ¬key b = key a := fun hkey => hnot (hkey ▸ List.mem_map_of_mem ha)
      rw [List.filter_cons_of_neg (by simpa using hne), ih hnodup ha]

/-- The sends of one sweep, read off the waiting requests. -/
theorem sendTimes_swept {waiting : List Waiting} {swept : List Swept} {now : Int}
    (hout : swept.map Swept.outcome = waiting.map fun w =>
      (w.addr, if now - w.sent > 1 then Handling.counted else Handling.notDue, false)) (a : Addr) :
    sendTimes (swept.map fun s => (now, s)) a =
      (waiting.filter fun w => w.addr = a ∧ now - w.sent > 1).map fun _ => now := by
  have hswept : sendTimes (swept.map fun s => (now, s)) a =
      ((swept.map Swept.outcome).filter fun o => o.1 = a ∧ o.2.1 = .counted).map fun _ => now := by
    rw [sendTimes, List.filter_map, List.filter_map, List.map_map, List.map_map]
    rfl
  rw [hswept, hout, List.filter_map, List.map_map]
  congr 2
  funext w
  by_cases hdue : now - w.sent > 1 <;> simp [hdue]

/-- What a sweep adds to the sends of an address. -/
theorem sendTimes_append {log : List (Int × Swept)} {waiting : List Waiting} {swept : List Swept}
    {now : Int} (hout : swept.map Swept.outcome = waiting.map fun w =>
      (w.addr, if now - w.sent > 1 then Handling.counted else Handling.notDue, false))
    (hnodup : (waiting.map Waiting.addr).Nodup) :
    (∀ w ∈ waiting, sendTimes (log ++ swept.map fun s => (now, s)) w.addr =
      sendTimes log w.addr ++ if now - w.sent > 1 then [now] else []) ∧
    ∀ a, a ∉ waiting.map Waiting.addr →
      sendTimes (log ++ swept.map fun s => (now, s)) a = sendTimes log a := by
  have happend : ∀ a, sendTimes (log ++ swept.map fun s => (now, s)) a =
      sendTimes log a ++
        (waiting.filter fun w => w.addr = a ∧ now - w.sent > 1).map fun _ => now := by
    intro a
    rw [← sendTimes_swept hout, sendTimes, List.filter_append, List.map_append]
    rfl
  refine ⟨fun w hw => ?_, fun a ha => ?_⟩
  · have hfilter : (waiting.filter fun w' => w'.addr = w.addr ∧ now - w'.sent > 1) =
        (waiting.filter fun w' => w'.addr = w.addr).filter fun w' => now - w'.sent > 1 := by
      rw [List.filter_filter]
      congr 1
      funext w'
      simp [Bool.and_comm]
    rw [happend, hfilter, filter_key_eq hnodup hw]
    by_cases hdue : now - w.sent > 1 <;> simp [hdue]
  · have hnone : (waiting.filter fun w => w.addr = a ∧ now - w.sent > 1) = [] := by
      refine List.filter_eq_nil_iff.2 fun w hw hsame => ha ?_
      exact (of_decide_eq_true hsame).1 ▸ List.mem_map_of_mem hw
    rw [happend, hnone, List.map_nil, List.append_nil]

/-- Queueing a packet changes no request's sends; a new request has none. -/
theorem Waiting.mem_push {ws : List Waiting} {ip : UInt32} {packet : Option QueuedPacket}
    {fresh : Addr} {w : Waiting} (hw : w ∈ push ip packet fresh ws) :
    (∃ w' ∈ ws, w'.addr = w.addr ∧ w'.sent = w.sent ∧ w'.timesSent = w.timesSent) ∨
      (w.addr = fresh ∧ w.sent = 0 ∧ w.timesSent = 0) := by
  unfold push at hw
  split at hw
  · have hmem := List.mem_map_of_mem (f := fun w => (w.addr, w.sent, w.timesSent)) hw
    rw [map_addTo fun _ _ => rfl] at hmem
    obtain ⟨w', hw', heq⟩ := List.mem_map.1 hmem
    simp only [Prod.mk.injEq] at heq
    exact .inl ⟨w', hw', heq⟩
  · rcases List.mem_cons.1 hw with rfl | hw
    · exact .inr ⟨rfl, rfl, rfl⟩
    · exact .inl ⟨w, hw, rfl, rfl, rfl⟩

/-- No request leaves the queue when a packet is queued. -/
theorem Waiting.mem_addr_push {ws : List Waiting} (ip : UInt32) (packet : Option QueuedPacket)
    (fresh : Addr) {a : Addr} (ha : a ∈ ws.map Waiting.addr) :
    a ∈ (push ip packet fresh ws).map Waiting.addr := by
  unfold push
  split
  · rw [map_addTo fun _ _ => rfl]
    exact ha
  · exact List.mem_cons_of_mem _ ha

/-- An unused address is that of no request. -/
theorem ArpCache.Holds.addr_notMem {c : ArpCache} {waiting taken : List Waiting}
    (h : c.Holds waiting taken) {a : Addr} (ha : c.reqs a = none) :
    a ∉ waiting.map Waiting.addr := by
  obtain ⟨queued, detached, hrep, hqueued, -⟩ := h
  rw [map_addr_of_stands hqueued]
  intro hmem
  obtain ⟨q, hq, heq⟩ := List.mem_map.1 hmem
  exact hrep.live.addr_ne_of_fresh ha (List.mem_append_left _ hq) heq

/-- Queueing a packet preserves the invariant. -/
theorem SweepRun.Inv.queuereq {r : SweepRun} (h : r.Inv) {ip : UInt32}
    {packet : Option (List UInt8)} {packetLen : Nat} {iface : Option (List UInt8)} {mem : QueueMem}
    (henabled : (SweepOp.queuereq ip packet packetLen iface mem).Enabled r) :
    ∃ r', sweepMachine.step r (.queuereq ip packet packetLen iface mem) = .ok r' ∧ r'.Inv := by
  obtain ⟨waiting, hholds, hsent, hnone, hdestroyed⟩ := h
  obtain ⟨hmem, hpacket, hiface⟩ := henabled
  obtain ⟨c', a, hrun, hholds', -⟩ :=
    @arpcacheQueuereq_spec Empty _ _ _ hholds ip _ _ _ _ hmem hpacket hiface
  have hfresh : mem.req.getD 0 ∉ waiting.map Waiting.addr := by
    obtain ⟨⟨a, ha, hfree⟩, -⟩ := hmem
    rw [Option.mem_def.1 ha]
    exact hholds.addr_notMem hfree
  refine ⟨{ r with cache := c' }, ?_, _, hholds', fun w hw => ?_, fun a ha => ?_, hdestroyed⟩
  · simp only [sweepMachine, hrun, Exec.ok_bind, Exec.pure_eq_ok]
  · rcases Waiting.mem_push hw with ⟨w', hw', haddr, hsent', htimes⟩ | ⟨haddr, hsent', htimes⟩
    · rw [← haddr, ← hsent', ← htimes]
      exact hsent w' hw'
    · rw [haddr, hsent', htimes]
      refine ⟨by decide, ?_⟩
      rw [hnone _ hfresh]
      exact ⟨rfl, rfl, List.isChain_nil, nofun⟩
  · exact hnone a fun hmem => ha (Waiting.mem_addr_push _ _ _ hmem)

theorem Waiting.handled_addr (now : Int) (w : Waiting) : (w.handled now).addr = w.addr := by
  unfold handled
  split
  · rfl
  · rfl

/-- A sweep that reaches no fifth sending preserves the invariant. -/
theorem SweepRun.Inv.sweep {r : SweepRun} (h : r.Inv) {now : Int}
    (hcond : (SweepOp.sweep now).NoFifth r) :
    ∃ r', sweepMachine.step r (.sweep now) = .ok r' ∧ r'.Inv := by
  obtain ⟨waiting, hholds, hsent, hnone, hdestroyed⟩ := h
  have hless := (noFifth_iff hholds fun w hw => ⟨(hsent w hw).1, _, (hsent w hw).2⟩).1 hcond
  obtain ⟨c', swept, hrun, hholds', hout⟩ :=
    @arpcacheSweepreqs_spec Empty _ _ _ hholds now fun w hw => ⟨(hsent w hw).1, hless w hw⟩
  have hnodup : (waiting.map Waiting.addr).Nodup := by
    simpa using hholds.nodup_addr
  obtain ⟨hadd, hsame⟩ := @sendTimes_append r.log _ _ _ hout hnodup
  have haddr : (waiting.map (Waiting.handled now)).map Waiting.addr = waiting.map Waiting.addr := by
    rw [List.map_map]
    exact List.map_congr_left fun w _ => w.handled_addr now
  refine ⟨⟨c', r.log ++ swept.map fun s => (now, s)⟩, ?_, _, hholds', ?_, fun a ha => ?_, ?_⟩
  · simp only [sweepMachine, hrun, Exec.ok_bind, Exec.pure_eq_ok]
  · intro w' hw'
    obtain ⟨w, hw, rfl⟩ := List.mem_map.1 hw'
    refine ⟨hless w hw, ?_⟩
    rw [w.handled_addr now, hadd w hw]
    exact (hsent w hw).2.handled now
  · rw [haddr] at ha
    rw [hsame a ha]
    exact hnone a ha
  · refine List.forall_mem_append.2 ⟨hdestroyed, fun e he => ?_⟩
    obtain ⟨s, hs, rfl⟩ := List.mem_map.1 he
    have hmem : s.outcome ∈ swept.map Swept.outcome := List.mem_map_of_mem hs
    rw [hout] at hmem
    obtain ⟨w, -, heq⟩ := List.mem_map.1 hmem
    exact (congrArg (fun o => o.2.2) heq).symm

/-- A sweep returns exactly where no fifth send is due. -/
theorem SweepRun.Inv.sweep_iff {r : SweepRun} (h : r.Inv) (now : Int) :
    (∃ r', sweepMachine.step r (.sweep now) = .ok r') ↔ (SweepOp.sweep now).NoFifth r := by
  refine ⟨fun hstep => ?_, fun hcond => ?_⟩
  · obtain ⟨waiting, hholds, hsent, -, -⟩ := h
    refine (noFifth_iff hholds fun w hw => ⟨(hsent w hw).1, _, (hsent w hw).2⟩).2 ?_
    by_contra hfive
    push Not at hfive
    obtain ⟨w, hw, hfive⟩ := hfive
    obtain ⟨r', hstep⟩ := hstep
    obtain ⟨out, hrun, -⟩ := Exec.bind_eq_ok.1 hstep
    exact arpcacheSweepreqs_ne_ok hholds ⟨w, hw, Or.inr hfive⟩ out hrun
  · obtain ⟨r', hstep, -⟩ := h.sweep hcond
    exact ⟨r', hstep⟩

/-- A step that returns keeps the invariant. -/
theorem SweepRun.Inv.step {r r' : SweepRun} (h : r.Inv) {op : SweepOp} (henabled : op.Enabled r)
    (hstep : sweepMachine.step r op = .ok r') : r'.Inv := by
  cases op with
  | queuereq ip packet packetLen iface mem =>
    obtain ⟨r₁, hstep₁, hinv⟩ := h.queuereq henabled
    exact Except.ok.inj (hstep₁.symm.trans hstep) ▸ hinv
  | sweep now =>
    obtain ⟨r₁, hstep₁, hinv⟩ := h.sweep ((h.sweep_iff now).1 ⟨r', hstep⟩)
    exact Except.ok.inj (hstep₁.symm.trans hstep) ▸ hinv

instance SweepOp.decidableEnabled (r : SweepRun) : (op : SweepOp) → Decidable (op.Enabled r)
  | .queuereq _ packet packetLen iface mem =>
    inferInstanceAs (Decidable (mem.Fresh r.cache packetLen ∧
      (∀ block ∈ packet, packetLen ≤ block.length) ∧ ∀ block ∈ iface, 0 ∈ block))
  | .sweep _ => instDecidableTrue

instance sweepMachine_decidableEnabled (r : SweepRun) (op : SweepOp) :
    Decidable (sweepMachine.enabled r op) :=
  inferInstanceAs (Decidable (op.Enabled r))

/-- In every run of sweeps, at any times, each request is counted as sent at most five times, more
than a second apart, and destroyed only by a sweep that gives it up, exactly when no sweep finds a
request that was sent four times and is due again. -/
theorem arpreq_lifeCycle_iff (reqs : Addr → Option ArpReq) (pkts : Addr → Option SrPacket)
    {ops : List SweepOp} (hops : sweepMachine.Admissible (SweepRun.start reqs pkts) ops) :
    (∃ r, sweepMachine.run (SweepRun.start reqs pkts) ops = .ok r ∧ r.LifeCycle) ↔
      (sweepMachine.restrict fun r op => op.NoFifth r).Admissible
        (SweepRun.start reqs pkts) ops := by
  have hinv := SweepRun.inv_start reqs pkts
  refine @Machine.run_good_iff _ _ _ sweepMachine SweepRun.Inv (fun r op => op.NoFifth r)
    (fun out => ∃ r, out = .ok r ∧ r.LifeCycle) ?_ ?_ ?_ _ hinv ⟨_, rfl, hinv.lifeCycle⟩ _ hops
  · exact fun r op r' hr henabled hstep => hr.step henabled hstep
  · rintro r op hr - henabled
    have hreturns : (∃ r', sweepMachine.step r op = .ok r') ↔ op.NoFifth r := by
      cases op with
      | queuereq ip packet packetLen iface mem =>
        obtain ⟨r', hstep, -⟩ := hr.queuereq henabled
        exact iff_of_true ⟨r', hstep⟩ trivial
      | sweep now => exact hr.sweep_iff now
    rw [← hreturns]
    exact exists_congr fun r' => and_iff_left_of_imp fun hstep => (hr.step henabled hstep).lifeCycle
  · exact fun r op hr hbad => absurd ⟨r, rfl, hr.lifeCycle⟩ hbad

/-- A packet of one byte queued for an address, with the addresses of its nodes. -/
def queueByte (ip : UInt32) (req pkt : Addr) : SweepOp :=
  .queuereq ip (some [1]) 1 (some [101, 0])
    ⟨some req, some pkt, some [0], some (List.replicate 32 0)⟩

/-- Sweeps every second of two requests; the first sweep of each counts, and then every other. -/
theorem arpreq_lifeCycle_sample :
    (∃ r, sweepMachine.run (SweepRun.start (fun _ => none) fun _ => none)
        [queueByte 7 1 1, .sweep 10, .sweep 11, queueByte 8 2 2, .sweep 12, .sweep 14,
          .sweep 16] = .ok r ∧ r.LifeCycle) ↔
      (sweepMachine.restrict fun r op => op.NoFifth r).Admissible
        (SweepRun.start (fun _ => none) fun _ => none)
        [queueByte 7 1 1, .sweep 10, .sweep 11, queueByte 8 2 2, .sweep 12, .sweep 14, .sweep 16] :=
  arpreq_lifeCycle_iff _ _ (by decide +kernel)

/-- The run before the fifth send of a request. -/
def fourSends : List SweepOp :=
  [queueByte 7 1 1, .sweep 10, .sweep 12, .sweep 14, .sweep 16]

/-- At the fifth send `handle_arpreq` only counts the request, which was found sent four times; the
sweep destroys it in the same round and reads it afterwards. -/
theorem destroyed_at_fifth_send :
    sweepMachine.Admissible (SweepRun.start (fun _ => none) fun _ => none)
        (fourSends ++ [.sweep 18]) ∧
      sweepMachine.run (SweepRun.start (fun _ => none) fun _ => none)
        (fourSends ++ [.sweep 18]) = .error .dangling ∧
      ∃ r, sweepMachine.run (SweepRun.start (fun _ => none) fun _ => none) fourSends = .ok r ∧
        r.cache.requests = some 1 ∧ r.cache.reqs 1 = some ⟨7, 16, 4, some 1, none⟩ ∧
        ∃ c, (handleArpreq r.cache 1 18 : Exec Empty _) = .ok (c, .counted) ∧
          c.reqs 1 = some ⟨7, 18, 5, some 1, none⟩ ∧
          ∃ c', (arpreqDestroy c (some 1) : Exec Empty _) = .ok c' ∧ c'.requests = none ∧
            c'.reqs 1 = none := by
  refine ⟨by decide +kernel, rfl, _, rfl, rfl, rfl, _, rfl, rfl, _, rfl, rfl, rfl⟩

end ComputerNetworks.Router
