import ComputerNetworks.Router.ArpSweep
import ComputerNetworks.Router.IpPath

/-!
# Two walks over the request queue

`sr_arpcache_sweepreqs` destroys the request it stands on and goes on from there;
the search of `sr_handlepacket` for a pending request never leaves the first one.
Each walk is described on every queue, with the requests on which it is right.
-/

namespace ComputerNetworks.Router

variable {Site : Type}

/-- A waiting request after one call of `handle_arpreq`, which leaves one sent five times as
it is. -/
def Waiting.visited (now : Int) (w : Waiting) : Waiting :=
  if w.timesSent < 5 then w.handled now else w

/-- Of the requests sent fewer than five times the one whose fifth send is due reaches five. -/
theorem Waiting.visited_less_iff (now : Int) (w : Waiting) :
    (w.visited now).timesSent < 5 ↔
      w.timesSent < 4 ∨ (w.timesSent = 4 ∧ (w.sent = 0 ∨ now - w.sent ≤ 1)) := by
  unfold visited handled
  by_cases htimes : w.timesSent < 5
  · rw [if_pos htimes]
    by_cases hdue : now - w.sent > 1
    · rw [if_pos hdue]
      by_cases hzero : w.sent = 0
      · simp only [if_pos hzero]
        omega
      · simp only [if_neg hzero]
        omega
    · rw [if_neg hdue]
      omega
  · rw [if_neg htimes]
    omega

/-- A visit below the fifth sending is one of the sweep. -/
theorem Waiting.visited_of_less {now : Int} {w : Waiting} (h : (w.visited now).timesSent < 5) :
    w.visited now = w.handled now ∧ w.timesSent < 5 := by
  by_cases htimes : w.timesSent < 5
  · exact ⟨if_pos htimes, htimes⟩
  · rw [visited, if_neg htimes] at h
    exact absurd h htimes

/-- A sweep calls `handle_arpreq` once on each queued request, in order, and leaves those whose
count is then below five with their packets, exactly when no request was sent five times and none
has its fifth send due. -/
theorem arpcacheSweepreqs_once_iff {c : ArpCache} {waiting taken : List Waiting}
    (h : c.Holds waiting taken) (now : Int) :
    (∃ c' swept, (arpcacheSweepreqs c now : Exec Site _) = .ok (c', swept) ∧
        swept.map Swept.addr = waiting.map Waiting.addr ∧
        c'.Holds ((waiting.map (Waiting.visited now)).filter fun w => w.timesSent < 5) taken) ↔
      ∀ w ∈ waiting, w.timesSent < 4 ∨ (w.timesSent = 4 ∧ (w.sent = 0 ∨ now - w.sent ≤ 1)) := by
  have hcond : (∀ w ∈ waiting, w.timesSent < 4 ∨
      (w.timesSent = 4 ∧ (w.sent = 0 ∨ now - w.sent ≤ 1))) ↔
      ∀ w ∈ waiting, (w.visited now).timesSent < 5 :=
    forall₂_congr fun w _ => (w.visited_less_iff now).symm
  rw [hcond]
  refine ⟨?_, fun hless => ?_⟩
  · rintro ⟨c', swept, hrun, -, -⟩
    by_contra hfull
    push Not at hfull
    obtain ⟨w, hw, hfive⟩ := hfull
    refine arpcacheSweepreqs_ne_ok h ⟨w, hw, ?_⟩ _ hrun
    by_cases htimes : w.timesSent < 5
    · rw [Waiting.visited, if_pos htimes] at hfive
      exact .inr hfive
    · exact .inl (Nat.le_of_not_lt htimes)
  · obtain ⟨c', swept, hrun, hholds, hout⟩ := @arpcacheSweepreqs_spec Site _ _ _ h now
      fun w hw => by
        obtain ⟨heq, htimes⟩ := Waiting.visited_of_less (hless w hw)
        exact ⟨htimes, heq ▸ hless w hw⟩
    refine ⟨c', swept, hrun, ?_, ?_⟩
    · have haddr := congrArg (List.map Prod.fst) hout
      rw [List.map_map, List.map_map] at haddr
      exact haddr
    · have hvisited : waiting.map (Waiting.visited now) = waiting.map (Waiting.handled now) :=
        List.map_congr_left fun w hw => (Waiting.visited_of_less (hless w hw)).1
      have hall : (waiting.map (Waiting.visited now)).filter (fun w => w.timesSent < 5) =
          waiting.map (Waiting.visited now) := by
        refine List.filter_eq_self.2 fun w hw => ?_
        obtain ⟨w', hw', rfl⟩ := List.mem_map.1 hw
        exact decide_eq_true (hless w' hw')
      rw [hall, hvisited]
      exact hholds

/-- Requests at the addresses 1, 2 and 3, in this order, without packets. -/
def queueOfThree (sent : Int) (first second third : UInt32 × Nat) : ArpCache :=
  { arpcacheInit
      (fun a =>
        if a = 1 then some ⟨first.1, sent, first.2, none, some 2⟩
        else if a = 2 then some ⟨second.1, sent, second.2, none, some 3⟩
        else if a = 3 then some ⟨third.1, sent, third.2, none, none⟩
        else none)
      (fun _ => none) with requests := some 1, nodes := 3 }

/-- The cells of the queue below hold its three requests. -/
theorem queueOfThree_holds (sent : Int) (first second third : UInt32 × Nat) :
    (queueOfThree sent first second third).Holds
      [⟨1, first.1, sent, first.2, []⟩, ⟨2, second.1, sent, second.2, []⟩,
        ⟨3, third.1, sent, third.2, []⟩] [] := by
  refine ⟨[⟨1, ⟨first.1, sent, first.2, none, some 2⟩, []⟩,
    ⟨2, ⟨second.1, sent, second.2, none, some 3⟩, []⟩,
    ⟨3, ⟨third.1, sent, third.2, none, none⟩, []⟩], [],
    ⟨⟨rfl, rfl, rfl, rfl, rfl, rfl, rfl⟩, ?_⟩, ?_, .nil⟩
  · refine ⟨?_, ?_, ?_, List.nodup_nil, le_rfl, ?_⟩
    · simp [queueOfThree, arpcacheInit]
    · simp [Chain]
    · simp
    · simp [queueOfThree]
  · exact .cons ⟨rfl, rfl, rfl, rfl, .nil⟩ (.cons ⟨rfl, rfl, rfl, rfl, .nil⟩
      (.cons ⟨rfl, rfl, rfl, rfl, .nil⟩ .nil))

/-- Counts of 1, 4 and 2 at a time when no send is due. -/
theorem arpcacheSweepreqs_once_sample :
    (∃ c' swept, (arpcacheSweepreqs (queueOfThree 10 (7, 1) (8, 4) (9, 2)) 11 : Exec Empty _) =
          .ok (c', swept) ∧ swept.map Swept.addr = [1, 2, 3] ∧
        c'.Holds (([⟨1, 7, 10, 1, []⟩, ⟨2, 8, 10, 4, []⟩, ⟨3, 9, 10, 2, []⟩].map
          (Waiting.visited 11)).filter fun w => w.timesSent < 5) []) ↔
      ∀ w ∈ [(⟨1, 7, 10, 1, []⟩ : Waiting), ⟨2, 8, 10, 4, []⟩, ⟨3, 9, 10, 2, []⟩],
        w.timesSent < 4 ∨ (w.timesSent = 4 ∧ (w.sent = 0 ∨ (11 : Int) - w.sent ≤ 1)) :=
  arpcacheSweepreqs_once_iff (queueOfThree_holds 10 (7, 1) (8, 4) (9, 2)) 11

/-- The fifth send of the second request of three is due. `sr_arpreq_destroy` frees the request, the
sweep reads its link afterwards, and the third request is not handled. -/
theorem sweep_reads_destroyed :
    (queueOfThree 10 (7, 1) (8, 4) (9, 2)).Holds
        [⟨1, 7, 10, 1, []⟩, ⟨2, 8, 10, 4, []⟩, ⟨3, 9, 10, 2, []⟩] [] ∧
      (arpcacheSweepreqs (queueOfThree 10 (7, 1) (8, 4) (9, 2)) 12 : Exec Empty _) =
        .error .dangling ∧
      ¬∃ c' swept, (arpcacheSweepreqs (queueOfThree 10 (7, 1) (8, 4) (9, 2)) 12 : Exec Empty _) =
        .ok (c', swept) := by
  have hrun : (arpcacheSweepreqs (queueOfThree 10 (7, 1) (8, 4) (9, 2)) 12 : Exec Empty _) =
      .error .dangling := by rfl
  refine ⟨queueOfThree_holds 10 (7, 1) (8, 4) (9, 2), hrun, ?_⟩
  rintro ⟨c', swept, hok⟩
  exact nomatch hrun.symm.trans hok

/-- A request for the address ends the search. -/
theorem searchPending_hit {reqs : Addr → Option ArpReq} {a : Addr} {req : ArpReq} {dest : UInt32}
    (h : reqs a = some req) (hdest : req.ip = dest) (fuel : Nat) :
    searchPending reqs dest (fuel + 1) (some a) = .ok (some a) := by
  rw [searchPending, deref_some h, Exec.ok_bind, if_pos hdest]
  rfl

/-- At a request for another address the search stays for ever. -/
theorem searchPending_stays {reqs : Addr → Option ArpReq} {a : Addr} {req : ArpReq} {dest : UInt32}
    (h : reqs a = some req) (hdest : req.ip ≠ dest) (fuel : Nat) :
    searchPending reqs dest fuel (some a) = .error .outOfFuel := by
  induction fuel with
  | zero => rfl
  | succ fuel ih => rw [searchPending, deref_some h, Exec.ok_bind, if_neg hdest, ih]

/-- Where no entry of the cache is for the destination, the search decides between the two paths. -/
theorem forwardTo_of_miss {sr : SrInstance} {packet : List UInt8} (hlength : 34 ≤ packet.length)
    (hmiss : arpcacheLookup sr.cache (word32 packet 30) = none) (loc : Locals) (route : SrRt)
    (mem : HandleMem) (now : Int) :
    forwardTo loc sr packet route mem now =
      (searchPending sr.cache.reqs route.dest (sr.cache.nodes + 1)
        sr.cache.requests >>= fun found =>
        found.elim (newPending loc sr packet mem now)
          fun a => joinPending loc sr packet a mem now) := by
  have hdst : (load32 packet 30 : Exec RouterAssert UInt32) = .ok (word32 packet 30) :=
    loadField_of_le (by omega)
  rw [forwardTo, hdst, Exec.ok_bind, hmiss]
  refine bind_congr fun found => ?_
  cases found <;> rfl

/-- The search ends with the request for the next hop, or with none where none is for it. -/
def FindsPending (sr : SrInstance) (route : SrRt) (waiting : List Waiting) (hop : UInt32)
    (found : Option Addr) : Prop :=
  (∃ fuel, searchPending sr.cache.reqs route.dest fuel sr.cache.requests = .ok found) ∧
    (found ≠ none ↔ ∃ w ∈ waiting, w.ip = hop) ∧
    ∀ a ∈ found, ∃ w ∈ waiting, w.addr = a ∧ w.ip = hop

/-- The search finds the request for the next hop only in the first place of the queue, and only
where the next hop is the destination of the route. -/
theorem FindsPending.head {sr : SrInstance} {waiting taken : List Waiting}
    (h : sr.cache.Holds waiting taken) {route : SrRt} {hop : UInt32} {found : Option Addr}
    (hfinds : FindsPending sr route waiting hop found) :
    ∀ w ∈ waiting.head?, w.ip = route.dest ∧ w.ip = hop := by
  obtain ⟨⟨fuel, hsearch⟩, -, hfound⟩ := hfinds
  have hnodup := h.nodup_addr
  rw [List.map_append] at hnodup
  obtain ⟨queued, detached, hrep, hqueued, -⟩ := h
  cases hqueued with
  | nil => exact nofun
  | @cons q w queued ws hq _ =>
    obtain ⟨hrequests, hnode, -⟩ := hrep.chain
    have hrequests' : sr.cache.requests = some q.addr := hrequests
    rw [hrequests'] at hsearch
    rintro _ ⟨⟩
    by_cases hdest : q.node.ip = route.dest
    · cases fuel with
      | zero => cases hsearch
      | succ fuel =>
        rw [searchPending_hit hnode hdest] at hsearch
        cases hsearch
        obtain ⟨w', hw', haddr, hhop⟩ := hfound _ rfl
        have hsame : w' = w :=
          List.inj_on_of_nodup_map hnodup.of_append_left hw' List.mem_cons_self (haddr.trans hq.1)
        exact ⟨hq.2.1 ▸ hdest, hsame ▸ hhop⟩
    · rw [searchPending_stays hnode hdest] at hsearch
      cases hsearch

/-- On a cache miss the search ends, takes the path of a pending request exactly where one is for
the next hop, and finds that one, exactly when the queue is empty or its first request is for both
the next hop and the destination of the route. -/
theorem pendingSearch_iff {sr : SrInstance} {waiting taken : List Waiting}
    (h : sr.cache.Holds waiting taken) {packet : List UInt8} (hlength : 34 ≤ packet.length)
    (hmiss : arpcacheLookup sr.cache (word32 packet 30) = none) (loc : Locals) (route : SrRt)
    (mem : HandleMem) (now : Int) (hop : UInt32) :
    (∃ found, FindsPending sr route waiting hop found ∧
        forwardTo loc sr packet route mem now =
          found.elim (newPending loc sr packet mem now)
            fun a => joinPending loc sr packet a mem now) ↔
      ∀ w ∈ waiting.head?, w.ip = route.dest ∧ w.ip = hop := by
  rw [forwardTo_of_miss hlength hmiss]
  refine ⟨fun ⟨found, hfinds, _⟩ => hfinds.head h, fun hhead => ?_⟩
  obtain ⟨queued, detached, hrep, hqueued, -⟩ := h
  cases hqueued with
  | nil =>
    have hempty : sr.cache.requests = none := hrep.chain
    have hsearch : ∀ fuel,
        searchPending sr.cache.reqs route.dest fuel sr.cache.requests = .ok none := by
      intro fuel
      rw [hempty]
      cases fuel <;> rfl
    refine ⟨none, ⟨⟨0, hsearch 0⟩, by simp, nofun⟩, ?_⟩
    rw [hsearch, Exec.ok_bind]
  | @cons q w queued ws hq _ =>
    obtain ⟨hrequests, hnode, -⟩ := hrep.chain
    have hrequests' : sr.cache.requests = some q.addr := hrequests
    obtain ⟨hdest, hhop⟩ := hhead w rfl
    have hsearch := fun fuel => searchPending_hit hnode (hq.2.1.trans hdest) fuel
    refine ⟨some q.addr, ⟨⟨1, hrequests' ▸ hsearch 0⟩, ?_, ?_⟩, ?_⟩
    · exact iff_of_true nofun ⟨w, List.mem_cons_self, hhop⟩
    · rintro _ ⟨⟩
      exact ⟨w, List.mem_cons_self, hq.1.symm, hhop⟩
    · have hsearch' : searchPending sr.cache.reqs route.dest (sr.cache.nodes + 1)
          (some q.addr) = .ok (some q.addr) := hsearch sr.cache.nodes
      rw [hrequests', hsearch', Exec.ok_bind]

/-- A router with three pending requests, and a route to the host the datagram is for. -/
def pendingRouter (first second third : UInt32 × Nat) : SrInstance :=
  { sampleRouter with cache := queueOfThree 10 first second third }

/-- The request for the host stands in the first place. -/
theorem pendingSearch_iff_sample :
    (∃ found, FindsPending (pendingRouter (0x0900000a, 1) (8, 4) (9, 2))
          ⟨0x0900000a, 0x0900000a, 0xffffffff, ethName 1⟩
          [⟨1, 0x0900000a, 10, 1, []⟩, ⟨2, 8, 10, 4, []⟩, ⟨3, 9, 10, 2, []⟩] 0x0900000a found ∧
        forwardTo .declared (pendingRouter (0x0900000a, 1) (8, 4) (9, 2)) frameToForward
            ⟨0x0900000a, 0x0900000a, 0xffffffff, ethName 1⟩ ⟨none, none, none⟩ 12 =
          found.elim
            (newPending .declared (pendingRouter (0x0900000a, 1) (8, 4) (9, 2)) frameToForward
              ⟨none, none, none⟩ 12)
            fun a => joinPending .declared (pendingRouter (0x0900000a, 1) (8, 4) (9, 2))
              frameToForward a ⟨none, none, none⟩ 12) ↔
      ∀ w ∈ [(⟨1, 0x0900000a, 10, 1, []⟩ : Waiting), ⟨2, 8, 10, 4, []⟩, ⟨3, 9, 10, 2, []⟩].head?,
        w.ip = 0x0900000a ∧ w.ip = 0x0900000a :=
  pendingSearch_iff (queueOfThree_holds 10 (0x0900000a, 1) (8, 4) (9, 2)) (by decide +kernel)
    (by decide +kernel) _ _ _ _ _

/-- With the request for the host in the second place the search never ends. -/
theorem pendingSearch_stays :
    (pendingRouter (8, 4) (0x0900000a, 1) (9, 2)).cache.Holds
        [⟨1, 8, 10, 4, []⟩, ⟨2, 0x0900000a, 10, 1, []⟩, ⟨3, 9, 10, 2, []⟩] [] ∧
      word32 frameToForward 30 = 0x0900000a ∧
      arpcacheLookup (pendingRouter (8, 4) (0x0900000a, 1) (9, 2)).cache 0x0900000a = none ∧
      ∀ fuel, searchPending (pendingRouter (8, 4) (0x0900000a, 1) (9, 2)).cache.reqs 0x0900000a fuel
        (pendingRouter (8, 4) (0x0900000a, 1) (9, 2)).cache.requests = .error .outOfFuel := by
  have hfirst : (pendingRouter (8, 4) (0x0900000a, 1) (9, 2)).cache.reqs 1 =
      some ⟨8, 10, 4, none, some 2⟩ := rfl
  exact ⟨queueOfThree_holds 10 (8, 4) (0x0900000a, 1) (9, 2), by decide +kernel,
    by decide +kernel, searchPending_stays hfirst (by decide)⟩

end ComputerNetworks.Router
