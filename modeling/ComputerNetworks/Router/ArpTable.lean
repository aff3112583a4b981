import ComputerNetworks.Core.Machine
import ComputerNetworks.Router.ArpCache

/-!
# The ARP table over time

Inserts fill the first free slot, sweeps free the slots that are too old, and a
lookup returns the last valid slot of its address. A run keeps the history of
the inserts that found a free slot and of the sweeps: the valid slots are
exactly the inserts that no later sweep outlived. Which of them a lookup returns
depends on the order of the slots, not on the order of the inserts.
-/

namespace ComputerNetworks.Router

/-- A slot that answers a lookup of the address. -/
def ArpEntry.answers (ip : UInt32) (e : ArpEntry) : Bool := decide (e.valid = true ∧ e.ip = ip)

theorem ArpEntry.answers_iff {ip : UInt32} {e : ArpEntry} :
    e.answers ip = true ↔ e.valid = true ∧ e.ip = ip := decide_eq_true_iff

/-- The last element that fits is the last of those that fit. -/
theorem foldl_last {α : Type} (p : α → Prop) [DecidablePred p] (l : List α) (last : Option α) :
    l.foldl (fun last a => if p a then some a else last) last =
      (l.filter fun a => p a).getLast?.or last := by
  induction l generalizing last with
  | nil => rfl
  | cons a l ih =>
    rw [List.foldl_cons, ih]
    by_cases ha : p a
    · rw [if_pos ha, List.filter_cons_of_pos (by simpa using ha), List.getLast?_cons]
      cases (l.filter fun a => p a).getLast? <;> rfl
    · rw [if_neg ha, List.filter_cons_of_neg (by simpa using ha)]

/-- A lookup returns the last slot that answers it. -/
theorem arpcacheLookup_eq (c : ArpCache) (ip : UInt32) :
    arpcacheLookup c ip = (c.entries.filter (ArpEntry.answers ip)).getLast? := by
  rw [arpcacheLookup, foldl_last (fun e : ArpEntry => e.valid = true ∧ e.ip = ip), Option.or_none]
  rfl

/-- An insert into a full table changes nothing; otherwise it fills the first free slot. -/
theorem insertEntry_cases (entries : List ArpEntry) (mac : EtherAddr) (ip : UInt32) (now : Int) :
    (entries.findIdx? (fun e => !e.valid) = none ∧ (∀ e ∈ entries, e.valid = true) ∧
      insertEntry entries mac ip now = entries) ∨
    ∃ front free rest, entries = front ++ free :: rest ∧
      entries.findIdx? (fun e => !e.valid) = some front.length ∧ (∀ e ∈ front, e.valid = true) ∧
      free.valid = false ∧ insertEntry entries mac ip now =
        front ++ ⟨mac, ip, now, true⟩ :: rest := by
  cases hidx : entries.findIdx? (fun e => !e.valid) with
  | none =>
    refine .inl ⟨rfl, ?_, by rw [insertEntry, hidx]⟩
    simpa using List.findIdx?_eq_none_iff.1 hidx
  | some i =>
    obtain ⟨hi, hfree, hfront⟩ := List.findIdx?_eq_some_iff_getElem.1 hidx
    have hsplit : entries = entries.take i ++ entries[i] :: entries.drop (i + 1) := by
      rw [List.getElem_cons_drop, List.take_append_drop]
    have hlen : (entries.take i).length = i := by rw [List.length_take, Nat.min_eq_left hi.le]
    refine .inr ⟨entries.take i, entries[i], entries.drop (i + 1), hsplit, by rw [hlen], ?_, ?_, ?_⟩
    · intro e he
      obtain ⟨j, hj, rfl⟩ := List.mem_take_iff_getElem.1 he
      simpa using hfront j (by omega)
    · simpa using hfree
    · rw [insertEntry, hidx]
      dsimp only
      rw [List.set_eq_take_append_cons_drop, if_pos hi]

/-- An insert changes no valid slot. -/
theorem insertEntry_keeps {entries : List ArpEntry} {i : Nat} {e : ArpEntry}
    (he : entries[i]? = some e) (hvalid : e.valid = true) (mac : EtherAddr) (ip : UInt32)
    (now : Int) : (insertEntry entries mac ip now)[i]? = some e := by
  unfold insertEntry
  split
  · exact he
  · rename_i j hj
    obtain ⟨hlt, hfree, -⟩ := List.findIdx?_eq_some_iff_getElem.1 hj
    have hne : j ≠ i := by
      rintro rfl
      rw [List.getElem?_eq_getElem hlt] at he
      cases he
      simp [hvalid] at hfree
    rw [List.getElem?_set_ne hne, he]

/-- The table has a free slot, and no valid slot for the address stands behind the first one. -/
def ArpCache.FreeLast (c : ArpCache) (ip : UInt32) : Prop :=
  ∃ i ∈ c.entries.findIdx? (fun e => !e.valid), ∀ e ∈ c.entries.drop (i + 1), ¬e.answers ip = true

instance ArpCache.decidableFreeLast (c : ArpCache) (ip : UInt32) : Decidable (c.FreeLast ip) :=
  inferInstanceAs (Decidable (∃ i ∈ c.entries.findIdx? (fun e => !e.valid),
    ∀ e ∈ c.entries.drop (i + 1), ¬e.answers ip = true))

/-- The last valid slot for the address carries this hardware address. -/
def ArpCache.LastCarries (c : ArpCache) (mac : EtherAddr) (ip : UInt32) : Prop :=
  (c.entries.filter (ArpEntry.answers ip)).getLast?.map ArpEntry.mac = some mac

/-- After an insert a lookup returns the new mapping where its slot stands behind the older ones for
the address, and otherwise what it returned before. -/
theorem lookup_insertEntry_eq (c : ArpCache) (mac : EtherAddr) (ip : UInt32) (now : Int) :
    (arpcacheLookup { c with entries := insertEntry c.entries mac ip now } ip).map ArpEntry.mac =
      if c.FreeLast ip then some mac else (arpcacheLookup c ip).map ArpEntry.mac := by
  rw [arpcacheLookup_eq, arpcacheLookup_eq]
  obtain ⟨hidx, -, hsame⟩ | ⟨front, free, rest, hsplit, hidx, -, hfree, hnew⟩ :=
    insertEntry_cases c.entries mac ip now
  · have hnot : ¬c.FreeLast ip := by
      rintro ⟨i, hi, -⟩
      exact nomatch hidx.symm.trans hi
    rw [hsame, if_neg hnot]
  · have hanswers : ArpEntry.answers ip ⟨mac, ip, now, true⟩ = true :=
      ArpEntry.answers_iff.2 ⟨rfl, rfl⟩
    have hfree' : ¬free.answers ip = true := fun h =>
      Bool.false_ne_true (hfree.symm.trans (ArpEntry.answers_iff.1 h).1)
    have hlast : c.FreeLast ip ↔ rest.filter (ArpEntry.answers ip) = [] := by
      have hdrop : c.entries.drop (front.length + 1) = rest := by
        rw [hsplit, List.drop_append]
        simp
      rw [ArpCache.FreeLast, hidx, List.filter_eq_nil_iff]
      simp [hdrop]
    cases hrest : rest.filter (ArpEntry.answers ip) with
    | nil =>
      rw [if_pos (hlast.2 hrest), hnew, List.filter_append, List.filter_cons_of_pos hanswers, hrest,
        List.getLast?_append]
      rfl
    | cons e es =>
      have hnot : ¬c.FreeLast ip := fun h => List.cons_ne_nil _ _ (hrest.symm.trans (hlast.1 h))
      rw [if_neg hnot, hnew, hsplit, List.filter_append, List.filter_append,
        List.filter_cons_of_pos hanswers, List.filter_cons_of_neg hfree', hrest]
      simp [List.getLast?_cons]

/-- An insert changes no lookup of another address. -/
theorem lookup_insertEntry_ne (c : ArpCache) (mac : EtherAddr) {ip ip' : UInt32} (hne : ip ≠ ip')
    (now : Int) :
    arpcacheLookup { c with entries := insertEntry c.entries mac ip now } ip' =
      arpcacheLookup c ip' := by
  rw [arpcacheLookup_eq, arpcacheLookup_eq]
  obtain ⟨-, -, hsame⟩ | ⟨front, free, rest, hsplit, -, -, hfree, hnew⟩ :=
    insertEntry_cases c.entries mac ip now
  · rw [hsame]
  · have hnot : ¬ArpEntry.answers ip' ⟨mac, ip, now, true⟩ = true := fun h =>
      hne (ArpEntry.answers_iff.1 h).2
    have hfree' : ¬free.answers ip' = true := fun h =>
      Bool.false_ne_true (hfree.symm.trans (ArpEntry.answers_iff.1 h).1)
    rw [hnew, hsplit, List.filter_append, List.filter_append, List.filter_cons_of_neg hnot,
      List.filter_cons_of_neg hfree']

/-- After an insert a lookup returns the new mapping exactly when its slot stands behind the older
ones for the address, or when the last of these carries the same. -/
theorem lookup_insertEntry (c : ArpCache) (mac : EtherAddr) (ip : UInt32) (now : Int) :
    (arpcacheLookup { c with entries := insertEntry c.entries mac ip now } ip).map ArpEntry.mac =
        some mac ↔
      c.FreeLast ip ∨ c.LastCarries mac ip := by
  rw [lookup_insertEntry_eq, ArpCache.LastCarries, ← arpcacheLookup_eq]
  by_cases hlast : c.FreeLast ip
  · rw [if_pos hlast]
    exact iff_of_true rfl (.inl hlast)
  · rw [if_neg hlast, or_iff_right hlast]

/-- A call of `sr_arpcache_insert`, or a round of `sr_arpcache_timeout`, at its time. -/
inductive TableOp where
  | insert (mac : EtherAddr) (ip : UInt32) (now : Int)
  | sweep (curtime now : Int)
  deriving DecidableEq, Repr

/-- An insert that found a free slot, or a sweep. -/
inductive TableEvent where
  | stored (e : ArpEntry)
  | swept (curtime : Int)
  deriving DecidableEq, Repr

/-- The cache with the history of its table. -/
structure TableRun where
  cache : ArpCache
  events : List TableEvent

/-- An initialised cache, in any heaps. -/
def TableRun.start (reqs : Addr → Option ArpReq) (pkts : Addr → Option SrPacket) : TableRun :=
  ⟨arpcacheInit reqs pkts, []⟩

/-- Inserts and sweeps, in any order and at any times. -/
def tableMachine : Machine Empty TableRun TableOp where
  enabled := fun _ _ => True
  step := fun r op =>
    match op with
    | .insert mac ip now => do
      let (cache, _) ← arpcacheInsert r.cache mac ip now
      let free := r.cache.entries.any fun e => !e.valid
      pure ⟨cache, if free then r.events ++ [.stored ⟨mac, ip, now, true⟩] else r.events⟩
    | .sweep curtime now => do
      let (cache, _) ← arpcacheTimeoutRound r.cache curtime now
      pure ⟨cache, r.events ++ [.swept curtime]⟩

/-- The insert found a free slot, and no later sweep came more than `SR_ARPCACHE_TO` after it. -/
def Fresh (events : List TableEvent) (e : ArpEntry) : Prop :=
  ∃ before after, events = before ++ .stored e :: after ∧
    ∀ curtime, .swept curtime ∈ after → curtime - e.added ≤ arpcacheTimeout

/-- The last event is either the insert itself or one more sweep that the insert must outlive. -/
theorem fresh_concat {events : List TableEvent} {last : TableEvent} {e : ArpEntry} :
    Fresh (events ++ [last]) e ↔ last = .stored e ∨
      (Fresh events e ∧ ∀ curtime, last = .swept curtime →
        curtime - e.added ≤ arpcacheTimeout) := by
  constructor
  · rintro ⟨before, after, heq, hsweeps⟩
    rcases List.eq_nil_or_concat' after with rfl | ⟨after, last', rfl⟩
    · have hlast := (List.append_inj' heq rfl).2
      exact .inl (List.cons.inj hlast).1
    · rw [← List.cons_append, ← List.append_assoc] at heq
      obtain ⟨rfl, hlast⟩ := List.append_inj' heq rfl
      obtain rfl := (List.cons.inj hlast).1
      refine .inr ⟨⟨before, after, rfl, fun t ht => hsweeps t (List.mem_append_left _ ht)⟩, ?_⟩
      rintro t rfl
      exact hsweeps t (List.mem_append_right _ (List.mem_singleton.2 rfl))
  · rintro (rfl | ⟨⟨before, after, rfl, hsweeps⟩, hlast⟩)
    · exact ⟨events, [], rfl, nofun⟩
    · refine ⟨before, after ++ [last], by simp, fun t ht => ?_⟩
      rcases List.mem_append.1 ht with ht | ht
      · exact hsweeps t ht
      · exact hlast t (List.mem_singleton.1 ht).symm

/-- Storing an entry makes it fresh and no other. -/
theorem fresh_stored {events : List TableEvent} {e e' : ArpEntry} :
    Fresh (events ++ [.stored e']) e ↔ e = e' ∨ Fresh events e := by
  rw [fresh_concat, TableEvent.stored.injEq, eq_comm]
  simp

/-- A sweep keeps the fresh entries that are not too old. -/
theorem fresh_swept {events : List TableEvent} {e : ArpEntry} {curtime : Int} :
    Fresh (events ++ [.swept curtime]) e ↔
      Fresh events e ∧ curtime - e.added ≤ arpcacheTimeout := by
  rw [fresh_concat]
  simp

/-- Without requests an insert only fills a slot. -/
theorem arpcacheInsert_of_empty {Site : Type} {c : ArpCache} (h : c.requests = none)
    (mac : EtherAddr) (ip : UInt32) (now : Int) :
    (arpcacheInsert c mac ip now : Exec Site _) =
      .ok ({ c with entries := insertEntry c.entries mac ip now }, none) := by
  have hfind : (findReq c.reqs (fun _ n => n.ip == ip) c.nodes none none : Exec Site _) =
      .ok (none, none) := by
    unfold findReq
    rfl
  simp only [arpcacheInsert, h, hfind, Exec.ok_bind, unlinkFound, Exec.pure_eq_ok]

/-- Without requests a sweep only frees slots. -/
theorem arpcacheTimeoutRound_of_empty {Site : Type} {c : ArpCache} (h : c.requests = none)
    (curtime now : Int) :
    (arpcacheTimeoutRound c curtime now : Exec Site _) =
      .ok ({ c with entries := expireEntries c.entries curtime }, []) := by
  simp only [arpcacheTimeoutRound, arpcacheSweepreqs, h]
  unfold sweepFrom
  rfl

/-- The valid slots are the fresh inserts. -/
def TableRun.Inv (r : TableRun) : Prop :=
  r.cache.requests = none ∧ (∀ e, .stored e ∈ r.events → e.valid = true) ∧
    ∀ e, e.valid = true → (e ∈ r.cache.entries ↔ Fresh r.events e)

/-- The empty table meets the invariant. -/
theorem TableRun.inv_start (reqs : Addr → Option ArpReq) (pkts : Addr → Option SrPacket) :
    (TableRun.start reqs pkts).Inv := by
  refine ⟨rfl, nofun, fun e he => iff_of_false (fun hmem => ?_) ?_⟩
  · rw [(List.mem_replicate.1 hmem).2] at he
    exact Bool.false_ne_true he
  · rintro ⟨before, after, heq, -⟩
    simp [TableRun.start] at heq

/-- The valid entries that are not too old survive. -/
theorem mem_expireEntries {entries : List ArpEntry} {e : ArpEntry} (he : e.valid = true)
    (curtime : Int) :
    e ∈ expireEntries entries curtime ↔ e ∈ entries ∧ curtime - e.added ≤ arpcacheTimeout := by
  rw [expireEntries, List.mem_map]
  constructor
  · rintro ⟨e', he', heq⟩
    split at heq
    · rw [← heq] at he
      exact absurd he Bool.false_ne_true
    · rename_i hkeep
      subst heq
      refine ⟨he', ?_⟩
      simpa [he] using hkeep
  · rintro ⟨hmem, htime⟩
    exact ⟨e, hmem, if_neg fun h => Int.not_lt.2 htime h.2⟩

/-- Each insert and each sweep keeps the slots in step with the history. -/
theorem tableMachine_preserves : tableMachine.Preserves TableRun.Inv := by
  rintro r op ⟨hempty, hstored, hslots⟩ -
  cases op with
  | insert mac ip now =>
    have hstep : tableMachine.step r (.insert mac ip now) = .ok
        ⟨{ r.cache with entries := insertEntry r.cache.entries mac ip now },
          if r.cache.entries.any fun e => !e.valid then
            r.events ++ [.stored ⟨mac, ip, now, true⟩] else r.events⟩ := by
      simp only [tableMachine, arpcacheInsert_of_empty hempty, Exec.ok_bind, Exec.pure_eq_ok]
    have hstored' : ∀ e, .stored e ∈ r.events ++ [TableEvent.stored ⟨mac, ip, now, true⟩] →
        e.valid = true := by
      intro e he
      rcases List.mem_append.1 he with he | he
      · exact hstored e he
      · cases List.mem_singleton.1 he
        rfl
    refine ⟨_, hstep, hempty, ?_, fun e he => ?_⟩
    · split
      · exact hstored'
      · exact hstored
    obtain ⟨-, hfull, hsame⟩ | ⟨front, free, rest, hsplit, -, -, hfree, hnew⟩ :=
      insertEntry_cases r.cache.entries mac ip now
    · have hany : ¬r.cache.entries.any (fun e => !e.valid) = true := by simpa using hfull
      rw [hsame, if_neg hany]
      exact hslots e he
    · have hany : r.cache.entries.any (fun e => !e.valid) = true := by
        rw [hsplit]
        simp [hfree]
      have hne : e ≠ free := fun heq => Bool.false_ne_true (hfree.symm.trans (heq ▸ he))
      rw [hnew, if_pos hany, fresh_stored, ← hslots e he, hsplit]
      simp only [List.mem_append, List.mem_cons, hne, false_or]
      tauto
  | sweep curtime now =>
    have hstep : tableMachine.step r (.sweep curtime now) = .ok
        ⟨{ r.cache with entries := expireEntries r.cache.entries curtime },
          r.events ++ [.swept curtime]⟩ := by
      simp only [tableMachine, arpcacheTimeoutRound_of_empty hempty, Exec.ok_bind, Exec.pure_eq_ok]
    refine ⟨_, hstep, hempty, fun e he => hstored e ?_, fun e he => ?_⟩
    · simpa using he
    rw [fresh_swept, mem_expireEntries he, hslots e he]

/-- Every run of the table goes through and keeps the invariant. -/
theorem tableMachine_run (reqs : Addr → Option ArpReq) (pkts : Addr → Option SrPacket)
    (ops : List TableOp) :
    ∃ r, tableMachine.run (TableRun.start reqs pkts) ops = .ok r ∧ r.Inv :=
  tableMachine_preserves.run (TableRun.inv_start reqs pkts)
    (Machine.admissible_of_enabled (fun _ _ => trivial) _ ops)

/-- In every state that inserts and sweeps reach, a lookup answers exactly when some insert for the
address is fresh, with an insert that is; and an insert changes no valid slot. -/
theorem lookup_fresh (reqs : Addr → Option ArpReq) (pkts : Addr → Option SrPacket)
    (ops : List TableOp) :
    ∃ r, tableMachine.run (TableRun.start reqs pkts) ops = .ok r ∧
      (∀ ip, arpcacheLookup r.cache ip ≠ none ↔ ∃ e, Fresh r.events e ∧ e.ip = ip) ∧
      (∀ ip e, arpcacheLookup r.cache ip = some e → Fresh r.events e ∧ e.ip = ip) ∧
      ∀ mac ip now, ∃ c' found, arpcacheInsert r.cache mac ip now =
          (.ok (c', found) : Exec Empty _) ∧
        ∀ (i : Nat) (e : ArpEntry), r.cache.entries[i]? = some e → e.valid = true →
          c'.entries[i]? = some e := by
  obtain ⟨r, hrun, hempty, hstored, hslots⟩ := tableMachine_run reqs pkts ops
  have hfound : ∀ ip e, arpcacheLookup r.cache ip = some e → Fresh r.events e ∧ e.ip = ip := by
    intro ip e he
    rw [arpcacheLookup_eq] at he
    obtain ⟨hmem, hanswers⟩ := List.mem_filter.1 (List.mem_of_getLast? he)
    obtain ⟨hvalid, hip⟩ := ArpEntry.answers_iff.1 hanswers
    exact ⟨(hslots e hvalid).1 hmem, hip⟩
  refine ⟨r, hrun, fun ip => ⟨fun hne => ?_, ?_⟩, hfound, fun mac ip now => ?_⟩
  · obtain ⟨e, he⟩ := Option.ne_none_iff_exists'.1 hne
    exact ⟨e, hfound ip e he⟩
  · rintro ⟨e, hfresh, rfl⟩ hnone
    have hvalid : e.valid = true := by
      obtain ⟨before, after, heq, -⟩ := hfresh
      exact hstored e (by simp [heq])
    rw [arpcacheLookup_eq, List.getLast?_eq_none_iff, List.filter_eq_nil_iff] at hnone
    exact hnone e ((hslots e hvalid).2 hfresh) (ArpEntry.answers_iff.2 ⟨hvalid, rfl⟩)
  · refine ⟨_, none, arpcacheInsert_of_empty hempty mac ip now, fun i e he hvalid => ?_⟩
    exact insertEntry_keeps he hvalid mac ip now

/-- In every state that inserts and sweeps reach, the mapping of an insert is the one a lookup then
returns exactly when the insert finds a free slot behind all valid slots for the address, or the
last of these carries the same. -/
theorem insert_then_lookup_iff (reqs : Addr → Option ArpReq) (pkts : Addr → Option SrPacket)
    (ops : List TableOp) :
    ∃ r, tableMachine.run (TableRun.start reqs pkts) ops = .ok r ∧
      ∀ mac ip now, ∃ c' found, arpcacheInsert r.cache mac ip now =
          (.ok (c', found) : Exec Empty _) ∧
        ((arpcacheLookup c' ip).map ArpEntry.mac = some mac ↔
          r.cache.FreeLast ip ∨ r.cache.LastCarries mac ip) := by
  obtain ⟨r, hrun, hempty, -⟩ := tableMachine_run reqs pkts ops
  refine ⟨r, hrun, fun mac ip now => ⟨_, none, arpcacheInsert_of_empty hempty mac ip now, ?_⟩⟩
  exact lookup_insertEntry r.cache mac ip now

/-- An insert for 7 fills slot 0 and one for 8 slot 1; a sweep frees slot 0, which a later insert
for 8 takes. The lookup still returns the older mapping, in slot 1. -/
theorem lookup_returns_older :
    ∃ r, tableMachine.run (TableRun.start (fun _ => none) fun _ => none)
        [.insert ⟨0, 0, 0, 0, 0, 7⟩ 7 0, .insert ⟨0, 0, 0, 0, 0, 1⟩ 8 10, .sweep 16 16,
          .insert ⟨0, 0, 0, 0, 0, 2⟩ 8 16] = .ok r ∧
      arpcacheLookup r.cache 8 = some ⟨⟨0, 0, 0, 0, 0, 1⟩, 8, 10, true⟩ :=
  ⟨_, rfl, by decide +kernel⟩

end ComputerNetworks.Router
