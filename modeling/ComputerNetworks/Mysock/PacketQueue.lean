import ComputerNetworks.Core.LinkedQueue
import ComputerNetworks.Core.Machine

/-!
# The mysock packet queue

`_mysock_enqueue_buffer` and `_mysock_dequeue_buffer` of `mysock.c` over a heap
of queue nodes. A node owns the block its `data` points to. The waits and the
locks are the assumption that a call is one atomic operation, and that a dequeue
goes on only once the queue is non-empty.
-/

namespace ComputerNetworks.Mysock

/-- The address of a queue node. -/
abbrev Addr := Nat

/-- The assertions of the two operations on what they allocate and on the queue. -/
inductive QueueAssert where
  /-- `assert(node)` after `calloc`. -/
  | nodeAllocated
  /-- `assert(node->data)` after `malloc`. -/
  | dataAllocated
  /-- `assert(!pq->tail)`. -/
  | tailNull
  /-- `assert(pq->tail)`. -/
  | tailNonNull
  /-- `assert(!pq->tail->next)`. -/
  | tailNextNull
  /-- `assert(!node->next)`. -/
  | nodeNextNull
  /-- `assert(node && node->data)`. -/
  | headData
  /-- `assert(pq->tail == node)`. -/
  | tailIsNode
  deriving DecidableEq, Repr

/-- `packet_queue_node_t`; a null pointer is `none`. -/
structure PacketQueueNode where
  data : Option (List UInt8)
  dataLen : Nat
  next : Option Addr
  deriving DecidableEq, Repr

/-- `packet_queue_t` together with the heap its nodes live in. -/
structure PacketQueue where
  heap : Addr → Option PacketQueueNode
  head : Option Addr
  tail : Option Addr

/-- Write a node, or with `none` free it. -/
def PacketQueue.setNode (pq : PacketQueue) (a : Addr) (n : Option PacketQueueNode) : PacketQueue :=
  { pq with heap := Function.update pq.heap a n }

@[simp] theorem PacketQueue.setNode_heap (pq : PacketQueue) (a : Addr)
    (n : Option PacketQueueNode) : (pq.setNode a n).heap = Function.update pq.heap a n := rfl

@[simp] theorem PacketQueue.setNode_head (pq : PacketQueue) (a : Addr)
    (n : Option PacketQueueNode) : (pq.setNode a n).head = pq.head := rfl

@[simp] theorem PacketQueue.setNode_tail (pq : PacketQueue) (a : Addr)
    (n : Option PacketQueueNode) : (pq.setNode a n).tail = pq.tail := rfl

/-- What the allocator returned to a call of enqueue: the node `calloc` cleared and the block of
`malloc`, whose bytes are arbitrary. -/
structure Allocation where
  node : Option Addr
  data : Option (List UInt8)
  deriving DecidableEq, Repr

/-- Read a node through a pointer. -/
def deref (heap : Addr → Option PacketQueueNode) :
    Option Addr → Exec QueueAssert (Addr × PacketQueueNode)
  | none => .error .nullPointer
  | some a =>
    match heap a with
    | none => .error .dangling
    | some n => .ok (a, n)

theorem deref_some {heap : Addr → Option PacketQueueNode} {a : Addr} {n : PacketQueueNode}
    (h : heap a = some n) : deref heap (some a) = .ok (a, n) := by
  rw [deref, h]

/-- The part of enqueue under the lock: the new node becomes the tail. -/
def linkNode (pq : PacketQueue) (node : Addr) : Exec QueueAssert PacketQueue :=
  match pq.head with
  | none => do
    assert (pq.tail = none) .tailNull
    pure { pq with head := some node, tail := some node }
  | some _ => do
    assert (pq.tail ≠ none) .tailNonNull
    let (t, last) ← deref pq.heap pq.tail
    assert (last.next = none) .tailNextNull
    let (_, new) ← deref pq.heap (some node)
    assert (new.next = none) .nodeNextNull
    pure { pq.setNode t (some { last with next := some node }) with tail := some node }

/-- The copy of the packet into its new block, skipped for an empty packet. -/
def fillBlock (block packet : List UInt8) : Exec QueueAssert (List UInt8) :=
  if 0 < packet.length then memcpyAt block 0 packet else .ok block

/-- `_mysock_enqueue_buffer`. -/
def enqueueBuffer (pq : PacketQueue) (mem : Allocation) (packet : List UInt8) :
    Exec QueueAssert PacketQueue :=
  match mem.node with
  | none => .error (.assertion .nodeAllocated)
  | some node =>
    match mem.data with
    | none => .error (.assertion .dataAllocated)
    | some block => do
      let data ← fillBlock block packet
      linkNode (pq.setNode node (some ⟨some data, packet.length, none⟩)) node

/-- What a call of dequeue leaves: the queue, the caller's buffer, how many bytes were stored in it
and the value returned. -/
structure Dequeued where
  queue : PacketQueue
  dst : List UInt8
  stored : Nat
  packetLen : Nat

/-- The unlinking of a whole packet at the head. -/
def unlinkHead (pq : PacketQueue) (a : Addr) (node : PacketQueueNode) :
    Exec QueueAssert PacketQueue :=
  match node.next with
  | none => do
    assert (pq.tail = some a) .tailIsNode
    pure { pq with head := none, tail := none }
  | some b => pure { pq with head := some b }

/-- `_mysock_dequeue_buffer` from the end of its wait on. -/
def dequeueBuffer (pq : PacketQueue) (dst : List UInt8) (maxLen : Nat) (removePartial : Bool) :
    Exec QueueAssert Dequeued :=
  match pq.head with
  | none => .error (.assertion .headData)
  | some a => do
    let (_, node) ← deref pq.heap (some a)
    match node.data with
    | none => .error (.assertion .headData)
    | some data =>
      if maxLen < node.dataLen ∧ removePartial = true then do
        let dst ← memcpy dst data maxLen
        -- the source's overlapping copy, taken as a memmove
        let data ← memmoveFront data maxLen (node.dataLen - maxLen)
        let node := { node with data := some data, dataLen := node.dataLen - maxLen }
        pure ⟨pq.setNode a (some node), dst, maxLen, maxLen⟩
      else do
        let pq ← unlinkHead pq a node
        let dst ← memcpy dst data (min maxLen node.dataLen)
        pure ⟨pq.setNode a none, dst, min maxLen node.dataLen, node.dataLen⟩

/-- The bytes of a node that are still to be delivered. -/
def PacketQueueNode.packet (n : PacketQueueNode) : List UInt8 := (n.data.getD []).take n.dataLen

/-- The node's block holds the bytes it counts. -/
def PacketQueueNode.Valid (n : PacketQueueNode) : Prop :=
  ∃ block, n.data = some block ∧ n.dataLen ≤ block.length

/-- The links from `head` to `tail` spell these packets. -/
def PacketQueue.Holds (pq : PacketQueue) (packets : List (List UInt8)) : Prop :=
  ∃ cells, Linked PacketQueueNode.next pq.heap pq.head pq.tail cells ∧
    (∀ c ∈ cells, c.2.Valid) ∧ cells.map (fun c => c.2.packet) = packets

/-- The head is null exactly if there are no packets. -/
theorem PacketQueue.Holds.head_eq_none {pq : PacketQueue} {packets : List (List UInt8)}
    (h : pq.Holds packets) : pq.head = none ↔ packets = [] := by
  obtain ⟨cells, hlinked, -, rfl⟩ := h
  rw [hlinked.head_eq_none, List.map_eq_nil_iff]

/-- The first node becomes head and tail. -/
theorem linkNode_of_empty (pq : PacketQueue) (hhead : pq.head = none) (htail : pq.tail = none)
    (node : Addr) : linkNode pq node = .ok { pq with head := some node, tail := some node } := by
  rw [linkNode, hhead, assert_of htail]
  rfl

/-- Any other node is linked behind the last one. -/
theorem linkNode_of_last (pq : PacketQueue) (hhead : pq.head ≠ none) {t node : Addr}
    {last n : PacketQueueNode} (htail : pq.tail = some t) (hlast : pq.heap t = some last)
    (hlastNext : last.next = none) (hn : pq.heap node = some n) (hnext : n.next = none) :
    linkNode pq node =
      .ok { pq.setNode t (some { last with next := some node }) with tail := some node } := by
  obtain ⟨a, ha⟩ := Option.ne_none_iff_exists'.1 hhead
  rw [linkNode, ha, htail, assert_of (Option.some_ne_none t), deref_some hlast, deref_some hn]
  simp [assert, hlastNext, hnext]

/-- Linking a node behind the tail appends its packet. -/
theorem linkNode_spec {pq : PacketQueue} {packets : List (List UInt8)} (h : pq.Holds packets)
    {node : Addr} (hnode : pq.heap node = none) {n : PacketQueueNode} (hn : n.Valid)
    (hnext : n.next = none) :
    ∃ pq', linkNode (pq.setNode node (some n)) node = .ok pq' ∧
      pq'.Holds (packets ++ [n.packet]) := by
  obtain ⟨cells, hlinked, hvalid, rfl⟩ := h
  by_cases hnil : cells = []
  · subst hnil
    have hhead : pq.head = none := hlinked.head_eq_none.2 rfl
    have htail : pq.tail = none := hlinked.tail_eq_none.2 rfl
    refine ⟨_, linkNode_of_empty (pq.setNode node (some n)) hhead htail node, ?_⟩
    exact ⟨[(node, n)], Linked.singleton hnext, by simpa using hn, rfl⟩
  · obtain ⟨front, t, last, rfl, htail, hlast, hlastNext⟩ := hlinked.exists_last hnil
    have htn : t ≠ node := fun htn => by simp [← htn, hlast] at hnode
    have hlast' : Function.update pq.heap node (some n) t = some last := by
      rw [Function.update_of_ne htn, hlast]
    have hhead : pq.head ≠ none := mt hlinked.head_eq_none.1 hnil
    refine ⟨_, linkNode_of_last (pq.setNode node (some n)) hhead htail hlast' hlastNext
      (Function.update_self ..) hnext, _, hlinked.push hnode rfl hnext, ?_, ?_⟩
    · intro c hc
      simp only [List.mem_append, List.mem_cons, List.not_mem_nil, or_false] at hvalid hc
      rcases hc with hc | rfl | rfl
      · exact hvalid c (.inl hc)
      · exact hvalid (t, last) (.inr rfl)
      · exact hn
    · simp [PacketQueueNode.packet]

/-- A block of the packet's size takes the packet. -/
theorem fillBlock_eq {block packet : List UInt8} (h : block.length = packet.length) :
    fillBlock block packet = .ok packet := by
  unfold fillBlock
  split
  · rw [memcpyAt_zero h.ge, ← h, List.drop_length, List.append_nil]
  · have hlen : packet.length = 0 := by omega
    rw [List.eq_nil_of_length_eq_zero hlen, List.eq_nil_of_length_eq_zero (h.trans hlen)]

/-- Enqueueing appends the packet, whatever the allocated block held. -/
theorem enqueueBuffer_spec {pq : PacketQueue} {packets : List (List UInt8)} (h : pq.Holds packets)
    {node : Addr} (hnode : pq.heap node = none) {block packet : List UInt8}
    (hblock : block.length = packet.length) :
    ∃ pq', enqueueBuffer pq ⟨some node, some block⟩ packet = .ok pq' ∧
      pq'.Holds (packets ++ [packet]) := by
  have hpacket : (⟨some packet, packet.length, none⟩ : PacketQueueNode).packet = packet := by
    simp [PacketQueueNode.packet]
  obtain ⟨pq', hlink, hholds⟩ :=
    linkNode_spec h hnode (n := ⟨some packet, packet.length, none⟩) ⟨packet, rfl, le_rfl⟩ rfl
  refine ⟨pq', ?_, hpacket ▸ hholds⟩
  simp only [enqueueBuffer, fillBlock_eq hblock, Exec.ok_bind, hlink]

/-- Unlinking the head leaves the other cells, and the tail as their last one. -/
theorem unlinkHead_spec {pq : PacketQueue} {a : Addr} {n : PacketQueueNode}
    {cells : List (Addr × PacketQueueNode)}
    (h : Linked PacketQueueNode.next pq.heap pq.head pq.tail ((a, n) :: cells)) :
    ∃ pq', unlinkHead pq a n = .ok pq' ∧
      Linked PacketQueueNode.next (pq'.setNode a none).heap pq'.head pq'.tail cells := by
  cases cells with
  | nil =>
    have hnext : n.next = none := h.chain.2.2
    have htail : pq.tail = some a := h.tail_eq
    refine ⟨{ pq with head := none, tail := none }, ?_, Linked.empty _⟩
    rw [unlinkHead, hnext, assert_of htail]
    rfl
  | cons c cells =>
    have hnext : n.next = some c.1 := h.chain.2.2.1
    refine ⟨{ pq with head := some c.1 }, ?_, hnext ▸ h.pop⟩
    rw [unlinkHead, hnext]
    rfl

/-- The node at the head of a queue that holds packets. -/
theorem PacketQueue.Holds.exists_head {pq : PacketQueue} {packet : List UInt8}
    {packets : List (List UInt8)} (h : pq.Holds (packet :: packets)) :
    ∃ a n data cells, pq.head = some a ∧ pq.heap a = some n ∧ n.data = some data ∧
      n.dataLen ≤ data.length ∧ data.take n.dataLen = packet ∧
      Linked PacketQueueNode.next pq.heap pq.head pq.tail ((a, n) :: cells) ∧
      (∀ c ∈ cells, c.2.Valid) ∧ cells.map (fun c => c.2.packet) = packets := by
  obtain ⟨cells, hlinked, hvalid, hpackets⟩ := h
  obtain ⟨⟨a, n⟩, cells, rfl, rfl, rfl⟩ := List.map_eq_cons_iff.1 hpackets
  obtain ⟨data, hdata, hle⟩ := hvalid (a, n) List.mem_cons_self
  refine ⟨a, n, data, cells, hlinked.chain.1, hlinked.chain.2.1, hdata, hle, ?_, hlinked,
    fun c hc => hvalid c (List.mem_cons_of_mem _ hc), rfl⟩
  rw [PacketQueueNode.packet, hdata, Option.getD_some]

/-- A dequeue that leaves part of the head packet in the queue. -/
theorem dequeueBuffer_front {pq : PacketQueue} {packet : List UInt8}
    {packets : List (List UInt8)} (h : pq.Holds (packet :: packets)) {dst : List UInt8}
    {maxLen : Nat} (hdst : maxLen ≤ dst.length) (hlong : maxLen < packet.length) :
    ∃ pq', dequeueBuffer pq dst maxLen true =
        .ok ⟨pq', packet.take maxLen ++ dst.drop maxLen, maxLen, maxLen⟩ ∧
      pq'.Holds (packet.drop maxLen :: packets) := by
  obtain ⟨a, n, data, cells, hhead, hheap, hdata, hle, rfl, hlinked, hvalid, rfl⟩ := h.exists_head
  rw [List.length_take, Nat.min_eq_left hle] at hlong
  obtain ⟨data', hmove, hlen', htake'⟩ := @memmoveFront_spec QueueAssert data maxLen
    (n.dataLen - maxLen) (by omega)
  have hcopy : (memcpy dst data maxLen : Exec QueueAssert (List UInt8)) =
      .ok (data.take maxLen ++ dst.drop maxLen) := memcpy_eq (by omega) hdst
  refine ⟨pq.setNode a (some ⟨some data', n.dataLen - maxLen, n.next⟩), ?_,
    (a, ⟨some data', n.dataLen - maxLen, n.next⟩) :: cells, hlinked.setHead rfl, ?_, ?_⟩
  · simp only [dequeueBuffer, hhead, deref_some hheap, Exec.ok_bind, hdata, hlong, and_true,
      if_true, hcopy, hmove, Exec.pure_eq_ok]
    rw [List.take_take, Nat.min_eq_left hlong.le]
  · intro c hc
    rcases List.mem_cons.1 hc with rfl | hc
    · exact ⟨data', rfl, by simp only [hlen']; omega⟩
    · exact hvalid c hc
  · rw [List.map_cons, PacketQueueNode.packet, Option.getD_some, htake', List.drop_take]

/-- A dequeue that takes the whole head packet. -/
theorem dequeueBuffer_whole {pq : PacketQueue} {packet : List UInt8}
    {packets : List (List UInt8)} (h : pq.Holds (packet :: packets)) {dst : List UInt8}
    {maxLen : Nat} (hdst : maxLen ≤ dst.length) {removePartial : Bool}
    (hwhole : packet.length ≤ maxLen ∨ removePartial = false) :
    ∃ pq', dequeueBuffer pq dst maxLen removePartial =
        .ok ⟨pq', packet.take maxLen ++ dst.drop (min maxLen packet.length),
          min maxLen packet.length, packet.length⟩ ∧
      pq'.Holds packets := by
  obtain ⟨a, n, data, cells, hhead, hheap, hdata, hle, rfl, hlinked, hvalid, rfl⟩ := h.exists_head
  have hlen : (data.take n.dataLen).length = n.dataLen := by
    rw [List.length_take, Nat.min_eq_left hle]
  rw [hlen] at hwhole
  have hbranch : ¬(maxLen < n.dataLen ∧ removePartial = true) := by
    rintro ⟨hlt, hflag⟩
    rcases hwhole with hwhole | hwhole
    · omega
    · simp [hflag] at hwhole
  have hcopy : (memcpy dst data (min maxLen n.dataLen) : Exec QueueAssert (List UInt8)) =
      .ok (data.take (min maxLen n.dataLen) ++ dst.drop (min maxLen n.dataLen)) :=
    memcpy_eq (by omega) (by omega)
  obtain ⟨pq', hunlink, hlinked'⟩ := unlinkHead_spec hlinked
  refine ⟨pq'.setNode a none, ?_, cells, hlinked', hvalid, rfl⟩
  simp only [dequeueBuffer, hhead, deref_some hheap, Exec.ok_bind, hdata, if_neg hbranch, hunlink,
    hcopy, Exec.pure_eq_ok, hlen, List.take_take]

/-- A call on the queue: with what the allocator returned, or with the caller's buffer. -/
inductive QueueOp where
  | enqueue (mem : Allocation) (packet : List UInt8)
  | dequeue (dst : List UInt8) (maxLen : Nat)
  deriving DecidableEq, Repr

/-- A dequeue that returned: its `max_len`, the bytes stored, and the value returned. -/
structure DequeueReturn where
  maxLen : Nat
  dst : List UInt8
  stored : Nat
  packetLen : Nat
  deriving DecidableEq, Repr

/-- The bytes a caller takes from its buffer by the value returned. -/
def DequeueReturn.bytes (c : DequeueReturn) : List UInt8 := c.dst.take c.packetLen

/-- The queue with the history of its calls. -/
structure QueueRun where
  queue : PacketQueue
  enqueued : List (List UInt8)
  returns : List DequeueReturn

/-- A cleared context's queue, in any heap. -/
def QueueRun.start (heap : Addr → Option PacketQueueNode) : QueueRun := ⟨⟨heap, none, none⟩, [], []⟩

/-- The bytes returned so far. -/
def QueueRun.returned (r : QueueRun) : List UInt8 := r.returns.flatMap DequeueReturn.bytes

/-- `malloc` succeeds with an unused node and a block of the packet's size; a dequeue passes its
wait only on a non-empty queue and is given a buffer of `max_len` bytes or more. -/
def QueueOp.Enabled (r : QueueRun) : QueueOp → Prop
  | .enqueue mem packet =>
    (∃ a ∈ mem.node, r.queue.heap a = none) ∧ ∃ block ∈ mem.data, block.length = packet.length
  | .dequeue dst maxLen => r.queue.head ≠ none ∧ maxLen ≤ dst.length

instance QueueOp.decidableEnabled (r : QueueRun) : (op : QueueOp) → Decidable (op.Enabled r)
  | .enqueue mem packet => inferInstanceAs (Decidable ((∃ a ∈ mem.node, r.queue.heap a = none) ∧
      ∃ block ∈ mem.data, block.length = packet.length))
  | .dequeue dst maxLen => inferInstanceAs (Decidable (r.queue.head ≠ none ∧ maxLen ≤ dst.length))

/-- Atomic calls of `_mysock_enqueue_buffer` and of `_mysock_dequeue_buffer` with `remove_partial`
set, with their history. -/
def packetQueueMachine : Machine QueueAssert QueueRun QueueOp where
  enabled := fun r op => op.Enabled r
  step := fun r op =>
    match op with
    | .enqueue mem packet => do
      let queue ← enqueueBuffer r.queue mem packet
      pure { r with queue, enqueued := r.enqueued ++ [packet] }
    | .dequeue dst maxLen => do
      let out ← dequeueBuffer r.queue dst maxLen true
      pure { r with
        queue := out.queue
        returns := r.returns ++ [⟨maxLen, out.dst, out.stored, out.packetLen⟩] }

instance packetQueueMachine_decidableEnabled (r : QueueRun) (op : QueueOp) :
    Decidable (packetQueueMachine.enabled r op) :=
  inferInstanceAs (Decidable (op.Enabled r))

/-- The queue is well linked and nothing was lost, repeated or reordered. -/
def QueueRun.Conserves (r : QueueRun) : Prop :=
  (∃ packets, r.queue.Holds packets ∧ r.returned ++ packets.flatten = r.enqueued.flatten) ∧
    ∀ c ∈ r.returns, c.packetLen = c.stored ∧ c.stored ≤ c.maxLen

theorem QueueRun.conserves_start (heap : Addr → Option PacketQueueNode) :
    (QueueRun.start heap).Conserves :=
  ⟨⟨[], ⟨[], Linked.empty heap, nofun, rfl⟩, rfl⟩, nofun⟩

/-- With `remove_partial` set, a dequeue moves a front part of the head packet to the caller. -/
theorem dequeueBuffer_spec {pq : PacketQueue} {packets : List (List UInt8)} (h : pq.Holds packets)
    (hne : pq.head ≠ none) {dst : List UInt8} {maxLen : Nat} (hdst : maxLen ≤ dst.length) :
    ∃ pq' out packets', dequeueBuffer pq dst maxLen true =
        .ok ⟨pq', out ++ dst.drop out.length, out.length, out.length⟩ ∧
      pq'.Holds packets' ∧ out.length ≤ maxLen ∧ out ++ packets'.flatten = packets.flatten := by
  cases packets with
  | nil => exact absurd (h.head_eq_none.2 rfl) hne
  | cons packet packets =>
    by_cases hlong : maxLen < packet.length
    · obtain ⟨pq', hrun, hholds⟩ := dequeueBuffer_front h hdst hlong
      have hlen : (packet.take maxLen).length = maxLen := by
        rw [List.length_take, Nat.min_eq_left hlong.le]
      refine ⟨pq', packet.take maxLen, _, by rw [hrun, hlen], hholds, hlen.le, ?_⟩
      rw [List.flatten_cons, ← List.append_assoc, List.take_append_drop, List.flatten_cons]
    · have hle : packet.length ≤ maxLen := Nat.le_of_not_lt hlong
      obtain ⟨pq', hrun, hholds⟩ := dequeueBuffer_whole h hdst (.inl hle)
      refine ⟨pq', packet, packets, ?_, hholds, hle, rfl⟩
      rw [hrun, Nat.min_eq_right hle, List.take_of_length_le hle]

/-- Each call keeps the history in balance. -/
theorem packetQueueMachine_preserves : packetQueueMachine.Preserves QueueRun.Conserves := by
  rintro r op ⟨⟨packets, hholds, hbytes⟩, hreturns⟩ henabled
  cases op with
  | enqueue mem packet =>
    obtain ⟨⟨a, ha, hfresh⟩, block, hblock, hlen⟩ := henabled
    obtain ⟨node, data⟩ := mem
    cases ha
    cases hblock
    obtain ⟨pq', hrun, hholds'⟩ := enqueueBuffer_spec hholds hfresh hlen
    refine ⟨{ r with queue := pq', enqueued := r.enqueued ++ [packet] }, ?_,
      ⟨packets ++ [packet], hholds', ?_⟩, hreturns⟩
    · simp only [packetQueueMachine, hrun, Exec.ok_bind, Exec.pure_eq_ok]
    · rw [List.flatten_append, List.flatten_append, ← List.append_assoc, ← hbytes]
      rfl
  | dequeue dst maxLen =>
    obtain ⟨hne, hdst⟩ := henabled
    obtain ⟨pq', out, packets', hrun, hholds', hle, hout⟩ := dequeueBuffer_spec hholds hne hdst
    refine ⟨{ r with
      queue := pq'
      returns := r.returns ++ [⟨maxLen, out ++ dst.drop out.length, out.length, out.length⟩] },
      ?_, ⟨packets', hholds', ?_⟩, ?_⟩
    · simp only [packetQueueMachine, hrun, Exec.ok_bind, Exec.pure_eq_ok]
    · simp only [QueueRun.returned, List.flatMap_append, List.flatMap_singleton,
        DequeueReturn.bytes, List.take_left] at hbytes ⊢
      rw [List.append_assoc, hout, hbytes]
    · intro c hc
      rcases List.mem_append.1 hc with hc | hc
      · exact hreturns c hc
      · cases List.mem_singleton.1 hc
        exact ⟨rfl, hle⟩

/-- Whatever the order of the calls, no assertion fails, and the bytes returned followed by those
in the linked nodes from `head` to `tail` are the bytes enqueued. -/
theorem packetQueue_conserves_bytes (heap : Addr → Option PacketQueueNode) {ops : List QueueOp}
    (hops : packetQueueMachine.Admissible (QueueRun.start heap) ops) :
    ∃ r cells, packetQueueMachine.run (QueueRun.start heap) ops = .ok r ∧
      Linked PacketQueueNode.next r.queue.heap r.queue.head r.queue.tail cells ∧
      r.returned ++ cells.flatMap (fun c => c.2.packet) = r.enqueued.flatten ∧
      (∀ c ∈ r.returns, c.packetLen = c.stored ∧ c.packetLen ≤ c.maxLen) ∧
      (r.queue.head = none ↔ r.queue.tail = none) := by
  obtain ⟨r, hrun, ⟨packets, ⟨cells, hlinked, -, rfl⟩, hbytes⟩, hreturns⟩ :=
    packetQueueMachine_preserves.run (QueueRun.conserves_start heap) hops
  refine ⟨r, cells, hrun, hlinked, ?_, ?_, hlinked.head_none_iff_tail_none⟩
  · rw [List.flatMap_def]
    exact hbytes
  · intro c hc
    obtain ⟨hstored, hle⟩ := hreturns c hc
    exact ⟨hstored, hstored ▸ hle⟩

/-- A zero-length packet, a partial and two whole dequeues, the second of them reusing the first
node's address. -/
theorem packetQueue_conserves_sample :
    ∃ r cells, packetQueueMachine.run (QueueRun.start fun _ => none)
        [.enqueue ⟨some 1, some [0, 0, 0]⟩ [7, 8, 9], .dequeue [0, 0] 2,
          .enqueue ⟨some 2, some []⟩ [], .dequeue [0, 0] 2,
          .enqueue ⟨some 1, some [5]⟩ [4], .dequeue [] 0] = .ok r ∧
      Linked PacketQueueNode.next r.queue.heap r.queue.head r.queue.tail cells ∧
      r.returned ++ cells.flatMap (fun c => c.2.packet) = r.enqueued.flatten ∧
      (∀ c ∈ r.returns, c.packetLen = c.stored ∧ c.packetLen ≤ c.maxLen) ∧
      (r.queue.head = none ↔ r.queue.tail = none) :=
  packetQueue_conserves_bytes _ (by decide)

end ComputerNetworks.Mysock
