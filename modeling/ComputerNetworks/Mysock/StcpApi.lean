import ComputerNetworks.Mysock.PacketQueue

/-!
# The interface between the application and the transport layer

`mywrite`, `myread` and the request of `myclose` of `mysock_api.c`, and the calls
of `stcp_api.c` that the transport layer makes on one connection. The three
queues of a context are kept generic: the code has linked lists in a heap, and
the same calls over plain lists of packets say what they are for.
-/

namespace ComputerNetworks.Mysock

/-- `APP_DATA`. -/
def appData : UInt32 := 1

/-- `NETWORK_DATA`. -/
def networkData : UInt32 := 2

/-- `APP_CLOSE_REQUESTED`. -/
def appCloseRequested : UInt32 := 4

/-- The assertions of the calls. -/
inductive StcpAssert where
  /-- `assert(!ctx->close_requested)` of `mywrite` and of `myread`. -/
  | notClosing
  /-- An assertion on a queue. -/
  | queue (site : QueueAssert)
  deriving DecidableEq, Repr

/-- The fields of `mysock_context_t` that the calls share, over queues of type `Q`. -/
structure StcpContext (Q : Type) where
  /-- From `mywrite` to `stcp_app_recv`. -/
  appRecvQueue : Q
  /-- From `stcp_app_send` to `myread`. -/
  appSendQueue : Q
  /-- From the receive thread to `stcp_network_recv`. -/
  networkRecvQueue : Q
  closeRequested : Bool
  eof : Bool

/-- `mywrite`, past its checks of the descriptor. -/
def mywrite (ctx : StcpContext PacketQueue) (mem : Allocation) (buf : List UInt8) :
    Exec StcpAssert (StcpContext PacketQueue) := do
  assert (ctx.closeRequested = false) .notClosing
  let queue ← (enqueueBuffer ctx.appRecvQueue mem buf).within .queue
  pure { ctx with appRecvQueue := queue }

/-- The request of `myclose`, under the lock. -/
def requestClose {Q : Type} (ctx : StcpContext Q) : StcpContext Q :=
  { ctx with closeRequested := true }

/-- `stcp_app_recv`: the context, the caller's buffer and the length returned. -/
def stcpAppRecv (ctx : StcpContext PacketQueue) (dst : List UInt8) (maxLen : Nat) :
    Exec StcpAssert (StcpContext PacketQueue × List UInt8 × Nat) := do
  let out ← (dequeueBuffer ctx.appRecvQueue dst maxLen true).within .queue
  pure ({ ctx with appRecvQueue := out.queue }, out.dst, out.packetLen)

/-- `stcp_app_send`. -/
def stcpAppSend (ctx : StcpContext PacketQueue) (mem : Allocation) (src : List UInt8) :
    Exec StcpAssert (StcpContext PacketQueue) :=
  if 0 < src.length then do
    let queue ← (enqueueBuffer ctx.appSendQueue mem src).within .queue
    pure { ctx with appSendQueue := queue }
  else .ok ctx

/-- `stcp_fin_received`. -/
def stcpFinReceived (ctx : StcpContext PacketQueue) (mem : Allocation) :
    Exec StcpAssert (StcpContext PacketQueue) := do
  let queue ← (enqueueBuffer ctx.appSendQueue mem []).within .queue
  pure { ctx with appSendQueue := queue }

/-- A `size_t` stored in an `int`. -/
def intOfSize (n : Nat) : Int := (n : Int).bmod (2 ^ 32)

/-- What `myread` does with the length of its dequeue. -/
def noteEof {Q : Type} (ctx : StcpContext Q) (len : Int) : StcpContext Q :=
  if len = 0 then { ctx with eof := true } else ctx

/-- `myread`, past its checks of the descriptor: the context, the caller's buffer and the value
returned. -/
def myread (ctx : StcpContext PacketQueue) (buf : List UInt8) (bufLen : Nat) :
    Exec StcpAssert (StcpContext PacketQueue × List UInt8 × Int) := do
  assert (ctx.closeRequested = false) .notClosing
  if ctx.eof then pure (ctx, buf, 0)
  else do
    let out ← (dequeueBuffer ctx.appSendQueue buf bufLen true).within .queue
    let len := intOfSize out.packetLen
    pure (noteEof { ctx with appSendQueue := out.queue } len, out.dst, len)

/-- The bits for data that `stcp_wait_for_event` finds, given which queues hold some. -/
def dataEvents (flags : UInt32) (app network : Bool) : UInt32 :=
  let rc : UInt32 := 0
  let rc := if flags &&& appData ≠ 0 ∧ app = true then rc ||| appData else rc
  if flags &&& networkData ≠ 0 ∧ network = true then rc ||| networkData else rc

/-- The rest of a pass: the close event, given that no data waits, is reported and cleared. -/
def closeEvent {Q : Type} (ctx : StcpContext Q) (app : Bool) (rc : UInt32) :
    UInt32 × StcpContext Q :=
  if ctx.closeRequested = true ∧ app = false then
    (rc ||| appCloseRequested, { ctx with closeRequested := false })
  else (rc, ctx)

/-- One pass of the loop of `stcp_wait_for_event`, under the lock. -/
def eventPass (ctx : StcpContext PacketQueue) (flags : UInt32) :
    UInt32 × StcpContext PacketQueue :=
  closeEvent ctx ctx.appRecvQueue.head.isSome
    (dataEvents flags ctx.appRecvQueue.head.isSome ctx.networkRecvQueue.head.isSome)

/-- The bits for data say nothing about the close. -/
theorem dataEvents_mem (flags : UInt32) (app network : Bool) :
    dataEvents flags app network ∈ ([0, 1, 2, 3] : List UInt32) := by
  unfold dataEvents
  dsimp only
  split <;> split <;> decide

/-- A pass reports the close exactly when it is requested and no data waits. -/
theorem closeEvent_reports {Q : Type} (ctx : StcpContext Q) (flags : UInt32) (app network : Bool) :
    (closeEvent ctx app (dataEvents flags app network)).1 &&& appCloseRequested ≠ 0 ↔
      ctx.closeRequested = true ∧ app = false := by
  have hbits : ∀ rc ∈ ([0, 1, 2, 3] : List UInt32), rc &&& appCloseRequested = 0 ∧
      (rc ||| appCloseRequested) &&& appCloseRequested ≠ 0 := by
    simp only [List.forall_mem_cons]
    exact ⟨by decide, by decide, by decide, by decide, nofun⟩
  obtain ⟨hclear, hset⟩ := hbits _ (dataEvents_mem flags app network)
  unfold closeEvent
  split
  · rename_i h
    exact iff_of_true hset h
  · rename_i h
    exact iff_of_false (not_not_intro hclear) h

/-- A call of `stcp_wait_for_event`; `timed` is a non-null `abstime`. -/
structure WaitCall where
  flags : UInt32
  timed : Bool
  deriving DecidableEq, Repr

/-- A return of `stcp_wait_for_event`, with the bytes `stcp_app_recv` had handed out by then. -/
structure WaitReturn where
  flags : UInt32
  rc : UInt32
  received : List UInt8
  deriving DecidableEq, Repr

/-- The call returned `APP_CLOSE_REQUESTED`. -/
def WaitReturn.closes (e : WaitReturn) : Bool := e.rc &&& appCloseRequested != 0

/-- A return of `myread`: the length asked for, the value returned and the bytes this counts. -/
structure ReadReturn where
  bufLen : Nat
  len : Int
  bytes : List UInt8
  deriving DecidableEq, Repr

/-- A connection with the history of its calls. -/
structure StcpRun (Q : Type) where
  ctx : StcpContext Q
  /-- `myclose` was called. -/
  closed : Bool
  /-- The calls blocked on `data_ready_cond`. -/
  waiting : List WaitCall
  /-- The bytes passed to `mywrite`. -/
  written : List UInt8
  /-- The bytes handed out by `stcp_app_recv`. -/
  received : List UInt8
  events : List WaitReturn
  /-- The bytes passed to `stcp_app_send`. -/
  sent : List UInt8
  /-- The bytes that had been passed to `stcp_app_send` at the call of `stcp_fin_received`. -/
  fin : Option (List UInt8)
  reads : List ReadReturn

namespace StcpRun

variable {Q : Type}

/-- A cleared context. -/
def start (queue : Q) : StcpRun Q where
  ctx := ⟨queue, queue, queue, false, false⟩
  closed := false
  waiting := []
  written := []
  received := []
  events := []
  sent := []
  fin := none
  reads := []

/-- The bytes returned by `myread`. -/
def returned (r : StcpRun Q) : List UInt8 := r.reads.flatMap ReadReturn.bytes

/-- The returns of `stcp_wait_for_event` that announced the close. -/
def closeEvents (r : StcpRun Q) : List WaitReturn := r.events.filter WaitReturn.closes

/-- The end of a pass of `stcp_wait_for_event`: it returns, or blocks on the condition. -/
def endPass (r : StcpRun Q) (call : WaitCall) (out : UInt32 × StcpContext Q) : StcpRun Q :=
  if out.1 ≠ 0 then
    { r with ctx := out.2, events := r.events ++ [⟨call.flags, out.1, r.received⟩] }
  else { r with ctx := out.2, waiting := r.waiting ++ [call] }

/-- The wait timed out; `rc` is still 0. -/
def endTimeout (r : StcpRun Q) (call : WaitCall) : StcpRun Q :=
  { r with events := r.events ++ [⟨call.flags, 0, r.received⟩] }

/-- A blocked call goes on. -/
def resume (r : StcpRun Q) (i : Nat) (goOn : StcpRun Q → WaitCall → StcpRun Q) : StcpRun Q :=
  match r.waiting[i]? with
  | none => r
  | some call => goOn { r with waiting := r.waiting.eraseIdx i } call

/-- A return of `myread`. -/
def endRead (r : StcpRun Q) (bufLen : Nat) (ctx : StcpContext Q) (buf : List UInt8) (len : Int) :
    StcpRun Q :=
  { r with ctx, reads := r.reads ++ [⟨bufLen, len, buf.take len.toNat⟩] }

end StcpRun

/-- A call, with what the allocator returned to it or with the caller's buffer. A call of
`stcp_wait_for_event` that blocked wakes up or times out later, under its place in the list of
those that wait. -/
inductive StcpOp where
  | write (mem : Allocation) (buf : List UInt8)
  | close
  | appRecv (dst : List UInt8) (maxLen : Nat)
  | waitForEvent (call : WaitCall)
  | wake (i : Nat)
  | timeout (i : Nat)
  | appSend (mem : Allocation) (src : List UInt8)
  | finReceived (mem : Allocation)
  | read (buf : List UInt8) (bufLen : Nat)
  | networkArrive (mem : Allocation) (packet : List UInt8)
  | networkRecv (dst : List UInt8) (maxLen : Nat)
  deriving DecidableEq, Repr

namespace StcpOp

variable {Q : Type}

/-- `malloc` succeeds, with an unused node and a block of the packet's size. -/
def Fresh (pq : PacketQueue) (mem : Allocation) (packet : List UInt8) : Prop :=
  (∃ a ∈ mem.node, pq.heap a = none) ∧ ∃ block ∈ mem.data, block.length = packet.length

instance decidableFresh (pq : PacketQueue) (mem : Allocation) (packet : List UInt8) :
    Decidable (Fresh pq mem packet) :=
  inferInstanceAs (Decidable (_ ∧ _))

/-- The order of the application's calls and the place of a blocked one: there is one `myclose` and
nothing is written or read after it, one `stcp_fin_received`, and only a timed wait times out. -/
def InOrder (r : StcpRun Q) : StcpOp → Prop
  | write _ _ | close | read _ _ => r.closed = false
  | finReceived _ => r.fin = none
  | wake i => i < r.waiting.length
  | timeout i => ∃ call ∈ r.waiting[i]?, call.timed = true
  | _ => True

/-- A dequeue passes its wait on a queue that holds something, with a buffer of `max_len` bytes or
more. -/
def Waited (nonempty : Q → Prop) (r : StcpRun Q) : StcpOp → Prop
  | appRecv dst maxLen => nonempty r.ctx.appRecvQueue ∧ maxLen ≤ dst.length
  | read buf bufLen =>
    (r.ctx.eof = true ∨ nonempty r.ctx.appSendQueue) ∧ bufLen ≤ buf.length
  | networkRecv dst maxLen => nonempty r.ctx.networkRecvQueue ∧ maxLen ≤ dst.length
  | _ => True

/-- What the allocator may return. -/
def Allocated (r : StcpRun PacketQueue) : StcpOp → Prop
  | write mem buf => Fresh r.ctx.appRecvQueue mem buf
  | appSend mem src => 0 < src.length → Fresh r.ctx.appSendQueue mem src
  | finReceived mem => Fresh r.ctx.appSendQueue mem []
  | networkArrive mem packet => Fresh r.ctx.networkRecvQueue mem packet
  | _ => True

end StcpOp

namespace StcpRun

/-- A call and what it adds to the history. -/
def step (r : StcpRun PacketQueue) : StcpOp → Exec StcpAssert (StcpRun PacketQueue)
  | .write mem buf => do
    let ctx ← mywrite r.ctx mem buf
    pure { r with ctx, written := r.written ++ buf }
  | .close => .ok { r with ctx := requestClose r.ctx, closed := true }
  | .appRecv dst maxLen => do
    let (ctx, dst, len) ← stcpAppRecv r.ctx dst maxLen
    pure { r with ctx, received := r.received ++ dst.take len }
  | .waitForEvent call => .ok (r.endPass call (eventPass r.ctx call.flags))
  | .wake i => .ok (r.resume i fun r call => r.endPass call (eventPass r.ctx call.flags))
  | .timeout i => .ok (r.resume i endTimeout)
  | .appSend mem src => do
    let ctx ← stcpAppSend r.ctx mem src
    pure { r with ctx, sent := r.sent ++ src }
  | .finReceived mem => do
    let ctx ← stcpFinReceived r.ctx mem
    pure { r with ctx, fin := some r.sent }
  | .read buf bufLen => do
    let (ctx, buf, len) ← myread r.ctx buf bufLen
    pure (r.endRead bufLen ctx buf len)
  | .networkArrive mem packet => do
    let queue ← (enqueueBuffer r.ctx.networkRecvQueue mem packet).within .queue
    pure { r with ctx := { r.ctx with networkRecvQueue := queue } }
  | .networkRecv dst maxLen => do
    let out ← (dequeueBuffer r.ctx.networkRecvQueue dst maxLen false).within .queue
    pure { r with ctx := { r.ctx with networkRecvQueue := out.queue } }

end StcpRun

/-- The calls on one connection, each under the lock of the context, in any order. -/
def stcpMachine : Machine StcpAssert (StcpRun PacketQueue) StcpOp where
  enabled := fun r op => op.InOrder r ∧ op.Waited (fun pq => pq.head ≠ none) r ∧ op.Allocated r
  step := StcpRun.step

namespace StcpOp

variable {Q : Type}

instance decidableInOrder (r : StcpRun Q) : (op : StcpOp) → Decidable (op.InOrder r)
  | write _ _ | close | read _ _ => inferInstanceAs (Decidable (r.closed = false))
  | finReceived _ => inferInstanceAs (Decidable (r.fin = none))
  | wake i => inferInstanceAs (Decidable (i < r.waiting.length))
  | timeout i => inferInstanceAs (Decidable (∃ call ∈ r.waiting[i]?, call.timed = true))
  | appRecv _ _ | waitForEvent _ | appSend _ _ | networkArrive _ _ | networkRecv _ _ =>
    isTrue trivial

instance decidableWaited (nonempty : Q → Prop) [DecidablePred nonempty] (r : StcpRun Q) :
    (op : StcpOp) → Decidable (op.Waited nonempty r)
  | appRecv dst maxLen =>
    inferInstanceAs (Decidable (nonempty r.ctx.appRecvQueue ∧ maxLen ≤ dst.length))
  | read buf bufLen => inferInstanceAs
      (Decidable ((r.ctx.eof = true ∨ nonempty r.ctx.appSendQueue) ∧ bufLen ≤ buf.length))
  | networkRecv dst maxLen =>
    inferInstanceAs (Decidable (nonempty r.ctx.networkRecvQueue ∧ maxLen ≤ dst.length))
  | write _ _ | close | waitForEvent _ | wake _ | timeout _ | appSend _ _ | finReceived _
  | networkArrive _ _ => isTrue trivial

instance decidableAllocated (r : StcpRun PacketQueue) : (op : StcpOp) → Decidable (op.Allocated r)
  | write mem buf => inferInstanceAs (Decidable (Fresh r.ctx.appRecvQueue mem buf))
  | appSend mem src =>
    inferInstanceAs (Decidable (0 < src.length → Fresh r.ctx.appSendQueue mem src))
  | finReceived mem => inferInstanceAs (Decidable (Fresh r.ctx.appSendQueue mem []))
  | networkArrive mem packet =>
    inferInstanceAs (Decidable (Fresh r.ctx.networkRecvQueue mem packet))
  | close | appRecv _ _ | waitForEvent _ | wake _ | timeout _ | read _ _ | networkRecv _ _ =>
    isTrue trivial

end StcpOp

instance stcpMachine_decidableEnabled (r : StcpRun PacketQueue) (op : StcpOp) :
    Decidable (stcpMachine.enabled r op) :=
  inferInstanceAs (Decidable (_ ∧ _ ∧ _))

/-- The packets of a queue, the head first. -/
abbrev Packets := List (List UInt8)

/-- The bytes a dequeue of part of a packet takes, and the packets it leaves. -/
def takeFront (maxLen : Nat) : Packets → List UInt8 × Packets
  | [] => ([], [])
  | packet :: packets =>
    if maxLen < packet.length then (packet.take maxLen, packet.drop maxLen :: packets)
    else (packet, packets)

/-- A packet that is too long is taken in part. -/
theorem takeFront_of_lt {maxLen : Nat} {packet : List UInt8} (h : maxLen < packet.length)
    (packets : Packets) :
    takeFront maxLen (packet :: packets) = (packet.take maxLen, packet.drop maxLen :: packets) :=
  if_pos h

theorem takeFront_of_le {maxLen : Nat} {packet : List UInt8} (h : packet.length ≤ maxLen)
    (packets : Packets) : takeFront maxLen (packet :: packets) = (packet, packets) :=
  if_neg (Nat.not_lt.2 h)

/-- No byte is lost or doubled. -/
theorem takeFront_flatten (maxLen : Nat) (packets : Packets) :
    (takeFront maxLen packets).1 ++ (takeFront maxLen packets).2.flatten = packets.flatten := by
  cases packets with
  | nil => rfl
  | cons packet packets =>
    rcases lt_or_ge maxLen packet.length with hlong | hle
    · rw [takeFront_of_lt hlong, List.flatten_cons, ← List.append_assoc, List.take_append_drop,
        List.flatten_cons]
    · rw [takeFront_of_le hle, List.flatten_cons]

/-- A dequeue of part of a packet, seen as one on the list. -/
theorem dequeueBuffer_takeFront {pq : PacketQueue} {packets : Packets} (h : pq.Holds packets)
    (hne : pq.head ≠ none) {dst : List UInt8} {maxLen : Nat} (hdst : maxLen ≤ dst.length) :
    ∃ out, dequeueBuffer pq dst maxLen true = .ok out ∧
      out.queue.Holds (takeFront maxLen packets).2 ∧
      out.packetLen = (takeFront maxLen packets).1.length ∧
      out.dst.take out.packetLen = (takeFront maxLen packets).1 := by
  cases packets with
  | nil => exact absurd (h.head_eq_none.2 rfl) hne
  | cons packet packets =>
    rcases lt_or_ge maxLen packet.length with hlong | hle
    · obtain ⟨pq', hrun, hholds⟩ := dequeueBuffer_front h hdst hlong
      have hlen : (packet.take maxLen).length = maxLen := by
        rw [List.length_take, Nat.min_eq_left hlong.le]
      rw [takeFront_of_lt hlong]
      exact ⟨_, hrun, hholds, hlen.symm, List.take_left' hlen⟩
    · obtain ⟨pq', hrun, hholds⟩ := dequeueBuffer_whole h hdst (.inl hle)
      rw [takeFront_of_le hle]
      refine ⟨_, hrun, hholds, rfl, ?_⟩
      rw [List.take_of_length_le hle]
      exact List.take_left

namespace StcpRun

/-- The same call on lists of packets, where nothing is asserted and nothing is allocated. -/
def next (r : StcpRun Packets) : StcpOp → StcpRun Packets
  | .write _ buf =>
    { r with
      ctx := { r.ctx with appRecvQueue := r.ctx.appRecvQueue ++ [buf] }
      written := r.written ++ buf }
  | .close => { r with ctx := requestClose r.ctx, closed := true }
  | .appRecv _ maxLen =>
    let (bytes, packets) := takeFront maxLen r.ctx.appRecvQueue
    { r with ctx := { r.ctx with appRecvQueue := packets }, received := r.received ++ bytes }
  | .waitForEvent call => r.endPass call (pass r.ctx call.flags)
  | .wake i => r.resume i fun r call => r.endPass call (pass r.ctx call.flags)
  | .timeout i => r.resume i endTimeout
  | .appSend _ src =>
    { r with
      ctx := { r.ctx with
        appSendQueue := r.ctx.appSendQueue ++ if 0 < src.length then [src] else [] }
      sent := r.sent ++ src }
  | .finReceived _ =>
    { r with
      ctx := { r.ctx with appSendQueue := r.ctx.appSendQueue ++ [[]] }
      fin := some r.sent }
  | .read _ bufLen =>
    if r.ctx.eof then r.endRead bufLen r.ctx [] 0
    else
      let (bytes, packets) := takeFront bufLen r.ctx.appSendQueue
      let len := intOfSize bytes.length
      r.endRead bufLen (noteEof { r.ctx with appSendQueue := packets } len) bytes len
  | .networkArrive _ packet =>
    { r with ctx := { r.ctx with networkRecvQueue := r.ctx.networkRecvQueue ++ [packet] } }
  | .networkRecv _ _ =>
    { r with ctx := { r.ctx with networkRecvQueue := r.ctx.networkRecvQueue.tail } }
where
  /-- A pass of `stcp_wait_for_event`. -/
  pass (ctx : StcpContext Packets) (flags : UInt32) : UInt32 × StcpContext Packets :=
    closeEvent ctx (ctx.appRecvQueue != [])
      (dataEvents flags (ctx.appRecvQueue != []) (ctx.networkRecvQueue != []))

/-- The same run over other queues. -/
def withQueues {Q Q' : Type} (r : StcpRun Q) (appRecv appSend networkRecv : Q') : StcpRun Q' :=
  { r with ctx := ⟨appRecv, appSend, networkRecv, r.ctx.closeRequested, r.ctx.eof⟩ }

theorem waiting_withQueues {Q Q' : Type} {r : StcpRun Q} {i : Nat} (hi : i < r.waiting.length)
    (appRecv appSend networkRecv : Q') :
    (r.withQueues appRecv appSend networkRecv).waiting[i]? = some r.waiting[i] :=
  List.getElem?_eq_getElem hi

/-- A call that wakes up passes its wait again. -/
theorem next_wake {a : StcpRun Packets} {i : Nat} (hi : i < a.waiting.length) :
    a.next (.wake i) = endPass { a with waiting := a.waiting.eraseIdx i } a.waiting[i]
      (next.pass a.ctx a.waiting[i].flags) := by
  simp only [next, resume, List.getElem?_eq_getElem hi]

/-- The request is set only once `myclose` was called. -/
def RequestedOnClose (a : StcpRun Packets) : Prop := a.ctx.closeRequested = true → a.closed = true

/-- The linked queues of `c` hold the packets of `a`, and the two agree on all else. -/
def Represents (c : StcpRun PacketQueue) (a : StcpRun Packets) : Prop :=
  a.RequestedOnClose ∧
    ∃ appRecv appSend networkRecv, appRecv.Holds a.ctx.appRecvQueue ∧
      appSend.Holds a.ctx.appSendQueue ∧ networkRecv.Holds a.ctx.networkRecvQueue ∧
      c = a.withQueues appRecv appSend networkRecv

end StcpRun

/-- The calls over lists of packets. -/
def packetsMachine : Machine Empty (StcpRun Packets) StcpOp where
  enabled := fun r op => op.InOrder r ∧ op.Waited (fun packets => packets ≠ []) r
  step := fun r op => .ok (r.next op)

/-- Three empty queues, in any heap. -/
theorem StcpRun.represents_start (heap : Addr → Option PacketQueueNode) :
    (start (⟨heap, none, none⟩ : PacketQueue)).Represents (start []) := by
  have hempty : (⟨heap, none, none⟩ : PacketQueue).Holds [] := ⟨[], Linked.empty heap, nofun, rfl⟩
  exact ⟨nofun, _, _, _, hempty, hempty, hempty, rfl⟩

/-- An allocated packet joins the end of its queue. -/
theorem enqueueBuffer_within {pq : PacketQueue} {packets : Packets} (h : pq.Holds packets)
    {mem : Allocation} {packet : List UInt8} (hfresh : StcpOp.Fresh pq mem packet) :
    ∃ pq', (enqueueBuffer pq mem packet).within StcpAssert.queue = .ok pq' ∧
      pq'.Holds (packets ++ [packet]) := by
  obtain ⟨⟨a, ha, hfree⟩, block, hblock, hlen⟩ := hfresh
  obtain ⟨node, data⟩ := mem
  cases ha
  cases hblock
  obtain ⟨pq', hrun, hholds⟩ := enqueueBuffer_spec h hfree hlen
  exact ⟨pq', by rw [hrun, Exec.within_ok], hholds⟩

theorem PacketQueue.Holds.isSome_head {pq : PacketQueue} {packets : Packets}
    (h : pq.Holds packets) : pq.head.isSome = (packets != []) := by
  rw [Bool.eq_iff_iff, Option.isSome_iff_ne_none, bne_iff_ne]
  exact not_congr h.head_eq_none

/-- The value of a `size_t` stored in an `int` never counts more than there is. -/
theorem toNat_intOfSize_le (n : Nat) : (intOfSize n).toNat ≤ n := by
  have hgeneral : ∀ m : Nat, (n : Int).bmod m ≤ n := by
    intro m
    have h : ((n % m : Nat) : Int) ≤ n := Int.ofNat_le.2 (Nat.mod_le n m)
    rw [Int.natCast_mod] at h
    rw [Int.bmod_def]
    split <;> omega
  exact Int.toNat_le.2 (hgeneral _)

namespace StcpRun

/-- A pass sees of a queue only whether it is empty. -/
theorem eventPass_withQueues (a : StcpRun Packets) {appRecv appSend networkRecv : PacketQueue}
    (happ : appRecv.Holds a.ctx.appRecvQueue) (hnet : networkRecv.Holds a.ctx.networkRecvQueue)
    (call : WaitCall) (waiting : List WaitCall) :
    endPass { a.withQueues appRecv appSend networkRecv with waiting } call
        (eventPass (a.withQueues appRecv appSend networkRecv).ctx call.flags) =
      (endPass { a with waiting } call (next.pass a.ctx call.flags)).withQueues appRecv appSend
        networkRecv := by
  unfold eventPass next.pass closeEvent
  rw [withQueues, happ.isSome_head, hnet.isSome_head]
  unfold endPass
  dsimp only
  split <;> split <;> rfl

/-- A pass takes nothing off the queues. -/
theorem endPass_queues (a : StcpRun Packets) (call : WaitCall) :
    let ctx := (a.endPass call (next.pass a.ctx call.flags)).ctx
    ctx.appRecvQueue = a.ctx.appRecvQueue ∧ ctx.appSendQueue = a.ctx.appSendQueue ∧
      ctx.networkRecvQueue = a.ctx.networkRecvQueue := by
  unfold endPass next.pass closeEvent
  split <;> split <;> exact ⟨rfl, rfl, rfl⟩

/-- What neither the list of blocked calls nor the rest of a call changes is kept by resuming it. -/
theorem resume_keeps {Q : Type} {P : StcpRun Q → Prop} {r : StcpRun Q} (h : P r) (i : Nat)
    {goOn : StcpRun Q → WaitCall → StcpRun Q}
    (hkeep : ∀ waiting call, P (goOn { r with waiting } call)) : P (r.resume i goOn) := by
  unfold resume
  split
  · exact h
  · exact hkeep _ _

/-- A pass of the wait closes nothing. -/
theorem RequestedOnClose.endPass {a : StcpRun Packets} (h : a.RequestedOnClose) (call : WaitCall) :
    (a.endPass call (next.pass a.ctx call.flags)).RequestedOnClose := by
  unfold RequestedOnClose StcpRun.endPass next.pass closeEvent
  split <;> split <;> first | exact h | exact nofun

/-- Only `myclose` asks for a close. -/
theorem RequestedOnClose.next {a : StcpRun Packets} (h : a.RequestedOnClose) (op : StcpOp) :
    (a.next op).RequestedOnClose := by
  cases op with
  | close => exact fun _ => rfl
  | waitForEvent call => exact h.endPass call
  | wake i =>
    refine resume_keeps h i fun waiting call => ?_
    exact @RequestedOnClose.endPass { a with waiting } h call
  | timeout i => exact resume_keeps h i fun _ _ => h
  | read buf bufLen =>
    simp only [StcpRun.next]
    split
    · exact h
    · unfold noteEof
      split
      · exact h
      · exact h
  | write mem buf | appRecv dst maxLen | appSend mem src | finReceived mem
  | networkArrive mem packet | networkRecv dst maxLen => exact h

end StcpRun

/-- The call of the code on these linked queues ends in some that hold what the same call on the
lists leaves. -/
def StcpRun.Follows (a : StcpRun Packets) (appRecv appSend networkRecv : PacketQueue)
    (op : StcpOp) : Prop :=
  ∃ appRecv' appSend' networkRecv', appRecv'.Holds (a.next op).ctx.appRecvQueue ∧
    appSend'.Holds (a.next op).ctx.appSendQueue ∧
    networkRecv'.Holds (a.next op).ctx.networkRecvQueue ∧
    stcpMachine.step (a.withQueues appRecv appSend networkRecv) op =
      .ok ((a.next op).withQueues appRecv' appSend' networkRecv')

section Follows

variable {a : StcpRun Packets} {appRecv appSend networkRecv : PacketQueue}
  (happ : appRecv.Holds a.ctx.appRecvQueue) (hsend : appSend.Holds a.ctx.appSendQueue)
  (hnet : networkRecv.Holds a.ctx.networkRecvQueue)
include happ hsend hnet

/-- On linked queues `mywrite` puts in the same bytes as on lists. -/
theorem follows_write {mem : Allocation} {buf : List UInt8}
    (hopen : a.ctx.closeRequested = false) (hfresh : StcpOp.Fresh appRecv mem buf) :
    a.Follows appRecv appSend networkRecv (.write mem buf) := by
  obtain ⟨pq', hrun, hholds⟩ := enqueueBuffer_within happ hfresh
  refine ⟨pq', appSend, networkRecv, hholds, hsend, hnet, ?_⟩
  simp only [stcpMachine, StcpRun.step, mywrite, StcpRun.withQueues, assert_of hopen, hrun,
    Exec.ok_bind, Exec.pure_eq_ok]
  rfl

/-- On linked queues `stcp_app_recv` takes the same bytes as on lists. -/
theorem follows_appRecv {dst : List UInt8} {maxLen : Nat} (hne : appRecv.head ≠ none)
    (hdst : maxLen ≤ dst.length) :
    a.Follows appRecv appSend networkRecv (.appRecv dst maxLen) := by
  obtain ⟨out, hrun, hholds, -, hbytes⟩ := dequeueBuffer_takeFront happ hne hdst
  refine ⟨out.queue, appSend, networkRecv, hholds, hsend, hnet, ?_⟩
  simp only [stcpMachine, StcpRun.step, stcpAppRecv, StcpRun.withQueues, hrun, Exec.within_ok,
    Exec.ok_bind, Exec.pure_eq_ok, hbytes]
  rfl

/-- `stcp_wait_for_event` leaves the queues alone. -/
theorem follows_wait (call : WaitCall) :
    a.Follows appRecv appSend networkRecv (.waitForEvent call) := by
  obtain ⟨h₁, h₂, h₃⟩ := StcpRun.endPass_queues a call
  refine ⟨appRecv, appSend, networkRecv, ?_, ?_, ?_, ?_⟩
  · exact h₁ ▸ happ
  · exact h₂ ▸ hsend
  · exact h₃ ▸ hnet
  · exact congrArg Except.ok (StcpRun.eventPass_withQueues a happ hnet call a.waiting)

theorem follows_wake {i : Nat} (hi : i < a.waiting.length) :
    a.Follows appRecv appSend networkRecv (.wake i) := by
  obtain ⟨h₁, h₂, h₃⟩ :=
    StcpRun.endPass_queues { a with waiting := a.waiting.eraseIdx i } a.waiting[i]
  unfold StcpRun.Follows
  rw [StcpRun.next_wake hi]
  refine ⟨appRecv, appSend, networkRecv, ?_, ?_, ?_, ?_⟩
  · exact h₁ ▸ happ
  · exact h₂ ▸ hsend
  · exact h₃ ▸ hnet
  · rw [← StcpRun.eventPass_withQueues a happ hnet]
    simp only [stcpMachine, StcpRun.step, StcpRun.resume, StcpRun.waiting_withQueues hi]
    rfl

theorem follows_timeout {i : Nat} (hi : i < a.waiting.length) :
    a.Follows appRecv appSend networkRecv (.timeout i) := by
  have hnext : a.next (.timeout i) =
      StcpRun.endTimeout { a with waiting := a.waiting.eraseIdx i } a.waiting[i] := by
    simp only [StcpRun.next, StcpRun.resume, List.getElem?_eq_getElem hi]
  unfold StcpRun.Follows
  rw [hnext]
  refine ⟨appRecv, appSend, networkRecv, happ, hsend, hnet, ?_⟩
  simp only [stcpMachine, StcpRun.step, StcpRun.resume, StcpRun.waiting_withQueues hi]
  rfl

/-- On linked queues `stcp_app_send` puts in the same bytes as on lists. -/
theorem follows_appSend {mem : Allocation} {src : List UInt8}
    (hfresh : 0 < src.length → StcpOp.Fresh appSend mem src) :
    a.Follows appRecv appSend networkRecv (.appSend mem src) := by
  by_cases hlen : 0 < src.length
  · obtain ⟨pq', hrun, hholds⟩ := enqueueBuffer_within hsend (hfresh hlen)
    refine ⟨appRecv, pq', networkRecv, happ, ?_, hnet, ?_⟩
    · simpa only [StcpRun.next, if_pos hlen] using hholds
    · simp only [stcpMachine, StcpRun.step, stcpAppSend, StcpRun.withQueues, if_pos hlen, hrun,
        Exec.ok_bind, Exec.pure_eq_ok]
      rfl
  · refine ⟨appRecv, appSend, networkRecv, happ, ?_, hnet, ?_⟩
    · simpa only [StcpRun.next, if_neg hlen, List.append_nil] using hsend
    · simp only [stcpMachine, StcpRun.step, stcpAppSend, StcpRun.withQueues, if_neg hlen,
        Exec.ok_bind, Exec.pure_eq_ok]
      rfl

/-- On linked queues `stcp_fin_received` puts in the same end marker as on lists. -/
theorem follows_finReceived {mem : Allocation} (hfresh : StcpOp.Fresh appSend mem []) :
    a.Follows appRecv appSend networkRecv (.finReceived mem) := by
  obtain ⟨pq', hrun, hholds⟩ := enqueueBuffer_within hsend hfresh
  refine ⟨appRecv, pq', networkRecv, happ, hholds, hnet, ?_⟩
  simp only [stcpMachine, StcpRun.step, stcpFinReceived, StcpRun.withQueues, hrun, Exec.ok_bind,
    Exec.pure_eq_ok]
  rfl

theorem follows_networkArrive {mem : Allocation} {packet : List UInt8}
    (hfresh : StcpOp.Fresh networkRecv mem packet) :
    a.Follows appRecv appSend networkRecv (.networkArrive mem packet) := by
  obtain ⟨pq', hrun, hholds⟩ := enqueueBuffer_within hnet hfresh
  refine ⟨appRecv, appSend, pq', happ, hsend, hholds, ?_⟩
  simp only [stcpMachine, StcpRun.step, StcpRun.withQueues, hrun, Exec.ok_bind, Exec.pure_eq_ok]
  rfl

/-- On linked queues `stcp_network_recv` takes the same bytes as on lists. -/
theorem follows_networkRecv {dst : List UInt8} {maxLen : Nat} (hne : networkRecv.head ≠ none)
    (hdst : maxLen ≤ dst.length) :
    a.Follows appRecv appSend networkRecv (.networkRecv dst maxLen) := by
  obtain ⟨packet, packets, hpackets⟩ := List.exists_cons_of_ne_nil (mt hnet.head_eq_none.2 hne)
  have hnet' := hnet
  rw [hpackets] at hnet'
  obtain ⟨pq', hrun, hholds⟩ := dequeueBuffer_whole hnet' hdst (.inr rfl)
  refine ⟨appRecv, appSend, pq', happ, hsend, ?_, ?_⟩
  · simpa only [StcpRun.next, hpackets, List.tail_cons] using hholds
  · simp only [stcpMachine, StcpRun.step, StcpRun.withQueues, hrun, Exec.within_ok, Exec.ok_bind,
      Exec.pure_eq_ok]
    rfl

/-- On linked queues `myread` takes the same bytes as on lists. -/
theorem follows_read {buf : List UInt8} {bufLen : Nat} (hopen : a.ctx.closeRequested = false)
    (hwaited : a.ctx.eof = true ∨ appSend.head ≠ none) (hbuf : bufLen ≤ buf.length) :
    a.Follows appRecv appSend networkRecv (.read buf bufLen) := by
  unfold StcpRun.Follows
  simp only [StcpRun.next]
  by_cases heof : a.ctx.eof = true
  · rw [if_pos heof]
    refine ⟨appRecv, appSend, networkRecv, happ, hsend, hnet, ?_⟩
    simp only [stcpMachine, StcpRun.step, myread, StcpRun.withQueues, assert_of hopen, Exec.ok_bind,
      if_pos heof, Exec.pure_eq_ok]
    rfl
  · rw [if_neg heof]
    obtain ⟨out, hrun, hholds, hlen, hbytes⟩ :=
      dequeueBuffer_takeFront hsend (hwaited.resolve_left heof) hbuf
    have htake : out.dst.take (intOfSize out.packetLen).toNat =
        (takeFront bufLen a.ctx.appSendQueue).1.take (intOfSize out.packetLen).toNat := by
      rw [← hbytes, List.take_take, Nat.min_eq_left (toNat_intOfSize_le _)]
    have hstep : stcpMachine.step (a.withQueues appRecv appSend networkRecv) (.read buf bufLen) =
        .ok ((a.withQueues appRecv appSend networkRecv).endRead bufLen
          (noteEof ⟨appRecv, out.queue, networkRecv, a.ctx.closeRequested, a.ctx.eof⟩
            (intOfSize out.packetLen)) out.dst (intOfSize out.packetLen)) := by
      simp only [stcpMachine, StcpRun.step, myread, StcpRun.withQueues, assert_of hopen,
        Exec.ok_bind, if_neg heof, hrun, Exec.within_ok, Exec.pure_eq_ok]
    rw [hlen] at htake hstep
    rw [hstep]
    unfold StcpRun.endRead
    rw [htake]
    unfold noteEof
    split
    · exact ⟨appRecv, out.queue, networkRecv, happ, hholds, hnet, rfl⟩
    · exact ⟨appRecv, out.queue, networkRecv, happ, hholds, hnet, rfl⟩

end Follows

/-- The code does on its linked queues what the same calls do on lists of packets, and no assertion
fails. -/
theorem stcpMachine_simulates : stcpMachine.Simulates packetsMachine StcpRun.Represents := by
  rintro c a op ⟨hrequest, appRecv, appSend, networkRecv, happ, hsend, hnet, rfl⟩
    ⟨horder, hwaited, halloc⟩
  have hopen : a.closed = false → a.ctx.closeRequested = false := by
    intro hclosed
    rw [Bool.eq_false_iff]
    exact fun hreq => Bool.false_ne_true (hclosed.symm.trans (hrequest hreq))
  suffices (op.InOrder a ∧ op.Waited (fun packets => packets ≠ []) a) ∧
      a.Follows appRecv appSend networkRecv op by
    obtain ⟨henabled, q₁, q₂, q₃, h₁, h₂, h₃, hstep⟩ := this
    refine ⟨henabled, ?_⟩
    rintro _ ⟨⟩
    exact ⟨_, hstep, hrequest.next op, q₁, q₂, q₃, h₁, h₂, h₃, rfl⟩
  cases op with
  | write mem buf => exact ⟨⟨horder, trivial⟩, follows_write happ hsend hnet (hopen horder) halloc⟩
  | close => exact ⟨⟨horder, trivial⟩, appRecv, appSend, networkRecv, happ, hsend, hnet, rfl⟩
  | appRecv dst maxLen =>
    obtain ⟨hne, hdst⟩ := hwaited
    exact ⟨⟨trivial, mt happ.head_eq_none.2 hne, hdst⟩, follows_appRecv happ hsend hnet hne hdst⟩
  | waitForEvent call => exact ⟨⟨trivial, trivial⟩, follows_wait happ hsend hnet call⟩
  | wake i => exact ⟨⟨horder, trivial⟩, follows_wake happ hsend hnet horder⟩
  | timeout i =>
    have hi : i < a.waiting.length := by
      obtain ⟨call, hcall, -⟩ := horder
      exact (List.getElem?_eq_some_iff.1 hcall).1
    exact ⟨⟨horder, trivial⟩, follows_timeout happ hsend hnet hi⟩
  | appSend mem src => exact ⟨⟨trivial, trivial⟩, follows_appSend happ hsend hnet halloc⟩
  | finReceived mem => exact ⟨⟨horder, trivial⟩, follows_finReceived happ hsend hnet halloc⟩
  | read buf bufLen =>
    obtain ⟨hready, hbuf⟩ := hwaited
    exact ⟨⟨horder, hready.imp id (mt hsend.head_eq_none.2), hbuf⟩,
      follows_read happ hsend hnet (hopen horder) hready hbuf⟩
  | networkArrive mem packet =>
    exact ⟨⟨trivial, trivial⟩, follows_networkArrive happ hsend hnet halloc⟩
  | networkRecv dst maxLen =>
    obtain ⟨hne, hdst⟩ := hwaited
    exact ⟨⟨trivial, mt hnet.head_eq_none.2 hne, hdst⟩,
      follows_networkRecv happ hsend hnet hne hdst⟩

end ComputerNetworks.Mysock
