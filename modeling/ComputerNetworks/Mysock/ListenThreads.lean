import ComputerNetworks.Core.Machine
import ComputerNetworks.Core.RwLock
import ComputerNetworks.Mysock.ConnectionDemux

/-!
# The threads around a listening socket

The application thread in `myaccept` and `myclose` on a listening socket, the
receive thread of that socket, and the transport threads that it starts. A step
is one thread's next action between two calls that may wait: taking and releasing
`listen_lock`, starting a thread, `pthread_join`. A thread that must wait stays
where it is.
-/

namespace ComputerNetworks.Mysock

/-- The threads that take `listen_lock`. -/
inductive ThreadId where
  | application
  | receiver
  | transport (sd : Nat)
  deriving DecidableEq, Repr

/-- Where the application thread is. The queue `q` it closes is held under its key, as by a
pointer, and `k` counts the slots. -/
inductive ApplicationPc where
  | running
  /-- In `_mysock_dequeue_connection`, reading, waiting for a completed connection. -/
  | accepting
  /-- There, with the connection taken. -/
  | accepted
  /-- In `_network_stop_recv_thread` of the listening socket, waiting for its thread. -/
  | stopping
  /-- In `_mysock_close_passive_socket`, waiting for the lock. -/
  | locking
  /-- At the head of the loop over the slots. -/
  | closing (q : Int) (k : Nat)
  /-- In `myclose` of a queued connection, waiting for its transport thread. -/
  | joining (q : Int) (k sd : Nat)
  /-- Behind the loop. -/
  | unlocking
  | closed
  deriving DecidableEq, Repr

/-- Where the receive thread of the listening socket is. -/
inductive ReceiverPc where
  | polling
  /-- In `_mysock_enqueue_connection`, reading. -/
  | dispatching
  /-- There, behind the start of the threads. -/
  | dispatched
  | exited
  deriving DecidableEq, Repr

/-- Where a transport thread is. -/
inductive TransportPc where
  /-- In `transport_init`, before `stcp_unblock_application`. -/
  | started
  /-- In `_mysock_passive_connection_complete`, waiting for the lock. -/
  | waiting
  /-- There, reading. -/
  | completing
  /-- There, with the connection completed. -/
  | completed
  /-- In `control_loop`. -/
  | looping
  | exited
  deriving DecidableEq, Repr

/-- The tables, `listen_lock`, and where the threads are. -/
structure Threads where
  demux : Demux
  lock : RwLock ThreadId
  application : ApplicationPc
  receiver : ReceiverPc
  transport : Nat → Option TransportPc

/-- The start: the socket listens and its receive thread runs. -/
def Threads.start (demux : Demux) : Threads where
  demux := demux
  lock := .shared []
  application := .running
  receiver := .polling
  transport := fun _ => none

/-- A thread is given the processor, with what it is told from outside. -/
inductive ThreadOp where
  /-- The application calls `myaccept`. -/
  | accept
  /-- The application calls `myclose` on the listening socket. -/
  | close
  /-- The application thread continues a call. -/
  | application
  /-- The receive thread finds a packet, or continues. -/
  | receiver (packet : List UInt8) (packetLen : Nat) (peerAddr : Sockaddr) (peerAddrLen : Int)
      (userData : Nat) (socket : Int)
  /-- The receive thread reads the byte in its exit pipe. -/
  | receiverExit
  | transport (sd : Nat)
  deriving DecidableEq, Repr

/-- `stcp_unblock_application` up to its call of `_mysock_passive_connection_complete`, and whether
it makes that call. -/
def unblockContext (s : Demux) (sd : Nat) : Exec DemuxAssert (Demux × Bool) := do
  let e ← getContext s sd
  assert (e.ctx.blocking = true) .blocking
  pure (s.setContext sd e.ctx.unblock, !e.ctx.isActive)

/-- Uninterrupted, the two parts are `stcp_unblock_application`. -/
theorem stcpUnblockApplication_eq (s : Demux) (sd : Nat) :
    stcpUnblockApplication s sd = (do
      let (s', passive) ← unblockContext s sd
      if passive then do passiveConnectionComplete s' (← derefContext s' sd) else pure s') := by
  unfold stcpUnblockApplication unblockContext
  cases he : getContext s sd with
  | error fault => rfl
  | ok e =>
    have hglobal : s.globalCtx sd = some e := globalCtx_of_getContext he
    have hset : (s.setContext sd e.ctx.unblock).globalCtx sd =
        some { e with ctx := e.ctx.unblock } := by
      rw [Demux.setContext_eq hglobal]
      exact Function.update_self ..
    have hderef : derefContext (s.setContext sd e.ctx.unblock) sd = .ok e.ctx.unblock := by
      rw [derefContext, hset]
    by_cases hblocking : e.ctx.blocking = true
    · simp only [Exec.ok_bind, assert_of hblocking, Exec.pure_eq_ok]
      cases e.ctx.isActive with
      | true => rfl
      | false => simp [hderef, Exec.ok_bind]
    · simp only [Exec.ok_bind, assert, if_neg hblocking]
      rfl

/-- A transport thread moves on. -/
def Threads.goto (s : Threads) (sd : Nat) (pc : TransportPc) : Threads :=
  { s with transport := Function.update s.transport sd (some pc) }

/-- The next step of a transport thread. `control_loop` ends once `done` is set, which only a
transport layer does that `returns`; that of the repository never does. -/
def transportStep (returns : Bool) (s : Threads) (sd : Nat) : Exec DemuxAssert Threads :=
  match s.transport sd with
  | none => .ok s
  | some .started => do
    let (demux, passive) ← unblockContext s.demux sd
    pure ({ s with demux }.goto sd (if passive then .waiting else .looping))
  | some .waiting =>
    match s.lock.rdlock (.transport sd) with
    | none => .ok s
    | some lock => .ok ({ s with lock }.goto sd .completing)
  | some .completing => do
    let ctx ← derefContext s.demux sd
    let demux ← passiveConnectionComplete s.demux ctx
    pure ({ s with demux }.goto sd .completed)
  | some .completed => .ok ({ s with lock := s.lock.unlock (.transport sd) }.goto sd .looping)
  | some .looping => .ok (if returns then s.goto sd .exited else s)
  | some .exited => .ok s

/-- The next step of the receive thread of the listening socket `L`: the lock, the dispatch of the
packet with the start of the transport thread of a new connection, and the release of the lock. -/
def receiverStep (L : Nat) (s : Threads) (packet : List UInt8) (packetLen : Nat)
    (peerAddr : Sockaddr) (peerAddrLen : Int) (userData : Nat) (socket : Int) :
    Exec DemuxAssert Threads :=
  match s.receiver with
  | .polling =>
    match s.lock.rdlock .receiver with
    | none => .ok s
    | some lock => .ok { s with lock, receiver := .dispatching }
  | .dispatching => do
    let (queued, demux) ←
      enqueueConnection s.demux L packet packetLen peerAddr peerAddrLen userData socket
    let s' := { s with demux, receiver := .dispatched }
    match queued, (newMysocket s.demux socket).2 with
    | true, some sd => pure (s'.goto sd .started)
    | _, _ => pure s'
  | .dispatched => .ok { s with lock := s.lock.unlock .receiver, receiver := .polling }
  | .exited => .ok s

/-- The round of the loop in `_mysock_close_passive_socket` at slot `k`, up to the wait in `myclose`
for the transport thread, if it was started; behind the last slot the queue is freed. -/
def closeSlot (s : Threads) (q : Int) (k : Nat) : Exec DemuxAssert Threads :=
  match s.demux.listenTable q with
  | none => .error .dangling
  | some queue =>
    if k < queue.maxLen then
      match queue.connectionQueue[k]? with
      | none => .error .outOfBounds
      | some r =>
        if r.sd = -1 then .ok { s with application := .closing q (k + 1) }
        else do
          let _ ← getContext s.demux r.sd
          pure { s with application := .joining q k r.sd.toNat }
    else
      .ok { s with
        demux := { s.demux with listenTable := Function.update s.demux.listenTable q none }
        application := .unlocking }

/-- The rest of `myclose` of a queued connection behind `pthread_join`: its context is freed. -/
def freeConnection (s : Threads) (q : Int) (k sd : Nat) : Threads :=
  { s with
    demux := { s.demux with globalCtx := Function.update s.demux.globalCtx sd none }
    transport := Function.update s.transport sd none
    application := .closing q (k + 1) }

/-- The next step of the application thread in a call on the listening socket `L`. -/
def applicationStep (L : Nat) (s : Threads) : Exec DemuxAssert Threads :=
  match s.application with
  | .running => .ok s
  | .accepting => do
    let ctx ← derefContext s.demux L
    match ← getConnectionQueue s.demux ctx with
    | none => .error (.assertion .queueFound)
    | some q =>
      if q.completedQueue = [] then pure s
      else do
        let (_, demux) ← dequeueConnection s.demux L
        pure { s with demux, application := .accepted }
  | .accepted => .ok { s with lock := s.lock.unlock .application, application := .running }
  | .stopping =>
    .ok (if s.receiver = .exited then { s with application := .locking } else s)
  | .locking =>
    match s.lock.wrlock .application with
    | none => .ok s
    | some lock => do
      let ctx ← derefContext s.demux L
      match ← getConnectionQueue s.demux ctx with
      | none => pure { s with lock, application := .unlocking }
      | some _ => pure { s with lock, application := .closing ctx.mySd 0 }
  | .closing q k => closeSlot s q k
  | .joining q k sd =>
    match s.transport sd with
    | some .exited => .ok (freeConnection s q k sd)
    | none => .ok (freeConnection s q k sd)
    | some _ => .ok s
  | .unlocking => .ok { s with
      lock := s.lock.unlock .application
      demux := { s.demux with globalCtx := Function.update s.demux.globalCtx L none }
      application := .closed }
  | .closed => .ok s

/-- The threads around the listening socket `L`, in any order. -/
def closeMachine (returns : Bool) (L : Nat) : Machine DemuxAssert Threads ThreadOp where
  enabled := fun _ _ => True
  step := fun s op =>
    match op with
    | .accept =>
      match s.application, s.lock.rdlock .application with
      | .running, some lock => .ok { s with lock, application := .accepting }
      | _, _ => .ok s
    | .close =>
      .ok (if s.application = .running then { s with application := .stopping } else s)
    | .application => applicationStep L s
    | .receiver packet packetLen peerAddr peerAddrLen userData socket =>
      receiverStep L s packet packetLen peerAddr peerAddrLen userData socket
    | .receiverExit =>
      .ok (if s.receiver = .polling ∧ s.application = .stopping then { s with receiver := .exited }
        else s)
    | .transport sd => transportStep returns s sd

instance closeMachine_decidableEnabled (returns : Bool) (L : Nat) (s : Threads) (op : ThreadOp) :
    Decidable ((closeMachine returns L).enabled s op) :=
  inferInstanceAs (Decidable True)

end ComputerNetworks.Mysock
