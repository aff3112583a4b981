import ComputerNetworks.Mysock.Receiver
import ComputerNetworks.Mysock.SetBacklog
import Mathlib.Data.Set.Insert

/-!
# Socket calls that fail

`mybind`, `mylisten` and `myconnect` write down what they were asked for before
the operation that may fail, and take nothing back when it does.
`_mysock_bind_ephemeral` alone sets `bound` after its bind has succeeded.
-/

namespace ComputerNetworks.Mysock

/-- The assertions of the socket calls and of what they call. -/
inductive SocketAssert where
  | demux (site : DemuxAssert)
  | listen (site : ListenAssert)
  /-- `assert(!ctx->listening)`. -/
  | notListening
  /-- `assert(ctx->bound)`. -/
  | bound
  /-- `assert(ctx && !ctx->bound)`. -/
  | notBound
  /-- `VERIFY_SOCKET`. -/
  | socket
  /-- `assert(0)` after a failed `_network_bind` to an ephemeral port. -/
  | bindEphemeral
  /-- `assert(0)` after a failed `_network_start_recv_thread`. -/
  | recvThread
  deriving DecidableEq, Repr

/-- What the system and the transport layer answer during a call. -/
structure Underlying where
  bindOk : Bool
  listenOk : Bool
  /-- The port that `getsockname` reports. -/
  localPort : Nat
  calloc : Bool
  realloc : Realloc
  /-- `signal` did not return `SIG_ERR`. -/
  signalOk : Bool
  /-- `stcp_errno` when the application is unblocked. -/
  stcpErrno : Int
  deriving DecidableEq, Repr

/-- The tables, with the `local_addr` of each context. -/
structure SocketState where
  listen : ListenState
  localAddr : Nat → Sockaddr

/-- Write a context through its pointer. -/
def SocketState.setContext (s : SocketState) (sd : Nat) (ctx : MysockContext) : SocketState :=
  { s with listen := { s.listen with sys := s.listen.sys.setContext sd ctx } }

/-- Write the `local_addr` of a context. -/
def SocketState.setLocalAddr (s : SocketState) (sd : Nat) (addr : Sockaddr) : SocketState :=
  { s with localAddr := Function.update s.localAddr sd addr }

/-- `_network_bind`. -/
def networkBind (ctx : NetworkContext) (env : Underlying) : Exec SocketAssert Int := do
  assert (0 ≤ ctx.socket) .socket
  pure (if env.bindOk then 0 else -1)

/-- `_network_get_port`, of a socket whose name the system knows. -/
def networkGetPort (ctx : NetworkContext) (env : Underlying) : Exec SocketAssert Nat := do
  assert (0 ≤ ctx.socket) .socket
  pure env.localPort

/-- `_network_listen`. -/
def networkListen (ctx : NetworkContext) (env : Underlying) : Exec SocketAssert Int := do
  assert (0 ≤ ctx.socket) .socket
  pure (if env.listenOk then 0 else -1)

/-- `_network_start_recv_thread`, after whose failure both callers stop. -/
def networkStartRecvThread (env : Underlying) : Exec SocketAssert Unit :=
  assert (env.signalOk = true) .recvThread

/-- `mybind`. -/
def SocketState.mybind (s : SocketState) (sd : Int) (addr : Sockaddr) (env : Underlying) :
    Exec SocketAssert (Int × SocketState) := do
  let e ← Exec.within .demux (getContext s.listen.sys sd)
  if addr.family ≠ afInet then pure (-1, s)
  else do
    assert (e.ctx.listening = false) .notListening
    let s := (s.setContext sd.toNat { e.ctx with bound := true }).setLocalAddr sd.toNat addr
    let rc ← networkBind e.ctx.network env
    pure (rc, s)

/-- `mylisten`, whose second check of `bound` repeats the assert before it. -/
def SocketState.mylisten (s : SocketState) (sd backlog : Int) (env : Underlying) :
    Exec SocketAssert (Int × SocketState) := do
  let e ← Exec.within .demux (getContext s.listen.sys sd)
  assert (e.ctx.bound = true) .bound
  let ctx := { e.ctx with listening := true }
  let s := s.setContext sd.toNat ctx
  let localPort ← networkGetPort ctx.network env
  let listen ← Exec.within .listen
    (setBacklog s.listen ctx (backlog % 2 ^ 32).toNat localPort env.calloc env.realloc)
  let rc ← networkListen ctx.network env
  if rc < 0 then pure (-1, { s with listen })
  else do
    networkStartRecvThread env
    pure (0, { s with listen })

/-- `_mysock_bind_ephemeral`. -/
def bindEphemeral (ctx : MysockContext) (env : Underlying) : Exec SocketAssert MysockContext := do
  assert (ctx.bound = false) .notBound
  let rc ← networkBind ctx.network env
  assert (0 ≤ rc) .bindEphemeral
  pure { ctx with bound := true }

/-- The part of `myconnect` that sees to the local port. -/
def ensureBound (ctx : MysockContext) (env : Underlying) : Exec SocketAssert MysockContext :=
  if ctx.bound then pure ctx else bindEphemeral ctx env

/-- `_mysock_transport_init` of an active context. -/
def transportInitActive (ctx : MysockContext) (env : Underlying) :
    Exec SocketAssert MysockContext := do
  assert (ctx.listening = false) .notListening
  networkStartRecvThread env
  pure { ctx with isActive := true }

/-- `_mysock_wait_for_connection`, which returns once the transport layer has unblocked it. -/
def waitForConnection (ctx : MysockContext) (env : Underlying) : Int × MysockContext :=
  (if env.stcpErrno = 0 then 0 else -1, ctx.unblock)

/-- `myconnect`. -/
def SocketState.myconnect (s : SocketState) (sd : Int) (name : Sockaddr) (namelen : Int)
    (env : Underlying) : Exec SocketAssert (Int × SocketState) := do
  let e ← Exec.within .demux (getContext s.listen.sys sd)
  if e.ctx.network.peerAddrLen ≠ 0 then pure (-1, s)
  else do
    let ctx := { e.ctx with
      network := { e.ctx.network with
        peerAddr := name, peerAddrLen := (namelen % 2 ^ 32).toNat, peerAddrValid := true } }
    let ctx ← ensureBound ctx env
    let ctx ← transportInitActive ctx env
    let (rc, ctx) := waitForConnection ctx env
    pure (rc, s.setContext sd.toNat ctx)

/-- A call that sets up a mysocket. -/
inductive SocketCall where
  | mybind (addr : Sockaddr)
  | mylisten (backlog : Int)
  | myconnect (name : Sockaddr) (namelen : Int)
  deriving DecidableEq, Repr

/-- Make a call on a mysocket. -/
def SocketCall.run (s : SocketState) (sd : Int) (env : Underlying) :
    SocketCall → Exec SocketAssert (Int × SocketState)
  | .mybind addr => s.mybind sd addr env
  | .mylisten backlog => s.mylisten sd backlog env
  | .myconnect name namelen => s.myconnect sd name namelen env

/-- What the calls write down about a mysocket. -/
structure SocketFields where
  bound : Bool
  listening : Bool
  localAddr : Sockaddr
  peerAddr : Sockaddr
  peerAddrLen : Nat
  peerAddrValid : Bool
  deriving DecidableEq, Repr

/-- The fields of a mysocket in use. -/
def SocketState.fields (s : SocketState) (sd : Nat) : Option SocketFields :=
  (s.listen.sys.globalCtx sd).map fun e =>
    ⟨e.ctx.bound, e.ctx.listening, s.localAddr sd, e.ctx.network.peerAddr,
      e.ctx.network.peerAddrLen, e.ctx.network.peerAddrValid⟩

/-- The keys of `listen_table`. -/
def SocketState.keys (s : SocketState) : Set Int := {key | s.listen.sys.listenTable key ≠ none}

/-- If the call returns -1, the mysocket is as before. -/
def SocketCall.LeavesUnchanged (s : SocketState) (sd : Int) (env : Underlying) (call : SocketCall) :
    Prop :=
  ∀ s', call.run s sd env = .ok (-1, s') →
    s'.fields sd.toNat = s.fields sd.toNat ∧ s'.keys = s.keys

/-- The descriptor is that of a context. -/
structure SocketState.Valid (s : SocketState) (sd : Int) (e : Entry) : Prop where
  range : 0 ≤ sd ∧ sd < maxNumConnections
  entry : s.listen.sys.globalCtx sd.toNat = some e
  mySd_eq : e.ctx.mySd = sd

/-- `_mysock_set_backlog` finds the port it knows and gets the memory it asks for. -/
structure ListenState.AcceptsBacklog (s : ListenState) (sd : Int) (backlog : Nat)
    (env : Underlying) : Prop where
  port : 0 < env.localPort
  calloc : s.sys.listenTable sd = none → env.calloc = true
  samePort : s.sys.listenTable sd ≠ none → (s.block sd).localPort = env.localPort
  realloc : (s.sys.listenTable sd).elim 0 ListenQueue.maxLen < (backlog + 1) % 2 ^ 32 →
    env.realloc ≠ .fails

/-- The call gets as far as the operation that may fail: no check turns it away and no assert
stops it. -/
def SocketCall.Reaches (s : SocketState) (sd : Int) (env : Underlying) (e : Entry) :
    SocketCall → Prop
  | .mybind addr => addr.family = afInet ∧ e.ctx.listening = false ∧ 0 ≤ e.ctx.network.socket
  | .mylisten backlog => e.ctx.bound = true ∧ 0 ≤ e.ctx.network.socket ∧
    s.listen.AcceptsBacklog sd (backlog % 2 ^ 32).toNat env
  | .myconnect _ _ => e.ctx.network.peerAddrLen = 0 ∧ e.ctx.listening = false ∧
    (e.ctx.bound = false → 0 ≤ e.ctx.network.socket ∧ env.bindOk = true) ∧ env.signalOk = true

/-- The bind, the listen or the handshake under the call fails. -/
def SocketCall.Fails (env : Underlying) : SocketCall → Prop
  | .mybind _ => env.bindOk = false
  | .mylisten _ => env.listenOk = false
  | .myconnect _ _ => env.stcpErrno ≠ 0

/-- What the call writes down has been there before. -/
def SocketCall.Recorded (s : SocketState) (sd : Int) (e : Entry) : SocketCall → Prop
  | .mybind addr => e.ctx.bound = true ∧ s.localAddr sd.toNat = addr
  | .mylisten _ => e.ctx.listening = true ∧ s.listen.sys.listenTable sd ≠ none
  | .myconnect name namelen => e.ctx.bound = true ∧ e.ctx.network.peerAddr = name ∧
    (namelen % 2 ^ 32).toNat = e.ctx.network.peerAddrLen ∧ e.ctx.network.peerAddrValid = true

/-- The fields after the call has written them. -/
def SocketCall.stored (old : SocketFields) : SocketCall → SocketFields
  | .mybind addr => { old with bound := true, localAddr := addr }
  | .mylisten _ => { old with listening := true }
  | .myconnect name namelen => { old with
      bound := true, peerAddr := name, peerAddrLen := (namelen % 2 ^ 32).toNat
      peerAddrValid := true }

/-- The keys after the call has written them. -/
def SocketCall.storedKeys (sd : Int) (old : Set Int) : SocketCall → Set Int
  | .mylisten _ => insert sd old
  | _ => old

/-- The lookup returns exactly at a valid descriptor. -/
theorem getContext_eq_ok {s : SocketState} {sd : Int} {e : Entry} :
    getContext s.listen.sys sd = .ok e ↔ s.Valid sd e := by
  unfold getContext
  by_cases hrange : 0 ≤ sd ∧ sd < maxNumConnections
  · rw [if_pos hrange]
    cases hentry : s.listen.sys.globalCtx sd.toNat with
    | none =>
      constructor
      · intro h
        cases h
      · intro h
        cases h.entry.symm.trans hentry
    | some e' =>
      constructor
      · intro h
        obtain ⟨_, hsd, h⟩ := Exec.bind_eq_ok.1 h
        cases h
        exact ⟨hrange, hentry, assert_eq_ok.1 hsd⟩
      · intro h
        cases hentry.symm.trans h.entry
        simp only [assert_of h.mySd_eq]
        rfl
  · rw [if_neg hrange]
    constructor
    · intro h
      cases h
    · exact fun h => absurd h.range hrange

namespace SocketState

variable {s : SocketState} {sd : Int} {e : Entry} {env : Underlying}

/-- The fields of an open socket are those of its context. -/
theorem fields_of_entry {sd : Nat} (h : s.listen.sys.globalCtx sd = some e) :
    s.fields sd = some ⟨e.ctx.bound, e.ctx.listening, s.localAddr sd, e.ctx.network.peerAddr,
      e.ctx.network.peerAddrLen, e.ctx.network.peerAddrValid⟩ := by
  rw [fields, h, Option.map_some]

/-- A context that is written is found. -/
theorem entry_setContext {sd : Nat} (h : s.listen.sys.globalCtx sd = some e) (ctx : MysockContext) :
    (s.setContext sd ctx).listen.sys.globalCtx sd = some { e with ctx } := by
  rw [setContext, Demux.setContext_eq h]
  exact Function.update_self ..

theorem fields_setLocalAddr {sd : Nat} (h : s.listen.sys.globalCtx sd = some e) (addr : Sockaddr) :
    (s.setLocalAddr sd addr).fields sd = some ⟨e.ctx.bound, e.ctx.listening, addr,
      e.ctx.network.peerAddr, e.ctx.network.peerAddrLen, e.ctx.network.peerAddrValid⟩ := by
  have haddr : (s.setLocalAddr sd addr).localAddr sd = addr := Function.update_self ..
  rw [fields_of_entry (s := s.setLocalAddr sd addr) h, haddr]

@[simp] theorem keys_setContext (sd : Nat) (ctx : MysockContext) :
    (s.setContext sd ctx).keys = s.keys := rfl

/-- A queue that is written is a key of the table. -/
theorem keys_setQueue (s : SocketState) (sd : Int) (q : ListenQueue) (block : QueueBlock) :
    ({ s with listen := s.listen.setQueue sd q block } : SocketState).keys = insert sd s.keys := by
  ext key
  by_cases hkey : key = sd
  · subst hkey
    exact iff_of_true (fun h => nomatch (ListenState.listenTable_setQueue ..).symm.trans h)
      (Set.mem_insert ..)
  · rw [Set.mem_insert_iff, or_iff_right hkey]
    change Function.update s.listen.sys.listenTable sd (some q) key ≠ none ↔ _
    rw [Function.update_of_ne hkey]
    rfl

end SocketState

/-- The array of the queue changes, or there is no memory. -/
theorem resizeQueue_eq_ok {s s' : ListenState} {sd : Int} {q : ListenQueue} {block : QueueBlock}
    {maxLen : Nat} {realloc : Realloc} (h : resizeQueue s sd q block maxLen realloc = .ok s') :
    (q.maxLen < maxLen → realloc ≠ .fails) ∧ ∃ q' block', s' = s.setQueue sd q' block' := by
  unfold resizeQueue at h
  by_cases hgrow : q.maxLen < maxLen
  · rw [if_pos hgrow] at h
    cases realloc with
    | fails => cases h
    | inPlace =>
      cases h
      exact ⟨fun _ => by decide, _, _, rfl⟩
    | moves =>
      cases h
      exact ⟨fun _ => by decide, _, _, rfl⟩
  · rw [if_neg hgrow] at h
    cases h
    exact ⟨fun h => absurd h hgrow, _, _, rfl⟩

/-- A queue is resized, unless `realloc` fails as it grows. -/
theorem exists_resizeQueue (s : ListenState) (sd : Int) {q : ListenQueue} (block : QueueBlock)
    {maxLen : Nat} {realloc : Realloc} (h : q.maxLen < maxLen → realloc ≠ .fails) :
    ∃ s', resizeQueue s sd q block maxLen realloc = .ok s' := by
  unfold resizeQueue
  by_cases hgrow : q.maxLen < maxLen
  · rw [if_pos hgrow]
    cases realloc with
    | fails => exact absurd rfl (h hgrow)
    | inPlace => exact ⟨_, rfl⟩
    | moves => exact ⟨_, rfl⟩
  · rw [if_neg hgrow]
    exact ⟨_, rfl⟩

section SetBacklog

variable {s s' : ListenState} {ctx : MysockContext} {backlog : Nat} {env : Underlying}

/-- `_mysock_set_backlog` returns with a queue for the socket, and every context as it was. -/
theorem setBacklog_eq_ok (hopen : ctx.listening = true ∧ ctx.bound = true)
    (h : setBacklog s ctx backlog env.localPort env.calloc env.realloc = .ok s') :
    s.AcceptsBacklog ctx.mySd backlog env ∧ ∃ q block, s' = s.setQueue ctx.mySd q block := by
  obtain ⟨_, -, h⟩ := Exec.bind_eq_ok.1 h
  obtain ⟨_, hport, h⟩ := Exec.bind_eq_ok.1 h
  rw [assert_eq_ok] at hport
  have hqueue : getConnectionQueue s.sys ctx = .ok (s.sys.listenTable ctx.mySd) := by
    rw [getConnectionQueue, assert_of hopen, Exec.ok_bind, Exec.pure_eq_ok]
  rw [hqueue, Exec.within_ok, Exec.ok_bind] at h
  cases hlookup : s.sys.listenTable ctx.mySd with
  | none =>
    rw [hlookup] at h
    obtain ⟨_, hcalloc, h⟩ := Exec.bind_eq_ok.1 h
    rw [assert_eq_ok] at hcalloc
    simp only [Exec.pure_eq_ok, Exec.ok_bind, assert_of] at h
    obtain ⟨hrealloc, hs'⟩ := resizeQueue_eq_ok h
    refine ⟨⟨hport, fun _ => hcalloc, fun h => absurd hlookup h, ?_⟩, hs'⟩
    rwa [hlookup]
  | some q =>
    rw [hlookup] at h
    simp only [Exec.pure_eq_ok, Exec.ok_bind] at h
    obtain ⟨_, hsame, h⟩ := Exec.bind_eq_ok.1 h
    obtain ⟨hrealloc, hs'⟩ := resizeQueue_eq_ok h
    have hpresent : s.sys.listenTable ctx.mySd ≠ none := hlookup.trans_ne (Option.some_ne_none q)
    refine ⟨⟨hport, fun h => absurd h hpresent, fun _ => assert_eq_ok.1 hsame, ?_⟩, hs'⟩
    rwa [hlookup]

/-- The backlog of an open listener is set, where memory allows. -/
theorem exists_setBacklog (hopen : ctx.listening = true ∧ ctx.bound = true)
    (h : s.AcceptsBacklog ctx.mySd backlog env) :
    ∃ s', setBacklog s ctx backlog env.localPort env.calloc env.realloc = .ok s' := by
  have hqueue : getConnectionQueue s.sys ctx = .ok (s.sys.listenTable ctx.mySd) := by
    rw [getConnectionQueue, assert_of hopen, Exec.ok_bind, Exec.pure_eq_ok]
  simp only [setBacklog, assert_of hopen, assert_of h.port, Exec.ok_bind, hqueue, Exec.within_ok]
  have hrealloc := h.realloc
  cases hlookup : s.sys.listenTable ctx.mySd with
  | none =>
    rw [hlookup] at hrealloc
    simp only [assert_of (h.calloc hlookup), Exec.ok_bind, Exec.pure_eq_ok, assert_of]
    exact exists_resizeQueue _ _ _ hrealloc
  | some q =>
    rw [hlookup] at hrealloc
    have hsame := h.samePort (hlookup.trans_ne (Option.some_ne_none q))
    simp only [Exec.pure_eq_ok, Exec.ok_bind, assert_of hsame]
    exact exists_resizeQueue _ _ _ hrealloc

end SetBacklog

section Calls

variable {s s' : SocketState} {sd : Int} {env : Underlying} {rc : Int}

/-- What a call has done that returned -1: it was turned away, or it has written down what it was
asked for and then failed. -/
def SocketCall.Failed (s : SocketState) (sd : Int) (env : Underlying) (call : SocketCall)
    (s' : SocketState) : Prop :=
  (s' = s ∧ ∀ e, s.Valid sd e → ¬ call.Reaches s sd env e) ∨
  ∃ e, s.Valid sd e ∧ call.Reaches s sd env e ∧ call.Fails env ∧
    s'.fields sd.toNat = (s.fields sd.toNat).map call.stored ∧ s'.keys = call.storedKeys sd s.keys

/-- A bind fails exactly if the system refuses it. -/
theorem networkBind_eq_ok {ctx : NetworkContext} (h : networkBind ctx env = .ok rc) :
    0 ≤ ctx.socket ∧ (rc < 0 ↔ env.bindOk = false) := by
  obtain ⟨_, hsocket, h⟩ := Exec.bind_eq_ok.1 h
  cases h
  refine ⟨assert_eq_ok.1 hsocket, ?_⟩
  cases env.bindOk <;> decide

/-- A listen fails exactly if the system refuses it. -/
theorem networkListen_eq_ok {ctx : NetworkContext} (h : networkListen ctx env = .ok rc) :
    0 ≤ ctx.socket ∧ (rc < 0 ↔ env.listenOk = false) := by
  obtain ⟨_, hsocket, h⟩ := Exec.bind_eq_ok.1 h
  cases h
  refine ⟨assert_eq_ok.1 hsocket, ?_⟩
  cases env.listenOk <;> decide

/-- Behind the call the socket is bound. -/
theorem ensureBound_eq_ok {ctx ctx' : MysockContext} (h : ensureBound ctx env = .ok ctx') :
    ctx' = { ctx with bound := true } ∧
      (ctx.bound = false → 0 ≤ ctx.network.socket ∧ env.bindOk = true) := by
  unfold ensureBound at h
  by_cases hbound : ctx.bound = true
  · rw [if_pos hbound] at h
    cases h
    refine ⟨?_, fun hno => absurd (hbound.symm.trans hno) (by decide)⟩
    rw [← hbound]
  · rw [if_neg hbound] at h
    obtain ⟨_, -, h⟩ := Exec.bind_eq_ok.1 h
    obtain ⟨rc, hrc, h⟩ := Exec.bind_eq_ok.1 h
    obtain ⟨_, hok, h⟩ := Exec.bind_eq_ok.1 h
    cases h
    obtain ⟨hsocket, hbind⟩ := networkBind_eq_ok hrc
    rw [assert_eq_ok] at hok
    exact ⟨rfl, fun _ => ⟨hsocket, by_contra fun hno =>
      absurd (hbind.2 (Bool.eq_false_iff.2 hno)) (Int.not_lt.2 hok)⟩⟩

/-- A socket that is bound, or can be, ends up bound. -/
theorem ensureBound_eq {ctx : MysockContext}
    (h : ctx.bound = false → 0 ≤ ctx.network.socket ∧ env.bindOk = true) :
    ensureBound ctx env = .ok { ctx with bound := true } := by
  unfold ensureBound
  by_cases hbound : ctx.bound = true
  · rw [if_pos hbound, Exec.pure_eq_ok, ← hbound]
  · have hno := Bool.eq_false_iff.2 hbound
    obtain ⟨hsocket, hbind⟩ := h hno
    rw [if_neg hbound]
    simp only [bindEphemeral, assert_of hno, networkBind, assert_of hsocket, hbind, if_true,
      Exec.ok_bind, Exec.pure_eq_ok, Int.le_refl, assert_of]

/-- What a failed `mybind` leaves. -/
theorem mybind_failed {addr : Sockaddr} (h : s.mybind sd addr env = .ok (-1, s')) :
    (SocketCall.mybind addr).Failed s sd env s' := by
  obtain ⟨e, he, h⟩ := Exec.bind_eq_ok.1 h
  rw [Exec.within_eq_ok, getContext_eq_ok] at he
  by_cases hfamily : addr.family = afInet
  · rw [if_neg (not_not_intro hfamily)] at h
    obtain ⟨_, hlistening, h⟩ := Exec.bind_eq_ok.1 h
    obtain ⟨rc, hbind, h⟩ := Exec.bind_eq_ok.1 h
    cases h
    obtain ⟨hsocket, hrc⟩ := networkBind_eq_ok hbind
    refine .inr ⟨e, he, ⟨hfamily, assert_eq_ok.1 hlistening, hsocket⟩, hrc.1 (by decide), ?_, rfl⟩
    have hentry := SocketState.entry_setContext he.entry { e.ctx with bound := true }
    rw [SocketState.fields_of_entry he.entry, SocketState.fields_setLocalAddr hentry]
    rfl
  · rw [if_pos hfamily] at h
    cases h
    exact .inl ⟨rfl, fun _ _ hreaches => hfamily hreaches.1⟩

/-- What a failed `mylisten` leaves. -/
theorem mylisten_failed {backlog : Int} (h : s.mylisten sd backlog env = .ok (-1, s')) :
    (SocketCall.mylisten backlog).Failed s sd env s' := by
  obtain ⟨e, he, h⟩ := Exec.bind_eq_ok.1 h
  rw [Exec.within_eq_ok, getContext_eq_ok] at he
  obtain ⟨_, hbound, h⟩ := Exec.bind_eq_ok.1 h
  rw [assert_eq_ok] at hbound
  obtain ⟨localPort, hport, h⟩ := Exec.bind_eq_ok.1 h
  obtain ⟨_, hsocket, hport⟩ := Exec.bind_eq_ok.1 hport
  cases hport
  obtain ⟨listen, hbacklog, h⟩ := Exec.bind_eq_ok.1 h
  rw [Exec.within_eq_ok] at hbacklog
  have hopen : ({ e.ctx with listening := true } : MysockContext).listening = true ∧
      ({ e.ctx with listening := true } : MysockContext).bound = true := ⟨rfl, hbound⟩
  obtain ⟨haccepts, q, block, rfl⟩ := setBacklog_eq_ok hopen hbacklog
  obtain ⟨rc, hlisten, h⟩ := Exec.bind_eq_ok.1 h
  obtain ⟨hsocket, hrc⟩ := networkListen_eq_ok hlisten
  by_cases hneg : rc < 0
  · rw [if_pos hneg] at h
    cases h
    refine .inr ⟨e, he, ⟨hbound, hsocket, ?_⟩, hrc.1 hneg, ?_, ?_⟩
    · rw [he.mySd_eq] at haccepts
      exact ⟨haccepts.port, haccepts.calloc, haccepts.samePort, haccepts.realloc⟩
    · have hentry := SocketState.entry_setContext he.entry { e.ctx with listening := true }
      rw [SocketState.fields_of_entry he.entry]
      exact SocketState.fields_of_entry hentry
    · rw [he.mySd_eq]
      exact SocketState.keys_setQueue _ _ _ _
  · rw [if_neg hneg] at h
    obtain ⟨_, -, h⟩ := Exec.bind_eq_ok.1 h
    cases h

/-- A `myconnect` that is not refused and returns: what it has checked, and what it leaves. -/
theorem myconnect_eq_ok {e : Entry} (he : s.Valid sd e) (hfree : e.ctx.network.peerAddrLen = 0)
    {name : Sockaddr} {namelen : Int} (h : s.myconnect sd name namelen env = .ok (rc, s')) :
    e.ctx.listening = false ∧
      (e.ctx.bound = false → 0 ≤ e.ctx.network.socket ∧ env.bindOk = true) ∧ env.signalOk = true ∧
      rc = (if env.stcpErrno = 0 then 0 else -1) ∧
      s' = s.setContext sd.toNat (e.ctx.connectTo name (namelen % 2 ^ 32).toNat).unblock := by
  rw [SocketState.myconnect, getContext_eq_ok.2 he, Exec.within_ok, Exec.ok_bind,
    if_neg (not_not_intro hfree)] at h
  obtain ⟨bound, hbound, h⟩ := Exec.bind_eq_ok.1 h
  obtain ⟨rfl, hephemeral⟩ := ensureBound_eq_ok hbound
  obtain ⟨active, hactive, h⟩ := Exec.bind_eq_ok.1 h
  obtain ⟨_, hlistening, hactive⟩ := Exec.bind_eq_ok.1 hactive
  obtain ⟨_, hsignal, hactive⟩ := Exec.bind_eq_ok.1 hactive
  cases hactive
  exact ⟨assert_eq_ok.1 hlistening, hephemeral, assert_eq_ok.1 hsignal,
    (congrArg Prod.fst (Except.ok.inj h)).symm, (congrArg Prod.snd (Except.ok.inj h)).symm⟩

/-- What a failed `myconnect` leaves. -/
theorem myconnect_failed {name : Sockaddr} {namelen : Int}
    (h : s.myconnect sd name namelen env = .ok (-1, s')) :
    (SocketCall.myconnect name namelen).Failed s sd env s' := by
  obtain ⟨e, he, hcall⟩ := Exec.bind_eq_ok.1 h
  rw [Exec.within_eq_ok, getContext_eq_ok] at he
  by_cases hfree : e.ctx.network.peerAddrLen = 0
  · obtain ⟨hlistening, hephemeral, hsignal, hrc, rfl⟩ := myconnect_eq_ok he hfree h
    refine .inr ⟨e, he, ⟨hfree, hlistening, hephemeral, hsignal⟩, fun herrno => ?_, ?_, rfl⟩
    · rw [if_pos herrno] at hrc
      cases hrc
    · rw [SocketState.fields_of_entry he.entry]
      exact SocketState.fields_of_entry (SocketState.entry_setContext he.entry _)
  · rw [if_pos hfree] at hcall
    cases hcall
    refine .inl ⟨rfl, fun e' he' hreaches => hfree ?_⟩
    cases he.entry.symm.trans he'.entry
    exact hreaches.1

/-- What any failed call leaves. -/
theorem SocketCall.run_failed {call : SocketCall} (h : call.run s sd env = .ok (-1, s')) :
    call.Failed s sd env s' :=
  match call with
  | .mybind _ => mybind_failed h
  | .mylisten _ => mylisten_failed h
  | .myconnect _ _ => myconnect_failed h

/-- A call that gets to an operation that fails returns -1. -/
theorem SocketCall.exists_run {call : SocketCall} {e : Entry} (he : s.Valid sd e)
    (hreaches : call.Reaches s sd env e) (hfails : call.Fails env) :
    ∃ s', call.run s sd env = .ok (-1, s') := by
  have hctx := getContext_eq_ok.2 he
  cases call with
  | mybind addr =>
    obtain ⟨hfamily, hlistening, hsocket⟩ := hreaches
    have hbind : networkBind e.ctx.network env = .ok (-1) := by
      rw [networkBind, assert_of hsocket, show env.bindOk = false from hfails]
      rfl
    simp only [SocketCall.run, SocketState.mybind, hctx, Exec.within_ok, Exec.ok_bind, hfamily,
      ne_eq, not_true_eq_false, if_false, assert_of hlistening, hbind, Exec.pure_eq_ok]
    exact ⟨_, rfl⟩
  | mylisten backlog =>
    obtain ⟨hbound, hsocket, haccepts⟩ := hreaches
    have hopen : ({ e.ctx with listening := true } : MysockContext).listening = true ∧
      ({ e.ctx with listening := true } : MysockContext).bound = true := ⟨rfl, hbound⟩
    have hport : networkGetPort e.ctx.network env = .ok env.localPort := by
      rw [networkGetPort, assert_of hsocket]
      rfl
    have hlisten : networkListen e.ctx.network env = .ok (-1) := by
      rw [networkListen, assert_of hsocket, show env.listenOk = false from hfails]
      rfl
    have hbacklog : (s.setContext sd.toNat { e.ctx with listening := true }).listen.AcceptsBacklog
        ({ e.ctx with listening := true } : MysockContext).mySd (backlog % 2 ^ 32).toNat env := by
      rw [show ({ e.ctx with listening := true } : MysockContext).mySd = sd from he.mySd_eq]
      exact ⟨haccepts.port, haccepts.calloc, haccepts.samePort, haccepts.realloc⟩
    obtain ⟨listen, hset⟩ := exists_setBacklog hopen hbacklog
    simp only [SocketCall.run, SocketState.mylisten, hctx, Exec.within_ok, Exec.ok_bind,
      assert_of hbound, hport, hset, hlisten]
    exact ⟨_, rfl⟩
  | myconnect name namelen =>
    obtain ⟨hfree, hlistening, hephemeral, hsignal⟩ := hreaches
    have hbound : ensureBound { e.ctx with
        network := { e.ctx.network with
          peerAddr := name, peerAddrLen := (namelen % 2 ^ 32).toNat, peerAddrValid := true } } env =
        .ok _ := ensureBound_eq hephemeral
    have herrno : env.stcpErrno ≠ 0 := hfails
    simp only [SocketCall.run, SocketState.myconnect, hctx, Exec.within_ok, Exec.ok_bind, hfree,
      ne_eq, not_true_eq_false, if_false, hbound, transportInitActive, assert_of hlistening,
      networkStartRecvThread, assert_of hsignal, Exec.pure_eq_ok, waitForConnection, herrno]
    exact ⟨_, rfl⟩

end Calls

theorem SocketState.insert_keys_eq_iff {s : SocketState} {sd : Int} :
    insert sd s.keys = s.keys ↔ s.listen.sys.listenTable sd ≠ none :=
  Set.insert_eq_self

/-- Writing changes nothing exactly if what is written was there. -/
theorem SocketCall.stored_eq_iff {s : SocketState} {sd : Int} {e : Entry} {call : SocketCall}
    (he : s.Valid sd e) :
    ((s.fields sd.toNat).map call.stored = s.fields sd.toNat ∧
      call.storedKeys sd s.keys = s.keys) ↔ call.Recorded s sd e := by
  rw [SocketState.fields_of_entry he.entry, Option.map_some, Option.some.injEq]
  cases call with
  | mybind addr =>
    simp only [stored, storedKeys, Recorded, SocketFields.mk.injEq, and_true, true_and]
    rw [@eq_comm _ true, @eq_comm _ addr]
  | mylisten backlog =>
    simp only [stored, storedKeys, Recorded, SocketFields.mk.injEq, and_true, true_and,
      SocketState.insert_keys_eq_iff]
    rw [@eq_comm _ true]
  | myconnect name namelen =>
    simp only [stored, storedKeys, Recorded, SocketFields.mk.injEq, and_true, true_and]
    rw [@eq_comm _ true, @eq_comm _ name, @eq_comm _ true]

/-- A failed call leaves the mysocket as it was exactly if, whenever the operation under the call
fails, what the call has written down before it was there already. -/
theorem SocketCall.leavesUnchanged_iff (s : SocketState) (sd : Int) (env : Underlying)
    (call : SocketCall) :
    call.LeavesUnchanged s sd env ↔
      ∀ e, s.Valid sd e → call.Reaches s sd env e → call.Fails env → call.Recorded s sd e := by
  constructor
  · intro hunchanged e he hreaches hfails
    obtain ⟨s', hrun⟩ := exists_run he hreaches hfails
    obtain ⟨hfields, hkeys⟩ := hunchanged s' hrun
    rcases run_failed hrun with ⟨-, hno⟩ | ⟨e', -, -, -, hfields', hkeys'⟩
    · exact absurd hreaches (hno e he)
    · rw [hfields'] at hfields
      rw [hkeys'] at hkeys
      exact (stored_eq_iff he).1 ⟨hfields, hkeys⟩
  · intro hrecorded s' hrun
    rcases run_failed hrun with ⟨rfl, -⟩ | ⟨e, he, hreaches, hfails, hfields, hkeys⟩
    · exact ⟨rfl, rfl⟩
    · rw [hfields, hkeys]
      exact (stored_eq_iff he).2 (hrecorded e he hreaches hfails)

/-- A call that has changed a field is not one that leaves the mysocket as it was. -/
theorem SocketCall.not_leavesUnchanged {s : SocketState} {sd : Int} {env : Underlying}
    {call : SocketCall} {fields : Option SocketFields}
    (h : (fun out : Int × SocketState => (out.1, out.2.fields sd.toNat)) <$> call.run s sd env =
      .ok (-1, fields)) (hne : fields ≠ s.fields sd.toNat) : ¬ call.LeavesUnchanged s sd env := by
  obtain ⟨⟨rc, s'⟩, hrun, hout⟩ := Exec.map_eq_ok.1 h
  cases hout
  exact fun hunchanged => hne (hunchanged s' hrun).1

/-- A mysocket that has a peer, connected or not, is not connected again. -/
theorem myconnect_again {s : SocketState} {sd : Int} {e : Entry} (he : s.Valid sd e)
    (hpeer : e.ctx.network.peerAddrLen ≠ 0) (name : Sockaddr) (namelen : Int) (env : Underlying) :
    s.myconnect sd name namelen env = .ok (-1, s) := by
  rw [SocketState.myconnect, getContext_eq_ok.2 he, Exec.within_ok, Exec.ok_bind, if_pos hpeer,
    Exec.pure_eq_ok]

/-- A `myconnect` that is not refused makes the writes of the one that does not wait, and then lets
the application go on. -/
theorem myconnect_refines {s s' : SocketState} {sd : Int} {e : Entry} (he : s.Valid sd e)
    (hfree : e.ctx.network.peerAddrLen = 0) {name : Sockaddr} {namelen rc : Int} {env : Underlying}
    (h : s.myconnect sd name namelen env = .ok (rc, s')) :
    myconnect s.listen.sys sd.toNat name (namelen % 2 ^ 32).toNat =
        .ok (true, s.listen.sys.setContext sd.toNat
          (e.ctx.connectTo name (namelen % 2 ^ 32).toNat)) ∧
      s' = s.setContext sd.toNat (e.ctx.connectTo name (namelen % 2 ^ 32).toNat).unblock := by
  have hsd : (sd.toNat : Int) = sd := Int.toNat_of_nonneg he.range.1
  obtain ⟨hlistening, -, -, -, hs'⟩ := myconnect_eq_ok he hfree h
  refine ⟨?_, hs'⟩
  rw [myconnect, hsd, getContext_eq_ok.2 he, Exec.ok_bind, if_neg (not_not_intro hfree),
    assert_of hlistening]
  rfl

/-- Socket 0 alone, fresh or bound. -/
def SocketState.single (bound : Bool) : SocketState where
  listen := ⟨⟨fun k => if k = 0 then some ⟨0, { allocateContext 0 3 with bound }⟩ else none, 1,
    fun _ => none⟩, fun _ => ⟨0, [], 0⟩⟩
  localAddr := fun _ => ⟨0, 0, 0, 0⟩

/-- A host on which the port is taken and no connection is made. -/
def Underlying.failing : Underlying := ⟨false, false, 80, true, .inPlace, true, 111⟩

/-- Port 80 of the host 1. -/
def somePort : Sockaddr := ⟨afInet, 80, 1, 0⟩

/-- After its bind has failed a socket is bound, after its listen has failed it is listening, and
after its handshake has failed it has a peer. The same call cannot be tried again: `mybind` stops at
its assert, and `myconnect` is refused although the host would now answer. -/
theorem not_leavesUnchanged :
    ¬ (SocketCall.mybind somePort).LeavesUnchanged (.single false) 0 .failing ∧
    ¬ (SocketCall.mylisten 5).LeavesUnchanged (.single true) 0 .failing ∧
    ¬ (SocketCall.myconnect somePort 16).LeavesUnchanged (.single true) 0 .failing ∧
    (∃ s', (SocketState.single true).mylisten 0 5 .failing = .ok (-1, s') ∧
      s'.mybind 0 somePort .failing = .error (.assertion .notListening)) ∧
    ∃ s', (SocketState.single true).myconnect 0 somePort 16 .failing = .ok (-1, s') ∧
      s'.myconnect 0 somePort 16 { Underlying.failing with stcpErrno := 0 } = .ok (-1, s') := by
  refine ⟨?_, ?_, ?_, ?_, ?_⟩
  · have h : (fun out : Int × SocketState => (out.1, out.2.fields 0)) <$>
        (SocketState.single false).mybind 0 somePort .failing =
          .ok (-1, some ⟨true, false, somePort, ⟨0, 0, 0, 0⟩, 0, false⟩) := by decide +kernel
    exact SocketCall.not_leavesUnchanged h (by decide)
  · have h : (fun out : Int × SocketState => (out.1, out.2.fields 0)) <$>
        (SocketState.single true).mylisten 0 5 .failing =
          .ok (-1, some ⟨true, true, ⟨0, 0, 0, 0⟩, ⟨0, 0, 0, 0⟩, 0, false⟩) := by decide +kernel
    exact SocketCall.not_leavesUnchanged h (by decide)
  · have h : (fun out : Int × SocketState => (out.1, out.2.fields 0)) <$>
        (SocketState.single true).myconnect 0 somePort 16 .failing =
          .ok (-1, some ⟨true, false, ⟨0, 0, 0, 0⟩, somePort, 16, true⟩) := by decide +kernel
    exact SocketCall.not_leavesUnchanged h (by decide)
  · have h : (fun out : Int × SocketState => (out.1,
        decide (out.2.mybind 0 somePort .failing = .error (.assertion .notListening)))) <$>
        (SocketState.single true).mylisten 0 5 .failing = .ok (-1, true) := by decide +kernel
    obtain ⟨⟨rc, s'⟩, hrun, hout⟩ := Exec.map_eq_ok.1 h
    obtain ⟨rfl, hretry⟩ := Prod.mk.inj hout
    exact ⟨s', hrun, of_decide_eq_true hretry⟩
  · exact ⟨_, rfl, rfl⟩

end ComputerNetworks.Mysock
