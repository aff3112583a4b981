import ComputerNetworks.Core.Machine
import ComputerNetworks.Mysock.Context

/-!
# Packets over a TCP connection

`network_io_tcp.c`: a packet travels as its length in two bytes followed by its
bytes. `_tcp_io` repeats a `read` or `write` until the whole count is done, and
each call may move fewer bytes than it was asked for.
-/

namespace ComputerNetworks.Mysock

/-- The assertions of the TCP layer. -/
inductive NetAssert where
  /-- `assert(rc <= (int)bytes_remaining)`. -/
  | ioCount
  /-- `VERIFY_SOCKET`. -/
  | socketOpen
  /-- `assert(ctx->peer_addr_len > 0)`. -/
  | peerAddrLen
  /-- `assert(ctx->peer_addr_valid)`. -/
  | peerAddrValid
  /-- `assert(ctx->peer_addr.sa_family == AF_INET)`. -/
  | peerFamily
  /-- `assert(sin_port > 0)`. -/
  | peerPort
  /-- `assert(tcp_io_ctx->new_socket == -1)`. -/
  | newSocketFree
  deriving DecidableEq, Repr

/-- A positive count of at most `n` bytes, chosen by `c`. -/
def shortCount (c n : Nat) : Nat := 1 + c % n

theorem shortCount_pos (c n : Nat) : 0 < shortCount c n := by
  unfold shortCount
  omega

/-- A call transfers no more than it was asked to. -/
theorem shortCount_le (c : Nat) {n : Nat} (hn : 0 < n) : shortCount c n ≤ n := by
  have := Nat.mod_lt c hn
  unfold shortCount
  omega

/-- The reading end of a connection: every byte the peer will send, whether the connection then
ends in an error or in end of file, and how many bytes the coming calls return. -/
structure Reader where
  pending : List UInt8
  reset : Bool
  counts : List Nat
  deriving DecidableEq, Repr

/-- The writing end of a connection. -/
structure Writer where
  sent : List UInt8
  counts : List Nat
  deriving DecidableEq, Repr

/-- `read(sd, buf + off, n)`. -/
def readCall (s : Reader × List UInt8) (off n : Nat) :
    Exec NetAssert (Int × Reader × List UInt8) :=
  if s.1.pending = [] then .ok (if s.1.reset then -1 else 0, s)
  else do
    let rc := shortCount (s.1.counts.headD 0) (min n s.1.pending.length)
    let buf ← memcpyAt s.2 off (s.1.pending.take rc)
    pure (rc, { s.1 with pending := s.1.pending.drop rc, counts := s.1.counts.tail }, buf)

/-- `write(sd, src + off, n)`. -/
def writeCall (src : List UInt8) (w : Writer) (off n : Nat) : Exec NetAssert (Int × Writer) := do
  let rc := shortCount (w.counts.headD 0) n
  let bytes ← readAt src off rc
  pure (rc, ⟨w.sent ++ bytes, w.counts.tail⟩)

/-- `_tcp_io` with `remaining` of its `count` bytes to go, over any call on a state `σ`. -/
def tcpIo {σ : Type} (io : σ → Nat → Nat → Exec NetAssert (Int × σ)) (count : Nat) :
    Nat → σ → Nat → Exec NetAssert (Int × σ)
  | _, s, 0 => .ok (count, s)
  | 0, _, _ + 1 => .error .outOfFuel
  | fuel + 1, s, remaining + 1 => do
    let (rc, s) ← io s (count - (remaining + 1)) (remaining + 1)
    if rc ≤ 0 then pure (rc, s)
    else do
      assert (rc ≤ remaining + 1) .ioCount
      tcpIo io count fuel s (remaining + 1 - rc.toNat)

/-- Read `n` bytes into the start of a buffer. -/
def tcpRead (r : Reader) (buf : List UInt8) (n : Nat) :
    Exec NetAssert (Int × Reader × List UInt8) :=
  tcpIo readCall n n (r, buf) n

/-- Write the first `n` bytes of a buffer. -/
def tcpWrite (w : Writer) (src : List UInt8) (n : Nat) : Exec NetAssert (Int × Writer) :=
  tcpIo (writeCall src) n n w n

/-- `_tcp_connect`; `connectOk` is the outcome of the `connect` call. -/
def tcpConnect (ctx : NetworkContext) (connectOk : Bool) :
    Exec NetAssert (Int × NetworkContext) :=
  if ctx.connected then .ok (0, ctx)
  else do
    assert (ctx.peerAddrValid = true) .peerAddrValid
    assert (ctx.peerAddr.family = afInet) .peerFamily
    assert (0 < ctx.peerAddr.port) .peerPort
    if connectOk then pure (0, { ctx with connected := true }) else pure (-1, ctx)

/-- The bytes of `htons(len)` in memory. -/
def htons (len : Nat) : List UInt8 := [UInt8.ofNat (len / 256), UInt8.ofNat len]

/-- `ntohs` of the two bytes read. -/
def ntohs : List UInt8 → Nat
  | [hi, lo] => hi.toNat * 256 + lo.toNat
  | _ => 0

/-- The two writes of `_network_send_packet`. -/
def writeFrame (w : Writer) (src : List UInt8) (len : Nat) : Exec NetAssert (Int × Writer) := do
  let (rc, w) ← tcpWrite w (htons len) 2
  if rc < 0 then pure (-1, w)
  else do
    let (rc, w) ← tcpWrite w src len
    if rc < 0 then pure (-1, w) else pure (len, w)

/-- `_network_send_packet`. -/
def networkSendPacket (ctx : NetworkContext) (connectOk : Bool) (w : Writer) (src : List UInt8)
    (len : Nat) : Exec NetAssert (Int × NetworkContext × Writer) := do
  assert (0 < ctx.peerAddrLen) .peerAddrLen
  assert (0 ≤ ctx.socket) .socketOpen
  let (rc, ctx) ← tcpConnect ctx connectOk
  if rc < 0 then pure (-1, ctx, w)
  else do
    let (rc, w) ← writeFrame w src len
    pure (rc, ctx, w)

/-- The remainder of a packet that is longer than the buffer is read and thrown away, whatever
that read returns. -/
def discardRest (r : Reader) (n : Nat) : Exec NetAssert Reader := do
  let (_, r, _) ← tcpRead r (List.replicate n 0) n
  pure r

/-- The reads of `_network_recv_packet`: the length, as much of the packet as fits, the rest. -/
def readFrame (r : Reader) (dst : List UInt8) (maxLen : Nat) :
    Exec NetAssert (Int × Reader × List UInt8) := do
  let (rc, r, lenBuf) ← tcpRead r [0, 0] 2
  if rc ≤ 0 then pure (rc, r, dst)
  else do
    let packetLen := ntohs lenBuf
    let (rc, r, dst) ← tcpRead r dst (min packetLen maxLen)
    if rc ≤ 0 then pure (rc, r, dst)
    else if maxLen < packetLen then do
      let r ← discardRest r (packetLen - maxLen)
      pure (packetLen, r, dst)
    else pure (packetLen, r, dst)

/-- What the system answers to a receive: the outcome of `connect`, the connection `accept` yields
with its descriptor and peer, and the bytes of the socket that is then read. -/
structure RecvEnv where
  connectOk : Bool
  accepted : Option (Int × Sockaddr)
  reader : Reader
  deriving DecidableEq, Repr

/-- What `_network_recv_packet` leaves and returns. -/
structure Received where
  rc : Int
  ctx : MysockContext
  reader : Reader
  dst : List UInt8
  deriving DecidableEq, Repr

/-- The `accept` of a listening socket in `_network_recv_packet`; `false` when it failed. -/
def acceptPeer (ctx : MysockContext) (accepted : Option (Int × Sockaddr)) :
    Exec NetAssert (Bool × MysockContext) :=
  if ctx.listening then
    match accepted with
    | none => .ok (false, { ctx with network := { ctx.network with peerAddrLen := 16 } })
    | some (sd, peer) => do
      assert (ctx.network.newSocket = -1) .newSocketFree
      pure (true, { ctx with
        network := { ctx.network with peerAddr := peer, peerAddrLen := 16, newSocket := sd } })
  else .ok (true, ctx)

/-- The connection an active socket needs before it can receive. -/
def connectActive (ctx : MysockContext) (connectOk : Bool) :
    Exec NetAssert (Int × NetworkContext) :=
  if ctx.isActive then tcpConnect ctx.network connectOk else .ok (0, ctx.network)

/-- `_network_recv_packet`. -/
def networkRecvPacket (ctx : MysockContext) (env : RecvEnv) (dst : List UInt8) (maxLen : Nat) :
    Exec NetAssert Received := do
  assert (0 ≤ ctx.network.socket) .socketOpen
  let (rc, network) ← connectActive ctx env.connectOk
  if rc < 0 then pure ⟨-1, { ctx with network }, env.reader, dst⟩
  else do
    let (accepted, ctx) ← acceptPeer { ctx with network } env.accepted
    if accepted = false then pure ⟨-1, ctx, env.reader, dst⟩
    else do
      let (rc, reader, dst) ← readFrame env.reader dst maxLen
      pure ⟨rc, ctx, reader, dst⟩

/-- One round of the loop after a positive count. -/
theorem tcpIo_succ {σ : Type} {io : σ → Nat → Nat → Exec NetAssert (Int × σ)}
    {count fuel remaining rc : Nat} {s s' : σ} (hpos : 0 < rc) (hle : rc ≤ remaining + 1)
    (hio : io s (count - (remaining + 1)) (remaining + 1) = .ok ((rc : Int), s')) :
    tcpIo io count (fuel + 1) s (remaining + 1) =
      tcpIo io count fuel s' (remaining + 1 - rc) := by
  have hrc : ¬((rc : Int) ≤ 0) := by omega
  have hrc' : (rc : Int) ≤ ((remaining + 1 : Nat) : Int) := by omega
  rw [tcpIo, hio, Exec.ok_bind]
  simp only [if_neg hrc]
  rw [Nat.cast_succ] at hrc'
  rw [assert_of hrc', Exec.ok_bind, Int.toNat_natCast]

/-- A read call on a stream with bytes left moves a front part of it behind what was read. -/
theorem readCall_pending (r : Reader) (done todo : List UInt8) (n : Nat) (hn : 0 < n)
    (hpending : r.pending ≠ []) (htodo : n ≤ todo.length) :
    ∃ rc, 0 < rc ∧ rc ≤ n ∧ rc ≤ r.pending.length ∧
      readCall (r, done ++ todo) done.length n = .ok ((rc : Int),
        { r with pending := r.pending.drop rc, counts := r.counts.tail },
        done ++ r.pending.take rc ++ todo.drop rc) := by
  have hlen : 0 < r.pending.length := List.length_pos_iff.2 hpending
  have hpos := shortCount_pos (r.counts.headD 0) (min n r.pending.length)
  have hle : shortCount (r.counts.headD 0) (min n r.pending.length) ≤ min n r.pending.length :=
    shortCount_le _ (by omega)
  rw [readCall, if_neg hpending]
  generalize shortCount (r.counts.headD 0) (min n r.pending.length) = rc at hpos hle
  have htake : (r.pending.take rc).length = rc := by
    rw [List.length_take]
    omega
  have hcopy : (memcpyAt (done ++ todo) done.length (r.pending.take rc) :
      Exec NetAssert (List UInt8)) = .ok (done ++ r.pending.take rc ++ todo.drop rc) := by
    rw [memcpyAt_append done todo _ (by omega), htake]
  refine ⟨rc, hpos, by omega, by omega, ?_⟩
  simp only [hcopy, Exec.ok_bind, Exec.pure_eq_ok]

/-- With enough bytes to come, the loop reads exactly what it was asked for. -/
theorem tcpIo_read {count fuel : Nat} {r : Reader} {done todo : List UInt8} {remaining : Nat}
    (hfuel : remaining ≤ fuel) (hcount : done.length + remaining = count)
    (htodo : remaining ≤ todo.length) (hpending : remaining ≤ r.pending.length) :
    ∃ counts, tcpIo readCall count fuel (r, done ++ todo) remaining = .ok ((count : Int),
      ⟨r.pending.drop remaining, r.reset, counts⟩,
      done ++ r.pending.take remaining ++ todo.drop remaining) := by
  induction fuel generalizing r done todo remaining with
  | zero =>
    obtain rfl : remaining = 0 := by omega
    exact ⟨r.counts, by simp [tcpIo]⟩
  | succ fuel ih =>
    cases remaining with
    | zero => exact ⟨r.counts, by simp [tcpIo]⟩
    | succ remaining =>
      have hoff : count - (remaining + 1) = done.length := by omega
      have hne : r.pending ≠ [] := List.ne_nil_of_length_pos (by omega)
      obtain ⟨rc, hpos, hle, hrc, hcall⟩ :=
        readCall_pending r done todo (remaining + 1) (by omega) hne htodo
      obtain ⟨counts, hrun⟩ := @ih { r with pending := r.pending.drop rc, counts := r.counts.tail }
        (done ++ r.pending.take rc) (todo.drop rc) (remaining + 1 - rc) (by omega)
        (by rw [List.length_append, List.length_take]; omega)
        (by rw [List.length_drop]; omega) (by rw [List.length_drop]; omega)
      refine ⟨counts, ?_⟩
      rw [← hoff] at hcall
      have htotal : rc + (remaining + 1 - rc) = remaining + 1 := by omega
      rw [tcpIo_succ hpos hle hcall, hrun, List.drop_drop, List.drop_drop, htotal,
        List.append_assoc done, ← List.take_add, htotal]

/-- When the connection ends early, the loop reports that and no count. -/
theorem tcpIo_read_short {count fuel : Nat} {r : Reader} {done todo : List UInt8} {remaining : Nat}
    (hfuel : remaining ≤ fuel) (hcount : done.length + remaining = count)
    (htodo : remaining ≤ todo.length) (hpending : r.pending.length < remaining) :
    ∃ rc counts buf, rc ≤ 0 ∧ buf.length = (done ++ todo).length ∧
      tcpIo readCall count fuel (r, done ++ todo) remaining =
        .ok (rc, ⟨[], r.reset, counts⟩, buf) := by
  induction fuel generalizing r done todo remaining with
  | zero => omega
  | succ fuel ih =>
    obtain ⟨remaining, rfl⟩ : ∃ m, remaining = m + 1 := ⟨remaining - 1, by omega⟩
    have hoff : count - (remaining + 1) = done.length := by omega
    by_cases hne : r.pending = []
    · refine ⟨if r.reset then -1 else 0, r.counts, done ++ todo, by split <;> omega, rfl, ?_⟩
      have hcall : readCall (r, done ++ todo) (count - (remaining + 1)) (remaining + 1) =
          .ok (if r.reset then -1 else 0, r, done ++ todo) := by
        rw [readCall, if_pos hne]
      have hrc : (if r.reset then -1 else 0 : Int) ≤ 0 := by split <;> omega
      rw [tcpIo, hcall, Exec.ok_bind]
      simp only [if_pos hrc, ← hne, Exec.pure_eq_ok]
    · obtain ⟨rc, hpos, hle, hrc, hcall⟩ :=
        readCall_pending r done todo (remaining + 1) (by omega) hne htodo
      obtain ⟨rc', counts, buf, hrc', hbuf, hrun⟩ :=
        @ih { r with pending := r.pending.drop rc, counts := r.counts.tail }
        (done ++ r.pending.take rc) (todo.drop rc) (remaining + 1 - rc) (by omega)
        (by rw [List.length_append, List.length_take]; omega)
        (by rw [List.length_drop]; omega) (by rw [List.length_drop]; omega)
      refine ⟨rc', counts, buf, hrc', ?_, ?_⟩
      · rw [hbuf]
        simp only [List.length_append, List.length_take, List.length_drop]
        omega
      · rw [← hoff] at hcall
        rw [tcpIo_succ hpos hle hcall, hrun]

/-- A read that can be filled is filled, whatever the counts. -/
theorem tcpRead_eq {r : Reader} {buf : List UInt8} {n : Nat} (hbuf : n ≤ buf.length)
    (hpending : n ≤ r.pending.length) :
    ∃ counts, tcpRead r buf n = .ok ((n : Int), ⟨r.pending.drop n, r.reset, counts⟩,
      r.pending.take n ++ buf.drop n) :=
  @tcpIo_read n n r [] buf n le_rfl (Nat.zero_add n) hbuf hpending

/-- A read that the stream cannot fill fails at its end. -/
theorem tcpRead_short {r : Reader} {buf : List UInt8} {n : Nat} (hbuf : n ≤ buf.length)
    (hpending : r.pending.length < n) :
    ∃ rc counts buf', rc ≤ 0 ∧ buf'.length = buf.length ∧
      tcpRead r buf n = .ok (rc, ⟨[], r.reset, counts⟩, buf') :=
  @tcpIo_read_short n n r [] buf n le_rfl (Nat.zero_add n) hbuf hpending

/-- A write call moves a front part of what is left. -/
theorem writeCall_eq (src : List UInt8) (w : Writer) (off n : Nat) (hn : 0 < n)
    (hsrc : off + n ≤ src.length) :
    ∃ rc, 0 < rc ∧ rc ≤ n ∧ writeCall src w off n =
      .ok ((rc : Int), ⟨w.sent ++ (src.drop off).take rc, w.counts.tail⟩) := by
  have hle := shortCount_le (w.counts.headD 0) hn
  refine ⟨_, shortCount_pos (w.counts.headD 0) n, hle, ?_⟩
  rw [writeCall, readAt_of_le (by omega)]
  rfl

/-- The loop writes all it was given, whatever the calls return. -/
theorem tcpIo_write {src : List UInt8} {count fuel : Nat} {w : Writer} {remaining : Nat}
    (hfuel : remaining ≤ fuel) (hcount : remaining ≤ count) (hsrc : count ≤ src.length) :
    ∃ counts, tcpIo (writeCall src) count fuel w remaining =
      .ok ((count : Int), ⟨w.sent ++ (src.drop (count - remaining)).take remaining, counts⟩) := by
  induction fuel generalizing w remaining with
  | zero =>
    obtain rfl : remaining = 0 := by omega
    exact ⟨w.counts, by simp [tcpIo]⟩
  | succ fuel ih =>
    cases remaining with
    | zero => exact ⟨w.counts, by simp [tcpIo]⟩
    | succ remaining =>
      obtain ⟨rc, hpos, hle, hcall⟩ := writeCall_eq src w (count - (remaining + 1)) (remaining + 1)
        (by omega) (by omega)
      obtain ⟨counts, hrun⟩ := @ih ⟨w.sent ++ (src.drop (count - (remaining + 1))).take rc,
        w.counts.tail⟩ (remaining + 1 - rc) (by omega) (by omega)
      have htotal : rc + (remaining + 1 - rc) = remaining + 1 := by omega
      have hoff : count - (remaining + 1 - rc) = count - (remaining + 1) + rc := by omega
      refine ⟨counts, ?_⟩
      rw [tcpIo_succ hpos hle hcall, hrun, hoff, ← List.drop_drop, List.append_assoc,
        ← List.take_add, htotal]

/-- Everything is written, whatever the counts. -/
theorem tcpWrite_eq (w : Writer) {src : List UInt8} {n : Nat} (hsrc : n ≤ src.length) :
    ∃ counts, tcpWrite w src n = .ok ((n : Int), ⟨w.sent ++ src.take n, counts⟩) := by
  obtain ⟨counts, hrun⟩ := @tcpIo_write src n n w n le_rfl le_rfl hsrc
  refine ⟨counts, ?_⟩
  rw [tcpWrite, hrun, Nat.sub_self, List.drop_zero]

/-- A packet on the wire. -/
def frame (packet : List UInt8) : List UInt8 := htons packet.length ++ packet

/-- A short length is read as it was written. -/
theorem ntohs_htons {n : Nat} (hn : n ≤ 65535) : ntohs (htons n) = n := by
  simp only [htons, ntohs, UInt8.toNat_ofNat']
  omega

/-- Two bytes are written as they were read. -/
theorem htons_ntohs (hi lo : UInt8) : htons (ntohs [hi, lo]) = [hi, lo] := by
  have hhi := hi.toNat_lt
  have hlo := lo.toNat_lt
  have hdiv : (hi.toNat * 256 + lo.toNat) / 256 = hi.toNat := by omega
  have hmod : UInt8.ofNat (hi.toNat * 256 + lo.toNat) = lo := by
    apply UInt8.toNat_inj.1
    rw [UInt8.toNat_ofNat']
    omega
  rw [htons, ntohs, hdiv, hmod, UInt8.ofNat_toNat]

/-- Sending a packet appends its frame to the stream. -/
theorem writeFrame_eq (w : Writer) (src : List UInt8) :
    ∃ counts, writeFrame w src src.length =
      .ok ((src.length : Int), ⟨w.sent ++ frame src, counts⟩) := by
  obtain ⟨counts, hlen⟩ := @tcpWrite_eq w (htons src.length) 2 le_rfl
  obtain ⟨counts', hsrc⟩ :=
    tcpWrite_eq ⟨w.sent ++ htons src.length, counts⟩ (le_refl src.length)
  have htake : (htons src.length).take 2 = htons src.length := rfl
  have hneg : ¬((src.length : Int) < 0) := by omega
  refine ⟨counts', ?_⟩
  rw [htake] at hlen
  rw [List.take_length] at hsrc
  simp only [writeFrame, hlen, Exec.ok_bind, Nat.cast_ofNat, Int.reduceLT, if_false, hsrc, hneg,
    Exec.pure_eq_ok, frame, List.append_assoc]

/-- The rest of a long packet is taken off the stream. -/
theorem discardRest_eq (r : Reader) (n : Nat) :
    ∃ counts, discardRest r n = .ok ⟨r.pending.drop n, r.reset, counts⟩ := by
  have hbuf : n ≤ (List.replicate n (0 : UInt8)).length := by rw [List.length_replicate]
  by_cases h : n ≤ r.pending.length
  · obtain ⟨counts, hread⟩ := tcpRead_eq hbuf h
    exact ⟨counts, by rw [discardRest, hread]; rfl⟩
  · obtain ⟨rc, counts, buf, -, -, hread⟩ := tcpRead_short hbuf (Nat.lt_of_not_le h)
    refine ⟨counts, ?_⟩
    rw [discardRest, hread, List.drop_eq_nil_of_le (by omega)]
    rfl

/-- A frame that has arrived as far as it fits the buffer is received, and the stream moves past
its announced end. -/
theorem readFrame_eq {r : Reader} {hi lo : UInt8} {rest dst : List UInt8} {maxLen n : Nat}
    (hpending : r.pending = hi :: lo :: rest) (hn : ntohs [hi, lo] = n) (hpos : 0 < min n maxLen)
    (hdst : maxLen ≤ dst.length) (hrest : min n maxLen ≤ rest.length) :
    ∃ counts, readFrame r dst maxLen = .ok ((n : Int), ⟨rest.drop n, r.reset, counts⟩,
      rest.take (min n maxLen) ++ dst.drop (min n maxLen)) := by
  have hlen : 2 ≤ r.pending.length := by simp [hpending]
  obtain ⟨counts, hread⟩ := @tcpRead_eq r [0, 0] 2 le_rfl hlen
  obtain ⟨counts', hread'⟩ := @tcpRead_eq ⟨rest, r.reset, counts⟩ dst (min n maxLen)
    (le_trans (Nat.min_le_right n maxLen) hdst) hrest
  rw [hpending] at hread
  have hneg : ¬(((min n maxLen : Nat) : Int) ≤ 0) := by omega
  simp only [readFrame, hread, Exec.ok_bind, List.take_succ_cons, List.take_zero,
    List.drop_succ_cons, List.drop_zero, List.append_nil, hn, hread', if_neg hneg,
    Nat.cast_ofNat, Int.reduceLE, if_false]
  by_cases hlong : maxLen < n
  · obtain ⟨counts'', hdiscard⟩ :=
      discardRest_eq ⟨rest.drop (min n maxLen), r.reset, counts'⟩ (n - maxLen)
    refine ⟨counts'', ?_⟩
    have htotal : min n maxLen + (n - maxLen) = n := by omega
    rw [List.drop_drop, htotal] at hdiscard
    simp only [if_pos hlong, hdiscard, Exec.ok_bind, Exec.pure_eq_ok]
  · refine ⟨counts', ?_⟩
    rw [if_neg hlong, Nat.min_eq_left (Nat.le_of_not_lt hlong)]
    rfl

/-- The bytes to come hold a frame, as far as it fits a buffer of `maxLen` bytes. -/
def FrameArrived (pending : List UInt8) (maxLen : Nat) : Prop :=
  match pending with
  | hi :: lo :: rest => 0 < ntohs [hi, lo] ∧ min (ntohs [hi, lo]) maxLen ≤ rest.length
  | _ => False

instance decidableFrameArrived (pending : List UInt8) (maxLen : Nat) :
    Decidable (FrameArrived pending maxLen) :=
  match pending with
  | hi :: lo :: rest =>
    inferInstanceAs (Decidable (0 < ntohs [hi, lo] ∧ min (ntohs [hi, lo]) maxLen ≤ rest.length))
  | [] => inferInstanceAs (Decidable False)
  | [_] => inferInstanceAs (Decidable False)

/-- A frame that has arrived starts with its length. -/
theorem FrameArrived.exists_eq {pending : List UInt8} {maxLen : Nat}
    (h : FrameArrived pending maxLen) :
    ∃ hi lo rest, pending = hi :: lo :: rest ∧ 0 < ntohs [hi, lo] ∧
      min (ntohs [hi, lo]) maxLen ≤ rest.length := by
  unfold FrameArrived at h
  split at h
  · exact ⟨_, _, _, rfl, h⟩
  · exact h.elim

/-- A connection that ends before a frame, or an empty one, ends the receive. -/
theorem readFrame_stop {r : Reader} {dst : List UInt8} {maxLen : Nat} (hdst : maxLen ≤ dst.length)
    (h : ¬FrameArrived r.pending maxLen) :
    ∃ rc r' dst', rc ≤ 0 ∧ readFrame r dst maxLen = .ok (rc, r', dst') := by
  by_cases hlen : 2 ≤ r.pending.length
  · obtain ⟨hi, lo, rest, hpending⟩ : ∃ hi lo rest, r.pending = hi :: lo :: rest := by
      match hp : r.pending with
      | hi :: lo :: rest => exact ⟨hi, lo, rest, rfl⟩
      | [] => simp [hp] at hlen
      | [_] => simp [hp] at hlen
    obtain ⟨counts, hread⟩ := @tcpRead_eq r [0, 0] 2 le_rfl hlen
    rw [hpending] at hread h
    have hstop : ∃ rc r' dst', rc ≤ 0 ∧ tcpRead ⟨rest, r.reset, counts⟩ dst
        (min (ntohs [hi, lo]) maxLen) = .ok (rc, r', dst') := by
      by_cases hzero : min (ntohs [hi, lo]) maxLen = 0
      · rw [hzero]
        exact ⟨_, _, _, (Int.le_refl 0), rfl⟩
      · have hshort : rest.length < min (ntohs [hi, lo]) maxLen := by
          by_contra hle
          exact h ⟨by omega, by omega⟩
        obtain ⟨rc, counts', dst', hrc, -, hread'⟩ := @tcpRead_short ⟨rest, r.reset, counts⟩ dst
          (min (ntohs [hi, lo]) maxLen) (by omega) hshort
        exact ⟨_, _, _, hrc, hread'⟩
    obtain ⟨rc, r', dst', hrc, hread'⟩ := hstop
    refine ⟨rc, r', dst', hrc, ?_⟩
    simp only [readFrame, hread, Exec.ok_bind, List.take_succ_cons, List.take_zero,
      List.drop_succ_cons, List.drop_zero, List.append_nil, hread', if_pos hrc,
      Nat.cast_ofNat, Int.reduceLE, if_false, Exec.pure_eq_ok]
  · obtain ⟨rc, counts, buf, hrc, -, hread⟩ :=
      @tcpRead_short r [0, 0] 2 le_rfl (Nat.lt_of_not_le hlen)
    refine ⟨rc, ⟨[], r.reset, counts⟩, dst, hrc, ?_⟩
    simp only [readFrame, hread, Exec.ok_bind, if_pos hrc, Exec.pure_eq_ok]

end ComputerNetworks.Mysock
