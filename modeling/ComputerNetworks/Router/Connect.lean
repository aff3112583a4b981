import ComputerNetworks.Router.RoutingTable
import ComputerNetworks.Router.VnsReader

/-!
# The session from its start

`sr_connect_to_server` and what `main` does after it: the handshake, the routing table,
`sr_init`, and the loop over `sr_read_from_server`. Read message by message the same
program is an automaton with a stage for each call that waits for a message; the
bytes may arrive in any pieces.
-/

namespace ComputerNetworks.Router

open Vns

variable {Site : Type}

/-- The settings `main` takes from its arguments, and what the calls between two messages meet:
whether `gethostbyname`, `socket` and `connect` succeed, the surroundings of the opening message,
and the file of the routing table. -/
structure Settings where
  host : List UInt8
  host_length : host.length = 32
  template : List UInt8
  template_length : template.length = 30
  topoId : UInt16
  reachable : Bool
  opening : VnsEnv
  rtArrays : RtArrays
  rtable : Option (List UInt8)

/-- `VNSOPEN`. -/
def vnsOpen : UInt32 := 1

/-- `VNS_OPEN_TEMPLATE`. -/
def vnsOpenTemplate : UInt32 := 64

/-- The `c_open` of the client, which was set to zero before. -/
def openCommand (set : Settings) (user : List UInt8) : Exec Site (List UInt8) := do
  let virtualHostId ← strncpy (List.replicate 32 0) set.host idsize
  let uid ← strncpy (List.replicate 32 0) (user ++ [0]) idsize
  pure (bigEndian 4 108 ++ (bigEndian 4 vnsOpen.toNat ++ (bigEndian 2 set.topoId.toNat ++
    ([0, 0] ++ (virtualHostId ++ (uid ++ List.replicate 32 0))))))

/-- The `c_open_template` of the client, without source filters. -/
def openTemplate (set : Settings) : Exec Site (List UInt8) := do
  let ot := set.opening.block 70
  let templateName ← strncpy ((ot.drop 8).take 30) set.template 30
  let virtualHostId ← strncpy ((ot.drop 38).take 32) set.host idsize
  pure (bigEndian 4 70 ++ (bigEndian 4 vnsOpenTemplate.toNat ++ (templateName ++ virtualHostId)))

/-- The message the client opens its session with. -/
def opening (set : Settings) (user : List UInt8) : Exec Site (List UInt8) := do
  if 0 < (← strlen set.template 0) then openTemplate set else openCommand set user

/-- What the calls of `main` return: whether it goes on, the session and the stream. -/
abbrev Ran := Exec VnsAssert (Bool × VnsSession × ByteStream)

/-- `sr_connect_to_server`, with the surroundings of its two or three calls of
`sr_read_from_server_expect`. -/
def connectToServer (request status rtable : VnsEnv) (handle : PacketHandler) (fuel : Nat)
    (set : Settings) (vs : VnsSession) (s : ByteStream) :
    Exec VnsAssert (Int × VnsSession × ByteStream) := do
  if !set.reachable then pure (-1, vs, s)
  else do
    let (ret, vs, s) ← readFromServerExpect request handle fuel vnsAuthRequest vs s
    if ret ≠ 1 then pure (-1, vs, s)
    else do
      let (ret, vs, s) ← readFromServerExpect status handle fuel vnsAuthStatus vs s
      if ret ≠ 1 then pure (-1, vs, s)
      else do
        let message ← opening set vs.user
        if !set.opening.sends then pure (-1, vs, s)
        else do
          let vs := { vs with sent := vs.sent ++ [message] }
          if 0 < (← strlen set.template 0) then do
            let (ret, vs, s) ← readFromServerExpect rtable handle fuel vnsRtable vs s
            if ret ≠ 1 then pure (-1, vs, s) else pure (0, vs, s)
          else pure (0, vs, s)

/-- `sr_init`. -/
def srInit (sr : SrInstance) : SrInstance :=
  { sr with cache := arpcacheInit sr.cache.reqs sr.cache.pkts }

/-- `main` between the connection and its loop: the routing table is loaded, or the program
exits. -/
def prepare (set : Settings) (vs : VnsSession) : Exec VnsAssert (Bool × VnsSession) := do
  let (ret, sr, _) ← loadRt set.rtArrays set.rtable vs.sr
  if ret ≠ 0 then pure (false, { vs with sr }) else pure (true, { vs with sr := srInit sr })

/-- The loop of `main`, for as many rounds as there are surroundings. -/
def mainLoop (handle : PacketHandler) (fuel : Nat) : List VnsEnv → VnsSession → ByteStream → Ran
  | [], vs, s => .ok (true, vs, s)
  | env :: envs, vs, s => do
    let (ret, vs, s) ← readFromServerExpect env handle fuel 0 vs s
    if ret = 1 then mainLoop handle fuel envs vs s else pure (false, vs, s)

/-- `main` from the connection on. -/
def main (request status rtable : VnsEnv) (envs : List VnsEnv) (handle : PacketHandler) (fuel : Nat)
    (set : Settings) (vs : VnsSession) (s : ByteStream) : Ran := do
  let (ret, vs, s) ← connectToServer request status rtable handle fuel set vs s
  if ret = -1 then pure (false, vs, s)
  else do
    let (loaded, vs) ← prepare set vs
    if !loaded then pure (false, vs, s) else mainLoop handle fuel envs vs s

/-- The call that waits for the next message, or none. -/
inductive Stage where
  | authRequest
  | authStatus
  | rtable
  /-- The loop of `main`. -/
  | running
  /-- `main` has returned. -/
  | ended
  deriving DecidableEq, Repr

/-- The command the call expects. -/
def Stage.expected : Stage → UInt32
  | .authRequest => vnsAuthRequest
  | .authStatus => vnsAuthStatus
  | .rtable => vnsRtable
  | .running => 0
  | .ended => 0

/-- The program between two messages. -/
structure Client where
  stage : Stage
  vs : VnsSession

namespace Client

/-- The program goes on into its loop. -/
def enterLoop (set : Settings) (vs : VnsSession) : Exec VnsAssert Client := do
  let (loaded, vs) ← prepare set vs
  pure ⟨if loaded then .running else .ended, vs⟩

/-- The program goes on behind the status of the authentication. -/
def sendOpening (set : Settings) (vs : VnsSession) : Exec VnsAssert Client := do
  let message ← opening set vs.user
  if !set.opening.sends then pure ⟨.ended, vs⟩
  else do
    let vs := { vs with sent := vs.sent ++ [message] }
    if 0 < (← strlen set.template 0) then pure ⟨.rtable, vs⟩ else enterLoop set vs

/-- The program goes on after a message that was accepted. -/
def proceed (set : Settings) (c : Client) : Exec VnsAssert Client :=
  match c.stage with
  | .authRequest => .ok ⟨.authStatus, c.vs⟩
  | .authStatus => sendOpening set c.vs
  | .rtable => enterLoop set c.vs
  | .running => .ok c
  | .ended => .ok c

/-- The program takes a message. -/
def receive (set : Settings) (handle : PacketHandler) (env : VnsEnv) (c : Client)
    (m : WireMessage) :
    Exec VnsAssert Client :=
  if c.stage = .ended then .ok c
  else do
    let (ret, vs) ← dispatch env handle c.stage.expected c.vs m.len m.type m.buffer
    if ret = 1 then proceed set ⟨c.stage, vs⟩ else pure ⟨.ended, vs⟩

/-- The program takes messages one after the other. -/
def receiveAll (set : Settings) (handle : PacketHandler) (c : Client)
    (messages : List (VnsEnv × WireMessage)) : Exec VnsAssert Client :=
  messages.foldlM (fun c m => c.receive set handle m.1 m.2) c

/-- A client that has ended takes nothing. -/
theorem receive_ended (set : Settings) (handle : PacketHandler) (env : VnsEnv) (vs : VnsSession)
    (m : WireMessage) : receive set handle env ⟨.ended, vs⟩ m = .ok ⟨.ended, vs⟩ := if_pos rfl

/-- What a client does with a message before its end. -/
theorem receive_of_ne {c : Client} (h : c.stage ≠ .ended) (set : Settings) (handle : PacketHandler)
    (env : VnsEnv) (m : WireMessage) : receive set handle env c m = (do
      let (ret, vs) ← dispatch env handle c.stage.expected c.vs m.len m.type m.buffer
      if ret = 1 then proceed set ⟨c.stage, vs⟩ else pure ⟨.ended, vs⟩) := if_neg h

/-- The messages are taken one after the other. -/
theorem receiveAll_cons (set : Settings) (handle : PacketHandler) (c : Client)
    (m : VnsEnv × WireMessage) (messages : List (VnsEnv × WireMessage)) :
    receiveAll set handle c (m :: messages) =
      c.receive set handle m.1 m.2 >>= fun c => receiveAll set handle c messages :=
  List.foldlM_cons

/-- A client that has ended stays so. -/
theorem receiveAll_ended (set : Settings) (handle : PacketHandler) (vs : VnsSession)
    (messages : List (VnsEnv × WireMessage)) :
    receiveAll set handle ⟨.ended, vs⟩ messages = .ok ⟨.ended, vs⟩ := by
  induction messages with
  | nil => rfl
  | cons m messages ih => rw [receiveAll_cons, receive_ended, Exec.ok_bind, ih]

end Client

/-- A part of `main` does what the automaton does, and while the program goes on it leaves the
stream behind the messages. -/
structure Follows (rest : List UInt8) (run : Ran) (client : Exec VnsAssert Client) : Prop where
  run : ∃ s', s'.Steady ∧ run = (fun c => (decide (c.stage = .running), c.vs, s')) <$> client ∧
    ∀ c, client = .ok c → c.stage = .running → s'.pending = rest

section

variable {set : Settings} {handle : PacketHandler} {fuel : Nat} {vs : VnsSession} {s : ByteStream}
  {rest more : List UInt8} {messages : List (VnsEnv × WireMessage)}

theorem Follows.error (fault : Fault VnsAssert) : Follows rest (.error fault) (.error fault) :=
  ⟨⟨[], []⟩, List.not_mem_nil, rfl, fun _ h => nomatch h⟩

/-- The main loop returns where the client has ended. -/
theorem Follows.ended (hsteady : s.Steady) :
    Follows rest (.ok (false, vs, s)) (.ok ⟨.ended, vs⟩) := by
  refine ⟨s, hsteady, rfl, ?_⟩
  rintro c ⟨⟩ hrunning
  cases hrunning

/-- The main loop goes on where the client does. -/
theorem Follows.running (hpending : s.pending = rest) (hsteady : s.Steady) :
    Follows rest (.ok (true, vs, s)) (.ok ⟨.running, vs⟩) := by
  refine ⟨s, hsteady, rfl, ?_⟩
  rintro c ⟨⟩ -
  exact hpending

/-- A call that waits for a message, and what the program does after it: it ends, unless the call
returned 1. -/
theorem Follows.read {stage : Stage} {m : VnsEnv × WireMessage}
    {next : Int × VnsSession × ByteStream → Ran} (hstage : stage ≠ .ended)
    (hpending : s.pending = m.2.bytes ++ more) (hsteady : s.Steady) (hfuel : 10000 ≤ fuel)
    (hends : ∀ ret vs s, ret ≠ 1 → next (ret, vs, s) = .ok (false, vs, s))
    (hnext : ∀ vs s, s.pending = more → s.Steady → Follows rest (next (1, vs, s)) (do
      let c ← Client.proceed set ⟨stage, vs⟩
      Client.receiveAll set handle c messages)) :
    Follows rest (readFromServerExpect m.1 handle fuel stage.expected vs s >>= next)
      (Client.receiveAll set handle ⟨stage, vs⟩ (m :: messages)) := by
  obtain ⟨s', hmore, hsteady', hrun⟩ :=
    @readFromServerExpect_eq m.1 handle vs s m.2 more fuel stage.expected hpending hsteady hfuel
  rw [hrun, Client.receiveAll_cons, Client.receive_of_ne hstage]
  cases dispatch m.1 handle stage.expected vs m.2.len m.2.type m.2.buffer with
  | error fault => exact Follows.error fault
  | ok out =>
    obtain ⟨ret, vs'⟩ := out
    simp only [Exec.ok_bind, Exec.pure_eq_ok]
    by_cases hret : ret = 1
    · rw [if_pos hret, hret]
      exact hnext vs' s' hmore hsteady'
    · rw [if_neg hret, hends ret vs' s' hret, Exec.ok_bind, Client.receiveAll_ended]
      exact Follows.ended hsteady'

/-- The loop of `main` takes message after message. -/
theorem mainLoop_follows (hpending : s.pending = messages.flatMap (fun m => m.2.bytes) ++ rest)
    (hsteady : s.Steady) (hfuel : 10000 ≤ fuel) :
    Follows rest (mainLoop handle fuel (messages.map Prod.fst) vs s)
      (Client.receiveAll set handle ⟨.running, vs⟩ messages) := by
  induction messages generalizing vs s with
  | nil => exact Follows.running hpending hsteady
  | cons m messages ih =>
    rw [List.flatMap_cons, List.append_assoc] at hpending
    rw [List.map_cons, mainLoop]
    apply @Follows.read set handle fuel vs s rest _ messages .running m _ Stage.noConfusion hpending
      hsteady hfuel
    · intro ret vs s hret
      exact if_neg hret
    · exact fun vs s hmore hsteady => ih hmore hsteady

/-- Behind the handshake, the routing table is loaded and the loop entered. -/
theorem prepare_follows (hpending : s.pending = messages.flatMap (fun m => m.2.bytes) ++ rest)
    (hsteady : s.Steady) (hfuel : 10000 ≤ fuel) :
    Follows rest
      (do
        let (loaded, vs) ← prepare set vs
        if !loaded then pure (false, vs, s) else mainLoop handle fuel (messages.map Prod.fst) vs s)
      (do
        let c ← Client.enterLoop set vs
        Client.receiveAll set handle c messages) := by
  rw [Client.enterLoop]
  cases prepare set vs with
  | error fault => exact Follows.error fault
  | ok out =>
    obtain ⟨loaded, vs'⟩ := out
    simp only [Exec.ok_bind, Exec.pure_eq_ok]
    cases loaded with
    | true => exact mainLoop_follows hpending hsteady hfuel
    | false =>
      rw [if_neg Bool.false_ne_true, Client.receiveAll_ended]
      exact Follows.ended hsteady

/-- The messages of a session whose handshake is complete. -/
def sessionMessages (name : List UInt8) (request status rtable : VnsEnv × WireMessage)
    (messages : List (VnsEnv × WireMessage)) : List (VnsEnv × WireMessage) :=
  request :: status :: if name = [] then messages else rtable :: messages

/-- `main` takes the messages of its session, however their bytes arrive. -/
theorem main_follows {name : List UInt8} (hname : CStrAt set.template 0 name)
    (hreachable : set.reachable = true) {request status rtable : VnsEnv × WireMessage}
    (hpending : s.pending =
      (sessionMessages name request status rtable messages).flatMap (fun m => m.2.bytes) ++ rest)
    (hsteady : s.Steady) (hfuel : 10000 ≤ fuel) :
    Follows rest
      (main request.1 status.1 rtable.1 (messages.map Prod.fst) handle fuel set vs s)
      (Client.receiveAll set handle ⟨.authRequest, vs⟩
        (sessionMessages name request status rtable messages)) := by
  have hstrlen : (strlen set.template 0 : Exec VnsAssert Nat) = .ok name.length := hname.strlen_eq
  rw [sessionMessages, List.flatMap_cons, List.flatMap_cons, List.append_assoc,
    List.append_assoc] at hpending
  rw [main, connectToServer, if_neg (by rw [hreachable]; exact Bool.false_ne_true), bind_assoc,
    sessionMessages]
  apply @Follows.read set handle fuel vs s rest _ _ .authRequest request _ Stage.noConfusion
    hpending hsteady hfuel
  · intro ret vs s hret
    dsimp only
    rw [if_pos hret]
    rfl
  intro vs s hmore hsteady
  simp only [ne_eq, not_true_eq_false, if_false, Client.proceed, Exec.ok_bind, bind_assoc]
  apply @Follows.read set handle fuel vs s rest _ _ .authStatus status _ Stage.noConfusion hmore
    hsteady hfuel
  · intro ret vs s hret
    dsimp only
    rw [if_pos hret]
    rfl
  intro vs s hmore hsteady
  simp only [not_true_eq_false, if_false, Client.proceed, Client.sendOpening, hstrlen, Exec.ok_bind,
    bind_assoc]
  cases opening set vs.user with
  | error fault => exact Follows.error fault
  | ok message =>
    rw [Exec.ok_bind, Exec.ok_bind]
    by_cases hsends : set.opening.sends = true
    · simp only [hsends, Bool.not_true, Bool.false_eq_true, if_false]
      by_cases htemplate : name = []
      · subst htemplate
        exact prepare_follows hmore hsteady hfuel
      · rw [if_neg htemplate, List.flatMap_cons, List.append_assoc] at hmore
        simp only [if_pos (List.length_pos_of_ne_nil htemplate), if_neg htemplate, bind_assoc,
          Exec.pure_eq_ok, Exec.ok_bind]
        apply @Follows.read set handle fuel _ s rest _ _ .rtable rtable _ Stage.noConfusion hmore
          hsteady hfuel
        · intro ret vs s hret
          dsimp only
          rw [if_pos hret]
          rfl
        intro vs s hmore hsteady
        exact prepare_follows hmore hsteady hfuel
    · simp only [Bool.eq_false_iff.2 hsends, Bool.not_false, if_true, Exec.pure_eq_ok, Exec.ok_bind,
        Client.receiveAll_ended]
      exact Follows.ended hsteady

end

end ComputerNetworks.Router
