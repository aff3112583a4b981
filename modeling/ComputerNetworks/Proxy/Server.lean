import ComputerNetworks.Core.Components
import ComputerNetworks.Core.Descriptors
import ComputerNetworks.Proxy.Session

/-!
# The processes of the proxy

`proxy` listens, and forks a process for each connection it accepts. The parent
and its children name their sockets by numbers of their own tables, which after a
fork are copies, so the same number stands for another client in each of them.
Their calls interleave in any order.
-/

namespace ComputerNetworks.Proxy

/-- What a number of one of the processes can stand for. -/
inductive File where
  | stream (n : Nat)
  | listener
  /-- The connection that was accepted as this one. -/
  | client (i : Nat)
  /-- A connection to the origin server of this client. -/
  | origin (i : Nat)
  deriving DecidableEq, Repr

/-- What the calls for one address of the proxy return. -/
structure Address where
  socket : Bool
  setsockopt : Bool
  bind : Bool
  deriving DecidableEq, Repr

/-- The loop of `proxy` over its addresses. A socket that cannot be bound is closed, and the loop
is left with it all the same. -/
def openListener : List Address → Descriptors File →
    Except Int (Option (Int × Descriptors File))
  | [], _ => .ok none
  | address :: rest, table =>
    if address.socket then
      let (sockfd, table) := table.install .listener
      if address.setsockopt then
        .ok (some (sockfd, if address.bind then table else table.close sockfd))
      else
        .error 1
    else
      openListener rest table

/-- `proxy` up to its loop: the listening socket, or what it returns. -/
def establish (found : Option (List Address)) (listens : Bool) (table : Descriptors File) :
    Except Int (Int × Descriptors File) :=
  match found with
  | none => .error 1
  | some addresses => do
    match ← openListener addresses table with
    | none => .error 1
    | some (sockfd, table) =>
      if (table.file? sockfd).isSome ∧ listens then .ok (sockfd, table) else .error 1

/-- A child: its table, its variables and its next call. -/
structure Child where
  table : Descriptors File
  sockfd : Int
  newFd : Int
  received : List (Option (List UInt8))
  pc : Pc Int

/-- What has gone out on each connection. -/
abbrev Wire := File → List UInt8

/-- Bytes go out on what the number stands for. -/
def Wire.write (wire : Wire) (table : Descriptors File) (fd : Int) (bytes : List UInt8) : Wire :=
  match table.file? fd with
  | none => wire
  | some f => Function.update wire f (wire f ++ bytes)

/-- A call of the child that serves client `i`: `client_helper`, with the `close` before it and the
`exit` behind it. -/
def Child.step (errnoEinval : Bool) (i : Nat) (c : Child) (wire : Wire) : Call → Child × Wire
  | .killed => ({ c with table := [], pc := .killed }, wire)
  | call =>
    match c.pc, call with
    | .closing, .close => ({ c with table := c.table.close c.sockfd, pc := .receiving }, wire)
    | .receiving, .recv got =>
      let received := c.received ++ [got]
      ({ c with received, pc := .judge errnoEinval received }, wire)
    | .refusing message, .send taken =>
      ({ c with pc := .exiting }, wire.write c.table c.newFd (takenOf message taken))
    | .resolving _, .getaddrinfo none => ({ c with pc := .exiting }, wire)
    | .resolving sent, .getaddrinfo (some rest) => ({ c with pc := .opening rest sent }, wire)
    | .opening rest sent, .socket false => ({ c with pc := .nextAddress rest (-1) sent }, wire)
    | .opening rest sent, .socket true =>
      let (sockfd2, table) := c.table.install (.origin i)
      ({ c with table, pc := .connecting rest sockfd2 sent }, wire)
    | .connecting rest sockfd2 sent, .connect false =>
      ({ c with table := c.table.close sockfd2, pc := .nextAddress rest sockfd2 sent }, wire)
    | .connecting _ sockfd2 sent, .connect true =>
      ({ c with pc := .requesting sockfd2 sent }, wire)
    | .requesting sockfd2 _, .send none => ({ c with pc := .apologising sockfd2 }, wire)
    | .requesting sockfd2 sent, .send (some k) =>
      ({ c with pc := .relaying sockfd2 }, wire.write c.table sockfd2 (sent.take k))
    | .apologising sockfd2, .send taken =>
      ({ c with pc := .relaying sockfd2 }, wire.write c.table c.newFd (takenOf text500 taken))
    | .relaying sockfd2, .recv (some (b :: chunk)) =>
      ({ c with pc := .passing sockfd2 (b :: chunk) }, wire)
    | .relaying sockfd2, .recv _ => ({ c with pc := .leaving sockfd2 }, wire)
    | .passing sockfd2 chunk, .send taken =>
      ({ c with pc := .relaying sockfd2 }, wire.write c.table c.newFd (takenOf chunk taken))
    | .leaving sockfd2, .close =>
      ({ c with table := c.table.close sockfd2, pc := .exiting }, wire)
    | .exiting, .exit => ({ c with table := [], pc := .exited }, wire)
    | _, _ => (c, wire)

/-- The call that the parent makes next. -/
inductive ParentPc where
  | accepting
  | forking (newFd : Int)
  | closing (newFd : Int)
  deriving DecidableEq, Repr

/-- All processes of the proxy. The children are listed by the connections that were accepted; a
connection whose fork failed has none. -/
structure Server where
  table : Descriptors File
  sockfd : Int
  pc : ParentPc
  children : List (Option Child)
  wire : Wire

/-- A call of one of the processes. -/
inductive Op where
  | accept (ok : Bool)
  | fork (ok : Bool)
  | close
  | child (i : Nat) (call : Call)

namespace Server

/-- `proxy` at its loop. -/
def start (sockfd : Int) (table : Descriptors File) : Server :=
  ⟨table, sockfd, .accepting, [], fun _ => []⟩

/-- The child that serves a client. -/
def child? (s : Server) (i : Nat) : Option Child := (s.children[i]?).join

/-- Which calls can be made, with what they may return. -/
def Allows (s : Server) : Op → Prop
  | .accept _ => s.pc = .accepting
  | .fork _ => ∃ newFd, s.pc = .forking newFd
  | .close => ∃ newFd, s.pc = .closing newFd
  | .child i call => ∃ c, s.child? i = some c ∧
    c.pc.Allows (fun fd => (c.table.file? fd).isSome) c.received call

/-- The parent forks, and goes on whether or not there is a child. -/
def fork (s : Server) (newFd : Int) (ok : Bool) : Server :=
  { s with
    pc := .closing newFd
    children := s.children ++ [if ok then some ⟨s.table, s.sockfd, newFd, [], .closing⟩ else none] }

/-- What a call does: the loop of `proxy`, or a child. -/
def step (errnoEinval : Bool) (s : Server) : Op → Server
  | .accept false => s
  | .accept true =>
    let (newFd, table) := s.table.install (.client s.children.length)
    { s with table, pc := .forking newFd }
  | .fork ok =>
    match s.pc with
    | .forking newFd => s.fork newFd ok
    | _ => s
  | .close =>
    match s.pc with
    | .closing newFd => { s with table := s.table.close newFd, pc := .accepting }
    | _ => s
  | .child i call =>
    match s.child? i with
    | none => s
    | some c =>
      let (c, wire) := c.step errnoEinval i s.wire call
      { s with children := s.children.set i (some c), wire }

/-- The calls of all processes, in any order. -/
def machine (errnoEinval : Bool) : Machine Empty Server Op where
  enabled := Allows
  step := fun s op => .ok (s.step errnoEinval op)

/-- Some process holds the connection open. -/
def IsOpen (s : Server) (f : File) : Prop :=
  s.table.Names f ∨ ∃ i c, s.child? i = some c ∧ c.table.Names f

/-- The connection that the parent has accepted and not yet closed. -/
def inHand (s : Server) : Option Nat :=
  match s.pc with
  | .accepting => none
  | .forking _ => some s.children.length
  | .closing _ => some (s.children.length - 1)

end Server

/-- A listening socket that is set up is the only file added. -/
theorem openListener_ok {addresses : List Address} {table₀ table : Descriptors File} {sockfd : Int}
    (h : openListener addresses table₀ = .ok (some (sockfd, table)))
    (hopen : (table.file? sockfd).isSome) (fd : Int) :
    table.file? fd = if fd = sockfd then some .listener else table₀.file? fd := by
  induction addresses with
  | nil => cases h
  | cons address rest ih =>
    rw [openListener] at h
    split at h
    · dsimp only at h
      split at h
      · cases h
        split at hopen
        · next hbind => rw [if_pos hbind, Descriptors.file?_install]
        · rw [Descriptors.file?_close, if_pos rfl] at hopen
          cases hopen
      · cases h
    · exact ih h

/-- The proxy listens on one socket, and has no other file than it was started with. -/
theorem establish_ok {found : Option (List Address)} {listens : Bool} {table₀ : Descriptors File}
    {sockfd : Int} {table : Descriptors File}
    (h : establish found listens table₀ = .ok (sockfd, table)) (fd : Int) :
    table.file? fd = if fd = sockfd then some .listener else table₀.file? fd := by
  cases found with
  | none => cases h
  | some addresses =>
    rw [establish] at h
    cases hopen : openListener addresses table₀ with
    | error rc =>
      rw [hopen] at h
      cases h
    | ok bound =>
      rw [hopen] at h
      cases bound with
      | none => cases h
      | some bound =>
        obtain ⟨sockfd', table'⟩ := bound
        change (if (table'.file? sockfd').isSome ∧ listens then
          (Except.ok (sockfd', table') : Except Int _) else .error 1) = _ at h
        split at h
        · next hlistens =>
          cases h
          exact openListener_ok hopen hlistens.1 fd
        · cases h

namespace Pc

variable {Sock Sock' : Type} {f : Sock → Sock'} {pc : Pc Sock}

theorem sock_map : (pc.map f).sock = pc.sock.map f := by
  cases pc <;> rfl

theorem running_map : (pc.map f).Running ↔ pc.Running := by
  cases pc <;> rfl

/-- Only the name of the session's socket counts. -/
theorem map_congr {g : Sock → Sock'} (h : ∀ s, pc.sock = some s → f s = g s) :
    pc.map f = pc.map g := by
  cases pc with
  | connecting | requesting | apologising | relaying | passing | leaving =>
    rw [map, map, h _ rfl]
  | _ => rfl

/-- Behind the first call and before the end. -/
def Active : Pc Sock → Prop
  | closing | exited | killed => False
  | _ => True

/-- A session before its end is running. -/
theorem Active.running (h : pc.Active) : pc.Running := by
  cases pc with
  | exited | killed => exact h
  | _ => trivial

theorem Active.ne_closing (h : pc.Active) : pc ≠ .closing := by
  rintro rfl
  exact h

theorem active_judge {errnoEinval : Bool} {received : List (Option (List UInt8))} :
    (judge errnoEinval received : Pc Sock).Active := by
  rw [judge]
  split <;> trivial

theorem sock_judge {errnoEinval : Bool} {received : List (Option (List UInt8))} :
    (judge errnoEinval received : Pc Sock).sock = none := by
  rw [judge]
  split <;> rfl

theorem active_nextAddress {rest : Nat} {sockfd2 : Sock} {sent : List UInt8} :
    (nextAddress rest sockfd2 sent).Active := by
  cases rest <;> trivial

theorem sock_nextAddress {rest : Nat} {sockfd2 fd : Sock} {sent : List UInt8}
    (h : (nextAddress rest sockfd2 sent).sock = some fd) : fd = sockfd2 := by
  cases rest with
  | zero => exact (Option.some.inj h).symm
  | succ rest => cases h

theorem map_judge {errnoEinval : Bool} {received : List (Option (List UInt8))} :
    (judge errnoEinval received : Pc Sock).map f = judge errnoEinval received := by
  rw [judge, judge]
  split <;> rfl

theorem map_nextAddress {rest : Nat} {sockfd2 : Sock} {sent : List UInt8} :
    (nextAddress rest sockfd2 sent).map f = nextAddress rest (f sockfd2) sent := by
  cases rest <;> rfl

/-- What is asked of a call depends on the sockets by whether they are open. -/
theorem Allows.map {isOpen : Sock → Bool} {received : List (Option (List UInt8))} {call : Call}
    (h : pc.Allows isOpen received call) : (pc.map isOpen).Allows id received call := by
  cases h with
  | close => exact .close
  | recv hlen => exact .recv hlen
  | refuse hlen => exact .refuse hlen
  | resolve => exact .resolve
  | socket => exact .socket
  | connect => exact .connect
  | request hlen hopen => exact .request hlen hopen
  | apologise hlen => exact .apologise hlen
  | piece hlen hopen => exact .piece hlen hopen
  | pass hlen => exact .pass hlen
  | leave => exact .leave
  | exit => exact .exit
  | kill hrunning => exact .kill (running_map.2 hrunning)

end Pc

namespace Child

/-- What a number of the child that serves client `i` may name. -/
def May (i : Nat) (c : Child) (fd : Int) : File → Prop
  | .stream _ => True
  | .listener => c.pc = .closing ∧ fd = c.sockfd
  | .client j => j = i ∧ fd = c.newFd
  | .origin j => j = i ∧ c.pc.sock = some fd

/-- Whether a number of the child names a file. -/
def isOpen (c : Child) (fd : Int) : Bool := (c.table.file? fd).isSome

/-- A child does what a session does that has its sockets instead of their numbers. -/
structure Stands (i : Nat) (c : Child) (t : Session) : Prop where
  received : c.received = t.received
  pc : c.pc.map c.isOpen = t.pc
  client : c.pc.Running → c.table.file? c.newFd = some (.client i)
  listener : c.pc = .closing → c.table.file? c.sockfd = some .listener
  gone : ¬ c.pc.Running → c.table = []
  may : ∀ fd f, c.table.file? fd = some f → c.May i fd f
  sock : ∀ fd f, c.pc.sock = some fd → c.table.file? fd = some f → f = .origin i

variable {i : Nat} {c : Child} {t : Session}

/-- A call that leaves the table alone and gives up no socket. -/
theorem Stands.moved (h : c.Stands i t) (hold : c.pc.Active) (pc : Pc Int) (hnew : pc.Active)
    (hkept : ∀ fd, c.pc.sock = some fd → pc.sock = some fd)
    (hsock : ∀ fd, pc.sock = some fd → c.pc.sock = some fd ∨ c.table.file? fd = none)
    (received : List (Option (List UInt8))) {t' : Session} (ht : t'.pc = pc.map c.isOpen)
    (hreceived : t'.received = received) :
    ({ c with pc, received } : Child).Stands i t' where
  received := hreceived.symm
  pc := ht.symm
  client := fun _ => h.client hold.running
  listener := fun hc => absurd hc hnew.ne_closing
  gone := fun hno => absurd hnew.running hno
  may := by
    intro fd f hf
    have hmay := h.may fd f hf
    cases f with
    | stream n => trivial
    | listener => exact absurd hmay.1 hold.ne_closing
    | client j => exact hmay
    | origin j => exact ⟨hmay.1, hkept fd hmay.2⟩
  sock := by
    intro fd f hfd hf
    rcases hsock fd hfd with hsame | hnone
    · exact h.sock fd f hsame hf
    · exact absurd (hf.symm.trans hnone) nofun

/-- A call that leaves the table and the socket alone. -/
theorem Stands.stays (h : c.Stands i t) (hold : c.pc.Active) (pc : Pc Int) (hnew : pc.Active)
    (hsock : pc.sock = c.pc.sock) {t' : Session} (ht : t'.pc = pc.map c.isOpen)
    (hreceived : t'.received = t.received) : ({ c with pc } : Child).Stands i t' :=
  h.moved hold pc hnew (fun _ hfd => hsock.trans hfd) (fun _ hfd => Or.inl (hsock.symm.trans hfd))
    c.received ht (hreceived.trans h.received.symm)

/-- The child closes its socket. -/
theorem Stands.closed (h : c.Stands i t) (hold : c.pc.Active) {sockfd2 : Int}
    (hsock : c.pc.sock = some sockfd2) (pc : Pc Int) (hnew : pc.Active)
    (hsock' : ∀ fd, pc.sock = some fd → fd = sockfd2) {t' : Session}
    (ht : t'.pc = pc.map fun _ => false) (hreceived : t'.received = t.received) :
    ({ c with table := c.table.close sockfd2, pc } : Child).Stands i t' := by
  have hnone : (c.table.close sockfd2).file? sockfd2 = none := by
    rw [Descriptors.file?_close, if_pos rfl]
  have hne : c.newFd ≠ sockfd2 := by
    intro heq
    have hclient := h.client hold.running
    rw [heq] at hclient
    cases h.sock sockfd2 _ hsock hclient
  have hfile : ∀ fd f, (c.table.close sockfd2).file? fd = some f →
      fd ≠ sockfd2 ∧ c.table.file? fd = some f := by
    intro fd f hf
    rw [Descriptors.file?_close] at hf
    split at hf
    · cases hf
    · next hfd => exact ⟨hfd, hf⟩
  refine ⟨h.received.trans hreceived.symm, ?_, ?_, fun hc => absurd hc hnew.ne_closing,
    fun hno => absurd hnew.running hno, ?_, ?_⟩
  · refine Eq.trans (Pc.map_congr fun fd hfd => ?_) ht.symm
    rw [hsock' fd hfd, isOpen, hnone]
    rfl
  · intro _
    change (c.table.close sockfd2).file? c.newFd = _
    rw [Descriptors.file?_close, if_neg hne]
    exact h.client hold.running
  · intro fd f hf
    obtain ⟨hfd, hfile⟩ := hfile fd f hf
    have hmay := h.may fd f hfile
    cases f with
    | stream n => trivial
    | listener => exact absurd hmay.1 hold.ne_closing
    | client j => exact hmay
    | origin j =>
      rw [May, hsock] at hmay
      exact absurd (Option.some.inj hmay.2).symm hfd
  · intro fd f hfd hf
    obtain ⟨hne', -⟩ := hfile fd f hf
    exact absurd (hsock' fd hfd) hne'

/-- The child opens a socket. -/
theorem Stands.opened (h : c.Stands i t) {rest : Nat} {sent : List UInt8}
    (hopening : c.pc = .opening rest sent) {t' : Session} (ht : t'.pc = .connecting rest true sent)
    (hreceived : t'.received = t.received) :
    ({ c with
      table := (c.table.install (.origin i)).2
      pc := .connecting rest (c.table.install (.origin i)).1 sent } : Child).Stands i t' := by
  have hsock : c.pc.sock = none := by rw [hopening]; rfl
  have hne : c.newFd ≠ (c.table.install (File.origin i)).1 := by
    intro heq
    have hclient := h.client (by rw [hopening]; trivial)
    rw [heq, Descriptors.file?_install_fst] at hclient
    cases hclient
  refine ⟨h.received.trans hreceived.symm, ?_, ?_, nofun, fun hno => absurd trivial hno, ?_, ?_⟩
  · refine Eq.trans ?_ ht.symm
    rw [Pc.map, isOpen, Descriptors.file?_install_self]
    rfl
  · intro _
    change (c.table.install (File.origin i)).2.file? c.newFd = _
    rw [Descriptors.file?_install, if_neg hne]
    exact h.client (by rw [hopening]; trivial)
  · intro fd f hf
    change (c.table.install (File.origin i)).2.file? fd = _ at hf
    rw [Descriptors.file?_install] at hf
    split at hf
    · next hfd =>
      cases hf
      exact ⟨rfl, congrArg some hfd.symm⟩
    · have hmay := h.may fd f hf
      cases f with
      | stream n => trivial
      | listener => exact nomatch hopening.symm.trans hmay.1
      | client j => exact hmay
      | origin j => exact nomatch hsock.symm.trans hmay.2
  · intro fd f hfd hf
    cases hfd
    change (c.table.install (File.origin i)).2.file? _ = _ at hf
    rw [Descriptors.file?_install_self] at hf
    exact (Option.some.inj hf).symm

/-- The process ends, and with it all its descriptors. -/
theorem Stands.ended (h : c.Stands i t) (pc : Pc Int) (hsock : pc.sock = none)
    (hrunning : ¬ pc.Running) (hclosing : pc ≠ .closing) {t' : Session}
    (ht : t'.pc = pc.map fun _ => false) (hreceived : t'.received = t.received) :
    ({ c with table := [], pc } : Child).Stands i t' := by
  refine ⟨h.received.trans hreceived.symm, ?_, fun hr => absurd hr hrunning,
    fun hc => absurd hc hclosing, fun _ => rfl, ?_, ?_⟩
  · refine Eq.trans (Pc.map_congr fun fd hfd => ?_) ht.symm
    exact nomatch hsock.symm.trans hfd
  · intro fd f hf
    exact nomatch (Descriptors.file?_nil fd).symm.trans hf
  · intro fd f hfd hf
    exact nomatch (Descriptors.file?_nil fd).symm.trans hf

/-- The child closes the listening socket of its parent. -/
theorem Stands.deaf (h : c.Stands i t) (hclosing : c.pc = .closing) {t' : Session}
    (ht : t'.pc = .receiving) (hreceived : t'.received = t.received) :
    ({ c with table := c.table.close c.sockfd, pc := .receiving } : Child).Stands i t' := by
  have hrunning : c.pc.Running := by rw [hclosing]; trivial
  have hne : c.newFd ≠ c.sockfd := by
    intro heq
    have hclient := h.client hrunning
    rw [heq, h.listener hclosing] at hclient
    cases hclient
  refine ⟨h.received.trans hreceived.symm, ht.symm, ?_, nofun, fun hno => absurd trivial hno, ?_,
    nofun⟩
  · intro _
    change (c.table.close c.sockfd).file? c.newFd = _
    rw [Descriptors.file?_close, if_neg hne]
    exact h.client hrunning
  · intro fd f hf
    change (c.table.close c.sockfd).file? fd = _ at hf
    rw [Descriptors.file?_close] at hf
    split at hf
    · cases hf
    · next hfd =>
      have hmay := h.may fd f hf
      cases f with
      | stream n => trivial
      | listener => exact absurd hmay.2 hfd
      | client j => exact hmay
      | origin j =>
        rw [May, hclosing] at hmay
        exact nomatch hmay.2

/-- A call of the child is one of its session. -/
theorem Stands.step (h : c.Stands i t) (errnoEinval : Bool) {call : Call}
    (hcall : c.pc.Allows c.isOpen c.received call) (wire : Wire) :
    t.pc.Allows id t.received call ∧
      (c.step errnoEinval i wire call).1.Stands i (t.next errnoEinval call) := by
  have hallows := hcall.map
  rw [h.pc, h.received] at hallows
  refine ⟨hallows, ?_⟩
  clear hallows
  obtain ⟨pc, received, log, toOrigin, origin, lost⟩ := t
  obtain ⟨table, sockfd, newFd, received', cpc⟩ := c
  obtain rfl : received' = received := h.received
  have hpc := h.pc
  dsimp only at hpc
  subst hpc
  cases hcall with
  | close => exact h.deaf rfl rfl rfl
  | recv hlen =>
    refine h.moved trivial (.judge errnoEinval _) Pc.active_judge nofun (fun fd hfd => ?_) _
      Pc.map_judge.symm rfl
    exact nomatch Pc.sock_judge.symm.trans hfd
  | refuse hlen => exact h.stays trivial .exiting trivial rfl rfl rfl
  | @resolve sent found =>
    cases found with
    | none => exact h.stays trivial .exiting trivial rfl rfl rfl
    | some rest => exact h.stays trivial (.opening rest sent) trivial rfl rfl rfl
  | @socket rest sent ok =>
    cases ok with
    | false =>
      -- the number that is left in `sockfd2` names no file
      refine h.moved trivial (.nextAddress rest (-1) sent) Pc.active_nextAddress nofun
        (fun fd hfd => Or.inr ?_) _ ?_ rfl
      · rw [Pc.sock_nextAddress hfd]
        rfl
      · rw [Pc.map_nextAddress]
        rfl
    | true => exact h.opened rfl rfl rfl
  | @connect rest sockfd2 sent ok =>
    cases ok with
    | false =>
      refine h.closed trivial rfl (.nextAddress rest sockfd2 sent) Pc.active_nextAddress
        (fun _ => Pc.sock_nextAddress) ?_ rfl
      rw [Pc.map_nextAddress]
      rfl
    | true => exact h.stays trivial (.requesting sockfd2 sent) trivial rfl rfl rfl
  | @request sockfd2 sent taken hlen hopen =>
    cases taken with
    | none => exact h.stays trivial (.apologising sockfd2) trivial rfl rfl rfl
    | some k => exact h.stays trivial (.relaying sockfd2) trivial rfl rfl rfl
  | @apologise sockfd2 taken hlen => exact h.stays trivial (.relaying sockfd2) trivial rfl rfl rfl
  | @piece sockfd2 got hlen hopen =>
    match got with
    | none | some [] => exact h.stays trivial (.leaving sockfd2) trivial rfl rfl rfl
    | some (b :: chunk) =>
      exact h.stays trivial (.passing sockfd2 (b :: chunk)) trivial rfl rfl rfl
  | @pass sockfd2 chunk taken hlen => exact h.stays trivial (.relaying sockfd2) trivial rfl rfl rfl
  | leave => exact h.closed trivial rfl .exiting trivial nofun rfl rfl
  | exit => exact h.ended .exited rfl id nofun rfl rfl
  | kill hrunning => exact h.ended .killed rfl id nofun rfl rfl

/-- The connections of client `i` have what its session has sent; nothing has gone out on others. -/
structure Carries (i : Nat) (wire wire' : Wire) (t : Session) : Prop where
  client : wire' (.client i) = t.toClient
  origin : wire' (.origin i) = t.toOrigin
  others : ∀ f, f ≠ .client i → f ≠ .origin i → wire' f = wire f

theorem origin_ne_client (i j : Nat) : File.origin i ≠ .client j := nofun

/-- What is written to an open file goes to it and no other. -/
theorem write_eq {wire : Wire} {table : Descriptors File} {fd : Int} {f : File}
    (h : table.file? fd = some f) (bytes : List UInt8) :
    wire.write table fd bytes = Function.update wire f (wire f ++ bytes) := by
  rw [Wire.write, h]

/-- A message for the client goes out on its connection. -/
theorem Stands.carries_client (h : c.Stands i t) (hrunning : c.pc.Running) {wire : Wire}
    (hclient : wire (.client i) = t.toClient) (horigin : wire (.origin i) = t.toOrigin)
    (message : List UInt8) (taken : Option Nat) {t' : Session}
    (hlog : t'.log = t.log ++ [(message, taken)]) (hto : t'.toOrigin = t.toOrigin) :
    Carries i wire (wire.write c.table c.newFd (takenOf message taken)) t' := by
  rw [write_eq (h.client hrunning)]
  refine ⟨?_, ?_, fun f hf _ => Function.update_of_ne hf _ _⟩
  · rw [Function.update_self, hclient, Session.toClient, Session.toClient, hlog, List.map_append,
      List.flatten_append, List.map_singleton, List.flatten_singleton]
  · rw [Function.update_of_ne (origin_ne_client i i), horigin, hto]

/-- What the child sends goes out where its session sends it. -/
theorem Stands.step_carries (h : c.Stands i t) (errnoEinval : Bool) {call : Call}
    (hcall : c.pc.Allows c.isOpen c.received call) {wire : Wire}
    (hclient : wire (.client i) = t.toClient) (horigin : wire (.origin i) = t.toOrigin) :
    Carries i wire (c.step errnoEinval i wire call).2 (t.next errnoEinval call) := by
  obtain ⟨pc, received, log, toOrigin, origin, lost⟩ := t
  obtain ⟨table, sockfd, newFd, received', cpc⟩ := c
  have hpc := h.pc
  dsimp only at hpc
  subst hpc
  cases hcall with
  | refuse hlen => exact h.carries_client trivial hclient horigin _ _ rfl rfl
  | apologise hlen => exact h.carries_client trivial hclient horigin _ _ rfl rfl
  | pass hlen => exact h.carries_client trivial hclient horigin _ _ rfl rfl
  | @request sockfd2 sent taken hlen hopen =>
    cases taken with
    | none => exact ⟨hclient, horigin, fun _ _ _ => rfl⟩
    | some k =>
      cases hfile : table.file? sockfd2 with
      | none =>
        have hnone := hopen (by rw [isOpen, hfile]; rfl)
        cases hnone
      | some f =>
        obtain rfl := h.sock sockfd2 f rfl hfile
        change Carries i wire (wire.write table sockfd2 (sent.take k)) _
        rw [write_eq hfile]
        refine ⟨?_, ?_, fun f _ hf => Function.update_of_ne hf _ _⟩
        · rw [Function.update_of_ne (origin_ne_client i i).symm]
          exact hclient
        · rw [Function.update_self, horigin]
          rfl
  | @resolve sent found => cases found <;> exact ⟨hclient, horigin, fun _ _ _ => rfl⟩
  | @socket rest sent ok => cases ok <;> exact ⟨hclient, horigin, fun _ _ _ => rfl⟩
  | @connect rest sockfd2 sent ok => cases ok <;> exact ⟨hclient, horigin, fun _ _ _ => rfl⟩
  | @piece sockfd2 got hlen hopen =>
    match got with
    | none | some [] | some (b :: chunk) => exact ⟨hclient, horigin, fun _ _ _ => rfl⟩
  | _ => exact ⟨hclient, horigin, fun _ _ _ => rfl⟩

end Child

/-- The files of the parent at its loop: its listening socket, and streams. -/
structure AtLoop (sockfd : Int) (table₀ : Descriptors File) : Prop where
  listener : table₀.file? sockfd = some .listener
  only : ∀ fd f, table₀.file? fd = some f → f = .listener ∧ fd = sockfd ∨ ∃ n, f = .stream n

/-- The operation of a session that is seen of a call. -/
def Op.view : Op → Option (Nat × Call)
  | .child i call => some (i, call)
  | _ => none

/-- The calls of the child that serves client `i`. -/
def callsOf (i : Nat) (ops : List Op) : List Call := Machine.opsOf i (ops.filterMap Op.view)

namespace Server

/-- Besides the files it had at its loop the parent holds one connection, under this number. -/
structure HoldsClient (table₀ : Descriptors File) (s : Server) (newFd : Int) (i : Nat) : Prop where
  free : table₀.file? newFd = none
  file : ∀ fd, s.table.file? fd = if fd = newFd then some (.client i) else table₀.file? fd

/-- What the parent holds open. -/
def Parent (table₀ : Descriptors File) (s : Server) : Prop :=
  match s.pc with
  | .accepting => ∀ fd, s.table.file? fd = table₀.file? fd
  | .forking newFd => s.HoldsClient table₀ newFd s.children.length
  | .closing newFd =>
    0 < s.children.length ∧ s.HoldsClient table₀ newFd (s.children.length - 1)

/-- The processes serve each client as a session of its own would. -/
structure Stands (sockfd : Int) (table₀ : Descriptors File) (s : Server) (t : Nat → Session) :
    Prop where
  sockfd : s.sockfd = sockfd
  parent : s.Parent table₀
  child : ∀ i c, s.child? i = some c → c.Stands i (t i)
  fresh : ∀ i, s.child? i = none → t i = .start
  client : ∀ i, s.wire (.client i) = (t i).toClient
  origin : ∀ i, s.wire (.origin i) = (t i).toOrigin

variable {errnoEinval : Bool} {sockfd : Int} {table₀ : Descriptors File} {s : Server}
  {t : Nat → Session}

/-- At the start no child runs. -/
theorem stands_start (sockfd : Int) (table₀ : Descriptors File) :
    (start sockfd table₀).Stands sockfd table₀ fun _ => .start where
  sockfd := rfl
  parent := fun _ => rfl
  child := nofun
  fresh := fun _ _ => rfl
  client := fun _ => rfl
  origin := fun _ => rfl

/-- The parent accepts a connection. -/
theorem Stands.accepted (h : s.Stands sockfd table₀ t) (hpc : s.pc = .accepting) :
    (s.step errnoEinval (.accept true)).Stands sockfd table₀ t := by
  have hparent := h.parent
  rw [Parent, hpc] at hparent
  refine ⟨h.sockfd, ⟨?_, fun fd => ?_⟩, h.child, h.fresh, h.client, h.origin⟩
  · rw [← hparent]
    exact Descriptors.file?_install_fst s.table (.client s.children.length)
  · rw [← hparent]
    exact Descriptors.file?_install _ _ _

/-- A copy of the parent's table, when it has accepted connection `i`, is one to serve it from. -/
theorem HoldsClient.forked (hloop : AtLoop sockfd table₀) {newFd : Int} {i : Nat}
    (h : s.HoldsClient table₀ newFd i) :
    (⟨s.table, sockfd, newFd, [], .closing⟩ : Child).Stands i .start := by
  have hne : sockfd ≠ newFd := by
    intro heq
    have hlistener := hloop.listener
    rw [heq, h.free] at hlistener
    cases hlistener
  refine ⟨rfl, rfl, fun _ => ?_, fun _ => ?_, fun hno => absurd trivial hno, fun fd f hf => ?_,
    nofun⟩
  · exact (h.file newFd).trans (if_pos rfl)
  · exact (h.file sockfd).trans ((if_neg hne).trans hloop.listener)
  · change s.table.file? fd = some f at hf
    rw [h.file] at hf
    split at hf
    · next hfd =>
      cases hf
      exact ⟨rfl, hfd⟩
    · rcases hloop.only fd f hf with ⟨rfl, hfd⟩ | ⟨n, rfl⟩
      · exact ⟨rfl, hfd⟩
      · trivial

theorem child?_of_le {i : Nat} (h : s.children.length ≤ i) : s.child? i = none := by
  rw [child?, List.getElem?_eq_none h]
  rfl

/-- A fork that succeeds adds a child with the descriptors of its parent. -/
theorem child?_fork {newFd : Int} {ok : Bool} {i : Nat} :
    (s.fork newFd ok).child? i = if i = s.children.length then
      if ok then some ⟨s.table, s.sockfd, newFd, [], .closing⟩ else none else s.child? i := by
  change ((s.children ++ [_])[i]?).join = _
  by_cases hi : i = s.children.length
  · rw [if_pos hi, hi, List.getElem?_concat_length]
    rfl
  · rw [if_neg hi]
    rcases Nat.lt_or_ge i s.children.length with hlt | hge
    · rw [List.getElem?_append_left hlt]
      rfl
    · rw [child?_of_le hge, List.getElem?_eq_none]
      · rfl
      · rw [List.length_append, List.length_singleton]
        omega

theorem child?_set {i j : Nat} {c : Child} (hi : i < s.children.length) {wire : Wire} :
    ({ s with children := s.children.set i (some c), wire } : Server).child? j =
      if j = i then some c else s.child? j := by
  change ((s.children.set i (some c))[j]?).join = _
  by_cases heq : j = i
  · rw [heq, if_pos rfl, List.getElem?_set_self hi]
    rfl
  · rw [if_neg heq, List.getElem?_set_ne (Ne.symm heq)]
    rfl

/-- A child that is there has its number. -/
theorem lt_of_child? {i : Nat} {c : Child} (h : s.child? i = some c) : i < s.children.length := by
  by_contra hle
  rw [child?_of_le (Nat.le_of_not_lt hle)] at h
  cases h

/-- The parent forks: a child is there to serve the connection, or none. -/
theorem Stands.forked (h : s.Stands sockfd table₀ t) (hloop : AtLoop sockfd table₀) {newFd : Int}
    (hpc : s.pc = .forking newFd) (ok : Bool) : (s.fork newFd ok).Stands sockfd table₀ t := by
  have hparent := h.parent
  rw [Parent, hpc] at hparent
  have hstart := h.fresh s.children.length (child?_of_le (Nat.le_refl _))
  refine ⟨h.sockfd, ?_, fun i c hc => ?_, fun i hi => ?_, h.client, h.origin⟩
  · refine ⟨?_, hparent.free, fun fd => ?_⟩
    · rw [fork, List.length_append, List.length_singleton]
      exact Nat.succ_pos _
    · rw [fork, List.length_append, List.length_singleton, Nat.add_sub_cancel]
      exact hparent.file fd
  · rw [child?_fork] at hc
    split at hc
    · next hi =>
      split at hc
      · cases hc
        rw [hi, hstart, h.sockfd]
        exact hparent.forked hloop
      · cases hc
    · exact h.child i c hc
  · rw [child?_fork] at hi
    split at hi
    · next heq => rw [heq, hstart]
    · exact h.fresh i hi

/-- The parent closes the connection that it has forked for. -/
theorem Stands.closed (h : s.Stands sockfd table₀ t) {newFd : Int} (hpc : s.pc = .closing newFd) :
    ({ s with table := s.table.close newFd, pc := .accepting } : Server).Stands sockfd
      table₀ t := by
  have hparent := h.parent
  rw [Parent, hpc] at hparent
  obtain ⟨-, hfree, hfile⟩ := hparent
  refine ⟨h.sockfd, fun fd => ?_, h.child, h.fresh, h.client, h.origin⟩
  rw [Descriptors.file?_close, hfile]
  split
  · next heq => rw [heq, hfree]
  · rfl

/-- What the parent holds is its own matter. -/
theorem Parent.of_eq (h : s.Parent table₀) {s' : Server} (hpc : s'.pc = s.pc)
    (htable : s'.table = s.table) (hlen : s'.children.length = s.children.length) :
    s'.Parent table₀ := by
  have hholds {newFd : Int} {i : Nat} (h : s.HoldsClient table₀ newFd i) :
      s'.HoldsClient table₀ newFd i := ⟨h.free, fun fd => by rw [htable, h.file]⟩
  rw [Parent] at h ⊢
  rw [hpc, hlen]
  split at h
  · rw [htable]
    exact h
  · exact hholds h
  · exact ⟨h.1, hholds h.2⟩

/-- A child makes a call. -/
theorem Stands.child_step (h : s.Stands sockfd table₀ t) (errnoEinval : Bool) {i : Nat} {c : Child}
    (hc : s.child? i = some c) {call : Call} (hcall : c.pc.Allows c.isOpen c.received call) :
    (t i).pc.Allows id (t i).received call ∧
      (s.step errnoEinval (.child i call)).Stands sockfd table₀
        (Function.update t i ((t i).next errnoEinval call)) := by
  obtain ⟨hallows, hstep⟩ := (h.child i c hc).step errnoEinval hcall s.wire
  have hcarries := (h.child i c hc).step_carries errnoEinval hcall
    (h.client i) (h.origin i)
  refine ⟨hallows, ?_⟩
  have hs : s.step errnoEinval (.child i call) =
      { s with
        children := s.children.set i (some (c.step errnoEinval i s.wire call).1)
        wire := (c.step errnoEinval i s.wire call).2 } := by
    rw [step, hc]
  rw [hs]
  have hlt := lt_of_child? hc
  refine ⟨h.sockfd, ?_, fun j d hd => ?_, fun j hj => ?_, fun j => ?_, fun j => ?_⟩
  · exact h.parent.of_eq rfl rfl List.length_set
  · rw [child?_set hlt] at hd
    split at hd
    · next heq =>
      cases hd
      rw [heq, Function.update_self]
      exact hstep
    · next hne =>
      rw [Function.update_of_ne hne]
      exact h.child j d hd
  · rw [child?_set hlt] at hj
    split at hj
    · cases hj
    · next hne =>
      rw [Function.update_of_ne hne]
      exact h.fresh j hj
  · by_cases heq : j = i
    · rw [heq, Function.update_self]
      exact hcarries.client
    · rw [Function.update_of_ne heq]
      have hne : File.client j ≠ .client i := fun hfile => heq (File.client.inj hfile)
      exact (hcarries.others _ hne (Child.origin_ne_client i j).symm).trans (h.client j)
  · by_cases heq : j = i
    · rw [heq, Function.update_self]
      exact hcarries.origin
    · rw [Function.update_of_ne heq]
      have hne : File.origin j ≠ .origin i := fun hfile => heq (File.origin.inj hfile)
      exact (hcarries.others _ (Child.origin_ne_client j i) hne).trans (h.origin j)

/-- Each call of a process is one of a session, or of none. -/
theorem machine_viewed (hloop : AtLoop sockfd table₀) {ops : List Op}
    (hops : (machine errnoEinval).Admissible (start sockfd table₀) ops) :
    ∃ s t, (machine errnoEinval).run (start sockfd table₀) ops = .ok s ∧
      s.Stands sockfd table₀ t ∧ ∀ i,
        (Session.machine errnoEinval).Admissible .start (callsOf i ops) ∧
        (Session.machine errnoEinval).run .start (callsOf i ops) = .ok (t i) := by
  have hpass : ∀ (s : Server) (t : Nat → Session) (op : Op), s.Stands sockfd table₀ t →
      s.Allows op → op.view = none → ∃ s', (machine errnoEinval).step s op = .ok s' ∧
        s'.Stands sockfd table₀ t := by
    intro s t op hst hop hview
    cases op with
    | accept ok =>
      cases ok with
      | false => exact ⟨s, rfl, hst⟩
      | true => exact ⟨_, rfl, hst.accepted hop⟩
    | fork ok =>
      obtain ⟨newFd, hpc⟩ := hop
      refine ⟨_, rfl, ?_⟩
      rw [step, hpc]
      exact hst.forked hloop hpc ok
    | close =>
      obtain ⟨newFd, hpc⟩ := hop
      refine ⟨_, rfl, ?_⟩
      rw [step, hpc]
      exact hst.closed hpc
    | child i call => cases hview
  have hseen : ∀ (s : Server) (t : Nat → Session) (op : Op) (op' : Nat × Call),
      s.Stands sockfd table₀ t → s.Allows op → op.view = some op' →
      ((Session.machine errnoEinval).sideBySide Nat).enabled t op' ∧
        ∃ s' t', (machine errnoEinval).step s op = .ok s' ∧
          ((Session.machine errnoEinval).sideBySide Nat).step t op' = .ok t' ∧
          s'.Stands sockfd table₀ t' := by
    intro s t op op' hst hop hview
    cases op with
    | child i call =>
      cases hview
      obtain ⟨c, hc, hcall⟩ := hop
      have hstep := hst.child_step errnoEinval hc hcall
      exact ⟨hstep.1, _, _, rfl, rfl, hstep.2⟩
    | _ => cases hview
  obtain ⟨s, t, hrun, hadm, hrun', hstands⟩ := Machine.run_viewed (M := machine errnoEinval)
    hpass hseen (stands_start sockfd table₀) hops
  exact ⟨s, t, hrun, hstands, fun i => Machine.sideBySide_run hadm hrun' i⟩

/-- Between two connections the parent has only its own files open. -/
theorem Parent.names (h : s.Parent table₀) (hloop : AtLoop sockfd table₀) {fd : Int} {f : File}
    (hf : s.table.file? fd = some f) :
    f = .listener ∨ (∃ n, f = .stream n) ∨ ∃ i, f = .client i ∧ s.inHand = some i := by
  have hbase (hold : table₀.file? fd = some f) : f = .listener ∨ (∃ n, f = .stream n) ∨
      ∃ i, f = .client i ∧ s.inHand = some i := by
    rcases hloop.only fd f hold with ⟨hlistener, -⟩ | hstream
    · exact Or.inl hlistener
    · exact Or.inr (Or.inl hstream)
  have hholds {newFd : Int} {i : Nat} (hhand : s.inHand = some i)
      (h : s.HoldsClient table₀ newFd i) : f = .listener ∨ (∃ n, f = .stream n) ∨
        ∃ i, f = .client i ∧ s.inHand = some i := by
    rw [h.file] at hf
    split at hf
    · exact Or.inr (Or.inr ⟨i, (Option.some.inj hf).symm, hhand⟩)
    · exact hbase hf
  rw [Parent] at h
  split at h
  · exact hbase ((h fd).symm.trans hf)
  · next newFd hpc => exact hholds (by rw [inHand, hpc]) h
  · next newFd hpc => exact hholds (by rw [inHand, hpc]) h.2

/-- The connection in hand is open in the parent. -/
theorem Parent.names_inHand (h : s.Parent table₀) {i : Nat} (hhand : s.inHand = some i) :
    s.table.Names (.client i) := by
  rw [Parent] at h
  rw [inHand] at hhand
  split at h
  · next hpc => simp [hpc] at hhand
  · next newFd hpc =>
    simp only [hpc, Option.some.injEq] at hhand
    exact ⟨newFd, by rw [h.file, if_pos rfl, hhand]⟩
  · next newFd hpc =>
    simp only [hpc, Option.some.injEq] at hhand
    exact ⟨newFd, by rw [h.2.file, if_pos rfl, hhand]⟩

/-- A connection to a client is held by the parent until it has forked for it and closed it, and
by the child until it ends. -/
theorem Stands.isOpen_client (h : s.Stands sockfd table₀ t) (hloop : AtLoop sockfd table₀)
    (i : Nat) : s.IsOpen (.client i) ↔
      s.inHand = some i ∨ (s.child? i).isSome ∧ (t i).pc.Running := by
  constructor
  · rintro (⟨fd, hf⟩ | ⟨j, c, hc, fd, hf⟩)
    · rcases h.parent.names hloop hf with hno | ⟨n, hno⟩ | ⟨j, hj, hhand⟩
      · cases hno
      · cases hno
      · cases hj
        exact Or.inl hhand
    · have hstands := h.child j c hc
      obtain ⟨rfl, -⟩ := hstands.may fd _ hf
      refine Or.inr ⟨Option.isSome_of_eq_some hc, ?_⟩
      rw [← hstands.pc, Pc.running_map]
      by_contra hgone
      rw [hstands.gone hgone, Descriptors.file?_nil] at hf
      cases hf
  · rintro (hhand | ⟨hsome, hrunning⟩)
    · exact Or.inl (h.parent.names_inHand hhand)
    · obtain ⟨c, hc⟩ := Option.isSome_iff_exists.1 hsome
      have hstands := h.child i c hc
      rw [← hstands.pc, Pc.running_map] at hrunning
      exact Or.inr ⟨i, c, hc, c.newFd, hstands.client hrunning⟩

/-- A connection to an origin server is held by the child that has it for its session. -/
theorem Stands.isOpen_origin (h : s.Stands sockfd table₀ t) (hloop : AtLoop sockfd table₀)
    (i : Nat) : s.IsOpen (.origin i) ↔ (t i).pc.sock = some true := by
  constructor
  · rintro (⟨fd, hf⟩ | ⟨j, c, hc, fd, hf⟩)
    · rcases h.parent.names hloop hf with hno | ⟨n, hno⟩ | ⟨j, hno, -⟩
      · cases hno
      · cases hno
      · cases hno
    · have hstands := h.child j c hc
      obtain ⟨rfl, hsock⟩ := hstands.may fd _ hf
      rw [← hstands.pc, Pc.sock_map, hsock, Option.map_some, Child.isOpen, hf]
      rfl
  · intro hopen
    cases hc : s.child? i with
    | none =>
      rw [h.fresh i hc] at hopen
      cases hopen
    | some c =>
      have hstands := h.child i c hc
      rw [← hstands.pc, Pc.sock_map, Option.map_eq_some_iff] at hopen
      obtain ⟨fd, hsock, hfile⟩ := hopen
      obtain ⟨f, hf⟩ := Option.isSome_iff_exists.1 hfile
      obtain rfl := hstands.sock fd f hsock hf
      exact Or.inr ⟨i, c, hc, fd, hf⟩

end Server

/-- In any order of the calls of all processes, from the set-up on, each client is served as by a
process of its own: it is sent what a session is that makes the calls of its child alone. Its
connection is open while the parent has it in hand and as long as its child runs, and the one to its
origin server while the session has a socket; between two connections the parent holds what it held
when it began to listen. -/
theorem proxy_run (errnoEinval : Bool) {found : Option (List Address)} {listens : Bool}
    {table₀ table : Descriptors File} {sockfd : Int}
    (hstreams : ∀ fd f, table₀.file? fd = some f → ∃ n, f = .stream n)
    (hestablish : establish found listens table₀ = .ok (sockfd, table)) {ops : List Op}
    (hops : (Server.machine errnoEinval).Admissible (.start sockfd table) ops) :
    ∃ s, (Server.machine errnoEinval).run (.start sockfd table) ops = .ok s ∧
      (s.pc = .accepting → ∀ fd, s.table.file? fd =
        if fd = sockfd then some .listener else table₀.file? fd) ∧
      ∀ i, ∃ t, (Session.machine errnoEinval).Admissible .start (callsOf i ops) ∧
        (Session.machine errnoEinval).run .start (callsOf i ops) = .ok t ∧
        s.wire (.client i) = t.toClient ∧ s.wire (.origin i) = t.toOrigin ∧
        (s.IsOpen (.client i) ↔ s.inHand = some i ∨ (s.child? i).isSome ∧ t.pc.Running) ∧
        (s.IsOpen (.origin i) ↔ t.pc.sock = some true) := by
  have htable := establish_ok hestablish
  have hloop : AtLoop sockfd table := by
    refine ⟨(htable sockfd).trans (if_pos rfl), fun fd f hf => ?_⟩
    rw [htable] at hf
    split at hf
    · next hfd => exact Or.inl ⟨(Option.some.inj hf).symm, hfd⟩
    · exact Or.inr (hstreams fd f hf)
  obtain ⟨s, t, hrun, hstands, hsessions⟩ := Server.machine_viewed hloop hops
  refine ⟨s, hrun, fun hpc fd => ?_, fun i => ⟨t i, (hsessions i).1, (hsessions i).2,
    hstands.client i, hstands.origin i, hstands.isOpen_client hloop i,
    hstands.isOpen_origin hloop i⟩⟩
  have hparent := hstands.parent
  rw [Server.Parent, hpc] at hparent
  exact (hparent fd).trans (htable fd)

/-- The standard streams. -/
def standardStreams : Descriptors File := [some (.stream 0), some (.stream 1), some (.stream 2)]

/-- The standard streams are no sockets. -/
theorem standardStreams_file? {fd : Int} {f : File} (h : standardStreams.file? fd = some f) :
    ∃ n, f = .stream n := by
  rw [Descriptors.file?] at h
  split at h
  · have hmem := List.mem_of_getElem? (Option.join_eq_some_iff.1 h)
    simp only [standardStreams, List.mem_cons, Option.some.injEq, List.not_mem_nil,
      or_false] at hmem
    rcases hmem with rfl | rfl | rfl
    · exact ⟨0, rfl⟩
    · exact ⟨1, rfl⟩
    · exact ⟨2, rfl⟩
  · cases h

/-- The first client sends a request and is still served when the others come: for the second one
the fork fails, and the child of the third is killed. The first child closes the listening socket
before its parent closes the connection. -/
def sampleOps : List Op :=
  [.accept false, .accept true, .fork true, .child 0 .close, .close,
    .child 0 (.recv (some sampleRequest)), .accept true, .fork false, .close, .accept true,
    .child 0 (.getaddrinfo (some 0)), .child 0 (.socket true), .fork true,
    .child 0 (.connect true), .child 0 (.send (some sampleRequest.length)), .close,
    .child 0 (.recv (some [72])), .child 2 .killed, .child 0 (.send (some 1)),
    .child 0 (.recv (some [])), .child 0 .close, .child 0 .exit]

/-- The proxy behind the request of the first client. -/
def sampleServing : Server :=
  ⟨[some (.stream 0), some (.stream 1), some (.stream 2), some .listener, none], 3, .accepting,
    [some ⟨[some (.stream 0), some (.stream 1), some (.stream 2), none, some (.client 0)], 3, 4,
      [some sampleRequest], .resolving sampleRequest⟩], fun _ => []⟩

namespace Server

theorem admissible_cons {errnoEinval : Bool} {s : Server} {op : Op} (hop : s.Allows op)
    {ops : List Op} (hops : (machine errnoEinval).Admissible (s.step errnoEinval op) ops) :
    (machine errnoEinval).Admissible s (op :: ops) :=
  Machine.admissible_of_ok (M := machine errnoEinval) hop rfl hops

theorem sampleOps_admissible :
    (machine false).Admissible (start 3 (standardStreams ++ [some .listener])) sampleOps := by
  refine admissible_cons (by exact rfl) ?_
  refine admissible_cons (by exact rfl) ?_
  refine admissible_cons (by exact ⟨4, rfl⟩) ?_
  refine admissible_cons (by exact ⟨_, rfl, .close⟩) ?_
  refine admissible_cons (by exact ⟨4, rfl⟩) ?_
  refine admissible_cons (by exact ⟨_, rfl, .recv (by decide)⟩) ?_
  have hserving : Server.mk _ _ _ [some (Child.mk _ _ _ _ (.judge false [some sampleRequest]))] _ =
      sampleServing := congrArg (fun pc => Server.mk _ _ _ [some (Child.mk _ _ _ _ pc)] _)
        judge_sampleRequest
  apply Eq.mp (congrArg (fun s => (machine false).Admissible s _) hserving.symm)
  refine admissible_cons (by exact rfl) ?_
  refine admissible_cons (by exact ⟨4, rfl⟩) ?_
  refine admissible_cons (by exact ⟨4, rfl⟩) ?_
  refine admissible_cons (by exact rfl) ?_
  refine admissible_cons (by exact ⟨_, rfl, .resolve⟩) ?_
  refine admissible_cons (by exact ⟨_, rfl, .socket⟩) ?_
  refine admissible_cons (by exact ⟨4, rfl⟩) ?_
  refine admissible_cons (by exact ⟨_, rfl, .connect⟩) ?_
  refine admissible_cons (by exact ⟨_, rfl, .request (by decide) (by decide)⟩) ?_
  refine admissible_cons (by exact ⟨4, rfl⟩) ?_
  refine admissible_cons (by exact ⟨_, rfl, .piece (by decide) (by decide)⟩) ?_
  refine admissible_cons (by exact ⟨_, rfl, .kill trivial⟩) ?_
  refine admissible_cons (by exact ⟨_, rfl, .pass (by decide)⟩) ?_
  refine admissible_cons (by exact ⟨_, rfl, .piece (by decide) (by decide)⟩) ?_
  refine admissible_cons (by exact ⟨_, rfl, .leave⟩) ?_
  refine admissible_cons (by exact ⟨_, rfl, .exit⟩) ?_
  trivial

end Server

/-- The first client is sent the letter of its response. -/
theorem proxy_run_sample :
    ∃ s, (Server.machine false).run (.start 3 (standardStreams ++ [some .listener])) sampleOps =
        .ok s ∧
      (s.pc = .accepting → ∀ fd, s.table.file? fd =
        if fd = 3 then some .listener else standardStreams.file? fd) ∧
      ∀ i, ∃ t, (Session.machine false).Admissible .start (callsOf i sampleOps) ∧
        (Session.machine false).run .start (callsOf i sampleOps) = .ok t ∧
        s.wire (.client i) = t.toClient ∧ s.wire (.origin i) = t.toOrigin ∧
        (s.IsOpen (.client i) ↔ s.inHand = some i ∨ (s.child? i).isSome ∧ t.pc.Running) ∧
        (s.IsOpen (.origin i) ↔ t.pc.sock = some true) :=
  proxy_run false (fun _ _ => standardStreams_file?)
    (rfl : establish (some [⟨false, true, true⟩, ⟨true, true, true⟩]) true standardStreams = _)
    Server.sampleOps_admissible

end ComputerNetworks.Proxy
