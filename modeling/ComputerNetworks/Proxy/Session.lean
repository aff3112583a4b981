import ComputerNetworks.Core.Machine
import ComputerNetworks.Proxy.ClientHelper

/-!
# A session of the proxy

One client is served a system call at a time: its request is received and judged,
a server is looked for among the addresses of its host, and the pieces of the
response are passed on. What a call returns is up to the surroundings, and a
signal may end the process before any of them. A session keeps what was offered
to the client and how much of it was taken.
-/

namespace ComputerNetworks.Proxy

/-- A system call of `client_helper` with what it returns. -/
inductive Call where
  | close
  /-- The bytes, none at the end of the stream, or -1. -/
  | recv (got : Option (List UInt8))
  /-- How many bytes are taken, or -1. -/
  | send (taken : Option Nat)
  /-- The number of addresses behind the first, or an error. -/
  | getaddrinfo (found : Option Nat)
  | socket (ok : Bool)
  | connect (ok : Bool)
  | exit
  /-- No call of its own: a signal ends the process. -/
  | killed
  deriving DecidableEq, Repr

/-- The call that `client_helper` makes next, with the variables that are still in use. -/
inductive Pc (Sock : Type) where
  | closing
  | receiving
  | refusing (message : List UInt8)
  | resolving (sent : List UInt8)
  | opening (rest : Nat) (sent : List UInt8)
  | connecting (rest : Nat) (sockfd2 : Sock) (sent : List UInt8)
  | requesting (sockfd2 : Sock) (sent : List UInt8)
  | apologising (sockfd2 : Sock)
  | relaying (sockfd2 : Sock)
  | passing (sockfd2 : Sock) (chunk : List UInt8)
  | leaving (sockfd2 : Sock)
  | exiting
  /-- Behind an access out of bounds. -/
  | faulted
  | exited
  | killed
  deriving DecidableEq, Repr

/-- The three messages of `client_helper`. -/
def text501 : List UInt8 := ascii "HTTP/1.0 501 Server Error".toList ++ crlfcrlf

@[inherit_doc text501] def text400 : List UInt8 :=
  ascii "HTTP/1.0 400 Bad Request".toList ++ crlfcrlf

@[inherit_doc text501] def text500 : List UInt8 :=
  ascii "HTTP/1.0 500 server error".toList ++ crlfcrlf

/-- `total_bytes` behind these calls of `recv`. -/
def totalBytes (received : List (Option (List UInt8))) : Int :=
  (received.map fun got => match got with
    | none => (-1 : Int)
    | some chunk => chunk.length).sum

/-- The bytes that a call of `send` takes. -/
def takenOf (message : List UInt8) : Option Nat → List UInt8
  | none => []
  | some k => message.take k

namespace Pc

variable {Sock Sock' : Type}

/-- The same place with other sockets. -/
def map (f : Sock → Sock') : Pc Sock → Pc Sock'
  | closing => closing
  | receiving => receiving
  | refusing message => refusing message
  | resolving sent => resolving sent
  | opening rest sent => opening rest sent
  | connecting rest sockfd2 sent => connecting rest (f sockfd2) sent
  | requesting sockfd2 sent => requesting (f sockfd2) sent
  | apologising sockfd2 => apologising (f sockfd2)
  | relaying sockfd2 => relaying (f sockfd2)
  | passing sockfd2 chunk => passing (f sockfd2) chunk
  | leaving sockfd2 => leaving (f sockfd2)
  | exiting => exiting
  | faulted => faulted
  | exited => exited
  | killed => killed

/-- The socket to the origin server. -/
def sock : Pc Sock → Option Sock
  | connecting _ sockfd2 _ | requesting sockfd2 _ | apologising sockfd2 | relaying sockfd2
  | passing sockfd2 _ | leaving sockfd2 => some sockfd2
  | _ => none

/-- The process is still there. -/
def Running : Pc Sock → Prop
  | exited | killed => False
  | _ => True

/-- What `client_helper` does with what it has received. -/
def judge (errnoEinval : Bool) (received : List (Option (List UInt8))) : Pc Sock :=
  match clientHelper errnoEinval received with
  | .error _ => faulted
  | .ok none => receiving
  | .ok (some .notImplemented) => refusing text501
  | .ok (some .badRequest) => refusing text400
  | .ok (some (.forward _ _ sent)) => resolving sent

/-- The loop over the addresses goes on, or ends behind the last. -/
def nextAddress (rest : Nat) (sockfd2 : Sock) (sent : List UInt8) : Pc Sock :=
  match rest with
  | 0 => requesting sockfd2 sent
  | rest + 1 => opening rest sent

/-- The calls that can be made there, with what they may return. A call on a number that names no
file returns -1. -/
inductive Allows (isOpen : Sock → Bool) (received : List (Option (List UInt8))) :
    Pc Sock → Call → Prop
  | close : Allows isOpen received closing .close
  | recv {got : Option (List UInt8)} (h : totalBytes received + (got.getD []).length ≤ buffSize) :
    Allows isOpen received receiving (.recv got)
  | refuse {message : List UInt8} {taken : Option Nat} (h : taken.getD 0 ≤ message.length) :
    Allows isOpen received (refusing message) (.send taken)
  | resolve {sent : List UInt8} {found : Option Nat} :
    Allows isOpen received (resolving sent) (.getaddrinfo found)
  | socket {rest : Nat} {sent : List UInt8} {ok : Bool} :
    Allows isOpen received (opening rest sent) (.socket ok)
  | connect {rest : Nat} {sockfd2 : Sock} {sent : List UInt8} {ok : Bool} :
    Allows isOpen received (connecting rest sockfd2 sent) (.connect ok)
  | request {sockfd2 : Sock} {sent : List UInt8} {taken : Option Nat}
    (h : taken.getD 0 ≤ sent.length) (hopen : isOpen sockfd2 = false → taken = none) :
    Allows isOpen received (requesting sockfd2 sent) (.send taken)
  | apologise {sockfd2 : Sock} {taken : Option Nat} (h : taken.getD 0 ≤ text500.length) :
    Allows isOpen received (apologising sockfd2) (.send taken)
  | piece {sockfd2 : Sock} {got : Option (List UInt8)} (h : (got.getD []).length ≤ buffSize)
    (hopen : isOpen sockfd2 = false → got = none) :
    Allows isOpen received (relaying sockfd2) (.recv got)
  | pass {sockfd2 : Sock} {chunk : List UInt8} {taken : Option Nat}
    (h : taken.getD 0 ≤ chunk.length) :
    Allows isOpen received (passing sockfd2 chunk) (.send taken)
  | leave {sockfd2 : Sock} : Allows isOpen received (leaving sockfd2) .close
  | exit : Allows isOpen received exiting .exit
  | kill {pc : Pc Sock} (h : pc.Running) : Allows isOpen received pc .killed

end Pc

/-- A session: whether it has a socket to the origin server, and what has passed. -/
structure Session where
  pc : Pc Bool
  received : List (Option (List UInt8))
  /-- The messages for the client, and what `send` returned for each. -/
  log : List (List UInt8 × Option Nat)
  /-- What the origin server was sent. -/
  toOrigin : List UInt8
  /-- What has become of the connection to it. -/
  origin : Origin
  /-- It was connected, but the request could not be sent. -/
  lost : Bool

namespace Session

/-- A process that has just been forked. -/
def start : Session := ⟨.closing, [], [], [], .unresolved, false⟩

/-- The messages for the client. -/
def messages (t : Session) : List (List UInt8) := t.log.map Prod.fst

/-- What the client was sent. -/
def toClient (t : Session) : List UInt8 := (t.log.map fun e => takenOf e.1 e.2).flatten

/-- A piece of the response has come. -/
def heard (origin : Origin) (chunk : List UInt8) : Origin :=
  match origin with
  | .connected response => .connected (response ++ [chunk])
  | origin => origin

/-- The session goes on from a call. -/
def next (errnoEinval : Bool) (t : Session) : Call → Session
  | .killed => { t with pc := .killed }
  | call =>
    match t.pc, call with
    | .closing, .close => { t with pc := .receiving }
    | .receiving, .recv got =>
      { t with received := t.received ++ [got], pc := .judge errnoEinval (t.received ++ [got]) }
    | .refusing message, .send taken =>
      { t with log := t.log ++ [(message, taken)], pc := .exiting }
    | .resolving _, .getaddrinfo none => { t with pc := .exiting }
    | .resolving sent, .getaddrinfo (some rest) =>
      { t with origin := .unreachable, pc := .opening rest sent }
    | .opening rest sent, .socket false => { t with pc := .nextAddress rest false sent }
    | .opening rest sent, .socket true => { t with pc := .connecting rest true sent }
    | .connecting rest _ sent, .connect false => { t with pc := .nextAddress rest false sent }
    | .connecting _ isOpen sent, .connect true =>
      { t with origin := .connected [], pc := .requesting isOpen sent }
    | .requesting isOpen _, .send none => { t with lost := isOpen, pc := .apologising isOpen }
    | .requesting isOpen sent, .send (some k) =>
      { t with toOrigin := t.toOrigin ++ sent.take k, pc := .relaying isOpen }
    | .apologising isOpen, .send taken =>
      { t with log := t.log ++ [(text500, taken)], pc := .relaying isOpen }
    | .relaying isOpen, .recv (some (c :: chunk)) =>
      { t with origin := heard t.origin (c :: chunk), pc := .passing isOpen (c :: chunk) }
    | .relaying isOpen, .recv _ => { t with pc := .leaving isOpen }
    | .passing isOpen chunk, .send taken =>
      { t with log := t.log ++ [(chunk, taken)], pc := .relaying isOpen }
    | .leaving _, .close => { t with pc := .exiting }
    | .exiting, .exit => { t with pc := .exited }
    | _, _ => t

/-- The calls of one session. -/
def machine (errnoEinval : Bool) : Machine Empty Session Call where
  enabled := fun t call => t.pc.Allows id t.received call
  step := fun t call => .ok (t.next errnoEinval call)

/-- The messages that a client is to get for such a request. -/
def due (t : Session) (outcome : Outcome) : List (List UInt8) :=
  (if t.lost then [text500] else []) ++ outcome.replies fun _ => t.origin

/-- What the origin server is to get. -/
def request : Outcome → List UInt8
  | .forward _ _ sent => sent
  | _ => []

/-- Nothing has passed yet. -/
structure Fresh (t : Session) : Prop where
  log : t.log = []
  toOrigin : t.toOrigin = []
  origin : t.origin = .unresolved
  lost : t.lost = false

/-- The request is passed on, and nothing has been sent. -/
structure Forwarding (t : Session) (outcome : Outcome) (sent : List UInt8) : Prop where
  forward : ∃ r h, outcome = .forward r h sent
  log : t.log = []
  toOrigin : t.toOrigin = []
  lost : t.lost = false

/-- A response is passed on, of which these pieces have still to be sent. -/
structure Relaying (t : Session) (outcome : Outcome) (isOpen : Bool) (pieces : List (List UInt8)) :
    Prop where
  forward : ∃ r h sent, outcome = .forward r h sent
  due : t.due outcome = t.messages ++ pieces
  toOrigin : t.toOrigin <+: request outcome
  origin : isOpen = true → ∃ response, t.origin = .connected response

/-- Where a request has been judged, what has been done about it. -/
def Answers (t : Session) (outcome : Outcome) : Prop :=
  match t.pc with
  | .refusing message => t.Fresh ∧ outcome.replies (fun _ => .unresolved) = [message]
  | .resolving sent => t.Forwarding outcome sent ∧ t.origin = .unresolved
  | .opening _ sent => t.Forwarding outcome sent ∧ t.origin = .unreachable
  | .connecting _ isOpen sent =>
    t.Forwarding outcome sent ∧ t.origin = .unreachable ∧ isOpen = true
  | .requesting isOpen sent =>
    t.Forwarding outcome sent ∧ t.origin = if isOpen then .connected [] else .unreachable
  | .apologising isOpen => t.Relaying outcome isOpen [text500]
  | .passing isOpen chunk => t.Relaying outcome isOpen [chunk]
  | .relaying isOpen | .leaving isOpen => t.Relaying outcome isOpen []
  | .exiting | .exited => t.due outcome = t.messages ∧ t.toOrigin <+: request outcome
  | .killed => t.messages <+: t.due outcome ∧ t.toOrigin <+: request outcome
  | _ => False

/-- What holds of a session at any time. -/
def Inv (errnoEinval : Bool) (t : Session) : Prop :=
  match clientHelper errnoEinval t.received with
  | .ok (some outcome) => t.Answers outcome
  | .ok none => t.Fresh ∧ (t.pc = .closing ∧ t.received = [] ∨ t.pc = .receiving ∨ t.pc = .killed)
  | .error _ => t.Fresh ∧ (t.pc = .faulted ∨ t.pc = .killed)

variable {errnoEinval : Bool} {t : Session} {outcome : Outcome}

/-- A session that answers is in order. -/
theorem inv_of_answers (hhelper : clientHelper errnoEinval t.received = .ok (some outcome))
    (h : t.Answers outcome) : t.Inv errnoEinval := by
  rw [Inv, hhelper]
  exact h

/-- Before the request is judged nothing has passed. -/
theorem Inv.answers_or_fresh (h : t.Inv errnoEinval) :
    (∃ outcome, clientHelper errnoEinval t.received = .ok (some outcome) ∧ t.Answers outcome) ∨
      t.Fresh ∧ (t.pc = .closing ∧ t.received = [] ∨ t.pc = .receiving ∨ t.pc = .faulted ∨
        t.pc = .killed) := by
  rw [Inv] at h
  split at h
  · next outcome hhelper => exact Or.inl ⟨outcome, hhelper, h⟩
  · obtain ⟨hfresh, hpc⟩ := h
    refine Or.inr ⟨hfresh, ?_⟩
    tauto
  · obtain ⟨hfresh, hpc⟩ := h
    refine Or.inr ⟨hfresh, ?_⟩
    tauto

theorem Fresh.messages_eq (h : t.Fresh) : t.messages = [] := by
  rw [messages, h.log]
  rfl

/-- The verdict on a request is what the session goes on with. -/
theorem Fresh.judge (h : t.Fresh) (received : List (Option (List UInt8))) :
    ({ t with received, pc := .judge errnoEinval received } : Session).Inv errnoEinval := by
  rw [Inv, Pc.judge]
  cases clientHelper errnoEinval received with
  | error fault => exact ⟨⟨h.log, h.toOrigin, h.origin, h.lost⟩, Or.inl rfl⟩
  | ok outcome =>
    cases outcome with
    | none => exact ⟨⟨h.log, h.toOrigin, h.origin, h.lost⟩, Or.inr (Or.inl rfl)⟩
    | some outcome =>
      cases outcome with
      | notImplemented => exact ⟨⟨h.log, h.toOrigin, h.origin, h.lost⟩, rfl⟩
      | badRequest => exact ⟨⟨h.log, h.toOrigin, h.origin, h.lost⟩, rfl⟩
      | forward r headers sent =>
        exact ⟨⟨⟨r, headers, rfl⟩, h.log, h.toOrigin, h.lost⟩, h.origin⟩

/-- Before the request is sent nothing was offered. -/
theorem Forwarding.messages_eq {sent : List UInt8} (h : t.Forwarding outcome sent) :
    t.messages = [] := by
  rw [messages, h.log]
  rfl

/-- While the request is sent, what was sent is the beginning of what is due. -/
theorem Forwarding.begins {sent : List UInt8} (h : t.Forwarding outcome sent) :
    t.messages <+: t.due outcome ∧ t.toOrigin <+: request outcome := by
  rw [h.messages_eq, h.toOrigin]
  exact ⟨List.nil_prefix, List.nil_prefix⟩

/-- While the response is relayed, what was sent is the beginning of what is due. -/
theorem Relaying.begins {isOpen : Bool} {pieces : List (List UInt8)}
    (h : t.Relaying outcome isOpen pieces) :
    t.messages <+: t.due outcome ∧ t.toOrigin <+: request outcome := by
  rw [h.due]
  exact ⟨List.prefix_append _ _, h.toOrigin⟩

/-- What a client has been offered is the beginning of what it is to get. -/
theorem Answers.begins (h : t.Answers outcome) :
    t.messages <+: t.due outcome ∧ t.toOrigin <+: request outcome := by
  rw [Answers] at h
  split at h
  · rw [h.1.messages_eq, h.1.toOrigin]
    exact ⟨List.nil_prefix, List.nil_prefix⟩
  · exact h.1.begins
  · exact h.1.begins
  · exact h.1.begins
  · exact h.1.begins
  · exact Relaying.begins h
  · exact Relaying.begins h
  · exact Relaying.begins h
  · exact Relaying.begins h
  · rw [h.1]
    exact ⟨List.prefix_refl _, h.2⟩
  · rw [h.1]
    exact ⟨List.prefix_refl _, h.2⟩
  · exact h
  · exact h.elim

/-- The loop over the addresses goes on with no socket. -/
theorem Forwarding.nextAddress {sent : List UInt8} (h : t.Forwarding outcome sent)
    (horigin : t.origin = .unreachable) (rest : Nat) :
    ({ t with pc := .nextAddress rest false sent } : Session).Answers outcome := by
  cases rest with
  | zero => exact ⟨⟨h.forward, h.log, h.toOrigin, h.lost⟩, horigin⟩
  | succ rest => exact ⟨⟨h.forward, h.log, h.toOrigin, h.lost⟩, horigin⟩

/-- The next message is offered to the client. -/
theorem Relaying.offer {isOpen : Bool} {message : List UInt8}
    (h : t.Relaying outcome isOpen [message]) (taken : Option Nat) :
    ({ t with log := t.log ++ [(message, taken)], pc := .relaying isOpen } : Session).Answers
      outcome := by
  refine ⟨h.forward, ?_, h.toOrigin, h.origin⟩
  rw [List.append_nil]
  refine h.due.trans ?_
  rw [messages, messages, List.map_append]
  rfl

theorem Relaying.leave {isOpen : Bool} (h : t.Relaying outcome isOpen []) :
    ({ t with pc := .leaving isOpen } : Session).Answers outcome :=
  ⟨h.forward, h.due, h.toOrigin, h.origin⟩

/-- A piece of the response comes in. -/
theorem Relaying.hear (h : t.Relaying outcome true []) (piece : List UInt8) :
    ({ t with origin := heard t.origin piece, pc := .passing true piece } : Session).Answers
      outcome := by
  obtain ⟨⟨r, headers, sent, rfl⟩, hdue, hto, horigin⟩ := h
  obtain ⟨response, hresponse⟩ := horigin rfl
  rw [List.append_nil, Session.due, hresponse] at hdue
  refine ⟨⟨r, headers, sent, rfl⟩, ?_, hto, fun _ => ⟨response ++ [piece], ?_⟩⟩
  · change _ = t.messages ++ [piece]
    rw [← hdue, Session.due, hresponse, List.append_assoc]
    rfl
  · rw [hresponse]
    rfl

/-- Behind the verdict each call does its part of the answer. -/
theorem Answers.next (h : t.Answers outcome) {call : Call}
    (hcall : t.pc.Allows id t.received call) : (t.next errnoEinval call).Answers outcome := by
  have hbegins := h.begins
  obtain ⟨pc, received, log, toOrigin, origin, lost⟩ := t
  cases hcall with
  | close => exact h.elim
  | recv hlen => exact h.elim
  | refuse hlen =>
    obtain ⟨⟨hlog, hto, horigin, hlost⟩, hreplies⟩ := h
    dsimp only at hlog hto horigin hlost
    subst hlog hto horigin hlost
    exact ⟨hreplies, List.nil_prefix⟩
  | @resolve sent found =>
    obtain ⟨⟨hforward, hlog, hto, hlost⟩, horigin⟩ := h
    dsimp only at hlog hto horigin hlost
    subst hlog hto horigin hlost
    cases found with
    | none =>
      obtain ⟨r, headers, rfl⟩ := hforward
      exact ⟨rfl, List.nil_prefix⟩
    | some rest => exact ⟨⟨hforward, rfl, rfl, rfl⟩, rfl⟩
  | @socket rest sent ok =>
    obtain ⟨hforwarding, horigin⟩ := h
    cases ok with
    | false => exact Forwarding.nextAddress hforwarding horigin rest
    | true =>
      obtain ⟨hforward, hlog, hto, hlost⟩ := hforwarding
      exact ⟨⟨hforward, hlog, hto, hlost⟩, horigin, rfl⟩
  | @connect rest isOpen sent ok =>
    obtain ⟨hforwarding, horigin, rfl⟩ := h
    cases ok with
    | false => exact Forwarding.nextAddress hforwarding horigin rest
    | true =>
      obtain ⟨hforward, hlog, hto, hlost⟩ := hforwarding
      exact ⟨⟨hforward, hlog, hto, hlost⟩, rfl⟩
  | @request isOpen sent taken hlen hopen =>
    obtain ⟨⟨⟨r, headers, rfl⟩, hlog, hto, hlost⟩, horigin⟩ := h
    dsimp only at hlog hto horigin hlost
    subst hlog hto horigin hlost
    cases isOpen with
    | false =>
      rw [hopen rfl]
      exact ⟨⟨r, headers, sent, rfl⟩, rfl, List.nil_prefix, nofun⟩
    | true =>
      cases taken with
      | none => exact ⟨⟨r, headers, sent, rfl⟩, rfl, List.nil_prefix, fun _ => ⟨[], rfl⟩⟩
      | some k => exact ⟨⟨r, headers, sent, rfl⟩, rfl, List.take_prefix k sent, fun _ => ⟨[], rfl⟩⟩
  | apologise hlen => exact Relaying.offer h _
  | @piece isOpen got hlen hopen =>
    match got with
    | none | some [] => exact Relaying.leave h
    | some (c :: chunk) =>
      cases isOpen with
      | false => exact nomatch hopen rfl
      | true => exact Relaying.hear h (c :: chunk)
  | pass hlen => exact Relaying.offer h _
  | leave =>
    obtain ⟨-, hdue, hto, -⟩ := h
    rw [List.append_nil] at hdue
    exact ⟨hdue, hto⟩
  | exit => exact h
  | kill hrunning => exact hbegins

/-- Only a session that waits for its request takes in more of it. -/
theorem Answers.received_next (h : t.Answers outcome) {call : Call}
    (hcall : t.pc.Allows id t.received call) : (t.next errnoEinval call).received = t.received := by
  obtain ⟨pc, received, log, toOrigin, origin, lost⟩ := t
  cases hcall with
  | recv hlen => exact h.elim
  | @resolve sent found => cases found <;> rfl
  | @socket rest sent ok => cases ok <;> rfl
  | @connect rest isOpen sent ok => cases ok <;> rfl
  | @request isOpen sent taken hlen hopen => cases taken <;> rfl
  | @piece isOpen got hlen hopen =>
    match got with
    | none | some [] | some (c :: chunk) => rfl
  | _ => rfl

theorem clientHelper_nil : clientHelper errnoEinval [] = .ok none := rfl

/-- A signal may end the process at any time. -/
theorem Inv.kill (h : t.Inv errnoEinval) :
    ({ t with pc := .killed } : Session).Inv errnoEinval := by
  rw [Inv] at h ⊢
  dsimp only
  split at h
  · have hbegins := Answers.begins h
    exact hbegins
  · exact ⟨⟨h.1.log, h.1.toOrigin, h.1.origin, h.1.lost⟩, Or.inr (Or.inr rfl)⟩
  · exact ⟨⟨h.1.log, h.1.toOrigin, h.1.origin, h.1.lost⟩, Or.inr rfl⟩

/-- Every call keeps it. -/
theorem Inv.next (h : t.Inv errnoEinval) {call : Call} (hcall : t.pc.Allows id t.received call) :
    (t.next errnoEinval call).Inv errnoEinval := by
  rcases h.answers_or_fresh with ⟨outcome, hhelper, hanswers⟩ | ⟨hfresh, hpc⟩
  · refine inv_of_answers ?_ (hanswers.next hcall)
    rw [hanswers.received_next hcall]
    exact hhelper
  · have hkill := h.kill
    obtain ⟨pc, received, log, toOrigin, origin, lost⟩ := t
    cases hcall with
    | close =>
      have hreceived : received = [] := by simpa using hpc
      subst hreceived
      change Inv errnoEinval ⟨.receiving, [], log, toOrigin, origin, lost⟩
      rw [Inv, clientHelper_nil]
      exact ⟨⟨hfresh.log, hfresh.toOrigin, hfresh.origin, hfresh.lost⟩, Or.inr (Or.inl rfl)⟩
    | recv hlen => exact hfresh.judge _
    | kill hrunning => exact hkill
    | _ => simp at hpc

theorem inv_start : start.Inv errnoEinval := by
  rw [Inv, start, clientHelper_nil]
  exact ⟨⟨rfl, rfl, rfl, rfl⟩, Or.inl ⟨rfl, rfl⟩⟩

/-- A send takes the beginning of its message. -/
theorem takenOf_begins (message : List UInt8) (taken : Option Nat) :
    takenOf message taken <+: message := by
  cases taken with
  | none => exact List.nil_prefix
  | some k => exact List.take_prefix k message

/-- The client gets no more than it is offered. -/
theorem length_toClient_le (log : List (List UInt8 × Option Nat)) :
    (log.map fun e => takenOf e.1 e.2).flatten.length ≤ (log.map Prod.fst).flatten.length := by
  induction log with
  | nil => exact Nat.le_refl 0
  | cons e log ih =>
    have hle := (takenOf_begins e.1 e.2).length_le
    simp only [List.map_cons, List.flatten_cons, List.length_append]
    omega

/-- The client has all that it was offered exactly if every call took its whole message. -/
theorem toClient_eq_iff :
    t.toClient = t.messages.flatten ↔ ∀ e ∈ t.log, takenOf e.1 e.2 = e.1 := by
  rw [toClient, messages]
  generalize t.log = log
  induction log with
  | nil => exact iff_of_true rfl (List.forall_mem_nil _)
  | cons e log ih =>
    rw [List.forall_mem_cons, ← ih, List.map_cons, List.map_cons, List.flatten_cons,
      List.flatten_cons]
    constructor
    · intro heq
      have hlen := congrArg List.length heq
      have hle := length_toClient_le log
      have hpre := takenOf_begins e.1 e.2
      rw [List.length_append, List.length_append] at hlen
      have hwhole := hpre.eq_of_length (by have := hpre.length_le; omega)
      rw [hwhole] at heq
      exact ⟨hwhole, List.append_cancel_left heq⟩
    · rintro ⟨hwhole, hrest⟩
      rw [hwhole, hrest]

/-- The calls of a session keep what holds of it at any time. -/
theorem machine_preserves : (machine errnoEinval).Preserves (Inv errnoEinval) := by
  intro t call h hcall
  exact ⟨t.next errnoEinval call, rfl, h.next hcall⟩

/-- A first call that is allowed is followed by the others. -/
theorem admissible_cons {call : Call} (hcall : t.pc.Allows id t.received call) {calls : List Call}
    (hcalls : (machine errnoEinval).Admissible (t.next errnoEinval call) calls) :
    (machine errnoEinval).Admissible t (call :: calls) :=
  Machine.admissible_of_ok (M := machine errnoEinval) hcall rfl hcalls

/-- What a client has been offered, and the request the server has got, are the beginnings of what
`client_helper` decides on; a session that came to its end by itself has offered all. -/
def Served (errnoEinval : Bool) (t : Session) : Prop :=
  match clientHelper errnoEinval t.received with
  | .ok (some outcome) => t.messages <+: t.due outcome ∧ t.toOrigin <+: request outcome ∧
    (t.pc = .exited → t.messages = t.due outcome)
  | _ => t.messages = [] ∧ t.toOrigin = [] ∧ t.pc ≠ .exited

/-- A session in order serves its client. -/
theorem Inv.served (h : t.Inv errnoEinval) : t.Served errnoEinval := by
  rw [Inv] at h
  rw [Served]
  split at h
  · next outcome hhelper =>
    rw [hhelper]
    have hbegins := Answers.begins h
    refine ⟨hbegins.1, hbegins.2, fun hpc => ?_⟩
    rw [Answers, hpc] at h
    exact h.1.symm
  · next hhelper =>
    rw [hhelper]
    refine ⟨h.1.messages_eq, h.1.toOrigin, fun hpc => ?_⟩
    simp [hpc] at h
  · next fault hhelper =>
    rw [hhelper]
    refine ⟨h.1.messages_eq, h.1.toOrigin, fun hpc => ?_⟩
    simp [hpc] at h

end Session

/-- Whatever its calls return and wherever a signal ends it, a session offers its client what
`client_helper` decides on the bytes received, piece by piece and in order. The client gets all of
it exactly if each call of `send` takes its whole message. -/
theorem session_run (errnoEinval : Bool) {calls : List Call}
    (hcalls : (Session.machine errnoEinval).Admissible .start calls) :
    ∃ t, (Session.machine errnoEinval).run .start calls = .ok t ∧ t.Served errnoEinval ∧
      (t.toClient = t.messages.flatten ↔ ∀ e ∈ t.log, takenOf e.1 e.2 = e.1) := by
  obtain ⟨t, hrun, hinv⟩ := Session.machine_preserves.run Session.inv_start hcalls
  exact ⟨t, hrun, hinv.served, Session.toClient_eq_iff⟩

/-- The request for `http://a:80/b`. -/
def sampleRequest : List UInt8 := sampleLine.render ++ crlfcrlf

theorem judge_sampleRequest {Sock : Type} :
    (.judge false [some sampleRequest] : Pc Sock) = .resolving sampleRequest := by
  rw [Pc.judge, sampleRequest,
    ClientHelper.clientHelper_plain sampleLine_wellFormed.valid (by decide) (by decide)]

/-- The second of two addresses takes the request and answers with two pieces, of the second of
which the client takes one byte. -/
def sampleCalls : List Call :=
  [.close, .recv (some sampleRequest), .getaddrinfo (some 1), .socket false, .socket true,
    .connect true, .send (some sampleRequest.length), .recv (some [72]), .send (some 1),
    .recv (some [84, 84]), .send (some 1), .recv (some []), .close, .exit]

open Session in
theorem sampleCalls_admissible : (machine false).Admissible start sampleCalls := by
  have hjudge :
      ({ start with pc := .receiving } : Session).next false (.recv (some sampleRequest)) =
      { start with pc := .resolving sampleRequest, received := [some sampleRequest] } := by
    change ({ start with pc := _, received := _ } : Session) = _
    rw [← judge_sampleRequest]
    rfl
  apply admissible_cons .close
  apply admissible_cons (.recv (by decide))
  rw [show (start.next false .close).next false (.recv (some sampleRequest)) = _ from hjudge]
  apply admissible_cons .resolve
  apply admissible_cons .socket
  apply admissible_cons .socket
  apply admissible_cons .connect
  apply admissible_cons (.request (by decide) (by decide))
  apply admissible_cons (.piece (by decide) (by decide))
  apply admissible_cons (.pass (by decide))
  apply admissible_cons (.piece (by decide) (by decide))
  apply admissible_cons (.pass (by decide))
  apply admissible_cons (.piece (by decide) (by decide))
  apply admissible_cons .leave
  apply admissible_cons .exit
  trivial

/-- The client of this session has two of the three bytes that it was offered. -/
theorem session_run_sample : ∃ t, (Session.machine false).run .start sampleCalls = .ok t ∧
    t.Served false ∧ (t.toClient = t.messages.flatten ↔ ∀ e ∈ t.log, takenOf e.1 e.2 = e.1) :=
  session_run false sampleCalls_admissible

end ComputerNetworks.Proxy
