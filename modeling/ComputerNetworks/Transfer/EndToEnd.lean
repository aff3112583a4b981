import ComputerNetworks.Transfer.Client

/-!
# A file from the server to the client

The request that the client sends is one the server answers, and from the answer
the client takes exactly the bytes of the file. Both hold for every way in which
the bytes arrive, and whatever follows them on the streams.
-/

namespace ComputerNetworks.Transfer

variable {env : ServerEnv} {client : ClientEnv} {name : List UInt8}

/-- The bytes of the two directions for a name: what each party does with those of the other. -/
structure Exchange (env : ServerEnv) (client : ClientEnv) (name request response : List UInt8) :
    Prop where
  /-- A round of the server takes the request and answers with the response. -/
  answers : ∀ (conn : Connection) (line rest : List UInt8) (fuel : Nat), conn.Reliable →
    conn.incoming.pending = request ++ rest → line.length = 256 → 257 ≤ fuel →
    (∀ file, env.served name = some file → file.pending.length < fuel) →
    ∃ conn' line', serveRequest env fuel conn line = .ok (true, conn', line') ∧
      conn'.incoming.pending = rest ∧ conn'.sent = conn.sent ++ response
  /-- The client sends the request, takes the response, and leaves with the file; if there is none,
  it leaves without opening its own. -/
  retrieves : ∀ (c : ClientState) (rest : List UInt8) (fuel rounds : Nat), c.conn.Reliable →
    c.conn.incoming.pending = response ++ rest → c.line.length = 1000 → 1002 ≤ fuel →
    (∀ file, env.served name = some file → file.pending.length < fuel) →
    ∃ c', loopUntilEnd client fuel (rounds + 1) c = .ok (.leave, c') ∧
      c'.conn.sent = c.conn.sent ++ request ∧ c'.conn.incoming.pending = rest ∧
      match env.served name with
      | none => c'.rcvd = c.rcvd ∧ c'.length = some (-1)
      | some file => c'.rcvd = some (if client.quiet then [] else file.pending) ∧ c'.length = some 0

/-- The client leaves where there is no file. -/
theorem retrieve_refused {c : ClientState} (hfile : client.filename = some name) (fuel : Nat) :
    retrieve client fuel c (-1) = .ok (.leave, c) := by
  rw [retrieve, if_pos rfl, ClientEnv.next, hfile]

/-- The client writes the file it was announced. -/
theorem retrieve_file {c : ClientState} {content rest : List UInt8} {fuel : Nat}
    (hfile : client.filename = some name) (hopens : client.opensRcvd = true)
    (h : c.conn.incoming.Reliable) (hline : c.line.length = 1000)
    (hpending : c.conn.incoming.pending = content ++ rest) (hfuel : content.length ≤ fuel) :
    ∃ c', retrieve client fuel c content.length = .ok (.leave, c') ∧ c'.conn.sent = c.conn.sent ∧
      c'.conn.incoming.pending = rest ∧
      c'.rcvd = some (if client.quiet then [] else content) ∧ c'.length = some 0 := by
  obtain ⟨incoming, line, hrun, hrest, -, -⟩ := @receiveFile_eq client.quiet c.conn.incoming c.line
    content rest [] fuel h hline hpending hfuel
  have hannounced : ¬(content.length : Int) = -1 := by omega
  have hopened : ¬client.opensRcvd = false := by
    rw [hopens]
    decide
  refine ⟨{ c with
    conn := { c.conn with incoming }, line, length := some 0
    rcvd := some ([] ++ if client.quiet then [] else content) }, ?_, rfl, hrest, rfl, rfl⟩
  simp only [retrieve, if_neg hannounced, if_neg hopened, hrun, Exec.ok_bind, if_true,
    ClientEnv.next, hfile, Exec.pure_eq_ok]

/-- A client that asks for a file by its name gets exactly its bytes, and stops without opening its
own where the server cannot open the file. -/
theorem exchange (hne : name ≠ []) (hlen : name.length ≤ 255) (hzero : 0 ∉ name)
    (hcrlf : NoCrlf name) (henv : env.Regular name) (hfile : client.filename = some name)
    (hopens : client.opensRcvd = true) :
    ∃ request response, Exchange env client name request response := by
  refine ⟨name ++ crlf, answer env name, ?_, ?_⟩
  · intro conn line rest fuel h hpending hline hfuel hsize
    rw [List.append_assoc] at hpending
    obtain ⟨conn', line', hrun, -, hrest, hsent, -⟩ :=
      serveRequest_eq h henv hline hpending hne hzero hcrlf hlen hfuel hsize
    exact ⟨conn', line', hrun, hrest, hsent⟩
  · intro c rest fuel rounds h hpending hline hfuel hsize
    obtain ⟨line, hrequest, hline', hread⟩ := nextRequest_file hfile hline hlen
    obtain ⟨reason, hreason, hshort, hresponse⟩ := respond_eq env hne
    have hdigits := @announced_length_le env name henv
    rw [answer, respond_file hne, hresponse, List.append_assoc] at hpending
    have hfit : name.length + (announced (env.served name)).length + reason.length < 997 := by omega
    cases hserved : env.served name with
    | none =>
      rw [hserved] at hpending hfit
      obtain ⟨incoming, writes, line', hrest, -, -, -, hround⟩ :=
        @transfer_eq client { c with line }
          name (text "-1") reason rest _ _ fuel (-1) h hline' hread hpending hzero hcrlf (by decide)
          hreason hfit hfuel sscanfInt_refused
      rw [retrieve_refused hfile] at hround
      refine ⟨{ c with
        conn := ⟨incoming, c.conn.sent ++ (name ++ crlf), writes⟩, line := line'
        length := some (-1) }, ?_, rfl, hrest, rfl, rfl⟩
      simp only [loopUntilEnd, hrequest, Exec.ok_bind, hround]
      rfl
    | some file =>
      rw [hserved] at hpending hfit
      obtain ⟨hreliable, hbound⟩ := henv file hserved
      obtain ⟨incoming, writes, line', hleft, hincoming, -, hline'', hround⟩ := @transfer_eq client
        { c with line } name (decimal file.pending.length) reason (file.pending ++ rest) _ _ fuel
        file.pending.length h hline' hread
        (by rw [hpending]; simp [announced]) hzero hcrlf (plain_decimal _) hreason hfit hfuel
        (sscanfInt_decimal hbound)
      obtain ⟨c', hretrieve, hsent, hrest, hrcvd, hlength⟩ := @retrieve_file client name
        { c with
          conn := ⟨incoming, c.conn.sent ++ (name ++ crlf), writes⟩, line := line'
          length := some (file.pending.length : Int) } file.pending rest fuel hfile hopens hincoming
        hline'' hleft (hsize file hserved).le
      refine ⟨c', ?_, hsent, hrest, hrcvd, hlength⟩
      simp only [loopUntilEnd, hrequest, Exec.ok_bind, hround, hretrieve]
      rfl

/-- A server with the one file `a,1`, which holds `hi` and is read byte by byte. -/
def commaServer : ServerEnv where
  access := fun name => name == [97, 44, 49]
  openFile := fun name => if name = [97, 44, 49] then some ⟨[104, 105], [.bytes 0]⟩ else none
  resp := List.replicate 5000 0
  resp_length := List.length_replicate
  line := List.replicate 256 0
  line_length := List.length_replicate

theorem exchange_comma :
    ∃ request response,
      Exchange commaServer ⟨some [97, 44, 49], false, true⟩ [97, 44, 49] request response := by
  apply exchange (by decide) (by decide) (by decide) (by decide) _ rfl rfl
  intro file hfile
  cases hfile
  exact ⟨by decide, by decide⟩

end ComputerNetworks.Transfer
