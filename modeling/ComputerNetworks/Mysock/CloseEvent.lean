import ComputerNetworks.Mysock.StcpApi

/-!
# The close event

`myclose` sets a flag that `stcp_wait_for_event` clears when it reports the
event, and reports only once the data of the application is drained. Over any
order of the calls the event is announced once, after all the data, and never
lost.
-/

namespace ComputerNetworks.Mysock

namespace StcpRun

/-- `APP_CLOSE_REQUESTED` has not been returned, and the request stands if `myclose` was called. -/
def Unannounced (a : StcpRun Packets) : Prop :=
  a.closeEvents = [] ∧ a.ctx.closeRequested = a.closed

/-- `APP_CLOSE_REQUESTED` was returned once, with all that was written handed out before. -/
def Announced (a : StcpRun Packets) : Prop :=
  (∃ e, a.closeEvents = [e] ∧ e.received = a.written) ∧ a.closed = true ∧
    a.ctx.closeRequested = false

/-- What was written is handed out or still queued, and the close is announced at most once. -/
def CloseInv (a : StcpRun Packets) : Prop :=
  a.received ++ a.ctx.appRecvQueue.flatten = a.written ∧ (a.Unannounced ∨ a.Announced)

theorem closeInv_start : (start [] : StcpRun Packets).CloseInv := ⟨rfl, .inl ⟨rfl, rfl⟩⟩

/-- A return without the close bit leaves the announcements as they are. -/
theorem filter_closes_append (events : List WaitReturn) {e : WaitReturn} (he : e.closes = false) :
    (events ++ [e]).filter WaitReturn.closes = events.filter WaitReturn.closes := by
  simp [he]

/-- With the request standing and no data, a pass returns the event and does not block. -/
theorem endPass_announces {a : StcpRun Packets} (hreq : a.ctx.closeRequested = true)
    (hempty : a.ctx.appRecvQueue = []) (call : WaitCall) :
    ∃ e, e.closes = true ∧ e.received = a.received ∧
      a.endPass call (next.pass a.ctx call.flags) =
        { a with ctx := { a.ctx with closeRequested := false }, events := a.events ++ [e] } := by
  have happ : (a.ctx.appRecvQueue != []) = false := by rw [hempty]; rfl
  have hbit := (closeEvent_reports a.ctx call.flags (a.ctx.appRecvQueue != [])
    (a.ctx.networkRecvQueue != [])).2 ⟨hreq, happ⟩
  refine ⟨⟨call.flags, (next.pass a.ctx call.flags).1, a.received⟩, bne_iff_ne.2 hbit, rfl, ?_⟩
  have hrc : (next.pass a.ctx call.flags).1 ≠ 0 := by
    intro hzero
    rw [next.pass] at hzero
    rw [hzero] at hbit
    exact hbit rfl
  rw [endPass, if_pos hrc]
  unfold next.pass closeEvent
  rw [if_pos ⟨hreq, happ⟩]

/-- Otherwise a pass announces nothing and leaves the flags alone. -/
theorem endPass_of_not {a : StcpRun Packets}
    (hnot : ¬(a.ctx.closeRequested = true ∧ a.ctx.appRecvQueue = [])) (call : WaitCall) :
    let r := a.endPass call (next.pass a.ctx call.flags)
    r.closeEvents = a.closeEvents ∧ r.ctx = a.ctx ∧ r.closed = a.closed ∧ r.written = a.written ∧
      r.received = a.received := by
  have hnot' : ¬(a.ctx.closeRequested = true ∧ (a.ctx.appRecvQueue != []) = false) := by
    simpa using hnot
  have hclear : ¬(next.pass a.ctx call.flags).1 &&& appCloseRequested ≠ 0 :=
    mt (closeEvent_reports a.ctx call.flags _ _).1 hnot'
  have hctx : (next.pass a.ctx call.flags).2 = a.ctx := by
    rw [next.pass, closeEvent, if_neg hnot']
  unfold endPass
  rw [hctx]
  split
  · exact ⟨filter_closes_append _ (bne_eq_false_iff_eq.2 (not_not.1 hclear)), rfl, rfl, rfl, rfl⟩
  · exact ⟨rfl, rfl, rfl, rfl, rfl⟩

/-- A pass of the wait keeps the invariant. -/
theorem CloseInv.endPass {a : StcpRun Packets} (h : a.CloseInv) (call : WaitCall) :
    (a.endPass call (next.pass a.ctx call.flags)).CloseInv := by
  obtain ⟨hbytes, hphase⟩ := h
  by_cases hready : a.ctx.closeRequested = true ∧ a.ctx.appRecvQueue = []
  · obtain ⟨e, he, hreceived, hpass⟩ := endPass_announces hready.1 hready.2 call
    rw [hpass]
    -- the request stands, so the close was not announced before
    obtain ⟨hnone, hclosed⟩ | ⟨-, -, hcleared⟩ := hphase
    · refine ⟨hbytes, .inr ⟨⟨e, ?_, ?_⟩, hclosed.symm.trans hready.1, rfl⟩⟩
      · unfold closeEvents at hnone ⊢
        rw [List.filter_append, hnone]
        simp [he]
      · rw [hready.2, List.flatten_nil, List.append_nil] at hbytes
        exact hreceived.trans hbytes
    · exact absurd (hcleared.symm.trans hready.1) Bool.false_ne_true
  · obtain ⟨hevents, hctx, hclosed, hwritten, hreceived⟩ := endPass_of_not hready call
    unfold CloseInv Unannounced Announced
    rw [hevents, hctx, hclosed, hwritten, hreceived]
    exact ⟨hbytes, hphase⟩

end StcpRun

/-- Each call keeps the data in balance and the announcement unique. -/
theorem packetsMachine_preserves_close : packetsMachine.Preserves StcpRun.CloseInv := by
  rintro a op h ⟨horder, -⟩
  refine ⟨_, rfl, ?_⟩
  have hbytes := h.1
  cases op with
  | write mem buf =>
    obtain ⟨hnone, hreq⟩ | ⟨-, hclosed, -⟩ := h.2
    · refine ⟨?_, .inl ⟨hnone, hreq⟩⟩
      simp only [StcpRun.next, List.flatten_append, List.flatten_singleton, ← List.append_assoc,
        hbytes]
    · exact absurd (horder.symm.trans hclosed) Bool.false_ne_true
  | close =>
    obtain ⟨hnone, -⟩ | ⟨-, hclosed, -⟩ := h.2
    · exact ⟨hbytes, .inl ⟨hnone, rfl⟩⟩
    · exact absurd (horder.symm.trans hclosed) Bool.false_ne_true
  | appRecv dst maxLen =>
    refine ⟨?_, h.2⟩
    simp only [StcpRun.next, List.append_assoc, takeFront_flatten, hbytes]
  | waitForEvent call => exact h.endPass call
  | wake i =>
    refine StcpRun.resume_keeps h i fun waiting call => ?_
    exact @StcpRun.CloseInv.endPass { a with waiting } h call
  | timeout i =>
    refine StcpRun.resume_keeps h i fun waiting call => ⟨hbytes, ?_⟩
    have hevents : (StcpRun.endTimeout { a with waiting } call).closeEvents = a.closeEvents :=
      StcpRun.filter_closes_append _ (by simp [WaitReturn.closes])
    unfold StcpRun.Unannounced StcpRun.Announced
    rw [hevents]
    exact h.2
  | read buf bufLen =>
    simp only [StcpRun.next]
    split
    · exact h
    · unfold noteEof
      split
      · exact h
      · exact h
  | appSend mem src | finReceived mem | networkArrive mem packet | networkRecv dst maxLen => exact h

/-- In every order of the calls `APP_CLOSE_REQUESTED` is returned at most once, when exactly what
was written has been handed out; and once a close is requested, the queue drained and nothing
announced, the next `stcp_wait_for_event`, or one that wakes up, returns it without blocking. -/
theorem close_announced_once (heap : Addr → Option PacketQueueNode) {ops : List StcpOp}
    (hops : stcpMachine.Admissible (StcpRun.start ⟨heap, none, none⟩) ops) :
    ∃ r, stcpMachine.run (StcpRun.start ⟨heap, none, none⟩) ops = .ok r ∧
      r.closeEvents.length ≤ 1 ∧ (∀ e ∈ r.closeEvents, e.received = r.written) ∧
      (r.closed = true → r.ctx.appRecvQueue.head = none → r.closeEvents = [] →
        (∀ call, ∃ r' e, stcpMachine.step r (.waitForEvent call) = .ok r' ∧
          r'.events = r.events ++ [e] ∧ e.closes = true ∧ r'.waiting = r.waiting) ∧
        ∀ i < r.waiting.length, ∃ r' e, stcpMachine.step r (.wake i) = .ok r' ∧
          r'.events = r.events ++ [e] ∧ e.closes = true ∧ r'.waiting = r.waiting.eraseIdx i) := by
  obtain ⟨r, hrun, a, hrep, hinv⟩ :=
    (stcpMachine_simulates.preserves packetsMachine_preserves_close).run
      ⟨_, StcpRun.represents_start heap, StcpRun.closeInv_start⟩ hops
  have hstep := fun op => stcpMachine_simulates r a op hrep
  obtain ⟨-, appRecv, appSend, networkRecv, happ, -, -, rfl⟩ := hrep
  refine ⟨_, hrun, ?_, ?_, ?_⟩
  · obtain ⟨hnone, -⟩ | ⟨⟨e, he, -⟩, -⟩ := hinv.2
    · exact (congrArg List.length hnone).trans_le (Nat.zero_le _)
    · exact (congrArg List.length he).le
  · intro e he
    obtain ⟨hnone, -⟩ | ⟨⟨e', he', hall⟩, -⟩ := hinv.2
    · exact absurd (hnone ▸ he : e ∈ ([] : List WaitReturn)) List.not_mem_nil
    · rw [List.mem_singleton.1 (he' ▸ he : e ∈ [e'])]
      exact hall
  · intro hclosed hhead hnone
    have hreq : a.ctx.closeRequested = true := by
      obtain ⟨-, hreq⟩ | ⟨⟨e, he, -⟩, -⟩ := hinv.2
      · exact hreq.trans hclosed
      · exact absurd (hnone.symm.trans he) (List.cons_ne_nil _ _).symm
    have hempty := happ.head_eq_none.1 hhead
    refine ⟨fun call => ?_, fun i hi => ?_⟩
    · obtain ⟨e, he, -, hpass⟩ := StcpRun.endPass_announces hreq hempty call
      obtain ⟨r', hr', -, _, _, _, -, -, -, rfl⟩ :=
        (hstep (.waitForEvent call) ⟨trivial, trivial, trivial⟩).2 _ rfl
      have hwaiting : (a.next (.waitForEvent call)).waiting = a.waiting := by
        rw [StcpRun.next, hpass]
      exact ⟨_, e, hr', congrArg StcpRun.events hpass, he, hwaiting⟩
    · obtain ⟨e, he, -, hpass⟩ := @StcpRun.endPass_announces
        { a with waiting := a.waiting.eraseIdx i } hreq hempty (a.waiting.get ⟨i, hi⟩)
      obtain ⟨r', hr', -, _, _, _, -, -, -, rfl⟩ := (hstep (.wake i) ⟨hi, trivial, trivial⟩).2 _ rfl
      have hnext := (StcpRun.next_wake hi).trans hpass
      have hwaiting : (a.next (.wake i)).waiting = a.waiting.eraseIdx i := by rw [hnext]
      exact ⟨_, e, hr', congrArg StcpRun.events hnext, he, hwaiting⟩

/-- A wait that blocks, a close while data is queued, two partial receives, and the announcement to
the call that wakes up. -/
theorem close_announced_sample :
    ∃ r, stcpMachine.run (StcpRun.start ⟨fun _ => none, none, none⟩)
        [.waitForEvent ⟨2, false⟩, .write ⟨some 1, some [0, 0, 0]⟩ [7, 8, 9], .wake 0, .close,
          .waitForEvent ⟨1, false⟩, .appRecv [0, 0] 2, .wake 0, .appRecv [0, 0] 2, .wake 0,
          .waitForEvent ⟨7, true⟩, .timeout 0] = .ok r ∧
      r.closeEvents.length ≤ 1 ∧ (∀ e ∈ r.closeEvents, e.received = r.written) ∧
      (r.closed = true → r.ctx.appRecvQueue.head = none → r.closeEvents = [] →
        (∀ call, ∃ r' e, stcpMachine.step r (.waitForEvent call) = .ok r' ∧
          r'.events = r.events ++ [e] ∧ e.closes = true ∧ r'.waiting = r.waiting) ∧
        ∀ i < r.waiting.length, ∃ r' e, stcpMachine.step r (.wake i) = .ok r' ∧
          r'.events = r.events ++ [e] ∧ e.closes = true ∧ r'.waiting = r.waiting.eraseIdx i) :=
  close_announced_once _ (by decide)

end ComputerNetworks.Mysock
