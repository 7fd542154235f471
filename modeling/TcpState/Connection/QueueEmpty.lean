import TcpState.Connection.Idling
import TcpState.Connection.ToldStep

/-!
# An announced empty queue is empty

The calls that wait for an empty output queue are resumed after an empty read
of the queue and on entering a state whose read side is closed. The second
rests on the state alone, which is right unless the application reads to the
end of the stream before its own bytes have left.
-/

namespace TcpState

/-- A short read ends the stream. -/
theorem RxBuffer.availableBytes_lt_of_short {rx rx' : RxBuffer} {limit : Nat} {data : List UInt8}
    (hread : rx.readBytes limit = .ok (rx', data)) (hlen : data.length < limit) :
    rx.availableBytes < limit := by
  rw [(RxBuffer.readBytes_spec hread).1, List.length_take] at hlen
  rw [RxBuffer.availableBytes_eq]
  omega

namespace ConnectionState

theorem rx_of_readClosed {s : ConnectionState} (h : s.readClosed = true) : s.rx = .closed := by
  cases s with
  | established t r cc ca =>
      cases r with
      | closed => rfl
      | opened | fin => cases h
  | timeWait => rfl
  | _ => cases h

theorem idle_of_readClosed {s : ConnectionState} (h : s.readClosed = true) : s.idle = false := by
  cases s with
  | established | timeWait => rfl
  | _ => cases h

theorem opening_of_readClosed {s : ConnectionState} (h : s.readClosed = true) :
    s.opening = false := by
  cases s with
  | established | timeWait => rfl
  | _ => cases h

theorem readClosed_iff_guaranteedClear {s : ConnectionState} :
    s.outputBufferGuaranteedClear = .ok true ↔ s.readClosed = true := by
  cases s with
  | established t r cc ca =>
      cases r <;> simp [outputBufferGuaranteedClear, readClosed, pure, Except.pure]
  | _ => simp [outputBufferGuaranteedClear, readClosed, pure, Except.pure]

end ConnectionState

namespace Connection

variable {Addr Time : Type} [UserTime Time] {c c₁ c' m : Connection Addr Time}

/-- The end of the incoming stream is read behind an empty output queue, without
senders where a call waits for that, and what is sent after it leaves at once. -/
def EndsEmptied (c : Connection Addr Time) : Op Time → Prop
  | .callRecv bufferLen => c.connectionState.isEstablished = true → c.connectionState.rx = .fin →
      c.rx.availableBytes < bufferLen → c.tx.tx.bytes = [] ∧
        ((∃ p ∈ c.events.suspended, p.1 = .txQueueEmpty) → c.noSenders)
  | .callSend inputData => c.connectionState.isEstablished = true →
      c.connectionState.rx = .closed → c.tx.unackHasSpace = true ∧
        (maxSegmentSize ≤ inputData.length ∨ c.options.nagleDelay = Duration.zero) ∧
        inputData.length ≤ c.outLimit
  | _ => True

omit [UserTime Time] in
instance (c : Connection Addr Time) : DecidablePred c.EndsEmptied
  | .callRecv _ => inferInstanceAs (Decidable (_ → _))
  | .callSend _ => inferInstanceAs (Decidable (_ → _))
  | .callConnect | .callShutdown | .callClose | .callAbort | .setOptions _ | .onSegment _
  | .onTimeTick _ => .isTrue trivial

section Moments

omit [UserTime Time] in
theorem SetStateAnnounces.suspended {state : ConnectionState} (hm : c.SetStateAnnounces state m)
    {p : WaitUntil × Cookie} (hp : p ∈ m.events.suspended) : p ∈ c.events.suspended := by
  cases hm with
  | entered => exact hp
  | wait => exact (Resumes.entered c _).suspended.subset hp

omit [UserTime Time] in
theorem SetStateAnnounces.done {state : ConnectionState} (hm : c.SetStateAnnounces state m)
    (h : c.OutputDone) : m.OutputDone := by
  cases hm with
  | entered => exact h
  | wait =>
      constructor
      · change (c.entered _).tx.tx.bytes = []
        rw [entered_tx]
        exact h.1
      · exact (Resumes.entered c _).noSenders h.2

omit [UserTime Time] in
/-- `send_ack` announces what it has read to the end, as long as no sender is
suspended behind a FIN. -/
theorem SendAckAnnounces.done (hm : c.SendAckAnnounces m)
    (hno : c.tx.tx.fin = true → c.noSenders) : m.OutputDone := by
  cases hm with
  | @read q hq hlimit hempty hw =>
      have hnil : c.tx.tx.bytes = [] := (List.take_eq_nil_iff.mp hempty).resolve_left hlimit
      refine ⟨?_, hw⟩
      change q.bytes = []
      rw [hq, hnil, List.drop_nil]
  | @fin q hq hfin =>
      obtain ⟨hlt, hmark, -⟩ := sendsFin_iff.mp hfin
      constructor
      · change (c.drained q).tx.tx.bytes = []
        rw [drained_tx, hq]
        exact List.drop_eq_nil_of_le (Nat.le_of_lt hlt)
      · exact (Resumes.drained c q).noSenders (hno hmark)

/-- Where `send_ack` runs on a queue with a FIN, no sender is suspended. -/
theorem RunsSendAck.noSenders {op : Op Time} (hrun : c.RunsSendAck op c₁) (hwf : WellFormed c)
    (hw : Waits c) (hfin : c₁.tx.tx.fin = true) : c₁.noSenders := by
  cases hrun with
  | send _ hq =>
      have hmark := (BlobQueue.writeBytes_spec hq).2.1
      exact hw.senders (hmark.symm.trans hfin)
  | shutdownEarly _ hno => exact hno
  | @shutdown c₁ r cc ca _ hdone h₁ =>
      split at h₁
      · obtain ⟨-, -, rfl⟩ := setState_ok_iff.mp h₁
        exact (Resumes.stateSet c _).noSenders hdone.2
      · obtain rfl := Except.ok.inj h₁
        exact hdone.2
  | close _ hdone => exact hdone.2
  | opened hs =>
      have hmark := (hwf.early (by rw [hs]; rfl)).1
      rw [entered_tx] at hfin
      exact absurd (hmark.symm.trans hfin) Bool.false_ne_true
  | @stored c₁ c₂ _ _ _ _ _ h₁ h₂ =>
      have hresumes : Resumes c c₂ :=
        .from_eq ((Resumes.takes h₁).trans (.onFinAcked h₂)) rfl rfl
      have hmark : c.tx.tx.fin = true := by
        have hqueue : c₁.tx.tx = c.tx.tx := h₁.acknowledged.frame.2.2.1
        rcases onFinAcked_ok_iff.mp h₂ with ⟨r, cc, ca, -, -, -, -, rfl⟩ | ⟨-, rfl⟩
        · rcases stateSet_tx c₁ .closed r cc ca with ⟨htx, -⟩ | ⟨c₀, heq, -⟩
          · change (c₁.stateSet _).tx.tx.fin = true at hfin
            rwa [htx, hqueue] at hfin
          · change (c₁.stateSet _).tx.tx.fin = true at hfin
            rw [heq] at hfin
            cases hfin
        · change c₂.tx.tx.fin = true at hfin
          rwa [hqueue] at hfin
      exact hresumes.noSenders (hw.senders hmark)

omit [UserTime Time] in
/-- Behind our FIN the output is done. -/
theorem WellFormed.outputDone (hwf : WellFormed c) (hw : Waits c)
    (hwrote : c.connectionState.wroteFin = true) : c.OutputDone :=
  ⟨hwf.marked (hwf.wroteFin hwrote), hw.senders (hwf.wroteFin hwrote)⟩

/-- An announcement that a call waits for is made on a connection whose output
is done. -/
theorem Announces.done {op : Op Time} {k : Cookie} (hm : c.Announces op m)
    (hk : (.txQueueEmpty, k) ∈ m.events.suspended) (hwf : WellFormed c) (hw : Waits c)
    (hallowed : c.EndsEmptied op) : m.OutputDone := by
  cases hm with
  | sendAck hrun hm => exact hm.done (hrun.noSenders hwf hw)
  | readToEnd hs hread hlen hm =>
      have hend := RxBuffer.availableBytes_lt_of_short hread hlen
      obtain ⟨hempty, hsenders⟩ := hallowed (by rw [hs]; rfl) (by rw [hs]; rfl) hend
      exact hm.done ⟨hempty, hsenders ⟨_, hm.suspended hk, rfl⟩⟩
  | @close c₁ m t r cc ca hs hdone h₁ hm =>
      apply hm.done
      split at h₁
      · rename_i ht
        refine ⟨?_, (resumes_marked h₁).noSenders (hdone ht).2⟩
        have hnil : c.marked.tx.tx.bytes = [] := (hdone ht).1
        rw [(sendAck_spec h₁).bytes, hnil, List.drop_nil]
      · rename_i ht
        obtain rfl := Except.ok.inj h₁
        apply hwf.outputDone hw
        rw [hs]
        cases t with
        | opened => exact absurd rfl ht
        | fin | closed => rfl
  | @finAcked c₁ m seg r cc ca _ _ _ h₁ hs _ hm =>
      obtain ⟨hstate, -, hqueue, -⟩ := h₁.acknowledged.frame
      have hdone : c.OutputDone := by
        apply hwf.outputDone hw
        rw [hs, opened_connectionState] at hstate
        split at hstate
        · cases hstate
        · rw [← show _ = c.connectionState from hstate]
          rfl
      apply hm.done
      refine ⟨?_, ?_⟩
      · rw [hqueue]
        exact hdone.1
      · have hresumes : Resumes c c₁ := .from_eq (.takes h₁) rfl rfl
        exact hresumes.noSenders hdone.2

end Moments

section Emptied

/-- Where the read side is closed no byte waits to be sent. -/
def EndEmptied (c : Connection Addr Time) : Prop :=
  c.connectionState.readClosed = true → c.tx.tx.bytes = []

omit [UserTime Time] in
/-- The read side is closed by reading to the end only. -/
theorem RxEffect.readClosed {op : Op Time} {out : Output} (effect : RxEffect c op out c')
    (hread : c'.connectionState.readClosed = true) :
    c.connectionState.readClosed = true ∨ ∃ bufferLen, op = .callRecv bufferLen ∧
      c.connectionState.isEstablished = true ∧ c.connectionState.rx = .fin ∧
      c.rx.availableBytes < bufferLen := by
  have hclosed := ConnectionState.rx_of_readClosed hread
  cases effect with
  | kept _ _ hstate =>
      rcases hstate with heq | ⟨hs, -, hrx⟩
      · exact .inl (heq ▸ hread)
      · exact .inl (readClosed_of_rx hs (hrx.symm.trans hclosed))
  | cleared _ hidle =>
      rw [ConnectionState.idle_of_readClosed hread] at hidle
      cases hidle
  | connecting _ _ hstate | answered _ _ _ hstate =>
      rw [hstate] at hread
      cases hread
  | synAcked _ _ _ _ _ hstate =>
      rcases hstate with ⟨hs, -⟩ | ⟨-, hrx⟩
      · rw [hs] at hread
        cases hread
      · rw [hrx] at hclosed
        cases hclosed
  | stored hs _ _ _ hstate =>
      rw [hclosed] at hstate
      split at hstate
      · cases hstate
      · exact .inl (readClosed_of_rx hs hstate.symm)
  | finOnly _ _ _ _ _ _ _ _ _ _ hstate =>
      rw [hstate] at hclosed
      cases hclosed
  | waiting | ended => exact .inl hread
  | read _ _ _ hstate => exact .inl (hstate ▸ hread)
  | drained hst hfin hdata hlen hstate =>
      exact .inr ⟨_, rfl, hst, hfin, RxBuffer.availableBytes_lt_of_short hdata hlen⟩

omit [UserTime Time] in
/-- Only a send puts bytes into the output queue. -/
theorem TxEffect.bytes_eq_nil {op : Op Time} {out : Output} (effect : TxEffect c op out c')
    (hop : ∀ inputData, op ≠ .callSend inputData) (hempty : c.tx.tx.bytes = []) :
    c'.tx.tx.bytes = [] := by
  cases effect with
  | kept _ htx => rw [htx.queue, hempty]
  | cleared _ _ _ htx => rw [htx]; rfl
  | connecting _ _ hc =>
      rw [hc.tx, TxBuffer.onSend_tx]
      exact hempty
  | answered _ _ _ hc =>
      rw [hc.tx, TxBuffer.onSend_tx]
      exact hempty
  | queued | appended => exact absurd rfl (hop _)
  | marked _ _ _ _ _ htx _ _ _ ht =>
      rw [ht.bytes, htx]
      change c.tx.tx.bytes.drop _ = []
      rw [hempty, List.drop_nil]
  | acked _ _ _ _ htx => rw [htx]; exact hempty
  | stored _ _ htx _ _ _ ht =>
      rw [ht.bytes, htx]
      change c.tx.tx.bytes.drop _ = []
      rw [hempty, List.drop_nil]
  | synAcked => exact hempty
  | opened _ _ _ _ _ _ ht =>
      rw [ht.bytes, entered_tx]
      change c.tx.tx.bytes.drop _ = []
      rw [hempty, List.drop_nil]

/-- What is sent behind the end of the incoming stream leaves at once. -/
theorem callSend_emptied {inputData : List UInt8} {r : Except Error Unit}
    (hc : c.callSend inputData = .ok (c', r)) (hempty : c.tx.tx.bytes = [])
    (hread : c.connectionState.readClosed = true)
    (hallowed : c.EndsEmptied (.callSend inputData)) : c'.tx.tx.bytes = [] := by
  obtain ⟨hdata, step⟩ := sendStep_of_ok hc
  have leaves {q : BlobQueue} {r : ChannelState} {cc ca : Bool}
      (hs : c.connectionState = .established .opened r cc ca)
      (hq : c.tx.tx.writeBytes inputData = .ok q) : c'.tx.tx.bytes = [] := by
    obtain ⟨hspace, hsend, hlimit⟩ :=
      hallowed (by rw [hs]; rfl) (ConnectionState.rx_of_readClosed hread)
    have hbytes : q.bytes = inputData := by
      rw [(BlobQueue.writeBytes_spec hq).1, hempty, List.nil_append]
    have hnow : c.SendsNow q := by
      refine ⟨hspace, ?_⟩
      rw [BlobQueue.availableBytes_eq, hbytes]
      exact hsend.imp_right fun hzero => ⟨List.length_pos_of_ne_nil hdata, hzero⟩
    rw [(sendAck_spec (callSend_sends hs hq hnow hc)).bytes]
    apply List.drop_eq_nil_of_le
    change q.bytes.length ≤ c.outLimit
    rwa [hbytes]
  cases step with
  | refused => exact hempty
  | delayed hs =>
      rw [ConnectionState.opening_of_readClosed hread] at hs
      cases hs
  | queued hs hq | sent hs hq => exact leaves hs hq

theorem EndEmptied.step {op : Op Time} {out : Output} (hp : EndEmptied c) (hwf : WellFormed c)
    (hallowed : c.EndsEmptied op) (hc : c.step op = .ok (c', out)) : EndEmptied c' := by
  intro hread
  rcases (hwf.rxEffect hc).readClosed hread with hclosed | ⟨bufferLen, rfl, hest, hfin, hlen⟩
  · by_cases hop : ∃ inputData, op = .callSend inputData
    · obtain ⟨inputData, rfl⟩ := hop
      cases opStep_of_ok hc with
      | callSend hc => exact callSend_emptied hc (hp hclosed) hclosed hallowed
    · apply (hwf.txEffect hc).bytes_eq_nil fun inputData heq => hop ⟨inputData, heq⟩
      exact hp hclosed
  · apply (hwf.txEffect hc).bytes_eq_nil fun _ => nofun
    exact (hallowed hest hfin hlen).1

/-- Along the runs whose stream ends emptied, the states that guarantee an
empty output queue have one. -/
theorem ReachableUnder.endEmptied (h : ReachableUnder EndsEmptied c) : EndEmptied c := by
  refine Transition.ReachableUnder.invariant ?_ ?_ h
  · intro c hinit hread
    have hidle := hinit.fresh.2.2
    rw [ConnectionState.idle_of_readClosed hread] at hidle
    cases hidle
  · rintro c op c' hreach hp hallowed ⟨out, hc⟩
    exact hp.step (Reachable.wellFormed hreach) hallowed hc

/-- As long as the end of the stream is read behind an empty output queue and
the bytes sent after it leave at once, the states that guarantee an empty
output queue have one, and a call that waits for it is told so on a connection
whose queue is empty and where nobody waits to send. -/
theorem txQueueEmpty_truthful (h : ReachableUnder EndsEmptied c) :
    (c.connectionState.outputBufferGuaranteedClear = .ok true → c.tx.tx.bytes = []) ∧
      ∀ op c' out, c.EndsEmptied op → c.step op = .ok (c', out) →
        ∀ k, (.txQueueEmpty, k) ∈ c.events.suspended →
          (k, .ok ()) ∈ c'.answers.drop c.answers.length →
            ∃ m, c.Announces op m ∧ (.txQueueEmpty, k) ∈ m.events.suspended ∧ m.OutputDone := by
  constructor
  · intro hclear
    exact h.endEmptied (ConnectionState.readClosed_iff_guaranteedClear.mp hclear)
  · intro op c' out hallowed hc k hk hanswer
    have hreach : Reachable c := h.reachable
    cases (toldStep hc).reason hreach.cookies hk hanswer with
    | emptied hm hp => exact ⟨_, hm, hp, hm.done hp hreach.wellFormed hreach.waits hallowed⟩
    | other hqueue => exact absurd rfl hqueue

/-- A shutdown waits for a byte that the peer's window holds back, and is told
once the byte has left. -/
theorem txQueueEmpty_truthful_shutdown : ∃ (c c' : Connection Unit Nat) (op : Op Nat),
    (0, .ok ()) ∈ c'.answers.drop c.answers.length ∧
      (c.connectionState.outputBufferGuaranteedClear = .ok true → c.tx.tx.bytes = []) ∧
      ∃ m, c.Announces op m ∧ (.txQueueEmpty, 0) ∈ m.events.suspended ∧ m.OutputDone := by
  let op : Op Nat := .onSegment ⟨101#32, 2#32, 1000#16, .ack, []⟩
  obtain ⟨c, hreach, hk, hnext⟩ : ∃ c : Connection Unit Nat, ReachableUnder EndsEmptied c ∧
      (.txQueueEmpty, 0) ∈ c.events.suspended ∧
      (c.step op).toOption.any
        (fun t => decide ((0, .ok ()) ∈ t.1.answers.drop c.answers.length)) = true :=
    Transition.exists_reachableUnder step_of_next (initial_listening () .default zeroUser)
      [.onSegment ⟨100#32, 0#32, 1000#16, .syn, []⟩,
       .onSegment ⟨101#32, 1#32, 0#16, .ack, []⟩, .callSend [7], .callShutdown,
       .onSegment ⟨101#32, 1#32, 1000#16, .ack, []⟩] (by decide)
  obtain ⟨⟨c', out⟩, hc, hanswer⟩ := Fallible.exists_of_toOption_any hnext
  rw [decide_eq_true_iff] at hanswer
  obtain ⟨hclear, hall⟩ := txQueueEmpty_truthful hreach
  exact ⟨c, c', op, hanswer, hclear, hall op c' out trivial hc 0 hk hanswer⟩

/-- The peer closes its window, and its stream is read to the end while a byte
waits behind the window: the shutdown that waits for the byte is told that the
queue is empty. -/
theorem txQueueEmpty_untruthful :
    (¬ ∀ c : Connection Unit Nat, Reachable c →
      c.connectionState.outputBufferGuaranteedClear = .ok true → c.tx.tx.bytes = []) ∧
    ¬ ∀ c : Connection Unit Nat, Reachable c → ∀ op c' out, c.step op = .ok (c', out) →
      ∀ k, (.txQueueEmpty, k) ∈ c.events.suspended →
        (k, .ok ()) ∈ c'.answers.drop c.answers.length →
          ∃ m, c.Announces op m ∧ (.txQueueEmpty, k) ∈ m.events.suspended ∧ m.OutputDone := by
  obtain ⟨c, hreach, ⟨hs, hbytes, hk⟩, hnext⟩ : ∃ c : Connection Unit Nat, Reachable c ∧
      (c.connectionState = .established .opened .fin false false ∧ c.tx.tx.bytes = [7] ∧
        (.txQueueEmpty, 0) ∈ c.events.suspended) ∧
      (c.step (.callRecv 1)).toOption.any (fun t => decide (t.1.tx.tx.bytes = [7] ∧
        t.1.connectionState.outputBufferGuaranteedClear = .ok true ∧
        (0, .ok ()) ∈ t.1.answers.drop c.answers.length)) = true :=
    Transition.exists_reachableUnder step_of_next (initial_listening () .default zeroUser)
      [.onSegment ⟨100#32, 0#32, 1000#16, .syn, []⟩,
       .onSegment ⟨101#32, 1#32, 0#16, .ack, []⟩, .callSend [7], .callShutdown,
       .onSegment ⟨101#32, 1#32, 0#16, .fin ||| .ack, []⟩] (by decide)
  obtain ⟨⟨c', out⟩, hc, hafter⟩ := Fallible.exists_of_toOption_any hnext
  obtain ⟨hbytes', hclear, hanswer⟩ := of_decide_eq_true hafter
  constructor
  · intro hall
    rw [hall c' (hreach.next hc) hclear] at hbytes'
    cases hbytes'
  · intro hall
    obtain ⟨m, hm, -, hempty, -⟩ := hall c hreach (.callRecv 1) c' out hc 0 hk hanswer
    cases hm with
    | sendAck hrun => cases hrun
    | readToEnd hst _ _ hm =>
        rw [hs] at hst
        cases hst
        cases hm with
        | entered =>
            rw [show _ = c.tx.tx.bytes from rfl, hbytes] at hempty
            cases hempty

end Emptied

end Connection

end TcpState
