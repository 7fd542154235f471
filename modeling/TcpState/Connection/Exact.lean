import TcpState.Connection.AcceptedStep

/-!
# The record after sending and after an acknowledgement

`send_ack` and the acknowledgement of new data change most fields of a
connection. Their result is given as a record, from which every field is read
off, the timers and the waiters included.
-/

namespace TcpState

namespace Connection

variable {Addr Time : Type}

/-- The connection once `send_ack` has read the output queue: an empty queue
without suspended senders resumes the calls that wait for it. -/
def drained (c : Connection Addr Time) (q : BlobQueue) : Connection Addr Time :=
  if c.outLimit ≠ 0 ∧ c.outData = [] ∧ c.noSenders then
    (c.withQueue q).triggerEvent (· == .txQueueEmpty) (.ok ())
  else c.withQueue q

/-- The connection from which `send_ack` emits its segment. -/
def taken (c : Connection Addr Time) (q : BlobQueue) : Connection Addr Time :=
  if c.sendsFin = true then (c.drained q).entered c.connectionState.withFin else c.drained q

section Taken

variable (c : Connection Addr Time) (q : BlobQueue)

@[simp] theorem drained_connectionState :
    (c.drained q).connectionState = c.connectionState := by
  unfold drained
  split <;> rfl

@[simp] theorem drained_tx : (c.drained q).tx = { c.tx with tx := q } := by
  unfold drained
  split <;> rfl

@[simp] theorem drained_rx : (c.drained q).rx = c.rx := by
  unfold drained
  split <;> rfl

@[simp] theorem drained_timers : (c.drained q).timers = c.timers := by
  unfold drained
  split <;> rfl

@[simp] theorem taken_connectionState : (c.taken q).connectionState =
    if c.sendsFin = true then c.connectionState.withFin else c.connectionState := by
  unfold taken
  split <;> simp

@[simp] theorem taken_tx : (c.taken q).tx = { c.tx with tx := q } := by
  unfold taken
  split <;> simp

@[simp] theorem taken_rx : (c.taken q).rx = c.rx := by
  unfold taken
  split <;> simp

@[simp] theorem taken_timers : (c.taken q).timers = c.timers := by
  unfold taken
  split <;> simp

end Taken

variable [UserTime Time] {c c' : Connection Addr Time}

omit [UserTime Time] in
/-- Reading the output queue, as a record. -/
theorem takeOutput_eq {data : List UInt8} {done : Bool}
    (h : c.takeOutput c.outLimit = .ok (c', data, done)) :
    ∃ q : BlobQueue, q.bytes = c.tx.tx.bytes.drop c.outLimit ∧ q.fin = c.tx.tx.fin ∧
      c' = c.drained q := by
  have hdata := (takeOutput_spec h).2.1
  rw [takeOutput] at h
  split at h
  · rename_i hzero
    obtain ⟨rfl, -⟩ := Prod.mk.inj (Fallible.pure_ok_iff.mp h)
    refine ⟨c.tx.tx, by rw [hzero]; rfl, rfl, ?_⟩
    rw [drained, if_neg fun h => h.1 hzero]
    rfl
  · rename_i hlimit
    simp only [Fallible.bind_ok_iff, Prod.exists, Fallible.pure_ok_iff, Prod.mk.injEq] at h
    obtain ⟨q, txData, txFin, hread, rfl, rfl, rfl⟩ := h
    obtain ⟨-, hrest, hfin, -⟩ := BlobQueue.readBytes_spec hread
    refine ⟨q, hrest, hfin, ?_⟩
    have hout : c.outData = txData := hdata.symm
    unfold drained
    rw [hout]
    by_cases hempty : txData = [] ∧ c.noSenders
    · rw [if_pos (by simpa using hempty), if_pos ⟨hlimit, hempty⟩]
      rfl
    · rw [if_neg (by simpa using hempty), if_neg fun h => hempty h.2]
      rfl

/-- The record after a successful `send_ack`. -/
theorem sendAck_eq (h : c.sendAck = .ok c') :
    ∃ q : BlobQueue, q.bytes = c.tx.tx.bytes.drop c.outLimit ∧ q.fin = c.tx.tx.fin ∧
      c' = (c.taken q).emit c.outSegment := by
  simp only [sendAck, Fallible.bind_ok_iff, Fallible.pure_ok_iff, Prod.exists] at h
  obtain ⟨c₁, data, done, htake, b, hsent, _, -, c₂, flags, hfin, rfl⟩ := h
  obtain ⟨-, rfl, rfl, -⟩ := takeOutput_spec htake
  obtain ⟨q, hq, hqfin, rfl⟩ := takeOutput_eq htake
  refine ⟨q, hq, hqfin, ?_⟩
  obtain ⟨-, hfin⟩ := takeFin_ok_iff.mp hfin
  rw [drained_connectionState] at hfin
  have hdone : (decide (c.tx.tx.bytes.length < c.outLimit) && c.tx.tx.fin &&
      !c.connectionState.wroteFin) = c.sendsFin := rfl
  have hlimit : min maxSegmentSize c.tx.spaceAvailable.toNat = c.outLimit := rfl
  rw [hlimit, hdone] at hfin
  have htaken : c₂ = c.taken q ∧ flags = ackFlags c.sendsFin := by
    unfold taken
    cases hs : c.sendsFin with
    | false =>
        rw [hs, if_neg Bool.false_ne_true] at hfin
        exact hfin
    | true =>
        rw [hs, if_pos rfl] at hfin
        exact ⟨hfin.2.2.1, hfin.2.2.2⟩
  obtain ⟨rfl, rfl⟩ := htaken
  rw [taken_tx, taken_rx]
  rfl

/-- Data and FIN arm the retransmission timer, nothing else touches a timer. -/
theorem sendAck_timers (h : c.sendAck = .ok c') :
    c'.timers.timewait = c.timers.timewait ∧ c'.timers.usertime = c.timers.usertime ∧
      if c.outSegment.seqSize = 0#32 then c'.timers.reTx = c.timers.reTx
      else c'.timers.reTx.isSome = true := by
  obtain ⟨q, -, -, rfl⟩ := sendAck_eq h
  have htimewait := congrArg Timers.timewait (taken_timers c q)
  have husertime := congrArg Timers.usertime (taken_timers c q)
  have hneeds : (c.outSegment.flags.contains .fin || !c.outSegment.data.isEmpty) = true ↔
      c.outSegment.seqSize ≠ 0#32 := by
    rw [ne_eq, outSegment_seqSize_eq_zero, ← outSegment_hasFin]
    change _ ↔ ¬ (c.outSegment.data = [] ∧ _)
    cases c.outSegment.data <;> simp
  unfold emit
  split
  · rename_i hskip
    rw [if_pos hskip.1, taken_timers]
    exact ⟨rfl, rfl, rfl⟩
  · dsimp only
    split
    · rename_i hn
      rw [if_neg (hneeds.mp hn)]
      exact ⟨htimewait, husertime, rfl⟩
    · rename_i hn
      rw [if_pos (not_not.mp fun h => hn (hneeds.mpr h))]
      exact ⟨htimewait, husertime, congrArg Timers.reTx (taken_timers c q)⟩

/-- A new acknowledgement disarms the retransmission timer exactly when nothing
is left to be acknowledged. -/
theorem onNewAck_timers {seg : SegmentMeta} (h : c.onNewAck seg = .ok c') :
    c'.timers.timewait = c.timers.timewait ∧ c'.timers.usertime = c.timers.usertime ∧
      if c'.tx.reTx = [] then c'.timers.reTx = none else c'.timers.reTx.isSome = true := by
  simp only [onNewAck, Fallible.bind_ok_iff, Fallible.pure_ok_iff] at h
  obtain ⟨w, -, rfl⟩ := h
  simp only [triggerEvent_timers, triggerEvent_tx, List.isEmpty_iff]
  split
  · exact ⟨rfl, rfl, rfl⟩
  · rename_i hempty
    refine ⟨rfl, rfl, ?_⟩
    rw [if_neg]
    · rfl
    · exact hempty

end Connection

end TcpState
