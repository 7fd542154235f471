import TcpState.Connection.EndOfStream

/-!
# The transitions of an open connection

`SetsState` lists the calls of `set_state` from Established to Established,
each with the state it finds. An operation fails in the check of a transition
exactly when a listed one goes back. They only go forward as long as no close
leaves its FIN behind.
-/

namespace TcpState

namespace Connection

open ConnectionState Fallible

variable {Addr Time : Type} [UserTime Time]

/-- The call of `set_state` in `send_ack`. -/
inductive SendAckSets (c : Connection Addr Time) : ConnectionState → ConnectionState → Prop
  | fin {t r : ChannelState} {cc ca : Bool} (hs : c.connectionState = .established t r cc ca)
      (hfin : c.sendsFin = true) : SendAckSets c c.connectionState (.established .fin r cc ca)

/-- The segment reaches the steps after RST and SYN. -/
structure Accepts (c : Connection Addr Time) (seg : SegmentMeta) : Prop where
  peered : c.Peered
  check : c.checkSegmentSeqOk seg = true
  noRst : seg.hasRst = false
  noSyn : seg.hasSyn = false

/-- The calls of `set_state` from Established to Established. -/
inductive SetsState (c : Connection Addr Time) :
    Op Time → ConnectionState → ConnectionState → Prop
  | send {inputData : List UInt8} {q : BlobQueue} {s s' : ConnectionState}
      (hs : c.connectionState.isEstablished = true)
      (hq : c.tx.tx.writeBytes inputData = .ok q) (hnow : c.SendsNow q)
      (h : (c.withQueue q).SendAckSets s s') : SetsState c (.callSend inputData) s s'
  | recv {bufferLen : Nat} {rx : RxBuffer} {data : List UInt8} {t : ChannelState} {cc ca : Bool}
      (hs : c.connectionState = .established t .fin cc ca)
      (hread : c.rx.readBytes bufferLen = .ok (rx, data)) (hlen : data.length < bufferLen) :
      SetsState c (.callRecv bufferLen) c.connectionState (.established t .closed cc ca)
  | shutdownEarly {c₁ : Connection Addr Time} (hs : c.connectionState = .synReceived)
      (hw : c.noSenders) (hsend : c.marked.sendAck = .ok c₁) :
      SetsState c .callShutdown c₁.connectionState (.established .fin .opened false true)
  | shutdown {cc ca : Bool} (hs : c.connectionState = .established .opened .opened cc ca)
      (hdone : c.OutputDone) :
      SetsState c .callShutdown c.connectionState (.established .opened .opened cc true)
  | shutdownFin {c₁ : Connection Addr Time} {r : ChannelState} {cc ca : Bool}
      {s s' : ConnectionState} (hs : c.connectionState = .established .opened r cc ca)
      (hdone : c.OutputDone)
      (h₁ : (if r = .opened then c.setState (.established .opened r cc true) else .ok c) = .ok c₁)
      (h : c₁.marked.SendAckSets s s') : SetsState c .callShutdown s s'
  | closeEarly {c₁ : Connection Addr Time} (hs : c.connectionState = .synReceived)
      (hdone : c.OutputDone) (hsend : c.marked.sendAck = .ok c₁) :
      SetsState c .callClose c₁.connectionState (.established .fin .opened true true)
  | closeFin {r : ChannelState} {cc ca : Bool} {s s' : ConnectionState}
      (hs : c.connectionState = .established .opened r cc ca) (hdone : c.OutputDone)
      (h : c.marked.SendAckSets s s') : SetsState c .callClose s s'
  | close {c₁ : Connection Addr Time} {t r : ChannelState} {cc ca : Bool}
      (hs : c.connectionState = .established t r cc ca)
      (hdone : t = .opened → c.OutputDone)
      (h₁ : (if t = .opened then c.marked.sendAck else .ok c) = .ok c₁) :
      SetsState c .callClose c₁.connectionState
        (.established c₁.connectionState.tx c₁.connectionState.rx true
          (ca || decide (r = .opened)))
  | opened {seg : SegmentMeta} {s s' : ConnectionState} (hs : c.connectionState = .synSent)
      (hrange : seg.ackn.inRangeInclusive c.tx.unack c.tx.next = true)
      (hrst : seg.hasRst = false) (hack : seg.hasAck = true) (hsyn : seg.hasSyn = true)
      (heq : seg.ackn = c.tx.initSeqn + 1#32)
      (h : ((c.synAcked seg).entered .fullyOpen).SendAckSets s s') :
      SetsState c (.onSegment seg) s s'
  | finAcked {c₁ : Connection Addr Time} {seg : SegmentMeta} {r : ChannelState}
      {cc ca : Bool} (ha : c.Accepts seg) (hack : seg.hasAck = true)
      (hrange : seg.ackn.inRangeInclusive c.tx.unack c.tx.next = true)
      (h₁ : (c.windowed seg).Takes seg c₁) (hs : c₁.connectionState = .established .fin r cc ca)
      (hackn : seg.ackn = c₁.tx.next) :
      SetsState c (.onSegment seg) c₁.connectionState (.established .closed r cc ca)
  | stored {c₁ c₂ : Connection Addr Time} {seg : SegmentMeta} {rx : RxBuffer}
      {s s' : ConnectionState} (ha : c.Accepts seg) (hack : seg.hasAck = true)
      (hrange : seg.ackn.inRangeInclusive c.tx.unack c.tx.next = true)
      (h₁ : (c.windowed seg).Takes seg c₁) (h₂ : c₁.onFinAcked seg.ackn = .ok c₂)
      (hseq : seg.seqn = c₂.rx.ackd) (hrx : c₂.rx.write seg = .ok rx)
      (h : { c₂ with rx := rx }.SendAckSets s s') : SetsState c (.onSegment seg) s s'
  | finReceived {c₁ : Connection Addr Time} {seg : SegmentMeta}
      {t r : ChannelState} {cc ca : Bool} (ha : c.Accepts seg)
      (h₁ : (if seg.hasAck then (c.windowed seg).onAck seg else .ok (c.windowed seg, true)) =
        .ok (c₁, true))
      (hfin : seg.hasFin = true) (hs : c₁.connectionState = .established t r cc ca) :
      SetsState c (.onSegment seg) c₁.connectionState (.established t .fin cc ca)

/-- A close finds room for its FIN, and a FIN takes a sequence number. -/
def ClosesAtOnce (c : Connection Addr Time) : Op Time → Prop
  | .callClose => c.connectionState.isEstablished = true → c.connectionState.tx = .opened →
      c.OutputDone → c.tx.spaceAvailable ≠ 0#32
  | .onSegment seg => seg.hasFin = true → seg.data.length + 1 < 2 ^ 32
  | _ => True

instance (c : Connection Addr Time) : DecidablePred c.ClosesAtOnce
  | .callClose => inferInstanceAs (Decidable (_ → _))
  | .onSegment _ => inferInstanceAs (Decidable (_ → _))
  | .callConnect | .callSend _ | .callRecv _ | .callShutdown | .callAbort | .setOptions _
  | .onTimeTick _ => .isTrue trivial

variable {c c₁ c' : Connection Addr Time} {seg : SegmentMeta}

/-- Our FIN moves an open send channel forward. -/
theorem valid_finSent (r : ChannelState) (cc ca : Bool) :
    (ConnectionState.established .opened r cc ca).ValidTransition (.established .fin r cc ca) :=
  ⟨Nat.zero_le _, Nat.le_refl _, le_refl _, le_refl _, fun _ => Nat.le_refl 1⟩

/-- So does its acknowledgement. -/
theorem valid_finAcked (r : ChannelState) (cc ca : Bool) :
    (ConnectionState.established .fin r cc ca).ValidTransition (.established .closed r cc ca) :=
  ⟨Nat.le_succ 1, Nat.le_refl _, le_refl _, le_refl _, fun _ => Nat.le_succ 1⟩

omit [UserTime Time] in
theorem SendAckSets.valid {s s' : ConnectionState} (h : c.SendAckSets s s') :
    s.ValidTransition s' := by
  cases h with
  | @fin t r cc ca hs hfin =>
      have hwrote := (sendsFin_iff.mp hfin).2.2
      rw [hs] at hwrote ⊢
      cases t with
      | opened => exact valid_finSent r cc ca
      | fin | closed => cases hwrote

/-- A shutdown or a close before the handshake is complete goes forward. -/
theorem valid_early (hs : c.connectionState = .synReceived) (hsend : c.marked.sendAck = .ok c₁)
    (closeCalled : Bool) :
    c₁.connectionState.ValidTransition (.established .fin .opened closeCalled true) := by
  obtain ⟨c₂, hsend', hv⟩ := marked_sends_early hs closeCalled
  obtain rfl := Except.ok.inj (hsend'.symm.trans hsend)
  exact hv

omit [UserTime Time] in
theorem ClosesAtOnce.withRoom {op : Op Time} (h : c.ClosesAtOnce op) :
    c.ClosesWithRoom (fun _ => True) op := by
  cases op with
  | callClose => exact fun hest _ => h hest
  | callConnect | callSend | callRecv | callShutdown | callAbort | setOptions | onSegment
  | onTimeTick => trivial

omit [UserTime Time] in
theorem not_pendingIn_iff {s : ConnectionState} :
    ¬ s.PendingIn (fun _ => True) ↔ s.closePending = false := by
  simp [PendingIn]

theorem not_pending_of_reachable (h : ReachableUnder ClosesAtOnce c) :
    c.connectionState.closePending = false :=
  not_pendingIn_iff.mp (not_pendingIn_of_reachable (h.mono fun _ _ hop => hop.withRoom))

section Valid

omit [UserTime Time] in
/-- Behind a stored FIN no FIN with a number of its own is acceptable. -/
theorem unmarked_of_fin (hcheck : c.checkSegmentSeqOk seg = true) (hsyn : seg.hasSyn = false)
    (hfin : seg.hasFin = true) (hlen : seg.data.length + 1 < 2 ^ 32) :
    c.rx.buffer.fin = false := by
  refine Bool.eq_false_iff.mpr fun hmark => ?_
  have hzero : c.rx.currWindow = 0#16 := if_pos hmark
  rw [checkSegmentSeqOk, if_pos hzero, Bool.and_eq_true, decide_eq_true_iff] at hcheck
  have hsize := hcheck.1
  rw [SegmentMeta.seqSize_eq, hsyn, hfin, ← BitVec.toNat_inj, BitVec.toNat_ofNat,
    Nat.mod_eq_of_lt (by simpa using hlen)] at hsize
  exact absurd hsize (by simp)

omit [UserTime Time] in
theorem read_open_of_fin (h : WellFormed c) (ha : c.Accepts seg) (hfin : seg.hasFin = true)
    (hlen : seg.data.length + 1 < 2 ^ 32) : c.connectionState.readClosed = false := by
  refine Bool.eq_false_iff.mpr fun hclosed => ?_
  have hopen := unmarked_of_fin ha.check ha.noSyn hfin hlen
  exact absurd (hopen.symm.trans (h.readClosed hclosed)) Bool.false_ne_true

/-- The FIN of the peer is recorded unless the state refuses it. -/
theorem validFin_iff {t r : ChannelState} {cc ca : Bool} :
    (ConnectionState.established t r cc ca).ValidTransition (.established t .fin cc ca) ↔
      (ConnectionState.established t r cc ca).refusesFin = false := by
  cases t <;> cases r <;> cases cc <;> simp [ValidTransition, refusesFin] <;> decide

omit [UserTime Time] in
theorem refusesFin_of_not_pending {s : ConnectionState} (hp : s.closePending = false)
    (hr : s.readClosed = false) : s.refusesFin = false := by
  cases s with
  | established t r cc ca =>
      cases r with
      | closed => cases hr
      | opened | fin => cases t <;> cases cc <;> first | rfl | cases hp
  | _ => rfl

/-- The state that the FIN of the peer finds. -/
theorem refusesFin_of_accepts (h : WellFormed c) (hp : c.connectionState.closePending = false)
    (ha : c.Accepts seg) (hfin : seg.hasFin = true) (hlen : seg.data.length + 1 < 2 ^ 32)
    (h₁ : (if seg.hasAck then (c.windowed seg).onAck seg else .ok (c.windowed seg, true)) =
      .ok (c₁, true)) : c₁.connectionState.refusesFin = false := by
  split at h₁
  · rcases onAck_ok_iff.mp h₁ with ⟨-, c₂, c₃, htakes, hacked, hstore⟩ | ⟨-, -, hno⟩
    · rcases storeData_ok_iff.mp hstore with ⟨-, -, rx, hrx, hsend⟩ | ⟨-, hno, -⟩
      · have hs : (c.windowed seg).Peered := ha.peered
        have htakes' : (c.windowed seg).Takes seg c₂ := htakes
        have hp₁ : ¬ (c.windowed seg).connectionState.PendingIn (fun _ => True) :=
          not_pendingIn_iff.mpr hp
        have hp₃ := onFinAcked_not_pendingIn (htakes'.not_pendingIn hp₁) hacked
        rcases onFinAcked_peered (htakes'.peered hs).1 hacked with ⟨-, hs₃, -⟩ | ⟨-, rfl⟩
        · have hwf₃ := ((h.windowed ha.peered.not_idle seg).acknowledged (opened_synced hs)
            htakes'.acknowledged).onFinAcked hacked
          have hread : c₃.connectionState.readClosed = false := by
            by_contra hclosed
            have hmark := hwf₃.readClosed (Bool.not_eq_false _ ▸ hclosed)
            have hopen := ((RxBuffer.write_succeeds_iff.mp ⟨rx, hrx⟩).1 hfin).1
            exact absurd (hopen.symm.trans hmark) Bool.false_ne_true
          refine refusesFin_of_not_pending (not_pendingIn_iff.mp
            (sendAck_not_pendingIn (c := { c₃ with rx := rx }) hp₃ hsend)) ?_
          rw [(sendAck_spec hsend).state]
          split
          · rename_i hsent
            rcases hs₃ with hsync | hst
            · exact (withFin_fields hsync (sendsFin_iff.mp hsent).2.2).2.1.trans hread
            · change c₃.connectionState.withFin.readClosed = false
              rw [hst]
              rfl
          · exact hread
        · exact absurd hsend (sendAck_closed rfl)
      · cases hno
    · cases hno
  · obtain ⟨rfl, -⟩ := Prod.mk.inj (Except.ok.inj h₁)
    have hread : c.connectionState.readClosed = false := read_open_of_fin h ha hfin hlen
    exact refusesFin_of_not_pending hp hread

/-- Every call of `set_state` goes forward while no close waits. -/
theorem SetsState.valid (h : WellFormed c) (hp : c.connectionState.closePending = false)
    {op : Op Time} (hallowed : c.ClosesAtOnce op) {s s' : ConnectionState}
    (hset : c.SetsState op s s') : s.ValidTransition s' := by
  cases hset with
  | send _ _ _ hsend => exact hsend.valid
  | @recv _ _ _ t _ _ hs _ _ =>
      rw [hs] at hp ⊢
      refine ⟨Nat.le_refl _, Nat.le_succ 1, le_refl _, le_refl _, fun hcc => ?_⟩
      cases t with
      | opened =>
          rw [hcc] at hp
          cases hp
      | fin => exact Nat.le_refl 1
      | closed => exact Nat.le_succ 1
  | shutdownEarly hs _ hsend => exact valid_early hs hsend false
  | @shutdown cc ca hs hdone =>
      rw [hs] at hp ⊢
      refine ⟨Nat.le_refl _, Nat.le_refl _, le_refl _, Bool.le_true _, fun hcc => ?_⟩
      rw [hcc] at hp
      cases hp
  | shutdownFin _ _ _ hsend => exact hsend.valid
  | closeEarly hs _ hsend => exact valid_early hs hsend true
  | closeFin _ _ hsend => exact hsend.valid
  | @close c₁ t r cc ca hs hdone h₁ =>
      have hactive : ca ≤ (ca || decide (r = .opened)) := Bool.left_le_or _ _
      split at h₁
      · rename_i ht
        subst ht
        have hcc : cc = false := by
          rw [hs] at hp
          cases cc with
          | false => rfl
          | true => cases hp
        rw [(sendAck_spec h₁).state, withQueue_connectionState, hs]
        split
        · exact ⟨Nat.le_refl _, Nat.le_refl _, Bool.le_true _, hactive, fun _ => Nat.le_refl 1⟩
        · exact ⟨Nat.le_refl _, Nat.le_refl _, Bool.le_true _, hactive,
            fun h => by rw [hcc] at h; cases h⟩
      · rename_i ht
        obtain rfl := Except.ok.inj h₁
        rw [hs]
        refine ⟨Nat.le_refl _, Nat.le_refl _, Bool.le_true _, hactive, fun _ => ?_⟩
        cases t with
        | opened => exact absurd rfl ht
        | fin => exact Nat.le_refl 1
        | closed => exact Nat.le_succ 1
  | opened _ _ _ _ _ _ hsend => exact hsend.valid
  | @finAcked _ _ r cc ca _ _ _ _ hs =>
      rw [hs]
      exact valid_finAcked _ _ _
  | stored _ _ _ _ _ _ _ hsend => exact hsend.valid
  | @finReceived c₁ seg t r cc ca ha h₁ hfin hs =>
      have hrefuse := refusesFin_of_accepts h hp ha hfin (hallowed hfin) h₁
      rw [hs] at hrefuse ⊢
      exact validFin_iff.mpr hrefuse

end Valid

section Complete

omit [UserTime Time] in
theorem assert_avoids (p : Prop) [Decidable p] : Avoids .invalidTransition (assert p) :=
  avoids_ensure (.inr (by decide))

omit [UserTime Time] in
theorem debugAssert_avoids (p : Prop) [Decidable p] : Avoids .invalidTransition (debugAssert p) :=
  avoids_ensure (.inr (by decide))

omit [UserTime Time] in
theorem readBytes_avoids (rx : RxBuffer) (limit : Nat) :
    Avoids .invalidTransition (rx.readBytes limit) := by
  unfold RxBuffer.readBytes BlobQueue.readBytes
  refine avoids_bind (assert_avoids _) fun _ _ => avoids_bind
    (avoids_bind (assert_avoids _) fun _ _ => avoids_pure _) fun _ _ => ?_
  dsimp only
  split
  · exact avoids_bind (assert_avoids _) fun _ _ => avoids_pure _
  · exact avoids_pure _

omit [UserTime Time] in
theorem writeBytes_avoids (q : BlobQueue) (data : List UInt8) :
    Avoids .invalidTransition (q.writeBytes data) := by
  unfold BlobQueue.writeBytes
  split
  · exact avoids_pure _
  · exact avoids_bind (assert_avoids _) fun _ _ => avoids_pure _

omit [UserTime Time] in
theorem write_avoids (rx : RxBuffer) (seg : SegmentMeta) :
    Avoids .invalidTransition (rx.write seg) := by
  unfold RxBuffer.write
  refine avoids_bind ?_ fun _ _ => avoids_bind (writeBytes_avoids _ _) fun _ _ => avoids_pure _
  split
  · exact avoids_bind (debugAssert_avoids _) fun _ _ => avoids_pure _
  · exact avoids_pure _

omit [UserTime Time] in
theorem retryAfter_avoids {α : Type} (w : WaitUntil) :
    Avoids .invalidTransition (c.retryAfter w : Res (_ × Except Error α)) := by
  unfold Connection.retryAfter Events.returnRetryAfter Events.newCookie
  refine avoids_bind (avoids_bind ?_ fun _ _ => avoids_pure _) fun _ _ => avoids_pure _
  split <;> simp

omit [UserTime Time] in
theorem continueAfter_avoids {α : Type} (w : WaitUntil) :
    Avoids .invalidTransition (c.continueAfter w : Res (_ × Except Error α)) := by
  unfold Connection.continueAfter Events.returnContinueAfter Events.newCookie
  refine avoids_bind (avoids_bind ?_ fun _ _ => avoids_pure _) fun _ _ => avoids_pure _
  split <;> simp

omit [UserTime Time] in
theorem finSent_avoids (s : ConnectionState) : Avoids .invalidTransition s.finSent := by
  unfold finSent
  split <;> simp

theorem setState_avoids {s : ConnectionState} (hv : c.connectionState.ValidTransition s)
    (hne : s ≠ .closed) : Avoids .invalidTransition (c.setState s) := by
  rw [setState_eq_ok hv hne]
  exact avoids_ok _

/-- A transition that goes back fails in its check. -/
theorem setState_of_not_valid {s : ConnectionState} (hv : ¬ c.connectionState.ValidTransition s) :
    c.setState s = .error .invalidTransition := by
  rw [setState, settle, debugValidateTransition_of_not_valid hv]
  rfl

/-- Sending only moves an open send channel to `Fin`. -/
theorem takeFin_avoids (txFin : Bool) : Avoids .invalidTransition (c.takeFin txFin) := by
  unfold takeFin
  refine avoids_bind (finSent_avoids _) fun finSent hsent => ?_
  split
  · rename_i hfin
    obtain rfl : finSent = false := by simpa using (Bool.and_eq_true_iff.mp hfin).2
    cases hst : c.connectionState with
    | established t r cc ca =>
        rw [hst] at hsent
        cases t with
        | opened =>
            refine avoids_bind (avoids_pure _) fun _ hcc => avoids_bind (avoids_pure _)
              fun _ hca => avoids_bind (setState_avoids ?_ (by simp)) fun _ _ => avoids_pure _
            obtain rfl := Except.ok.inj hcc
            obtain rfl := Except.ok.inj hca
            rw [hst]
            exact valid_finSent r cc ca
        | fin | closed => cases hsent
    | synSent | synReceived =>
        refine avoids_bind (avoids_pure _) fun _ _ => avoids_bind (avoids_pure _)
          fun _ _ => avoids_bind (setState_avoids ?_ (by simp)) fun _ _ => avoids_pure _
        rw [hst]
        trivial
    | timeWait => rw [hst] at hsent; cases hsent
    | listen | reset | closed => exact avoids_bind (by simp [closeCalled]) fun _ h => by cases h
  · exact avoids_pure _

theorem sendAck_avoids : Avoids .invalidTransition c.sendAck := by
  unfold Connection.sendAck
  obtain ⟨c₁, txData, txFin, htake⟩ :=
    takeOutput_succeeds c (min maxSegmentSize c.tx.spaceAvailable.toNat)
  dsimp only
  rw [htake, ok_bind]
  exact avoids_bind (finSent_avoids _) fun _ _ => avoids_bind (debugAssert_avoids _) fun _ _ =>
    avoids_bind (takeFin_avoids _) fun _ _ => avoids_pure _

theorem callConnect_avoids : Avoids .invalidTransition c.callConnect := by
  unfold Connection.callConnect
  split
  case h_1 hst | h_2 hst =>
    refine avoids_bind (setState_avoids ?_ (by simp)) fun _ _ => continueAfter_avoids _
    rw [hst]
    trivial
  case h_3 => exact avoids_pure _

theorem callSend_avoids (inputData : List UInt8) :
    Avoids .invalidTransition (c.callSend inputData) := by
  unfold Connection.callSend
  refine avoids_bind (assert_avoids _) fun _ _ => ?_
  split
  case h_1 | h_2 | h_3 | h_4 => exact avoids_pure _
  case h_5 | h_6 =>
    exact avoids_bind (writeBytes_avoids _ _) fun _ _ => continueAfter_avoids _
  case h_7 =>
    refine avoids_bind (debugAssert_avoids _) fun _ _ =>
      avoids_bind (writeBytes_avoids _ _) fun _ _ => ?_
    dsimp only
    split
    · exact avoids_bind sendAck_avoids fun _ _ => avoids_pure _
    · exact avoids_pure _

theorem callRecv_avoids {bufferLen : Nat}
    (hall : ∀ s s', c.SetsState (.callRecv bufferLen) s s' → s.ValidTransition s') :
    Avoids .invalidTransition (c.callRecv bufferLen) := by
  unfold Connection.callRecv
  split
  case h_1 | h_2 | h_3 => exact avoids_pure _
  case h_4 | h_5 | h_6 => exact retryAfter_avoids _
  case h_7 t r cc ca hst =>
    cases r with
    | closed => exact avoids_pure _
    | opened =>
        dsimp only
        split
        · exact avoids_bind (readBytes_avoids _ _) fun _ _ => avoids_pure _
        · exact retryAfter_avoids _
    | fin =>
        refine avoids_bind (readBytes_avoids _ _) fun p hread => ?_
        obtain ⟨rx, data⟩ := p
        dsimp only
        split
        · rename_i hlen
          refine avoids_bind (setState_avoids ?_ (by simp)) fun _ _ => avoids_pure _
          exact hall _ _ (.recv hst hread hlen)
        · exact avoids_pure _

theorem callShutdown_avoids
    (hall : ∀ s s', c.SetsState .callShutdown s s' → s.ValidTransition s') :
    Avoids .invalidTransition c.callShutdown := by
  unfold Connection.callShutdown
  split
  case h_1 | h_2 | h_3 | h_4 | h_5 => exact avoids_pure _
  case h_6 hst =>
    split
    · exact retryAfter_avoids _
    · rename_i hbusy
      refine avoids_bind sendAck_avoids fun _ hsend =>
        avoids_bind (setState_avoids ?_ (by simp)) fun _ _ => avoids_pure _
      exact hall _ _ (.shutdownEarly hst (by simpa using hbusy) hsend)
  case h_7 t r cc ca hst =>
    cases t with
    | fin | closed => exact avoids_pure _
    | opened =>
        dsimp only
        split
        · exact retryAfter_avoids _
        · rename_i hbusy
          refine avoids_bind ?_ fun _ _ => avoids_bind sendAck_avoids fun _ _ => avoids_pure _
          split
          · rename_i hr
            subst hr
            exact setState_avoids (hall _ _ (.shutdown hst (queue_clear hbusy))) (by simp)
          · exact avoids_pure _

theorem finishClose_avoids {closeActive : Bool} (hv : c.connectionState.ValidTransition
      (.established c.connectionState.tx c.connectionState.rx true closeActive)) :
    Avoids .invalidTransition (c.finishClose closeActive) := by
  unfold finishClose
  refine avoids_bind (setState_avoids hv (by simp)) fun _ _ => ?_
  split
  · exact avoids_pure _
  · exact continueAfter_avoids _

theorem callClose_avoids (hall : ∀ s s', c.SetsState .callClose s s' → s.ValidTransition s') :
    Avoids .invalidTransition c.callClose := by
  unfold Connection.callClose
  split
  case h_1 | h_2 | h_3 | h_4 | h_5 => exact avoids_pure _
  case h_6 hst =>
    split
    · exact retryAfter_avoids _
    · rename_i hbusy
      refine avoids_bind sendAck_avoids fun _ hsend =>
        avoids_bind (setState_avoids ?_ (by simp)) fun _ _ => continueAfter_avoids _
      exact hall _ _ (.closeEarly hst (queue_clear hbusy) hsend)
  case h_7 t r cc ca hst =>
    cases t with
    | fin | closed =>
        exact finishClose_avoids (hall _ _ (.close hst (fun h => by cases h) rfl))
    | opened =>
        dsimp only
        split
        · exact retryAfter_avoids _
        · rename_i hbusy
          refine avoids_bind sendAck_avoids fun _ hsend => finishClose_avoids ?_
          exact hall _ _ (.close hst (fun _ => queue_clear hbusy) hsend)

omit [UserTime Time] in
theorem callAbort_avoids : Avoids .invalidTransition c.callAbort := by
  unfold Connection.callAbort
  split <;> exact avoids_pure _

omit [UserTime Time] in
theorem responseToClosed_avoids (seg : SegmentMeta) :
    Avoids .invalidTransition (responseToClosed seg) := by
  unfold responseToClosed
  split
  · exact avoids_pure _
  · split
    · split <;> simp
    · exact avoids_pure _

theorem onSegmentListen_avoids (hst : c.connectionState = .listen) :
    Avoids .invalidTransition (c.onSegmentListen seg) := by
  unfold Connection.onSegmentListen
  split
  · exact avoids_pure _
  · split
    · exact avoids_pure _
    · split
      · exact avoids_pure _
      · refine avoids_bind (assert_avoids _) fun _ _ =>
          avoids_bind (setState_avoids ?_ (by simp)) fun _ _ => avoids_pure _
        change c.connectionState.ValidTransition .synReceived
        rw [hst]
        trivial

theorem onSegmentSynSent_avoids (hst : c.connectionState = .synSent) :
    Avoids .invalidTransition (c.onSegmentSynSent seg) := by
  unfold Connection.onSegmentSynSent
  split
  · exact avoids_pure _
  · split
    · exact avoids_pure _
    · split
      · dsimp only
        split
        · refine avoids_bind (setState_avoids ?_ (by simp [fullyOpen])) fun _ _ => sendAck_avoids
          change c.connectionState.ValidTransition .fullyOpen
          rw [hst]
          trivial
        · exact avoids_pure _
      · exact avoids_pure _

theorem onRst_avoids : Avoids .invalidTransition c.onRst := by
  unfold Connection.onRst
  split
  · exact setState_avoids trivial (by simp)
  · exact setState_avoids trivial (by simp)
  · simp

theorem onNewAck_avoids : Avoids .invalidTransition (c.onNewAck seg) := by
  unfold Connection.onNewAck nextCongestionWindow addU16
  refine avoids_bind ?_ fun _ _ => avoids_pure _
  split
  · exact avoids_pure _
  · split <;> split <;> simp

theorem onFinAcked_avoids (ackn : SeqN) : Avoids .invalidTransition (c.onFinAcked ackn) := by
  unfold Connection.onFinAcked
  split
  · rename_i hst
    split
    · refine avoids_bind (debugAssert_avoids _) fun _ _ =>
        avoids_bind (debugAssert_avoids _) fun _ _ => setState_avoids ?_ (by simp)
      rw [hst]
      exact valid_finAcked _ _ _
    · exact avoids_pure _
  · exact avoids_pure _

theorem storeData_avoids : Avoids .invalidTransition (c.storeData seg) := by
  unfold Connection.storeData
  split
  · exact avoids_bind (write_avoids _ _) fun _ _ =>
      avoids_bind sendAck_avoids fun _ _ => avoids_pure _
  · split <;> exact avoids_pure _

theorem onAck_avoids : Avoids .invalidTransition (c.onAck seg) := by
  unfold Connection.onAck
  split
  · refine avoids_bind ?_ fun _ _ => avoids_bind ?_ fun _ _ =>
      avoids_bind (onFinAcked_avoids _) fun _ _ => storeData_avoids
    · split
      · rename_i hst
        refine setState_avoids ?_ (by simp [fullyOpen])
        rw [hst]
        trivial
      · exact avoids_pure _
    · split
      · exact onNewAck_avoids
      · exact avoids_pure _
  · exact avoids_pure _

theorem onFin_avoids {isNew : Bool}
    (hall : ∀ t r cc ca, c.connectionState = .established t r cc ca →
      c.connectionState.ValidTransition (.established t .fin cc ca)) :
    Avoids .invalidTransition (c.onFin isNew) := by
  unfold Connection.onFin
  split
  case h_1 | h_2 | h_3 | h_7 => exact avoids_pure _
  case h_4 => split <;> exact avoids_pure _
  case h_5 hst =>
    refine setState_avoids ?_ (by simp)
    rw [triggerEvent_connectionState, hst]
    trivial
  case h_6 t r cc ca hst => exact setState_avoids (hall t r cc ca hst) (by simp)

theorem onSegment_avoids
    (hall : ∀ s s', c.SetsState (.onSegment seg) s s' → s.ValidTransition s') :
    Avoids .invalidTransition (c.onSegment seg) := by
  unfold Connection.onSegment
  split
  case h_1 | h_2 =>
    refine avoids_bind (responseToClosed_avoids _) fun _ _ => ?_
    split <;> exact avoids_pure _
  case h_3 hst => exact onSegmentListen_avoids hst
  case h_4 hst => exact onSegmentSynSent_avoids hst
  case h_5 hst | h_6 hst | h_7 hst =>
    have hs : c.Peered := by simp [Peered, hst, ConnectionState.synced]
    unfold Connection.onSegmentSynchronized
    split
    · split <;> exact avoids_pure _
    · rename_i hcheck
      dsimp only
      split
      · exact onRst_avoids
      · rename_i hrst
        split
        · exact setState_avoids trivial (by simp)
        · rename_i hsyn
          have ha : c.Accepts seg := ⟨hs, by simpa using hcheck, by simpa using hrst,
            by simpa using hsyn⟩
          unfold Connection.onAccepted
          refine avoids_bind ?_ fun p hack => ?_
          · split
            · exact onAck_avoids
            · exact avoids_pure _
          · obtain ⟨c₁, proceed⟩ := p
            dsimp only
            split
            · rename_i hfin
              obtain ⟨rfl, hfin⟩ := Bool.and_eq_true_iff.mp hfin
              exact onFin_avoids fun t r cc ca hs₁ => hall _ _ (.finReceived ha hack hfin hs₁)
            · exact avoids_pure _

theorem onTimeTick_avoids (time : Time) : Avoids .invalidTransition (c.onTimeTick time) := by
  have resend (c : Connection Addr Time) : Avoids .invalidTransition c.onTimerReTx := by
    unfold Connection.onTimerReTx doubleBackoff Duration.add
    split
    case h_1 | h_2 | h_3 | h_4 =>
      split
      · exact avoids_pure _
      · refine avoids_bind ?_ fun _ _ => avoids_bind ?_ fun _ _ => avoids_pure _
        · split <;> simp
        · split <;> simp
    case h_5 => exact avoids_pure _
    case h_6 | h_7 => simp
  unfold Connection.onTimeTick
  refine avoids_bind ?_ fun _ _ => avoids_bind ?_ fun _ _ => ?_
  · split
    · exact resend _
    · exact avoids_pure _
  · split
    · exact avoids_bind (assert_avoids _) fun _ _ => avoids_pure _
    · exact avoids_pure _
  · split <;> exact avoids_pure _

/-- Nothing but a listed call of `set_state` fails in the check. -/
theorem step_avoids {op : Op Time}
    (hall : ∀ s s', c.SetsState op s s' → s.ValidTransition s') :
    Avoids .invalidTransition (c.step op) := by
  cases op with
  | callConnect => exact avoids_bind callConnect_avoids fun _ _ => avoids_pure _
  | callSend inputData => exact avoids_bind (callSend_avoids _) fun _ _ => avoids_pure _
  | callRecv bufferLen => exact avoids_bind (callRecv_avoids hall) fun _ _ => avoids_pure _
  | callShutdown => exact avoids_bind (callShutdown_avoids hall) fun _ _ => avoids_pure _
  | callClose => exact avoids_bind (callClose_avoids hall) fun _ _ => avoids_pure _
  | callAbort => exact avoids_bind callAbort_avoids fun _ _ => avoids_pure _
  | setOptions => exact avoids_pure _
  | onSegment seg => exact avoids_bind (onSegment_avoids hall) fun _ _ => avoids_pure _
  | onTimeTick time => exact avoids_bind (onTimeTick_avoids _) fun _ _ => avoids_pure _

/-- A listed call that goes back fails in the check, and the operation with it. -/
theorem SetsState.fails {op : Op Time} {s s' : ConnectionState} (hset : c.SetsState op s s')
    (hv : ¬ s.ValidTransition s') : c.step op = .error .invalidTransition := by
  have failed {α : Type} {x : Res (Connection Addr Time × α)} {f : α → Output}
      (hx : x = .error .invalidTransition) :
      (do let (c, r) ← x; return (c, f r)) = (.error .invalidTransition : Res _) := by
    rw [hx]
    rfl
  cases hset with
  | send _ _ _ hsend | shutdownFin _ _ _ hsend | closeFin _ _ hsend
  | opened _ _ _ _ _ _ hsend | stored _ _ _ _ _ _ _ hsend => exact absurd hsend.valid hv
  | shutdownEarly hs _ hsend => exact absurd (valid_early hs hsend false) hv
  | closeEarly hs _ hsend => exact absurd (valid_early hs hsend true) hv
  | finAcked _ _ _ _ hs =>
      refine absurd ?_ hv
      rw [hs]
      exact valid_finAcked _ _ _
  | @recv bufferLen rx data t cc ca hs hread hlen =>
      refine failed ?_
      rw [Connection.callRecv, hs]
      simp only [hread, ok_bind]
      rw [if_pos hlen, ← hs, setState_of_not_valid (c := { c with rx := rx }) hv]
      rfl
  | @shutdown cc ca hs hdone =>
      refine failed ?_
      rw [Connection.callShutdown, hs]
      dsimp only
      rw [if_neg (outputDone_iff.mp hdone), if_pos rfl, setState_of_not_valid hv]
      rfl
  | @close c₁ t r cc ca hs hdone h₁ =>
      have hfinish : c₁.finishClose (ca || decide (r = .opened)) = .error .invalidTransition := by
        rw [finishClose, setState_of_not_valid hv]
        rfl
      refine failed ?_
      rw [Connection.callClose, hs]
      cases t with
      | opened =>
          dsimp only
          rw [if_neg (outputDone_iff.mp (hdone rfl)), ← hs]
          rw [if_pos rfl] at h₁
          change (c.marked.sendAck >>= fun c₁ => c₁.finishClose _) = _
          rw [h₁]
          exact hfinish
      | fin | closed =>
          obtain rfl := Except.ok.inj h₁
          exact hfinish
  | @finReceived c₁ seg t r cc ca ha h₁ hfin hs =>
      have hend : c₁.onFin (seg.hasAck && c.tx.isNonOrderedAck seg.ackn) =
          .error .invalidTransition := by
        rw [Connection.onFin, hs]
        exact setState_of_not_valid (c := c₁.triggerEvent WaitUntil.isRecv (.ok ())) hv
      have hacc : (c.windowed seg).onAccepted seg = .error .invalidTransition := by
        have hack : (if seg.flags.contains .ack then (c.windowed seg).onAck seg
          else return (c.windowed seg, true)) = .ok (c₁, true) := h₁
        rw [Connection.onAccepted, hack, ok_bind]
        dsimp only
        rw [if_pos (by rw [Bool.true_and]; exact hfin)]
        exact hend
      have hseg : c.onSegment seg = .error .invalidTransition := by
        rw [onSegment_of_peered ha.peered, Connection.onSegmentSynchronized, ha.check,
          if_neg (by decide)]
        dsimp only
        rw [if_neg (by simp [ha.noRst]), if_neg (by simp [ha.noSyn])]
        exact hacc
      exact (congrArg (· >>= _) hseg).trans rfl

/-- The list is complete: an operation fails in the check of a transition
exactly when a listed call goes back. -/
theorem step_fails_iff {op : Op Time} : c.step op = .error .invalidTransition ↔
    ∃ s s', c.SetsState op s s' ∧ ¬ s.ValidTransition s' := by
  constructor
  · intro hfail
    by_contra hnone
    refine step_avoids (fun s s' hset => ?_) hfail
    by_contra hv
    exact hnone ⟨s, s', hset, hv⟩
  · rintro ⟨s, s', hset, hv⟩
    exact hset.fails hv

end Complete

/-- While every close finds room for its FIN, no close waits with an open send
channel, and no operation fails in the check of a transition, which it does
exactly when one of the calls of `set_state` listed for it goes back. -/
theorem transitions_forward (h : ReachableUnder ClosesAtOnce c) :
    c.connectionState.closePending = false ∧
      ∀ op, (c.step op = .error .invalidTransition ↔
          ∃ s s', c.SetsState op s s' ∧ ¬ s.ValidTransition s') ∧
        (c.ClosesAtOnce op → c.step op ≠ .error .invalidTransition ∧
          ∀ s s', c.SetsState op s s' → s.ValidTransition s') := by
  have hp := not_pending_of_reachable h
  refine ⟨hp, fun op => ⟨step_fails_iff, fun hallowed => ?_⟩⟩
  have hvalid (s s' : ConnectionState) (hset : c.SetsState op s s') : s.ValidTransition s' :=
    hset.valid (Reachable.wellFormed h.reachable) hp hallowed
  exact ⟨step_avoids hvalid, hvalid⟩

/-- A close whose FIN leaves at once, and the FIN of the peer. -/
theorem transitions_forward_close : ∃ c : Connection Unit Nat,
    c.connectionState = .established .fin .fin true true ∧
      c.connectionState.closePending = false ∧
        ∀ op, c.ClosesAtOnce op → c.step op ≠ .error .invalidTransition := by
  obtain ⟨c, hreach, hst⟩ : ∃ c : Connection Unit Nat, ReachableUnder ClosesAtOnce c ∧
      c.connectionState = .established .fin .fin true true :=
    Transition.exists_reachableUnder step_of_next (initial_listening () .default zeroUser)
      [.onSegment ⟨100#32, 0#32, 4096#16, .syn, []⟩,
       .onSegment ⟨101#32, 1#32, 4096#16, .ack, []⟩, .callClose,
       .onSegment ⟨101#32, 1#32, 4096#16, .fin ||| .ack, []⟩] (by decide)
  obtain ⟨hp, hsteps⟩ := transitions_forward hreach
  exact ⟨c, hst, hp, fun op hallowed => ((hsteps op).2 hallowed).1⟩

/-- A close that meets a closed window waits, and the FIN of the peer finds it. -/
theorem transitions_go_back : ¬ ∀ c : Connection Unit Nat, Reachable c →
    c.connectionState.closePending = false ∧
      ∀ op, c.step op ≠ .error .invalidTransition := by
  intro hall
  obtain ⟨c, hreach, hfails⟩ : ∃ c : Connection Unit Nat, Reachable c ∧
      ¬ Avoids .invalidTransition (c.step (.onSegment ⟨101#32, 1#32, 0#16, .fin ||| .ack, []⟩)) :=
    Transition.exists_reachableUnder step_of_next (initial_listening () .default zeroUser)
      [.onSegment ⟨100#32, 0#32, 0#16, .syn, []⟩,
       .onSegment ⟨101#32, 1#32, 0#16, .ack, []⟩, .callClose] (by decide)
  exact hfails ((hall c hreach).2 _)

end Connection

end TcpState
