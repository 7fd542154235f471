import TcpState.Connection.StateChange
import TcpState.Connection.Run
import TcpState.Foundation.Transport

/-!
# Shifted sequence numbers

The two sides of a connection count in sequence spaces of their own. A shift
adds one constant to every number of the local space and another to every
number of the peer's, and keeps the rest. The steps of the connection up to
`send_ack` commute with it.
-/

namespace TcpState

/-- Numbers shifted by the same amount compare as before. -/
theorem SeqN.inRangeInclusive_shift (a x start stop : SeqN) :
    SeqN.inRangeInclusive (x + a) (start + a) (stop + a) = x.inRangeInclusive start stop := by
  rw [Bool.eq_iff_iff, SeqN.inRangeInclusive_iff, SeqN.inRangeInclusive_iff,
    Circular.span_add_right, Circular.span_add_right]

theorem SeqN.lt_shift (a x other : SeqN) : SeqN.lt (x + a) (other + a) = x.lt other := by
  rw [Bool.eq_iff_iff, SeqN.lt_iff, SeqN.lt_iff, Circular.span_add_right]

theorem SeqN.lte_shift (a x other : SeqN) : SeqN.lte (x + a) (other + a) = x.lte other := by
  rw [Bool.eq_iff_iff, SeqN.lte_iff, SeqN.lte_iff, Circular.span_add_right]

/-- A segment whose sender counts `a` further and whose receiver counts `b` further. -/
def SegmentMeta.shift (a b : BitVec 32) (seg : SegmentMeta) : SegmentMeta :=
  { seg with seqn := seg.seqn + a, ackn := seg.ackn + b }

def WaitUntil.shift (a : BitVec 32) (w : WaitUntil) : WaitUntil :=
  match w with
  | .acknowledged seqn => .acknowledged (seqn + a)
  | _ => w

def Events.shift (a : BitVec 32) (e : Events WaitUntil) : Events WaitUntil :=
  { e with suspended := e.suspended.map (Prod.map (WaitUntil.shift a) id) }

def TxBuffer.shift (a b : BitVec 32) (tx : TxBuffer) : TxBuffer :=
  { tx with
    reTx := tx.reTx.map (SegmentMeta.shift a b)
    unack := tx.unack + a
    next := tx.next + a
    initSeqn := tx.initSeqn + a
    lastSent := tx.lastSent.map fun p => (p.1 + a, p.2.1 + b, p.2.2) }

def RxBuffer.shift (b : BitVec 32) (rx : RxBuffer) : RxBuffer :=
  { rx with ackd := rx.ackd + b, initSeqn := rx.initSeqn + b }

def Callback.shift {Addr Time : Type} (a b : BitVec 32) (call : Callback Addr Time) :
    Callback Addr Time :=
  match call with
  | .send dst seg => .send dst (seg.shift a b)
  | _ => call

def UserData.shift {Addr Time : Type} (a b : BitVec 32) (u : UserData Addr Time) :
    UserData Addr Time :=
  { u with calls := u.calls.map (Callback.shift a b) }

namespace Connection

variable {Addr Time : Type}

/-- The connection with its own numbers shifted by `a` and the peer's by `b`, also in the
segments it has sent. -/
def shift (a b : BitVec 32) (c : Connection Addr Time) : Connection Addr Time :=
  { c with
    tx := c.tx.shift a b
    rx := c.rx.shift b
    events := c.events.shift a
    userData := c.userData.shift a b }

end Connection

/-- The operation as the shifted connection sees it: the peer is the sender of a segment. -/
def Op.shift {Time : Type} (a b : BitVec 32) (op : Op Time) : Op Time :=
  match op with
  | .onSegment seg => .onSegment (seg.shift b a)
  | _ => op

section Fields

variable {Addr Time : Type} (a b : BitVec 32)

@[simp] theorem SegmentMeta.shift_seqn (seg : SegmentMeta) :
    (seg.shift a b).seqn = seg.seqn + a := rfl

@[simp] theorem SegmentMeta.shift_ackn (seg : SegmentMeta) :
    (seg.shift a b).ackn = seg.ackn + b := rfl

@[simp] theorem SegmentMeta.shift_window (seg : SegmentMeta) :
    (seg.shift a b).window = seg.window := rfl

@[simp] theorem SegmentMeta.shift_flags (seg : SegmentMeta) :
    (seg.shift a b).flags = seg.flags := rfl

@[simp] theorem SegmentMeta.shift_data (seg : SegmentMeta) :
    (seg.shift a b).data = seg.data := rfl

@[simp] theorem SegmentMeta.shift_seqSize (seg : SegmentMeta) :
    (seg.shift a b).seqSize = seg.seqSize := rfl

@[simp] theorem SegmentMeta.shift_seqnAfter (seg : SegmentMeta) :
    (seg.shift a b).seqnAfter = seg.seqnAfter + a := add_right_comm _ _ _

@[simp] theorem RxBuffer.shift_buffer (rx : RxBuffer) : (rx.shift b).buffer = rx.buffer := rfl

@[simp] theorem RxBuffer.shift_ackd (rx : RxBuffer) : (rx.shift b).ackd = rx.ackd + b := rfl

@[simp] theorem RxBuffer.shift_window (rx : RxBuffer) : (rx.shift b).window = rx.window := rfl

@[simp] theorem RxBuffer.shift_currWindow (rx : RxBuffer) :
    (rx.shift b).currWindow = rx.currWindow := rfl

@[simp] theorem RxBuffer.shift_availableBytes (rx : RxBuffer) :
    (rx.shift b).availableBytes = rx.availableBytes := rfl

theorem RxBuffer.shift_inWindow (rx : RxBuffer) (seqn : SeqN) :
    (rx.shift b).inWindow (seqn + b) = rx.inWindow seqn := by
  unfold RxBuffer.inWindow
  rw [← SeqN.inRangeInclusive_shift b seqn]
  congr 1
  simp only [RxBuffer.shift_ackd, RxBuffer.shift_window]
  rw [add_right_comm, add_sub_right_comm]

theorem RxBuffer.shift_readBytes (rx : RxBuffer) (limit : Nat) :
    (rx.shift b).readBytes limit = (rx.readBytes limit).map (Prod.map (RxBuffer.shift b) id) := by
  unfold RxBuffer.readBytes
  refine Fallible.bind_transport_right fun _ => ?_
  refine Fallible.bind_transport_right fun p => ?_
  dsimp only
  split
  · exact Fallible.bind_transport_right fun _ => rfl
  · rfl

theorem RxBuffer.shift_write (rx : RxBuffer) (seg : SegmentMeta) :
    (rx.shift b).write (seg.shift b a) = (rx.write seg).map fun rx => rx.shift b := by
  unfold RxBuffer.write
  refine Fallible.bind_transport (fun rx => rx.shift b) ?_ fun rx => ?_
  · rw [show (rx.shift b).ackd + (seg.shift b a).seqSize = rx.ackd + seg.seqSize + b from
      add_right_comm _ _ _, SegmentMeta.shift_flags]
    split
    · exact Fallible.bind_transport_right fun _ => rfl
    · rfl
  · exact Fallible.bind_transport_right fun _ => rfl

@[simp] theorem TxBuffer.shift_tx (tx : TxBuffer) : (tx.shift a b).tx = tx.tx := rfl

@[simp] theorem TxBuffer.shift_reTx (tx : TxBuffer) :
    (tx.shift a b).reTx = tx.reTx.map (SegmentMeta.shift a b) := rfl

@[simp] theorem TxBuffer.shift_unack (tx : TxBuffer) :
    (tx.shift a b).unack = tx.unack + a := rfl

@[simp] theorem TxBuffer.shift_next (tx : TxBuffer) : (tx.shift a b).next = tx.next + a := rfl

@[simp] theorem TxBuffer.shift_window (tx : TxBuffer) : (tx.shift a b).window = tx.window := rfl

@[simp] theorem TxBuffer.shift_unackHasSpace (tx : TxBuffer) :
    (tx.shift a b).unackHasSpace = tx.unackHasSpace := by
  unfold TxBuffer.unackHasSpace
  rw [← SeqN.lt_shift a tx.next, TxBuffer.shift_next, TxBuffer.shift_unack, TxBuffer.shift_window,
    add_right_comm]

@[simp] theorem TxBuffer.shift_spaceAvailable (tx : TxBuffer) :
    (tx.shift a b).spaceAvailable = tx.spaceAvailable := by
  unfold TxBuffer.spaceAvailable
  rw [TxBuffer.shift_next, TxBuffer.shift_unack, TxBuffer.shift_window, add_right_comm,
    add_sub_add_right_eq_sub]

theorem TxBuffer.shift_isNonOrderedAck (tx : TxBuffer) (ackn : SeqN) :
    (tx.shift a b).isNonOrderedAck (ackn + a) = tx.isNonOrderedAck ackn := by
  unfold TxBuffer.isNonOrderedAck
  rw [TxBuffer.shift_next, TxBuffer.shift_unack, SeqN.inRangeInclusive_shift]
  congr 2
  exact propext (not_congr (add_left_inj a))

theorem TxBuffer.shift_onSend (tx : TxBuffer) (seg : SegmentMeta) :
    (tx.shift a b).onSend (seg.shift a b) = (tx.onSend seg).shift a b := by
  unfold TxBuffer.onSend
  rw [SegmentMeta.shift_seqSize]
  split
  · simp [TxBuffer.shift, add_right_comm]
  · simp [TxBuffer.shift, add_right_comm]

@[simp] theorem WaitUntil.shift_isAcknowledged (w : WaitUntil) :
    (w.shift a).isAcknowledged = w.isAcknowledged := by
  cases w <;> rfl

@[simp] theorem WaitUntil.shift_isRecv (w : WaitUntil) : (w.shift a).isRecv = w.isRecv := by
  cases w <;> rfl

theorem WaitUntil.shift_beq (w : WaitUntil) {v : WaitUntil} (hv : v.isAcknowledged = false) :
    (w.shift a == v) = (w == v) := by
  cases v with
  | acknowledged => cases hv
  | _ => cases w <;> rfl

/-- An acknowledgement resumes the same senders. -/
theorem WaitUntil.shift_acknowledgedUpTo (stop : SeqN) (w : WaitUntil) :
    (match w.shift a with
      | .acknowledged seqn => seqn.lte (stop + a)
      | _ => false) = match w with
      | .acknowledged seqn => seqn.lte stop
      | _ => false := by
  cases w with
  | acknowledged seqn => exact SeqN.lte_shift a seqn stop
  | _ => rfl

/-- Available data resumes the same readers. -/
theorem WaitUntil.shift_recvWithin (available : Nat) (w : WaitUntil) :
    (match w.shift a with
      | .recv count => decide (count.toNat ≤ available)
      | _ => false) = match w with
      | .recv count => decide (count.toNat ≤ available)
      | _ => false := by
  cases w <;> rfl

theorem Events.shift_newCookie (e : Events WaitUntil) :
    (e.shift a).newCookie = e.newCookie.map (Prod.map id (Events.shift a)) := by
  by_cases h : e.nextCookie + 1 < 2 ^ 64
  · rw [newCookie, newCookie, if_pos h]
    exact if_pos h
  · rw [newCookie, newCookie, if_neg h]
    exact if_neg h

theorem UserData.shift_event (u : UserData Addr Time) (cookie : Cookie)
    (r : Except Error Unit) :
    (u.shift a b).event cookie r = (u.event cookie r).shift a b := by
  simp [UserData.shift, UserData.event, Callback.shift]

theorem UserData.shift_send (u : UserData Addr Time) (dst : Addr) (seg : SegmentMeta) :
    (u.shift a b).send dst (seg.shift a b) = (u.send dst seg).shift a b := by
  simp [UserData.shift, UserData.send, Callback.shift]

end Fields

namespace Connection

open Fallible

variable {Addr Time : Type} (a b : BitVec 32) (c : Connection Addr Time)

@[simp] theorem shift_connectionState :
    (c.shift a b).connectionState = c.connectionState := rfl

@[simp] theorem shift_tx : (c.shift a b).tx = c.tx.shift a b := rfl

@[simp] theorem shift_rx : (c.shift a b).rx = c.rx.shift b := rfl

@[simp] theorem shift_timings : (c.shift a b).timings = c.timings := rfl

@[simp] theorem shift_timers : (c.shift a b).timers = c.timers := rfl

@[simp] theorem shift_options : (c.shift a b).options = c.options := rfl

@[simp] theorem shift_expBackoff : (c.shift a b).expBackoff = c.expBackoff := rfl

@[simp] theorem shift_dupAckCount : (c.shift a b).dupAckCount = c.dupAckCount := rfl

@[simp] theorem shift_congestionWindow :
    (c.shift a b).congestionWindow = c.congestionWindow := rfl

theorem shift_send (seg : SegmentMeta) :
    (c.shift a b).send (seg.shift a b) = (c.send seg).shift a b := by
  rw [send, send, shift]
  congr 1
  exact UserData.shift_send a b c.userData c.remote seg

/-- Waiters are resumed as before when the predicate selects the shifted ones as before. -/
theorem shift_triggerEvent {f g : WaitUntil → Bool} (h : ∀ w, g (w.shift a) = f w)
    (r : Except Error Unit) :
    (c.shift a b).triggerEvent g r = (c.triggerEvent f r).shift a b := by
  have hfilter (keep : Bool → Bool) :
      (c.events.shift a).suspended.filter (fun p => keep (g p.1)) =
        (c.events.suspended.filter fun p => keep (f p.1)).map fun p => (p.1.shift a, p.2) := by
    rw [Events.shift, List.filter_map]
    congr 1
    exact List.filter_congr fun p _ => congrArg keep (h p.1)
  have hresume (l : List (WaitUntil × Cookie)) (u : UserData Addr Time) :
      (l.map fun p => (p.1.shift a, p.2)).foldl (fun u p => u.event p.2 r) (u.shift a b) =
        (l.foldl (fun u p => u.event p.2 r) u).shift a b := by
    induction l generalizing u with
    | nil => rfl
    | cons p l ih =>
        rw [List.map_cons, List.foldl_cons, List.foldl_cons, UserData.shift_event]
        exact ih (u.event p.2 r)
  have hrest := hfilter not
  have hgone := hfilter id
  simp only [id_eq] at hgone
  rw [triggerEvent, triggerEvent, shift, shift]
  simp only [hrest, hgone, hresume]
  rfl

theorem shift_resumeSenders (stop : SeqN) (r : Except Error Unit) :
    (c.shift a b).triggerEvent (fun w => match w with
        | .acknowledged seqn => seqn.lte (stop + a)
        | _ => false) r =
      (c.triggerEvent (fun w => match w with
        | .acknowledged seqn => seqn.lte stop
        | _ => false) r).shift a b :=
  shift_triggerEvent a b c (WaitUntil.shift_acknowledgedUpTo a stop) r

theorem shift_triggerUnit {v : WaitUntil} (hv : v.isAcknowledged = false)
    (r : Except Error Unit) :
    (c.shift a b).triggerEvent (· == v) r = (c.triggerEvent (· == v) r).shift a b :=
  shift_triggerEvent a b c (fun w => w.shift_beq a hv) r

/-- A trigger that only some states fire. -/
theorem shift_triggerIf (p : Prop) [Decidable p] {v : WaitUntil}
    (hv : v.isAcknowledged = false) (r : Except Error Unit) :
    (if p then (c.shift a b).triggerEvent (· == v) r else c.shift a b) =
      (if p then c.triggerEvent (· == v) r else c).shift a b := by
  split
  · exact shift_triggerUnit a b c hv r
  · rfl

theorem shift_anySuspended {f g : WaitUntil → Bool} (h : ∀ w, g (w.shift a) = f w) :
    (c.shift a b).events.anySuspended g = c.events.anySuspended f := by
  rw [Events.anySuspended, Events.anySuspended, shift, Events.shift, List.any_map]
  exact congrArg (c.events.suspended.any) (funext fun p => h p.1)

theorem shift_continueAfter {α : Type} (w : WaitUntil) :
    ((c.shift a b).continueAfter (w.shift a) : Res (Connection Addr Time × Except Error α)) =
      (c.continueAfter w).map (Prod.map (shift a b) id) := by
  unfold continueAfter Events.returnContinueAfter
  refine Fallible.bind_transport (Prod.map (Events.shift a) id) ?_ fun _ => rfl
  refine Fallible.bind_transport (Prod.map id (Events.shift a))
    (Events.shift_newCookie a c.events) fun p => ?_
  simp [Events.shift, pure, Except.pure, Except.map]

theorem shift_retryAfter {α : Type} (w : WaitUntil) :
    ((c.shift a b).retryAfter (w.shift a) : Res (Connection Addr Time × Except Error α)) =
      (c.retryAfter w).map (Prod.map (shift a b) id) := by
  unfold retryAfter Events.returnRetryAfter
  refine Fallible.bind_transport (Prod.map (Events.shift a) id) ?_ fun _ => rfl
  refine Fallible.bind_transport (Prod.map id (Events.shift a))
    (Events.shift_newCookie a c.events) fun p => ?_
  simp [Events.shift, pure, Except.pure, Except.map]

section Timers

variable [UserTime Time]

theorem shift_setTimerReTx (d : Duration) :
    (c.shift a b).setTimerReTx d = (c.setTimerReTx d).shift a b := by
  simp [setTimerReTx, shift, UserData.now, UserData.shift, UserData.addTimeout, Callback.shift]

theorem shift_setTimerTimewait (d : Duration) :
    (c.shift a b).setTimerTimewait d = (c.setTimerTimewait d).shift a b := by
  simp [setTimerTimewait, shift, UserData.now, UserData.shift, UserData.addTimeout,
    Callback.shift]

end Timers

theorem shift_settle (state : ConnectionState) :
    (c.shift a b).settle state = (c.settle state).map (shift a b) := by
  unfold settle
  refine Fallible.bind_transport_right fun _ => Fallible.bind_transport_right fun clear => ?_
  have hentered : ({ c.shift a b with connectionState := state } : Connection Addr Time) =
      ({ c with connectionState := state } : Connection Addr Time).shift a b := rfl
  rw [hentered]
  have trigger {v : WaitUntil} (hv : v.isAcknowledged = false) (p : Prop) [Decidable p]
      (c : Connection Addr Time) := shift_triggerIf a b c p hv (.ok ())
  simp only [trigger (v := .txQueueEmpty) rfl]
  cases state with
  | established t r cc ca =>
      simp only [shift_triggerUnit a b _ (v := .established) rfl, trigger (v := .txClosed) rfl,
        trigger (v := .rxClosed) rfl, trigger (v := .bothClosed) rfl]
      rfl
  | _ => rfl

theorem shift_checkSegmentSeqOk (seg : SegmentMeta) :
    (c.shift a b).checkSegmentSeqOk (seg.shift b a) = c.checkSegmentSeqOk seg := by
  have hackd : decide ((seg.shift b a).seqn = (c.shift a b).rx.ackd) =
      decide (seg.seqn = c.rx.ackd) := decide_eq_decide.mpr (add_left_inj b)
  have hlast : (seg.shift b a).seqn + (seg.shift b a).seqSize - 1#32 =
      seg.seqn + seg.seqSize - 1#32 + b := by
    rw [SegmentMeta.shift_seqn, SegmentMeta.shift_seqSize, add_right_comm, add_sub_right_comm]
  unfold checkSegmentSeqOk
  simp only [hackd, hlast]
  simp only [shift_rx, RxBuffer.shift_currWindow, RxBuffer.shift_inWindow,
    SegmentMeta.shift_seqn, SegmentMeta.shift_seqSize]
  rfl

theorem shift_clearReTxRange (stop : SeqN) :
    (c.shift a b).clearReTxRange (stop + a) = (c.clearReTxRange stop).shift a b := by
  have hqueue : ((c.tx.shift a b).reTx.dropWhile fun head => head.seqnAfter.lte (stop + a)) =
      (c.tx.reTx.dropWhile fun head => head.seqnAfter.lte stop).map
        fun seg => seg.shift a b := by
    rw [TxBuffer.shift_reTx, List.dropWhile_map]
    congr 2
    funext seg
    exact (congrArg (SeqN.lte · _) (seg.shift_seqnAfter a b)).trans (SeqN.lte_shift a _ _)
  rw [clearReTxRange, clearReTxRange]
  rw [shift_triggerEvent a b c (WaitUntil.shift_acknowledgedUpTo a stop)]
  simp only [shift_tx, triggerEvent_tx, hqueue]
  rfl

theorem shift_takeOutput (limit : Nat) :
    (c.shift a b).takeOutput limit =
      (c.takeOutput limit).map (Prod.map (shift a b) id) := by
  unfold takeOutput
  split
  · rfl
  · refine Fallible.bind_transport_right fun p => ?_
    have hrecord : ({ c.shift a b with tx := { (c.shift a b).tx with tx := p.1 } } :
        Connection Addr Time) =
          ({ c with tx := { c.tx with tx := p.1 } } : Connection Addr Time).shift a b := rfl
    obtain ⟨q, txData, txFin⟩ := p
    simp only [hrecord, shift_anySuspended a b _ (fun w => w.shift_isAcknowledged a),
      shift_triggerIf a b _ _ (v := .txQueueEmpty) rfl]
    rfl

variable [UserTime Time]

theorem shift_setState {state : ConnectionState}
    (hopen : state ≠ .established .closed .closed true false) :
    (c.shift a b).setState state = (c.setState state).map (shift a b) := by
  unfold setState
  refine Fallible.bind_transport (shift a b) (shift_settle a b c state) fun c => ?_
  split
  · refine Fallible.bind_transport (shift a b) (shift_settle a b c _) fun c => ?_
    exact congrArg Except.ok
      (shift_setTimerTimewait a b { c with timers := .default } (maxSegmentLifetime * 2))
  · exact absurd rfl hopen
  · rename_i hactive hpassive
    rfl

theorem shift_takeFin (txFin : Bool) :
    (c.shift a b).takeFin txFin = (c.takeFin txFin).map (Prod.map (shift a b) id) := by
  unfold takeFin
  refine Fallible.bind_transport_right fun finSent => ?_
  split
  · refine Fallible.bind_transport_right fun cc => Fallible.bind_transport_right fun ca => ?_
    exact Fallible.bind_transport (shift a b)
      (shift_setState a b c (by simp)) fun _ => rfl
  · rfl

theorem shift_emit (seg : SegmentMeta) :
    (c.shift a b).emit (seg.shift a b) = (c.emit seg).shift a b := by
  have hskip : some ((seg.shift a b).seqn, (seg.shift a b).ackn, (seg.shift a b).window) =
      (c.shift a b).tx.lastSent ↔ some (seg.seqn, seg.ackn, seg.window) = c.tx.lastSent := by
    cases hlast : c.tx.lastSent with
    | none => simp [TxBuffer.shift, hlast]
    | some last => simp [TxBuffer.shift, hlast, Prod.ext_iff]
  have hsent : ({ c.shift a b with tx := (c.shift a b).tx.onSend (seg.shift a b) } :
      Connection Addr Time).send (seg.shift a b) =
        (({ c with tx := c.tx.onSend seg } : Connection Addr Time).send seg).shift a b := by
    rw [← shift_send, shift_tx, TxBuffer.shift_onSend]
    rfl
  unfold emit
  dsimp only
  by_cases hrepeat : seg.seqSize = 0#32 ∧ some (seg.seqn, seg.ackn, seg.window) = c.tx.lastSent
  · rw [if_pos hrepeat, if_pos ⟨hrepeat.1, hskip.mpr hrepeat.2⟩]
  · rw [if_neg hrepeat, if_neg fun h => hrepeat ⟨h.1, hskip.mp h.2⟩, hsent]
    by_cases hresend : (seg.flags.contains .fin || !seg.data.isEmpty) = true
    · rw [if_pos hresend]
      exact (if_pos hresend).trans (shift_setTimerReTx a b _ _)
    · rw [if_neg hresend]
      exact if_neg hresend

theorem shift_sendAck :
    (c.shift a b).sendAck = c.sendAck.map (shift a b) := by
  unfold sendAck
  rw [shift_tx, TxBuffer.shift_spaceAvailable]
  refine Fallible.bind_transport (Prod.map (shift a b) id)
    (shift_takeOutput a b c _) fun p => ?_
  obtain ⟨c, txData, txFin⟩ := p
  refine Fallible.bind_transport_right fun finSent => Fallible.bind_transport_right fun _ => ?_
  refine Fallible.bind_transport (Prod.map (shift a b) id)
    (shift_takeFin a b c txFin) fun p => ?_
  exact congrArg Except.ok (shift_emit a b p.1
    ⟨p.1.tx.next, p.1.rx.ackd, p.1.rx.currWindow, p.2, txData⟩)

/-- The timer runs on while segments are unacknowledged. -/
theorem shift_rearmed :
    (if (c.shift a b).tx.reTx.isEmpty then
        { c.shift a b with timers := { (c.shift a b).timers with reTx := none } }
      else (c.shift a b).setTimerReTx (c.shift a b).timings.rto) =
      shift a b (if c.tx.reTx.isEmpty then { c with timers := { c.timers with reTx := none } }
        else c.setTimerReTx c.timings.rto) := by
  cases hqueue : c.tx.reTx with
  | nil => simp [TxBuffer.shift, hqueue, shift]
  | cons seg reTx =>
      rw [shift_tx, TxBuffer.shift_reTx, hqueue]
      exact shift_setTimerReTx a b c _

theorem shift_onNewAck (seg : SegmentMeta) :
    (c.shift a b).onNewAck (seg.shift b a) = (c.onNewAck seg).map (shift a b) := by
  have hwindow (w : BitVec 16) :
      ({ c.shift a b with
          congestionWindow := w
          tx := { (c.shift a b).tx with window := minU16 (seg.shift b a).window w } } :
          Connection Addr Time) =
        shift a b { c with
          congestionWindow := w, tx := { c.tx with window := minU16 seg.window w } } := rfl
  have hrest (c : Connection Addr Time) :=
    (congrArg (fun c : Connection Addr Time => c.triggerEvent (fun w => match w with
        | .acknowledged seqn => seqn.lte (seg.ackn + a)
        | _ => false) (.ok ()))
      (shift_rearmed a b { c with tx := { c.tx with unack := seg.ackn }, expBackoff := 1 })).trans
        (shift_resumeSenders a b _ seg.ackn (.ok ()))
  unfold onNewAck
  refine bind_transport_right fun congestionWindow => congrArg Except.ok ?_
  simp only [hwindow]
  rw [shift_triggerEvent a b _ (WaitUntil.shift_recvWithin a _)]
  simp only [SegmentMeta.shift_ackn, shift_clearReTxRange]
  exact hrest ((triggerEvent
    { c with
      congestionWindow := congestionWindow
      tx := { c.tx with window := minU16 seg.window congestionWindow } }
    (fun w => match w with
      | .recv count => decide (count.toNat ≤ c.rx.availableBytes)
      | _ => false) (.ok ())).clearReTxRange seg.ackn)

end Connection

end TcpState
