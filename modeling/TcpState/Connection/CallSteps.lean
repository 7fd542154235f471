import TcpState.Connection.SendAck
import TcpState.Model.Timers

/-!
# The steps of the calls and of the clock

Each call is inverted once, like the steps of `on_segment`: the branch of the
source it took, what it returned and the connection it left.
-/

namespace TcpState

namespace Connection

variable {Addr Time : Type}

/-- The connection with another output queue. -/
def withQueue (c : Connection Addr Time) (q : BlobQueue) : Connection Addr Time :=
  { c with tx := { c.tx with tx := q } }

@[simp] theorem withQueue_connectionState (c : Connection Addr Time) (q : BlobQueue) :
    (c.withQueue q).connectionState = c.connectionState := rfl

@[simp] theorem withQueue_rx (c : Connection Addr Time) (q : BlobQueue) :
    (c.withQueue q).rx = c.rx := rfl

variable [UserTime Time]

/-- The SYN of `call_connect`. -/
def synSegment (c : Connection Addr Time) : SegmentMeta where
  seqn := c.userData.newSeqn.1
  ackn := .zero
  window := c.rx.currWindow
  flags := .syn
  data := []

/-- The fields after the SYN of `call_connect` has been sent. -/
structure SynSent (c c' : Connection Addr Time) : Prop where
  state : c'.connectionState = .synSent
  rx : c'.rx = c.rx
  tx : c'.tx = (c.tx.init c.userData.newSeqn.1).onSend c.synSegment
  dupAckCount : c'.dupAckCount = c.dupAckCount
  congestionWindow : c'.congestionWindow = c.congestionWindow
  waiters : c'.dataWaiters = c.dataWaiters
  sent : c'.userData.sent = c.userData.sent ++ [c.synSegment]

/-- The branches of `call_connect`. -/
inductive ConnectStep (c : Connection Addr Time) :
    Connection Addr Time → Except Error Unit → Prop
  | refused (hs : c.connectionState ≠ .closed ∧ c.connectionState ≠ .reset) :
      ConnectStep c c (.error .invalidStateTransition)
  | connecting {c' : Connection Addr Time} {k : Cookie}
      (hs : c.connectionState = .closed ∨ c.connectionState = .reset) (hc : SynSent c c') :
      ConnectStep c c' (.error (.continueAfter k))

theorem connectStep_of_ok {c c' : Connection Addr Time} {r : Except Error Unit}
    (h : c.callConnect = .ok (c', r)) : ConnectStep c c' r := by
  unfold callConnect at h
  split at h
  case h_1 hs | h_2 hs =>
    simp only [Fallible.bind_ok_iff, setState_ok_iff, continueAfter_ok_iff] at h
    obtain ⟨c₁, ⟨-, -, hc₁⟩, -, rfl, rfl⟩ := h
    rw [stateSet_synSent] at hc₁
    have hplain : c₁ = { c with connectionState := .synSent } := hc₁
    subst hplain
    refine .connecting (by simp [hs]) ⟨rfl, rfl, rfl, rfl, rfl, ?_, ?_⟩
    · exact (dataWaiters_suspend _ _).trans (List.append_nil _)
    · simp [suspend]
      rfl
  case h_3 h₁ h₂ =>
    obtain ⟨rfl, rfl⟩ := Prod.mk.inj (Fallible.pure_ok_iff.mp h)
    exact .refused ⟨h₁, h₂⟩

/-- The output queue is sent at once: next is within the unack window, and
there is a full segment or no Nagle delay. -/
def SendsNow (c : Connection Addr Time) (q : BlobQueue) : Prop :=
  c.tx.unackHasSpace = true ∧ (maxSegmentSize ≤ q.availableBytes ∨
    0 < q.availableBytes ∧ c.options.nagleDelay = Duration.zero)

/-- The branches of `call_send`. -/
inductive SendStep (c : Connection Addr Time) (inputData : List UInt8) :
    Connection Addr Time → Except Error Unit → Prop
  | refused {e : Error} (he : ∀ k, e ≠ .continueAfter k) : SendStep c inputData c (.error e)
  | delayed {q : BlobQueue} {k : Cookie} (hs : c.connectionState.opening = true)
      (hq : c.tx.tx.writeBytes inputData = .ok q) :
      SendStep c inputData ((c.withQueue q).suspend
        (.acknowledged (c.tx.next + BitVec.ofNat 32 inputData.length)))
        (.error (.continueAfter k))
  | queued {q : BlobQueue} {r : ChannelState} {cc ca : Bool}
      (hs : c.connectionState = .established .opened r cc ca)
      (hq : c.tx.tx.writeBytes inputData = .ok q) : SendStep c inputData (c.withQueue q) (.ok ())
  | sent {q : BlobQueue} {r : ChannelState} {cc ca : Bool} {c' : Connection Addr Time}
      (hs : c.connectionState = .established .opened r cc ca)
      (hq : c.tx.tx.writeBytes inputData = .ok q) (hspace : c.SendsNow q)
      (hc : (c.withQueue q).sendAck = .ok c') : SendStep c inputData c' (.ok ())

theorem sendStep_of_ok {c c' : Connection Addr Time} {inputData : List UInt8}
    {r : Except Error Unit} (h : c.callSend inputData = .ok (c', r)) :
    inputData ≠ [] ∧ SendStep c inputData c' r := by
  simp only [callSend, assert, Fallible.bind_ok_iff, Fallible.ensure_eq_ok] at h
  obtain ⟨_, hdata, h⟩ := h
  refine ⟨hdata, ?_⟩
  split at h
  case h_1 | h_2 | h_3 | h_4 =>
    obtain ⟨rfl, rfl⟩ := Prod.mk.inj (Fallible.pure_ok_iff.mp h)
    exact .refused (by simp)
  case h_5 hs | h_6 hs =>
    simp only [Fallible.bind_ok_iff, continueAfter_ok_iff] at h
    obtain ⟨q, hq, -, rfl, rfl⟩ := h
    exact .delayed (by rw [hs]; rfl) hq
  case h_7 hs =>
    simp only [debugAssert, Fallible.bind_ok_iff, Fallible.ensure_eq_ok] at h
    obtain ⟨_, rfl, q, hq, h⟩ := h
    split at h
    · rename_i hspace
      simp only [Fallible.bind_ok_iff, Fallible.pure_ok_iff, Prod.mk.injEq] at h
      obtain ⟨_, hc, rfl, rfl⟩ := h
      exact .sent hs hq hspace hc
    · obtain ⟨rfl, rfl⟩ := Prod.mk.inj (Fallible.pure_ok_iff.mp h)
      exact .queued hs hq

/-- The branches of `call_recv`. -/
inductive RecvStep (c : Connection Addr Time) (bufferLen : Nat) :
    Connection Addr Time → Except Error (List UInt8) → Prop
  | refused {e : Error} : RecvStep c bufferLen c (.error e)
  | ended {t : ChannelState} {cc ca : Bool}
      (hs : c.connectionState = .established t .closed cc ca) : RecvStep c bufferLen c (.ok [])
  | early {k : Cookie} (hs : c.connectionState.synced = false) :
      RecvStep c bufferLen (c.suspend .established) (.error (.retryAfter k))
  | waiting {t : ChannelState} {cc ca : Bool} {k : Cookie}
      (hs : c.connectionState = .established t .opened cc ca)
      (hlen : c.rx.availableBytes < bufferLen) :
      RecvStep c bufferLen (c.suspend (.recv (BitVec.ofNat 32 bufferLen)))
        (.error (.retryAfter k))
  | read {t : ChannelState} {cc ca : Bool} {rx : RxBuffer} {data : List UInt8}
      (hs : c.connectionState = .established t .opened cc ca)
      (hlen : bufferLen ≤ c.rx.availableBytes)
      (hread : c.rx.readBytes bufferLen = .ok (rx, data)) :
      RecvStep c bufferLen { c with rx := rx } (.ok data)
  | full {t : ChannelState} {cc ca : Bool} {rx : RxBuffer} {data : List UInt8}
      (hs : c.connectionState = .established t .fin cc ca)
      (hread : c.rx.readBytes bufferLen = .ok (rx, data)) (hlen : bufferLen ≤ data.length) :
      RecvStep c bufferLen { c with rx := rx } (.ok data)
  | drained {t : ChannelState} {cc ca : Bool} {rx : RxBuffer} {data : List UInt8}
      (hs : c.connectionState = .established t .fin cc ca)
      (hread : c.rx.readBytes bufferLen = .ok (rx, data)) (hlen : data.length < bufferLen)
      (hv : c.connectionState.ValidTransition (.established t .closed cc ca)) :
      RecvStep c bufferLen ({ c with rx := rx }.stateSet (.established t .closed cc ca))
        (.ok data)

theorem recvStep_of_ok {c c' : Connection Addr Time} {bufferLen : Nat}
    {r : Except Error (List UInt8)} (h : c.callRecv bufferLen = .ok (c', r)) :
    RecvStep c bufferLen c' r := by
  unfold callRecv at h
  split at h
  case h_1 | h_2 | h_3 =>
    obtain ⟨rfl, rfl⟩ := Prod.mk.inj (Fallible.pure_ok_iff.mp h)
    exact .refused
  case h_4 hs | h_5 hs | h_6 hs =>
    obtain ⟨-, rfl, rfl⟩ := retryAfter_ok_iff.mp h
    exact .early (by rw [hs]; rfl)
  case h_7 t r cc ca hs =>
    split at h
    case h_1 =>
      obtain ⟨rfl, rfl⟩ := Prod.mk.inj (Fallible.pure_ok_iff.mp h)
      exact .ended hs
    case h_2 =>
      split at h
      · rename_i hlen
        simp only [Fallible.bind_ok_iff, Fallible.pure_ok_iff, Prod.mk.injEq, Prod.exists] at h
        obtain ⟨rx, data, hread, rfl, rfl⟩ := h
        exact .read hs hlen hread
      · rename_i hlen
        obtain ⟨-, rfl, rfl⟩ := retryAfter_ok_iff.mp h
        exact .waiting hs (Nat.lt_of_not_le hlen)
    case h_3 =>
      simp only [Fallible.bind_ok_iff, Prod.exists] at h
      obtain ⟨rx, data, hread, h⟩ := h
      split at h
      · rename_i hlen
        simp only [Fallible.bind_ok_iff, Fallible.pure_ok_iff, Prod.mk.injEq,
          setState_ok_iff] at h
        obtain ⟨_, ⟨hv, -, rfl⟩, rfl, rfl⟩ := h
        exact .drained hs hread hlen hv
      · rename_i hlen
        obtain ⟨rfl, rfl⟩ := Prod.mk.inj (Fallible.pure_ok_iff.mp h)
        exact .full hs hread (Nat.le_of_not_lt hlen)

/-- No call of `call_send` is suspended. -/
abbrev noSenders (c : Connection Addr Time) : Prop :=
  c.events.anySuspended WaitUntil.isAcknowledged = false

omit [UserTime Time] in
/-- What ends the output waits for no byte and for no suspended sender. -/
theorem queue_clear {c : Connection Addr Time}
    (h : ¬ (c.tx.tx.availableBytes ≠ 0 ∨ c.events.anySuspended WaitUntil.isAcknowledged)) :
    c.tx.tx.bytes = [] ∧ c.noSenders := by
  rw [not_or, not_not] at h
  refine ⟨?_, by simpa using h.2⟩
  rw [← List.length_eq_zero_iff, ← BlobQueue.availableBytes_eq]
  exact h.1

/-- The connection with its output queue marked. -/
abbrev marked (c : Connection Addr Time) : Connection Addr Time := c.withQueue c.tx.tx.markFin

/-- The branches of `call_shutdown`. -/
inductive ShutdownStep (c : Connection Addr Time) :
    Connection Addr Time → Except Error Unit → Prop
  | refused {e : Error} : ShutdownStep c c (.error e)
  | cleared {c₀ : Connection Addr Time}
      (hs : c.connectionState = .listen ∨ c.connectionState = .synSent)
      (hsent : c₀.userData.sent = c.userData.sent) : ShutdownStep c c₀.clear (.ok ())
  | delayed {e : Error} (hs : c.connectionState.wroteFin = false) :
      ShutdownStep c (c.suspend .txQueueEmpty) (.error e)
  | early {c₁ : Connection Addr Time} (hs : c.connectionState = .synReceived)
      (hw : c.noSenders) (hc : c.marked.sendAck = .ok c₁)
      (hv : c₁.connectionState.ValidTransition (.established .fin .opened false true)) :
      ShutdownStep c (c₁.entered (.established .fin .opened false true)) (.ok ())
  | active {cc ca : Bool} {c' : Connection Addr Time}
      (hs : c.connectionState = .established .opened .opened cc ca) (hcc : cc = false)
      (hempty : c.tx.tx.bytes = []) (hw : c.noSenders)
      (hc : (c.entered (.established .opened .opened cc true)).marked.sendAck = .ok c') :
      ShutdownStep c c' (.ok ())
  | passive {r : ChannelState} {cc ca : Bool} {c' : Connection Addr Time}
      (hs : c.connectionState = .established .opened r cc ca) (hr : r ≠ .opened)
      (hempty : c.tx.tx.bytes = []) (hw : c.noSenders) (hc : c.marked.sendAck = .ok c') :
      ShutdownStep c c' (.ok ())

theorem shutdownStep_of_ok {c c' : Connection Addr Time} {r : Except Error Unit}
    (h : c.callShutdown = .ok (c', r)) : ShutdownStep c c' r := by
  unfold callShutdown at h
  split at h
  case h_1 | h_2 | h_3 =>
    obtain ⟨rfl, rfl⟩ := Prod.mk.inj (Fallible.pure_ok_iff.mp h)
    exact .refused
  case h_4 hs | h_5 hs =>
    obtain ⟨rfl, rfl⟩ := Prod.mk.inj (Fallible.pure_ok_iff.mp h)
    exact .cleared (by simp [hs]) (triggerEvent_sent _ _ _)
  case h_6 hs =>
    split at h
    · obtain ⟨-, rfl, rfl⟩ := retryAfter_ok_iff.mp h
      exact .delayed (by rw [hs]; rfl)
    · rename_i hw
      simp only [Fallible.bind_ok_iff, Fallible.pure_ok_iff, Prod.mk.injEq,
        setState_ok_iff] at h
      obtain ⟨c₁, hsend, _, ⟨hv, -, rfl⟩, rfl, rfl⟩ := h
      exact .early hs (by simpa using hw) hsend hv
  case h_7 t r cc ca hs =>
    split at h
    case h_1 | h_2 =>
      obtain ⟨rfl, rfl⟩ := Prod.mk.inj (Fallible.pure_ok_iff.mp h)
      exact .refused
    case h_3 =>
      split at h
      · obtain ⟨-, rfl, rfl⟩ := retryAfter_ok_iff.mp h
        exact .delayed (by rw [hs]; rfl)
      · rename_i hbusy
        obtain ⟨hempty, hw⟩ := queue_clear hbusy
        simp only [Fallible.bind_ok_iff, Fallible.pure_ok_iff, Prod.mk.injEq] at h
        obtain ⟨c₀, h₀, c₁, hsend, rfl, rfl⟩ := h
        split at h₀
        · rename_i hr
          subst hr
          obtain ⟨hv, -, rfl⟩ := setState_ok_iff.mp h₀
          rw [hs] at hv
          refine .active hs ?_ hempty hw hsend
          cases cc with
          | false => rfl
          | true => exact absurd (hv.2.2.2.2 rfl) (by decide)
        · rename_i hr
          obtain rfl := Fallible.pure_ok_iff.mp h₀
          exact .passive hs hr hempty hw hsend

/-- The end of `call_close`: the close is recorded, and the call waits unless
both directions are closed. -/
def closing (c : Connection Addr Time) (closeActive : Bool) : Connection Addr Time :=
  let c' := c.stateSet (.established c.connectionState.tx c.connectionState.rx true closeActive)
  if c.connectionState.tx = .closed ∧ c.connectionState.rx = .closed then c'
  else c'.suspend .bothClosed

theorem finishClose_of_ok {c c' : Connection Addr Time} {closeActive : Bool}
    {r : Except Error Unit} (h : c.finishClose closeActive = .ok (c', r)) :
    c.connectionState.ValidTransition
        (.established c.connectionState.tx c.connectionState.rx true closeActive) ∧
      c' = c.closing closeActive := by
  simp only [finishClose, Fallible.bind_ok_iff, setState_ok_iff] at h
  obtain ⟨_, ⟨hv, -, rfl⟩, h⟩ := h
  refine ⟨hv, ?_⟩
  unfold closing
  split at h
  · rename_i hboth
    obtain ⟨rfl, -⟩ := Prod.mk.inj (Fallible.pure_ok_iff.mp h)
    rw [if_pos hboth]
  · rename_i hboth
    obtain ⟨-, rfl, -⟩ := continueAfter_ok_iff.mp h
    rw [if_neg hboth]

/-- The branches of `call_close`. -/
inductive CloseStep (c : Connection Addr Time) :
    Connection Addr Time → Except Error Unit → Prop
  | refused {e : Error} : CloseStep c c (.error e)
  | cleared {c₀ : Connection Addr Time}
      (hs : c.connectionState = .listen ∨ c.connectionState = .synSent)
      (hsent : c₀.userData.sent = c.userData.sent) : CloseStep c c₀.clear (.ok ())
  | delayed {e : Error} (hs : c.connectionState.wroteFin = false) :
      CloseStep c (c.suspend .txQueueEmpty) (.error e)
  | early {c₁ : Connection Addr Time} {e : Error} (hs : c.connectionState = .synReceived)
      (hempty : c.tx.tx.bytes = []) (hw : c.noSenders) (hc : c.marked.sendAck = .ok c₁)
      (hv : c₁.connectionState.ValidTransition (.established .fin .opened true true)) :
      CloseStep c ((c₁.entered (.established .fin .opened true true)).suspend .bothClosed)
        (.error e)
  | opened {rx : ChannelState} {cc ca : Bool} {c₁ : Connection Addr Time}
      {r : Except Error Unit} (hs : c.connectionState = .established .opened rx cc ca)
      (hempty : c.tx.tx.bytes = []) (hw : c.noSenders) (hc : c.marked.sendAck = .ok c₁)
      (hv : c₁.connectionState.ValidTransition (.established c₁.connectionState.tx
        c₁.connectionState.rx true (ca || decide (rx = .opened)))) :
      CloseStep c (c₁.closing (ca || decide (rx = .opened))) r
  | ended {tx rx : ChannelState} {cc ca : Bool} {r : Except Error Unit}
      (hs : c.connectionState = .established tx rx cc ca) (ht : tx ≠ .opened) :
      CloseStep c (c.closing (ca || decide (rx = .opened))) r

theorem closeStep_of_ok {c c' : Connection Addr Time} {r : Except Error Unit}
    (h : c.callClose = .ok (c', r)) : CloseStep c c' r := by
  unfold callClose at h
  split at h
  case h_1 | h_2 | h_3 =>
    obtain ⟨rfl, rfl⟩ := Prod.mk.inj (Fallible.pure_ok_iff.mp h)
    exact .refused
  case h_4 hs | h_5 hs =>
    obtain ⟨rfl, rfl⟩ := Prod.mk.inj (Fallible.pure_ok_iff.mp h)
    exact .cleared (by simp [hs]) (triggerEvent_sent _ _ _)
  case h_6 hs =>
    split at h
    · obtain ⟨-, rfl, rfl⟩ := retryAfter_ok_iff.mp h
      exact .delayed (by rw [hs]; rfl)
    · rename_i hbusy
      obtain ⟨hempty, hw⟩ := queue_clear hbusy
      simp only [Fallible.bind_ok_iff, setState_ok_iff, continueAfter_ok_iff] at h
      obtain ⟨c₁, hsend, _, ⟨hv, -, rfl⟩, -, rfl, rfl⟩ := h
      exact .early hs hempty hw hsend hv
  case h_7 tx rx cc ca hs =>
    dsimp only at h
    split at h
    case h_1 =>
      split at h
      · obtain ⟨-, rfl, rfl⟩ := retryAfter_ok_iff.mp h
        exact .delayed (by rw [hs]; rfl)
      · rename_i hbusy
        obtain ⟨hempty, hw⟩ := queue_clear hbusy
        simp only [Fallible.bind_ok_iff] at h
        obtain ⟨c₁, hsend, hfinish⟩ := h
        obtain ⟨hv, rfl⟩ := finishClose_of_ok hfinish
        exact .opened hs hempty hw hsend hv
    case h_2 | h_3 =>
      obtain ⟨-, rfl⟩ := finishClose_of_ok h
      exact .ended hs (by simp)

/-- The branches of `call_abort`. -/
inductive AbortStep (c : Connection Addr Time) :
    Connection Addr Time → Except Error Unit → Prop
  | refused {e : Error} : AbortStep c c (.error e)
  | cleared {c₀ : Connection Addr Time} (hsent : c₀.userData.sent = c.userData.sent) :
      AbortStep c c₀.clear (.ok ())
  | reset {c₀ : Connection Addr Time}
      (hsent : c₀.userData.sent = c.userData.sent ++ [c.bareSegment .zero .rst]) :
      AbortStep c c₀.clear (.ok ())

omit [UserTime Time] in
theorem abortStep_of_ok {c c' : Connection Addr Time} {r : Except Error Unit}
    (h : c.callAbort = .ok (c', r)) : AbortStep c c' r := by
  unfold callAbort at h
  split at h
  case h_1 | h_2 =>
    obtain ⟨rfl, rfl⟩ := Prod.mk.inj (Fallible.pure_ok_iff.mp h)
    exact .refused
  case h_3 | h_4 =>
    obtain ⟨rfl, rfl⟩ := Prod.mk.inj (Fallible.pure_ok_iff.mp h)
    exact .cleared (triggerEvent_sent _ _ _)
  case h_5 | h_6 =>
    obtain ⟨rfl, rfl⟩ := Prod.mk.inj (Fallible.pure_ok_iff.mp h)
    exact .reset (by rw [triggerEvent_sent, send_sent])
  case h_7 =>
    obtain ⟨rfl, rfl⟩ := Prod.mk.inj (Fallible.pure_ok_iff.mp h)
    exact .cleared rfl

/-- The wire after a tick: nothing new, or the oldest unacknowledged segment. -/
def Resends (c c' : Connection Addr Time) : Prop :=
  c'.userData.sent = c.userData.sent ∨
    ∃ seg rest, c.tx.reTx = seg :: rest ∧ c'.userData.sent = c.userData.sent ++ [seg]

/-- What a tick does: at most one segment is sent again, and either nothing
else changes or the connection is cleared. -/
inductive TickStep (c : Connection Addr Time) : Connection Addr Time → Prop
  | kept {c' : Connection Addr Time} (hstate : c'.connectionState = c.connectionState)
      (htx : c'.tx = c.tx) (hrx : c'.rx = c.rx) (hdup : c'.dupAckCount = c.dupAckCount)
      (hcw : c'.congestionWindow = c.congestionWindow)
      (hw : c'.dataWaiters = c.dataWaiters) (hsent : Resends c c') : TickStep c c'
  | cleared {c₀ : Connection Addr Time} (hsent : Resends c c₀) : TickStep c c₀.clear

theorem tickStep_onTimerReTx {c c' : Connection Addr Time} (h : c.onTimerReTx = .ok c') :
    TickStep c c' := by
  unfold onTimerReTx at h
  split at h
  case h_1 | h_2 | h_3 | h_4 =>
    split at h
    · obtain rfl := Fallible.pure_ok_iff.mp h
      exact .kept rfl rfl rfl rfl rfl rfl (.inl rfl)
    · rename_i seg rest hre
      simp only [Fallible.bind_ok_iff, Fallible.pure_ok_iff] at h
      obtain ⟨_, -, _, -, rfl⟩ := h
      refine .kept rfl rfl rfl rfl rfl (dataWaiters_congr rfl) (.inr ⟨seg, rest, hre, ?_⟩)
      simp
  case h_5 =>
    obtain rfl := Fallible.pure_ok_iff.mp h
    exact .kept rfl rfl rfl rfl rfl rfl (.inl rfl)
  case h_6 | h_7 => cases h

omit [UserTime Time] in
/-- A second timer in the same tick clears a connection or leaves it alone. -/
theorem TickStep.clear {c c₁ c₂ : Connection Addr Time} (h : TickStep c c₁)
    (hsent : c₂.userData.sent = c₁.userData.sent) : TickStep c c₂.clear := by
  refine .cleared ?_
  cases h with
  | kept _ _ _ _ _ _ h => exact h.imp (hsent.trans ·) fun ⟨s, l, hl, h⟩ => ⟨s, l, hl, hsent.trans h⟩
  | cleared h =>
      rw [clear_sent] at hsent
      exact h.imp (hsent.trans ·) fun ⟨s, l, hl, h⟩ => ⟨s, l, hl, hsent.trans h⟩

theorem tickStep_of_ok {c c' : Connection Addr Time} {time : Time}
    (h : c.onTimeTick time = .ok c') : TickStep c c' := by
  simp only [onTimeTick, Fallible.bind_ok_iff] at h
  obtain ⟨c₁, h₁, c₂, h₂, h⟩ := h
  have step₁ : TickStep c c₁ := by
    split at h₁
    · have := tickStep_onTimerReTx h₁
      cases this with
      | kept hstate htx hrx hdup hcw hw hsent =>
          exact .kept hstate htx hrx hdup hcw (hw.trans (dataWaiters_congr rfl)) hsent
      | cleared hsent => exact .cleared hsent
    · obtain rfl := Fallible.pure_ok_iff.mp h₁
      exact .kept rfl rfl rfl rfl rfl rfl (.inl rfl)
  have step₂ : TickStep c c₂ := by
    split at h₂
    · simp only [onTimerTimewait, Fallible.bind_ok_iff, Fallible.pure_ok_iff] at h₂
      obtain ⟨_, -, rfl⟩ := h₂
      exact step₁.clear rfl
    · obtain rfl := Fallible.pure_ok_iff.mp h₂
      exact step₁
  split at h
  · obtain rfl := Fallible.pure_ok_iff.mp h
    exact step₂.clear (triggerEvent_sent _ _ _)
  · obtain rfl := Fallible.pure_ok_iff.mp h
    exact step₂

end Connection

end TcpState
