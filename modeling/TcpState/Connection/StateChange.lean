import TcpState.Model.Connection

/-!
# Effects of triggers, timers, clearing and state changes

Each primitive of a connection is described once by the fields it leaves
alone and the waiters it releases. A successful state change is a pure
function of the connection.
-/

namespace TcpState

namespace ConnectionState

/-- A FIN is on the wire, or counts as being there. -/
def wroteFin : ConnectionState → Bool
  | .established .fin _ _ _ | .established .closed _ _ _ | .timeWait => true
  | _ => false

/-- All received data has been read up to the peer's FIN. -/
def readClosed : ConnectionState → Bool
  | .established _ .closed _ _ | .timeWait => true
  | _ => false

/-- Nothing has been negotiated. -/
def idle : ConnectionState → Bool
  | .closed | .reset | .listen => true
  | _ => false

/-- The handshake is under way. -/
def opening : ConnectionState → Bool
  | .synSent | .synReceived => true
  | _ => false

/-- The handshake is over and the connection has not been cleared. -/
def synced : ConnectionState → Bool
  | .established _ _ _ _ | .timeWait => true
  | _ => false

def isEstablished : ConnectionState → Bool
  | .established _ _ _ _ => true
  | _ => false

/-- Readers may be suspended for data. -/
def readOpen : ConnectionState → Bool
  | .established _ .opened _ _ => true
  | _ => false

/-- The application has closed the connection but no FIN has been sent. -/
def closePending : ConnectionState → Bool
  | .established .opened _ true _ => true
  | _ => false

theorem isEstablished_iff {s : ConnectionState} :
    s.isEstablished = true ↔ ∃ t r cc ca, s = .established t r cc ca := by
  cases s <;> simp [isEstablished]

theorem finSent_ok_iff {s : ConnectionState} {b : Bool} :
    s.finSent = .ok b ↔ s ≠ .closed ∧ b = s.wroteFin := by
  unfold finSent wroteFin
  split <;> simp_all [pure, Except.pure, eq_comm]

theorem outputBufferGuaranteedClear_ok_iff {s : ConnectionState} {b : Bool} :
    s.outputBufferGuaranteedClear = .ok b ↔ s ≠ .closed ∧ b = s.readClosed := by
  unfold outputBufferGuaranteedClear readClosed
  split <;> simp_all [pure, Except.pure, eq_comm]

/-- The waiters `set_state` resumes on entering a state. -/
def releases : ConnectionState → WaitUntil → Bool
  | s, .txQueueEmpty => s.readClosed
  | .established _ _ _ _, .established => true
  | .established .closed _ _ _, .txClosed => true
  | .established _ .closed _ _, .rxClosed => true
  | .established .closed .closed _ _, .bothClosed => true
  | _, _ => false

theorem releases_recv (s : ConnectionState) (count : BitVec 32) :
    s.releases (.recv count) = false := by
  cases s <;> rfl

theorem releases_acknowledged (s : ConnectionState) (seqn : SeqN) :
    s.releases (.acknowledged seqn) = false := by
  cases s <;> rfl

/-- Cleared for good: only `call_connect` leaves these states. -/
def gone : ConnectionState → Bool
  | .closed | .reset => true
  | _ => false

theorem gone_of_idle {s : ConnectionState} (hidle : s.idle = true) (hlisten : s ≠ .listen) :
    s.gone = true := by
  cases s <;> first | rfl | exact absurd rfl hlisten | cases hidle

theorem idle_of_gone {s : ConnectionState} (h : s.gone = true) : s.idle = true := by
  cases s <;> first | rfl | cases h

theorem not_gone_of_not_idle {s : ConnectionState} (h : s.idle = false) : s.gone = false := by
  by_contra hgone
  rw [idle_of_gone (by simpa using hgone)] at h
  cases h

theorem not_idle_of_synced {s : ConnectionState} (h : s.synced = true) : s.idle = false := by
  cases s <;> first | rfl | cases h

theorem not_idle_of_opening {s : ConnectionState} (h : s.opening = true) :
    s.idle = false := by
  cases s <;> first | rfl | cases h

theorem synced_of_isEstablished {s : ConnectionState} (h : s.isEstablished = true) :
    s.synced = true := by
  cases s <;> first | rfl | cases h

theorem not_opening_of_synced {s : ConnectionState} (h : s.synced = true) :
    s.opening = false := by
  cases s <;> first | rfl | cases h

end ConnectionState

namespace Connection

variable {Addr Time : Type}

/-- A connection with a peer: in one of the synchronized states. -/
def Peered (c : Connection Addr Time) : Prop :=
  c.connectionState.synced = true ∨ c.connectionState = .synReceived

instance (c : Connection Addr Time) : Decidable c.Peered := by
  unfold Peered
  infer_instance

theorem Peered.not_idle {c : Connection Addr Time} (hs : c.Peered) :
    c.connectionState.idle = false := by
  rcases hs with hs | hs
  · exact ConnectionState.not_idle_of_synced hs
  · rw [hs]
    rfl

theorem not_peered_of_idle {c : Connection Addr Time} (hidle : c.connectionState.idle = true) :
    ¬ c.Peered :=
  fun hs => absurd (hs.not_idle.symm.trans hidle) Bool.false_ne_true

section Frame

variable (c : Connection Addr Time) (f : WaitUntil → Bool) (r : Except Error Unit)

@[simp] theorem triggerEvent_connectionState :
    (c.triggerEvent f r).connectionState = c.connectionState := rfl
@[simp] theorem triggerEvent_tx : (c.triggerEvent f r).tx = c.tx := rfl
@[simp] theorem triggerEvent_rx : (c.triggerEvent f r).rx = c.rx := rfl
@[simp] theorem triggerEvent_remote : (c.triggerEvent f r).remote = c.remote := rfl
@[simp] theorem triggerEvent_dupAckCount :
    (c.triggerEvent f r).dupAckCount = c.dupAckCount := rfl
@[simp] theorem triggerEvent_congestionWindow :
    (c.triggerEvent f r).congestionWindow = c.congestionWindow := rfl
@[simp] theorem triggerEvent_timers : (c.triggerEvent f r).timers = c.timers := rfl
@[simp] theorem triggerEvent_timings : (c.triggerEvent f r).timings = c.timings := rfl
@[simp] theorem triggerEvent_expBackoff :
    (c.triggerEvent f r).expBackoff = c.expBackoff := rfl
@[simp] theorem triggerEvent_options : (c.triggerEvent f r).options = c.options := rfl
@[simp] theorem triggerEvent_suspended : (c.triggerEvent f r).events.suspended =
    c.events.suspended.filter fun p => !f p.1 := rfl

/-- Resuming waiters sends nothing. -/
@[simp] theorem triggerEvent_sent : (c.triggerEvent f r).userData.sent = c.userData.sent := by
  simp only [triggerEvent]
  generalize c.events.suspended.filter (fun p => f p.1) = ws
  generalize c.userData = u
  induction ws generalizing u with
  | nil => rfl
  | cons w ws ih => rw [List.foldl_cons, ih, UserData.sent_event]

@[simp] theorem clear_connectionState : c.clear.connectionState = .closed := rfl
@[simp] theorem clear_tx : c.clear.tx = .default := rfl
@[simp] theorem clear_rx : c.clear.rx = .default := rfl
@[simp] theorem clear_remote : c.clear.remote = c.remote := rfl
@[simp] theorem clear_dupAckCount : c.clear.dupAckCount = 0#8 := rfl
@[simp] theorem clear_congestionWindow : c.clear.congestionWindow = initialWindowSize := rfl
@[simp] theorem clear_timers : c.clear.timers = .default := rfl
@[simp] theorem clear_suspended : c.clear.events.suspended = [] := by
  simp [clear]
@[simp] theorem clear_sent : c.clear.userData.sent = c.userData.sent := by
  rw [clear, triggerEvent_sent]

@[simp] theorem send_sent (seg : SegmentMeta) :
    (c.send seg).userData.sent = c.userData.sent ++ [seg] := by
  simp [send]
@[simp] theorem send_connectionState (seg : SegmentMeta) :
    (c.send seg).connectionState = c.connectionState := rfl
@[simp] theorem send_tx (seg : SegmentMeta) : (c.send seg).tx = c.tx := rfl
@[simp] theorem send_rx (seg : SegmentMeta) : (c.send seg).rx = c.rx := rfl
@[simp] theorem send_dupAckCount (seg : SegmentMeta) :
    (c.send seg).dupAckCount = c.dupAckCount := rfl
@[simp] theorem send_congestionWindow (seg : SegmentMeta) :
    (c.send seg).congestionWindow = c.congestionWindow := rfl
@[simp] theorem send_events (seg : SegmentMeta) : (c.send seg).events = c.events := rfl
@[simp] theorem send_timers (seg : SegmentMeta) : (c.send seg).timers = c.timers := rfl

variable [UserTime Time] (d : Duration)

@[simp] theorem setTimerReTx_connectionState :
    (c.setTimerReTx d).connectionState = c.connectionState := rfl
@[simp] theorem setTimerReTx_tx : (c.setTimerReTx d).tx = c.tx := rfl
@[simp] theorem setTimerReTx_rx : (c.setTimerReTx d).rx = c.rx := rfl
@[simp] theorem setTimerReTx_dupAckCount :
    (c.setTimerReTx d).dupAckCount = c.dupAckCount := rfl
@[simp] theorem setTimerReTx_congestionWindow :
    (c.setTimerReTx d).congestionWindow = c.congestionWindow := rfl
@[simp] theorem setTimerReTx_events : (c.setTimerReTx d).events = c.events := rfl
@[simp] theorem setTimerReTx_sent : (c.setTimerReTx d).userData.sent = c.userData.sent := by
  simp [setTimerReTx]

@[simp] theorem setTimerTimewait_connectionState :
    (c.setTimerTimewait d).connectionState = c.connectionState := rfl
@[simp] theorem setTimerTimewait_tx : (c.setTimerTimewait d).tx = c.tx := rfl
@[simp] theorem setTimerTimewait_rx : (c.setTimerTimewait d).rx = c.rx := rfl
@[simp] theorem setTimerTimewait_dupAckCount :
    (c.setTimerTimewait d).dupAckCount = c.dupAckCount := rfl
@[simp] theorem setTimerTimewait_congestionWindow :
    (c.setTimerTimewait d).congestionWindow = c.congestionWindow := rfl
@[simp] theorem setTimerTimewait_events : (c.setTimerTimewait d).events = c.events := rfl
@[simp] theorem setTimerTimewait_sent :
    (c.setTimerTimewait d).userData.sent = c.userData.sent := by
  simp [setTimerTimewait]

end Frame

/-- The record after the transition and triggers of `set_state`. -/
def entered (c : Connection Addr Time) (state : ConnectionState) : Connection Addr Time :=
  let c := { c with connectionState := state }
  let c := if state.readClosed then c.triggerEvent (· == .txQueueEmpty) (.ok ()) else c
  match state with
  | .established txState rxState _ _ =>
      let c := c.triggerEvent (· == .established) (.ok ())
      let c := if txState = .closed then c.triggerEvent (· == .txClosed) (.ok ()) else c
      let c := if rxState = .closed then c.triggerEvent (· == .rxClosed) (.ok ()) else c
      if txState = .closed ∧ rxState = .closed then
        c.triggerEvent (· == .bothClosed) (.ok ()) else c
  | _ => c

theorem settle_ok_iff {c c' : Connection Addr Time} {state : ConnectionState} :
    c.settle state = .ok c' ↔ c.connectionState.ValidTransition state ∧ state ≠ .closed ∧
      c' = c.entered state := by
  simp only [settle, Fallible.bind_ok_iff, ConnectionState.debugValidateTransition_ok_iff,
    ConnectionState.outputBufferGuaranteedClear_ok_iff]
  constructor
  · rintro ⟨_, hv, b, ⟨hne, rfl⟩, hrest⟩
    refine ⟨hv, hne, ?_⟩
    cases state <;> exact (Fallible.pure_ok_iff.mp hrest).symm
  · rintro ⟨hv, hne, rfl⟩
    refine ⟨(), hv, _, ⟨hne, rfl⟩, ?_⟩
    cases state <;> rfl

section Entered

variable (c : Connection Addr Time) (state : ConnectionState)

@[simp] theorem entered_connectionState : (c.entered state).connectionState = state := by
  cases state <;> simp only [entered] <;> repeat' split
  all_goals rfl

@[simp] theorem entered_tx : (c.entered state).tx = c.tx := by
  cases state <;> simp only [entered] <;> repeat' split
  all_goals rfl

@[simp] theorem entered_rx : (c.entered state).rx = c.rx := by
  cases state <;> simp only [entered] <;> repeat' split
  all_goals rfl

@[simp] theorem entered_dupAckCount : (c.entered state).dupAckCount = c.dupAckCount := by
  cases state <;> simp only [entered] <;> repeat' split
  all_goals rfl

@[simp] theorem entered_congestionWindow :
    (c.entered state).congestionWindow = c.congestionWindow := by
  cases state <;> simp only [entered] <;> repeat' split
  all_goals rfl

@[simp] theorem entered_timers : (c.entered state).timers = c.timers := by
  cases state <;> simp only [entered] <;> repeat' split
  all_goals rfl

@[simp] theorem entered_sent : (c.entered state).userData.sent = c.userData.sent := by
  cases state <;> simp only [entered] <;> repeat' split
  all_goals simp

/-- Exactly the released waiters leave the suspended set. -/
@[simp] theorem entered_suspended : (c.entered state).events.suspended =
    c.events.suspended.filter fun p => !state.releases p.1 := by
  have key (t r : ChannelState) (cc ca : Bool) (w : WaitUntil) :
      (ConnectionState.established t r cc ca).releases w =
        (((decide (r = .closed) && (w == .txQueueEmpty)) || (w == .established)) ||
          (decide (t = .closed) && (w == .txClosed)) ||
          (decide (r = .closed) && (w == .rxClosed)) ||
          (decide (t = .closed ∧ r = .closed) && (w == .bothClosed))) := by
    cases w <;> cases t <;> cases r <;> rfl
  cases state with
  | established t r cc ca =>
      cases t <;> cases r <;>
        simp [entered, ConnectionState.readClosed, key, List.filter_filter, Bool.and_comm,
          Bool.and_left_comm]
  | timeWait =>
      simp only [entered, ConnectionState.readClosed, if_true, triggerEvent_suspended]
      congr 1
      funext p
      cases p.1 <;> rfl
  | _ =>
      simp only [entered, ConnectionState.readClosed, Bool.false_eq_true, if_false]
      refine (List.filter_eq_self.mpr fun p _ => ?_).symm
      cases p.1 <;> rfl

end Entered

section SetState

variable [UserTime Time]

/-- The record after a successful `set_state`, with the state reduced. -/
def stateSet (c : Connection Addr Time) (state : ConnectionState) : Connection Addr Time :=
  match state with
  | .established .closed .closed true true =>
      { (c.entered state).entered .timeWait with timers := .default }.setTimerTimewait
        (maxSegmentLifetime * 2)
  | .established .closed .closed true false => (c.entered state).clear
  | _ => c.entered state

theorem stateSet_of_not_reduced (c : Connection Addr Time) {state : ConnectionState}
    (ht : state ≠ .established .closed .closed true true)
    (hc : state ≠ .established .closed .closed true false) :
    c.stateSet state = c.entered state := by
  unfold stateSet
  split
  · exact absurd rfl ht
  · exact absurd rfl hc
  · rfl

theorem setState_ok_iff {c c' : Connection Addr Time} {state : ConnectionState} :
    c.setState state = .ok c' ↔ c.connectionState.ValidTransition state ∧ state ≠ .closed ∧
      c' = c.stateSet state := by
  have valid (s : ConnectionState) : s.ValidTransition .timeWait := by
    cases s <;> trivial
  simp only [setState, Fallible.bind_ok_iff, settle_ok_iff]
  constructor
  · rintro ⟨_, ⟨hv, hne, rfl⟩, h⟩
    refine ⟨hv, hne, ?_⟩
    split at h
    · simp only [Fallible.bind_ok_iff, settle_ok_iff] at h
      obtain ⟨_, ⟨-, -, rfl⟩, h⟩ := h
      exact (Fallible.pure_ok_iff.mp h).symm
    · exact (Fallible.pure_ok_iff.mp h).symm
    · rename_i ht hc
      rw [stateSet_of_not_reduced c ht hc]
      exact (Fallible.pure_ok_iff.mp h).symm
  · rintro ⟨hv, hne, rfl⟩
    refine ⟨_, ⟨hv, hne, rfl⟩, ?_⟩
    split
    · simp only [Fallible.bind_ok_iff, settle_ok_iff]
      exact ⟨_, ⟨valid _, by simp, rfl⟩, rfl⟩
    · rfl
    · rename_i ht hc
      rw [stateSet_of_not_reduced c ht hc]
      rfl

theorem setState_eq_ok {c : Connection Addr Time} {state : ConnectionState}
    (hv : c.connectionState.ValidTransition state) (hne : state ≠ .closed) :
    c.setState state = .ok (c.stateSet state) :=
  setState_ok_iff.mpr ⟨hv, hne, rfl⟩

/-- A state that is not fully closed is entered without reduction. -/
theorem stateSet_eq_entered (c : Connection Addr Time) {t r : ChannelState} {cc ca : Bool}
    (h : t ≠ .closed ∨ r ≠ .closed ∨ cc = false) :
    c.stateSet (.established t r cc ca) = c.entered (.established t r cc ca) := by
  apply stateSet_of_not_reduced <;> rintro ⟨⟩ <;> simp at h

@[simp] theorem stateSet_fullyOpen (c : Connection Addr Time) :
    c.stateSet .fullyOpen = c.entered .fullyOpen := rfl
@[simp] theorem stateSet_listen (c : Connection Addr Time) :
    c.stateSet .listen = c.entered .listen := rfl
@[simp] theorem stateSet_reset (c : Connection Addr Time) :
    c.stateSet .reset = c.entered .reset := rfl
@[simp] theorem stateSet_synSent (c : Connection Addr Time) :
    c.stateSet .synSent = c.entered .synSent := rfl
@[simp] theorem stateSet_synReceived (c : Connection Addr Time) :
    c.stateSet .synReceived = c.entered .synReceived := rfl

end SetState

section ClearReTxRange

variable (c : Connection Addr Time) (stop : SeqN)

@[simp] theorem clearReTxRange_connectionState :
    (c.clearReTxRange stop).connectionState = c.connectionState := rfl
@[simp] theorem clearReTxRange_rx : (c.clearReTxRange stop).rx = c.rx := rfl
@[simp] theorem clearReTxRange_dupAckCount :
    (c.clearReTxRange stop).dupAckCount = c.dupAckCount := rfl
@[simp] theorem clearReTxRange_congestionWindow :
    (c.clearReTxRange stop).congestionWindow = c.congestionWindow := rfl
@[simp] theorem clearReTxRange_tx : (c.clearReTxRange stop).tx =
    { c.tx with reTx := c.tx.reTx.dropWhile fun head => head.seqnAfter.lte stop } := rfl
@[simp] theorem clearReTxRange_sent :
    (c.clearReTxRange stop).userData.sent = c.userData.sent := by
  simp [clearReTxRange]

end ClearReTxRange

section Suspend

variable {α : Type} {c c' : Connection Addr Time} {w : WaitUntil} {r : Except Error α}

/-- Suspending a call changes nothing but the events: one waiter with the
fresh cookie is added. -/
def suspend (c : Connection Addr Time) (w : WaitUntil) : Connection Addr Time :=
  { c with events := ⟨c.events.suspended ++ [(w, c.events.nextCookie)],
    c.events.nextCookie + 1⟩ }

theorem retryAfter_ok_iff : c.retryAfter w = .ok (c', r) ↔
    c.events.nextCookie + 1 < 2 ^ 64 ∧ c' = c.suspend w ∧
      r = .error (.retryAfter c.events.nextCookie) := by
  simp only [retryAfter, Fallible.bind_ok_iff, Fallible.pure_ok_iff, Prod.exists,
    Events.returnRetryAfter_ok_iff, Prod.mk.injEq]
  constructor
  · rintro ⟨e, r', ⟨hc, rfl, rfl⟩, rfl, rfl⟩
    exact ⟨hc, rfl, rfl⟩
  · rintro ⟨hc, rfl, rfl⟩
    exact ⟨_, _, ⟨hc, rfl, rfl⟩, rfl, rfl⟩

theorem continueAfter_ok_iff : c.continueAfter w = .ok (c', r) ↔
    c.events.nextCookie + 1 < 2 ^ 64 ∧ c' = c.suspend w ∧
      r = .error (.continueAfter c.events.nextCookie) := by
  simp only [continueAfter, Fallible.bind_ok_iff, Fallible.pure_ok_iff, Prod.exists,
    Events.returnContinueAfter_ok_iff, Prod.mk.injEq]
  constructor
  · rintro ⟨e, r', ⟨hc, rfl, rfl⟩, rfl, rfl⟩
    exact ⟨hc, rfl, rfl⟩
  · rintro ⟨hc, rfl, rfl⟩
    exact ⟨_, _, ⟨hc, rfl, rfl⟩, rfl, rfl⟩

end Suspend

end Connection

end TcpState
