import TcpState.Model.Event
import TcpState.Model.Rx
import TcpState.Model.State
import TcpState.Model.Tx

/-!
# Connection record, triggers and state changes

All state changes go through `setState`, which validates the transition,
resumes the waiters the new state releases and reduces a fully closed
connection to `TimeWait` or to a fresh record.
-/

namespace TcpState

structure Timings where
  /-- Retransmission timeout. -/
  rto : Duration
  /-- Smoothed round-trip time. -/
  srtt : Duration
  /-- RTT variation. -/
  rttVar : Duration
deriving DecidableEq, Repr

def Timings.default : Timings := ⟨Duration.second, Duration.zero, Duration.zero⟩

structure Timers (Time : Type) where
  reTx : Option Time
  timewait : Option Time
  usertime : Option Time
deriving DecidableEq, Repr

def Timers.default {Time : Type} : Timers Time := ⟨none, none, none⟩

structure Connection (Addr Time : Type) where
  remote : Addr
  connectionState : ConnectionState
  dupAckCount : BitVec 8
  congestionWindow : BitVec 16
  tx : TxBuffer
  rx : RxBuffer
  timings : Timings
  expBackoff : Nat
  timers : Timers Time
  events : Events WaitUntil
  options : SocketOptions
  userData : UserData Addr Time

namespace Connection

variable {Addr Time : Type}

/-- New socket in initial state. -/
def new (remote : Addr) (userData : UserData Addr Time) : Connection Addr Time where
  remote := remote
  connectionState := .closed
  dupAckCount := 0#8
  congestionWindow := initialWindowSize
  expBackoff := 1
  rx := .default
  tx := .default
  timings := .default
  timers := .default
  events := .new
  options := .default
  userData := userData

/-- `user_data.send` to the remote address. -/
def send (c : Connection Addr Time) (seg : SegmentMeta) : Connection Addr Time :=
  { c with userData := c.userData.send c.remote seg }

/-- Resume every waiter the predicate selects with the given result. The
source walks a hash set, so the order of the callbacks carries no meaning. -/
def triggerEvent (c : Connection Addr Time) (f : WaitUntil → Bool)
    (r : Except Error Unit) : Connection Addr Time :=
  { c with
    events := { c.events with suspended := c.events.suspended.filter fun p => !f p.1 }
    userData := (c.events.suspended.filter fun p => f p.1).foldl
      (fun u p => u.event p.2 r) c.userData }

/-- `events.return_retry_after` of this connection. -/
def retryAfter {α : Type} (c : Connection Addr Time) (w : WaitUntil) :
    Res (Connection Addr Time × Except Error α) := do
  let (events, r) ← c.events.returnRetryAfter w
  return ({ c with events := events }, r)

/-- `events.return_continue_after` of this connection. -/
def continueAfter {α : Type} (c : Connection Addr Time) (w : WaitUntil) :
    Res (Connection Addr Time × Except Error α) := do
  let (events, r) ← c.events.returnContinueAfter w
  return ({ c with events := events }, r)

section Timers

variable [UserTime Time]

def setTimerReTx (c : Connection Addr Time) (duration : Duration) : Connection Addr Time :=
  let (now, userData) := c.userData.now
  let deadline := UserTime.add now duration
  { c with timers := { c.timers with reTx := some deadline },
           userData := userData.addTimeout deadline }

def setTimerTimewait (c : Connection Addr Time) (duration : Duration) :
    Connection Addr Time :=
  let (now, userData) := c.userData.now
  let deadline := UserTime.add now duration
  { c with timers := { c.timers with timewait := some deadline },
           userData := userData.addTimeout deadline }

end Timers

/-- Back to the initial values; remote, options, user data and the cookie
counter stay. Every waiter is resumed with an error. -/
def clear (c : Connection Addr Time) : Connection Addr Time :=
  { c with
    connectionState := .closed
    dupAckCount := 0#8
    congestionWindow := initialWindowSize
    expBackoff := 1
    rx := .default
    tx := .default
    timings := .default
    timers := .default }.triggerEvent (fun _ => true) (.error .connectionClosing)

def reset (c : Connection Addr Time) : Connection Addr Time :=
  { c.clear with connectionState := .reset }

/-- The transition and triggers of `set_state`, before the state is reduced. -/
def settle (c : Connection Addr Time) (state : ConnectionState) :
    Res (Connection Addr Time) := do
  c.connectionState.debugValidateTransition state
  let c := { c with connectionState := state }
  let clear ← state.outputBufferGuaranteedClear
  let c := if clear then c.triggerEvent (· == .txQueueEmpty) (.ok ()) else c
  match state with
  | .established txState rxState _ _ =>
      let c := c.triggerEvent (· == .established) (.ok ())
      let c := if txState = .closed then c.triggerEvent (· == .txClosed) (.ok ()) else c
      let c := if rxState = .closed then c.triggerEvent (· == .rxClosed) (.ok ()) else c
      let c := if txState = .closed ∧ rxState = .closed then
        c.triggerEvent (· == .bothClosed) (.ok ()) else c
      return c
  | _ => return c

/-- The nested `set_state(TimeWait)` of the source is `settle`: `TimeWait`
itself does not reduce. -/
def setState [UserTime Time] (c : Connection Addr Time) (state : ConnectionState) :
    Res (Connection Addr Time) := do
  let c ← c.settle state
  match state with
  | .established .closed .closed true true => do
      let c ← c.settle .timeWait
      let c := { c with timers := .default }
      return c.setTimerTimewait (maxSegmentLifetime * 2)
  | .established .closed .closed true false => return c.clear
  | _ => return c

/-- RFC793, page 26 and 68. The zero-window case asks the advertised window,
the other cases the full one. -/
def checkSegmentSeqOk (c : Connection Addr Time) (seg : SegmentMeta) : Bool :=
  if c.rx.currWindow = 0#16 then
    decide (seg.seqSize = 0#32) && decide (seg.seqn = c.rx.ackd)
  else
    c.rx.inWindow seg.seqn &&
      (decide (seg.seqSize = 0#32) || c.rx.inWindow (seg.seqn + seg.seqSize - 1#32))

/-- Remove ACK'd segments from the retransmit queue: pop from the front while
the head ends at or before `stop`. -/
def clearReTxRange (c : Connection Addr Time) (stop : SeqN) : Connection Addr Time :=
  let c := c.triggerEvent
    (fun w => match w with
      | .acknowledged seqn => seqn.lte stop
      | _ => false) (.ok ())
  { c with tx := { c.tx with
    reTx := c.tx.reTx.dropWhile fun head => head.seqnAfter.lte stop } }

end Connection

end TcpState
