import TcpState.Model.OnSegment

/-!
# Timer expiry
-/

namespace TcpState

namespace Connection

variable {Addr Time : Type} [UserTime Time]

/-- The checked doubling of the 64-bit back-off counter. -/
def doubleBackoff (expBackoff : Nat) : Res Nat :=
  if expBackoff * 2 < 2 ^ 64 then .ok (expBackoff * 2) else .error .overflow

/-- Send the oldest unacknowledged segment again. -/
def onTimerReTx (c : Connection Addr Time) : Res (Connection Addr Time) :=
  match c.connectionState with
  | .listen | .synSent | .synReceived | .established _ _ _ _ =>
      match c.tx.reTx with
      | [] => return c
      | seg :: _ => do
          let expBackoff ← doubleBackoff c.expBackoff
          let c := { c with expBackoff := expBackoff }
          let c := c.send seg
          let duration ← Duration.add c.timings.rto (Duration.fromSecs c.expBackoff)
          return c.setTimerReTx duration
  | .reset => return c
  | .timeWait | .closed => .error .unreachable

def onTimerTimewait (c : Connection Addr Time) : Res (Connection Addr Time) := do
  assert (c.connectionState = .timeWait)
  return c.clear

def onTimerUsertime (c : Connection Addr Time) : Connection Addr Time :=
  (c.triggerEvent (fun _ => true) (.error .timedOut)).clear

/-- A timer has fired when its deadline is not after `time`. -/
def expired (timer : Option Time) (time : Time) : Bool :=
  match timer with
  | some t => decide (t ≤ time)
  | none => false

/-- To be called whenever a timer expires, or simply periodically. -/
def onTimeTick (c : Connection Addr Time) (time : Time) : Res (Connection Addr Time) := do
  let c ← (if expired c.timers.reTx time then
      { c with timers := { c.timers with reTx := none } }.onTimerReTx
    else return c)
  let c ← (if expired c.timers.timewait time then
      { c with timers := { c.timers with timewait := none } }.onTimerTimewait
    else return c)
  if expired c.timers.usertime time then
    return { c with timers := { c.timers with usertime := none } }.onTimerUsertime
  else return c

end Connection

end TcpState
