import TcpState.Model.Calls

/-!
# Incoming segments

`onSegment` follows the source state by state. Its long branch for the
synchronized states is cut into the steps the source takes in order: the
acceptance test, RST, SYN, acknowledgement, storing, FIN.
-/

namespace TcpState

/-- Response to a packet when the socket is closed. RFC 793 page 64. The
length must fit the checked conversion to 32 bits. -/
def responseToClosed (seg : SegmentMeta) : Res (Option SegmentMeta) :=
  if seg.flags.contains .rst then return none
  else if seg.flags.contains .ack then
    if seg.data.length < 2 ^ 32 then
      return some { seqn := .zero, ackn := seg.seqn + BitVec.ofNat 32 seg.data.length,
                    window := 0#16, flags := .rst ||| .ack, data := [] }
    else .error .unwrap
  else return some { seqn := seg.ackn, ackn := .zero, window := 0#16,
                     flags := .rst, data := [] }

/-- Checked 16-bit addition. -/
def addU16 (a b : BitVec 16) : Res (BitVec 16) :=
  if a.toNat + b.toNat < 2 ^ 16 then .ok (a + b) else .error .overflow

def minU16 (a b : BitVec 16) : BitVec 16 := if a.toNat ≤ b.toNat then a else b

namespace Connection

variable {Addr Time : Type} [UserTime Time]

/-- The Listen branch: a SYN is answered by SYN-ACK. -/
def onSegmentListen (c : Connection Addr Time) (seg : SegmentMeta) :
    Res (Connection Addr Time) :=
  if seg.flags.contains .rst then return c
  else if seg.flags.contains .ack then
    return c.send { seqn := seg.ackn, ackn := .zero, window := 0#16, flags := .rst, data := [] }
  else if !seg.flags.contains .syn then return c
  else do
    let c := { c with rx := c.rx.init seg.seqn }
    let (seqn, userData) := c.userData.newSeqn
    let c := { c with userData := userData, tx := c.tx.init seqn }
    assert (seg.data = [])
    let c := { c with tx := { c.tx with window := seg.window } }
    let c ← c.setState .synReceived
    let reply : SegmentMeta :=
      { seqn := c.tx.initSeqn, ackn := c.rx.ackd, window := c.rx.currWindow,
        flags := .syn ||| .ack, data := [] }
    let c := c.setTimerReTx c.timings.rto
    let c := { c with tx := c.tx.onSend reply }
    return c.send reply

/-- The SynSent branch: a SYN-ACK for our SYN opens the connection. -/
def onSegmentSynSent (c : Connection Addr Time) (seg : SegmentMeta) :
    Res (Connection Addr Time) :=
  if seg.flags.contains .ack && !seg.ackn.inRangeInclusive c.tx.unack c.tx.next then
    return c.send { seqn := seg.ackn, ackn := .zero, window := c.rx.currWindow,
                    flags := .rst, data := [] }
  else if seg.flags.contains .rst then return c.reset
  else if seg.flags.contains (.syn ||| .ack) then
    let c := { c with rx := c.rx.init seg.seqn }
    let c := c.clearReTxRange seg.ackn
    let c := { c with tx := { c.tx with unack := seg.ackn, window := seg.window } }
    if c.tx.unack = c.tx.initSeqn + 1#32 then do
      let c ← c.setState .fullyOpen
      c.sendAck
    else return c
  else return c

/-- An accepted RST. -/
def onRst (c : Connection Addr Time) : Res (Connection Addr Time) :=
  match c.connectionState with
  | .synReceived => c.clear.setState .listen
  | .established _ _ _ _ =>
      (c.triggerEvent (fun _ => true) (.error .connectionReset)).clear.setState .reset
  | _ => .error .unreachable

/-- An accepted SYN is a peer error: reset the peer and flush all queues. -/
def onSyn (c : Connection Addr Time) : Res (Connection Addr Time) :=
  let c := c.triggerEvent (fun _ => true) (.error .connectionReset)
  let c := c.send (c.bareSegment .zero .rst)
  c.clear.setState .reset

/-- The window update subroutine for a new acknowledgement. -/
def nextCongestionWindow (c : Connection Addr Time) (seg : SegmentMeta) :
    Res (BitVec 16) :=
  if 0 < c.dupAckCount.toNat then return slowStartTreshold
  else if c.congestionWindow.toNat ≤ slowStartTreshold.toNat then
    addU16 c.congestionWindow c.congestionWindow
  else addU16 c.congestionWindow (BitVec.ofNat 16 seg.data.length)

/-- New valid ACK. Readers are resumed for the bytes that were available
before this segment is stored. -/
def onNewAck (c : Connection Addr Time) (seg : SegmentMeta) : Res (Connection Addr Time) := do
  let congestionWindow ← c.nextCongestionWindow seg
  let c := { c with congestionWindow := congestionWindow,
                    tx := { c.tx with window := minU16 seg.window congestionWindow } }
  let available := c.rx.availableBytes
  let c := c.triggerEvent
    (fun w => match w with
      | .recv count => decide (count.toNat ≤ available)
      | _ => false) (.ok ())
  let c := c.clearReTxRange seg.ackn
  let c := { c with tx := { c.tx with unack := seg.ackn }, expBackoff := 1 }
  let c := if c.tx.reTx.isEmpty then { c with timers := { c.timers with reTx := none } }
    else c.setTimerReTx c.timings.rto
  return c.triggerEvent
    (fun w => match w with
      | .acknowledged seqn => seqn.lte seg.ackn
      | _ => false) (.ok ())

/-- The ACK of our FIN closes the write side. -/
def onFinAcked (c : Connection Addr Time) (ackn : SeqN) : Res (Connection Addr Time) :=
  match c.connectionState with
  | .established .fin rxState closeCalled closeActive =>
      if ackn = c.tx.next then do
        debugAssert (c.tx.tx.isEmpty = true)
        debugAssert (c.tx.reTx = [])
        c.setState (.established .closed rxState closeCalled closeActive)
      else return c
  | _ => return c

/-- Store segment data when it is next in order. The second component is
false where the source returns from `on_segment`. -/
def storeData (c : Connection Addr Time) (seg : SegmentMeta) :
    Res (Connection Addr Time × Bool) :=
  if seg.seqn = c.rx.ackd then do
    let rx ← c.rx.write seg
    let c ← { c with rx := rx }.sendAck
    return (c, true)
  else if seg.seqn.lt c.rx.ackd then return (c.send (c.bareSegment c.rx.ackd .ack), false)
  else return (c, false)

/-- The ACK branch. The second component is false where the source returns
from `on_segment`. -/
def onAck (c : Connection Addr Time) (seg : SegmentMeta) :
    Res (Connection Addr Time × Bool) :=
  if seg.ackn.inRangeInclusive c.tx.unack c.tx.next then do
    let c ← (if c.connectionState = .synReceived then c.setState .fullyOpen else return c)
    let c ← (if c.tx.unack ≠ seg.ackn then c.onNewAck seg else return c)
    let c ← c.onFinAcked seg.ackn
    c.storeData seg
  else return (c, false)

/-- The FIN branch. Nothing is done once the connection has been cleared. -/
def onFin (c : Connection Addr Time) (isNonOrderedAck : Bool) : Res (Connection Addr Time) :=
  match c.connectionState with
  | .closed | .listen | .synSent => return c
  | .timeWait =>
      if isNonOrderedAck then
        let c := c.triggerEvent (fun _ => true) (.error .connectionClosing)
        let c := { c with timers := .default }
        return c.setTimerTimewait (maxSegmentLifetime * 2)
      else return c
  | .synReceived =>
      let c := c.triggerEvent WaitUntil.isRecv (.ok ())
      c.setState (.established .opened .fin false false)
  | .established txState _ closeCalled closeActive =>
      let c := c.triggerEvent WaitUntil.isRecv (.ok ())
      c.setState (.established txState .fin closeCalled closeActive)
  | .reset => return c.triggerEvent WaitUntil.isRecv (.ok ())

/-- The steps after the acceptance test, RST and SYN. -/
def onAccepted (c : Connection Addr Time) (seg : SegmentMeta) :
    Res (Connection Addr Time) := do
  let isNonOrderedAck := seg.flags.contains .ack && c.tx.isNonOrderedAck seg.ackn
  let (c, proceed) ← (if seg.flags.contains .ack then c.onAck seg else return (c, true))
  if proceed && seg.flags.contains .fin then c.onFin isNonOrderedAck else return c

/-- The branch for TimeWait, SynReceived and Established. -/
def onSegmentSynchronized (c : Connection Addr Time) (seg : SegmentMeta) :
    Res (Connection Addr Time) :=
  if !c.checkSegmentSeqOk seg then
    if !seg.flags.contains .rst then return c.send (c.bareSegment c.rx.ackd .ack)
    else return c
  else
    let c := { c with tx := { c.tx with window := minU16 seg.window c.congestionWindow } }
    if seg.flags.contains .rst then c.onRst
    else if seg.flags.contains .syn then c.onSyn
    else c.onAccepted seg

/-- Called on incoming segment. See RFC 793 page 64. -/
def onSegment (c : Connection Addr Time) (seg : SegmentMeta) : Res (Connection Addr Time) :=
  match c.connectionState with
  | .closed | .reset => do
      match ← responseToClosed seg with
      | some resp => return c.send resp
      | none => return c
  | .listen => c.onSegmentListen seg
  | .synSent => c.onSegmentSynSent seg
  | .timeWait | .synReceived | .established _ _ _ _ => c.onSegmentSynchronized seg

end Connection

end TcpState
