import TcpState.Model.Connection

/-!
# Sending and the calls of the application

`sendAck` is the only place that puts new data or a FIN on the wire. Every
call returns the Rust result together with the new connection.
-/

namespace TcpState

namespace Connection

variable {Addr Time : Type}

/-- A segment without data built from the current numbers. -/
def bareSegment (c : Connection Addr Time) (ackn : SeqN) (flags : SegmentFlags) :
    SegmentMeta where
  seqn := c.tx.next
  ackn := ackn
  window := c.rx.currWindow
  flags := flags
  data := []

/-- The first step of `send_ack`: read up to `limit` bytes from the output
buffer. An empty read without suspended senders releases `TxQueueEmpty`. -/
def takeOutput (c : Connection Addr Time) (limit : Nat) :
    Res (Connection Addr Time × List UInt8 × Bool) :=
  if limit = 0 then return (c, [], false)
  else do
    let (tx, txData, txFin) ← c.tx.tx.readBytes limit
    let c := { c with tx := { c.tx with tx := tx } }
    let c := if txData.isEmpty && !c.events.anySuspended WaitUntil.isAcknowledged then
      c.triggerEvent (· == .txQueueEmpty) (.ok ()) else c
    return (c, txData, txFin)

variable [UserTime Time]

/-- The second step of `send_ack`: a FIN that has not been sent moves the
write side to `Fin`. -/
def takeFin (c : Connection Addr Time) (txFin : Bool) :
    Res (Connection Addr Time × SegmentFlags) := do
  let finSent ← c.connectionState.finSent
  if txFin && !finSent then do
    let closeCalled ← c.connectionState.closeCalled
    let closeActive ← c.connectionState.closeActive
    let c ← c.setState (.established .fin c.connectionState.rx closeCalled closeActive)
    return (c, .fin ||| .ack)
  else return (c, .ack)

/-- The last step of `send_ack`: the segment is sent unless it repeats the
last empty one. Data and FIN arm the retransmission timer. -/
def emit (c : Connection Addr Time) (seg : SegmentMeta) : Connection Addr Time :=
  let needsResend := seg.flags.contains .fin || !seg.data.isEmpty
  if seg.seqSize = 0#32 ∧ some (seg.seqn, seg.ackn, seg.window) = c.tx.lastSent then c
  else
    let c := { c with tx := c.tx.onSend seg }
    let c := c.send seg
    if needsResend then c.setTimerReTx c.timings.rto else c

/-- Sends an ack packet, including any data from buffer if possible. -/
def sendAck (c : Connection Addr Time) : Res (Connection Addr Time) := do
  let limit := min maxSegmentSize c.tx.spaceAvailable.toNat
  let (c, txData, txFin) ← c.takeOutput limit
  let finSent ← c.connectionState.finSent
  debugAssert (finSent = true → txData = [])
  let (c, flags) ← c.takeFin txFin
  return c.emit { seqn := c.tx.next, ackn := c.rx.ackd, window := c.rx.currWindow,
                  flags := flags, data := txData }

/-- Establish a connection. -/
def callConnect (c : Connection Addr Time) :
    Res (Connection Addr Time × Except Error Unit) :=
  match c.connectionState with
  | .closed | .reset => do
      let c ← c.setState .synSent
      let (seqn, userData) := c.userData.newSeqn
      let c := { c with userData := userData, tx := c.tx.init seqn }
      let seg : SegmentMeta :=
        { seqn := c.tx.initSeqn, ackn := .zero, window := c.rx.currWindow,
          flags := .syn, data := [] }
      let c := c.send seg
      let c := { c with tx := c.tx.onSend seg }
      let c := c.setTimerReTx c.timings.rto
      c.continueAfter .established
  | _ => return (c, .error .invalidStateTransition)

/-- Send some data. RFC 793 page 55. -/
def callSend (c : Connection Addr Time) (inputData : List UInt8) :
    Res (Connection Addr Time × Except Error Unit) := do
  assert (inputData ≠ [])
  match c.connectionState with
  | .reset => return (c, .error .connectionReset)
  | .closed | .listen => return (c, .error .notConnected)
  | .timeWait => return (c, .error .connectionClosing)
  | .synSent | .synReceived => do
      let len := BitVec.ofNat 32 inputData.length
      let tx ← c.tx.tx.writeBytes inputData
      let c := { c with tx := { c.tx with tx := tx } }
      c.continueAfter (.acknowledged (c.tx.next + len))
  | .established txState _ _ _ => do
      debugAssert (txState = .opened)
      let tx ← c.tx.tx.writeBytes inputData
      let c := { c with tx := { c.tx with tx := tx } }
      let avail := c.tx.tx.availableBytes
      if c.tx.unackHasSpace ∧
          (maxSegmentSize ≤ avail ∨ 0 < avail ∧ c.options.nagleDelay = Duration.zero) then do
        let c ← c.sendAck
        return (c, .ok ())
      else return (c, .ok ())

/-- Receive some data, if any available. The bytes put into the caller's
buffer of the given length are returned. -/
def callRecv (c : Connection Addr Time) (bufferLen : Nat) :
    Res (Connection Addr Time × Except Error (List UInt8)) :=
  match c.connectionState with
  | .reset => return (c, .error .connectionReset)
  | .closed => return (c, .error .notConnected)
  | .timeWait => return (c, .error .connectionClosing)
  | .listen | .synSent | .synReceived => c.retryAfter .established
  | .established txState rxState closeCalled closeActive =>
      match rxState with
      | .closed => return (c, .ok [])
      | .opened =>
          if bufferLen ≤ c.rx.availableBytes then do
            let (rx, data) ← c.rx.readBytes bufferLen
            return ({ c with rx := rx }, .ok data)
          else c.retryAfter (.recv (BitVec.ofNat 32 bufferLen))
      | .fin => do
          let (rx, data) ← c.rx.readBytes bufferLen
          let c := { c with rx := rx }
          if data.length < bufferLen then do
            let c ← c.setState (.established txState .closed closeCalled closeActive)
            return (c, .ok data)
          else return (c, .ok data)

/-- Closes the send channel, sending a FIN packet after the current data buffer. -/
def callShutdown (c : Connection Addr Time) :
    Res (Connection Addr Time × Except Error Unit) :=
  match c.connectionState with
  | .reset => return (c, .error .connectionReset)
  | .closed => return (c, .error .notConnected)
  | .timeWait => return (c, .error .connectionClosing)
  | .listen | .synSent =>
      let c := c.triggerEvent (fun _ => true) (.error .connectionClosing)
      return (c.clear, .ok ())
  | .synReceived =>
      if c.events.anySuspended WaitUntil.isAcknowledged then c.retryAfter .txQueueEmpty
      else do
        let c := { c with tx := { c.tx with tx := c.tx.tx.markFin } }
        let c ← c.sendAck
        let c ← c.setState (.established .fin .opened false true)
        return (c, .ok ())
  | .established txState rxState closeCalled _ =>
      match txState with
      | .closed | .fin => return (c, .error .connectionClosing)
      | .opened =>
          if c.tx.tx.availableBytes ≠ 0 ∨ c.events.anySuspended WaitUntil.isAcknowledged then
            c.retryAfter .txQueueEmpty
          else do
            let c ← (if rxState = .opened then
                c.setState (.established txState rxState closeCalled true)
              else return c)
            let c := { c with tx := { c.tx with tx := c.tx.tx.markFin } }
            let c ← c.sendAck
            return (c, .ok ())

/-- The last step of `call_close` on an open connection, once any FIN has been
queued: record the close and wait until both directions are closed. -/
def finishClose (c : Connection Addr Time) (closeActive : Bool) :
    Res (Connection Addr Time × Except Error Unit) := do
  let txState := c.connectionState.tx
  let rxState := c.connectionState.rx
  let c ← c.setState (.established txState rxState true closeActive)
  if txState = .closed ∧ rxState = .closed then return (c, .ok ())
  else c.continueAfter .bothClosed

/-- Request closing the socket. -/
def callClose (c : Connection Addr Time) :
    Res (Connection Addr Time × Except Error Unit) :=
  match c.connectionState with
  | .reset => return (c, .error .connectionReset)
  | .closed => return (c, .error .notConnected)
  | .timeWait => return (c, .error .connectionClosing)
  | .listen | .synSent =>
      let c := c.triggerEvent WaitUntil.isRecv (.error .connectionClosing)
      return (c.clear, .ok ())
  | .synReceived =>
      if c.tx.tx.availableBytes ≠ 0 ∨ c.events.anySuspended WaitUntil.isAcknowledged then
        c.retryAfter .txQueueEmpty
      else do
        let c := { c with tx := { c.tx with tx := c.tx.tx.markFin } }
        let c ← c.sendAck
        let c ← c.setState (.established .fin .opened true true)
        c.continueAfter .bothClosed
  | .established txState rxState _ closeActive =>
      let closeActive := closeActive || decide (rxState = .opened)
      match txState with
      | .opened =>
          if c.tx.tx.availableBytes ≠ 0 ∨ c.events.anySuspended WaitUntil.isAcknowledged then
            c.retryAfter .txQueueEmpty
          else do
            let c := { c with tx := { c.tx with tx := c.tx.tx.markFin } }
            let c ← c.sendAck
            c.finishClose closeActive
      | .fin | .closed => c.finishClose closeActive

/-- Request closing the socket. Never blocks to wait for ongoing calls. -/
def callAbort (c : Connection Addr Time) :
    Res (Connection Addr Time × Except Error Unit) :=
  match c.connectionState with
  | .reset => return (c, .error .connectionReset)
  | .closed => return (c, .error .notConnected)
  | .listen | .synSent =>
      let c := c.triggerEvent (fun _ => true) (.error .connectionReset)
      return (c.clear, .ok ())
  | .synReceived | .established _ _ _ _ =>
      let c := c.send (c.bareSegment .zero .rst)
      let c := c.triggerEvent (fun _ => true) (.error .connectionReset)
      return (c.clear, .ok ())
  | .timeWait => return (c.clear, .ok ())

end Connection

end TcpState
