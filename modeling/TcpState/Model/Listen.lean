import TcpState.Model.OnSegment

/-!
# Listening sockets
-/

namespace TcpState

structure ListenSocket (Addr Time : Type) where
  queue : List (Addr × SegmentMeta)
  backlog : Nat
  isOpen : Bool
  events : Events Unit
  options : SocketOptions
  userData : UserData Addr Time

namespace ListenSocket

variable {Addr Time : Type}

/-- New socket in initial state. -/
def callListen (backlog : Nat) (userData : UserData Addr Time) : ListenSocket Addr Time where
  queue := []
  backlog := max backlog 1
  isOpen := true
  events := .new
  options := .default
  userData := userData

/-- The refusal of a segment: an RST at its acknowledgement number. -/
def refusal (seg : SegmentMeta) : SegmentMeta where
  seqn := seg.ackn
  ackn := .zero
  window := 0#16
  flags := .rst
  data := []

/-- The answer to a SYN that finds the backlog full. -/
def backlogRefusal (seg : SegmentMeta) : SegmentMeta where
  seqn := seg.ackn + 1#32
  ackn := .zero
  window := 0#16
  flags := .ack ||| .rst
  data := []

/-- Called on incoming segment. See RFC 793 page 64. The source resumes an
arbitrary suspended accept; the list keeps the oldest first. -/
def onSegment (l : ListenSocket Addr Time) (addr : Addr) (seg : SegmentMeta) :
    ListenSocket Addr Time :=
  if seg.flags.contains .rst then l
  else if seg.flags.contains .ack || !l.isOpen then
    { l with userData := l.userData.send addr (refusal seg) }
  else if !seg.flags.contains .syn then l
  else if l.backlog ≤ l.queue.length then
    { l with userData := l.userData.send addr (backlogRefusal seg) }
  else
    let l := { l with queue := l.queue ++ [(addr, seg)] }
    match l.events.suspended with
    | [] => l
    | (_, cookie) :: suspended =>
        { l with events := { l.events with suspended := suspended },
                 userData := l.userData.event cookie (.ok ()) }

/-- Request closing the socket: every suspended accept is resumed with an
error and every queued connection is refused. The source walks the suspended
hash set in any order. -/
def callClose (l : ListenSocket Addr Time) : ListenSocket Addr Time :=
  let userData := l.events.suspended.foldl (fun u p => u.event p.2 (.error .listenClosed))
    l.userData
  { l with
    queue := []
    isOpen := false
    events := { l.events with suspended := [] }
    userData := l.queue.foldl (fun u p => u.send p.1 (refusal p.2)) userData }

variable [UserTime Time]

/-- The connection `call_accept` hands the queued segment to. -/
def acceptor (l : ListenSocket Addr Time) (addr : Addr) (userData : UserData Addr Time) :
    Res (Connection Addr Time) :=
  { Connection.new addr userData with options := l.options }.setState .listen

/-- Accept a new connection from the backlog. -/
def callAccept (l : ListenSocket Addr Time)
    (makeUserData : ListenSocket Addr Time → UserData Addr Time) :
    Res (ListenSocket Addr Time × Except Error (Addr × Connection Addr Time)) :=
  if !l.isOpen then return (l, .error .connectionClosing)
  else
    match l.queue with
    | (addr, seg) :: queue => do
        let l := { l with queue := queue }
        let socket ← l.acceptor addr (makeUserData l)
        let socket ← socket.onSegment seg
        return (l, .ok (addr, socket))
    | [] => do
        let (events, r) ← l.events.returnRetryAfter ()
        return ({ l with events := events }, r)

end ListenSocket

end TcpState
