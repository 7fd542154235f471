import TcpState.Model.Listen
import TcpState.Model.Timers

/-!
# Sockets of any kind

A socket is closed, a connection or a listening socket. The placeholder the
source swaps in while a call replaces the inner socket is never seen by
another call, so it is left out.
-/

namespace TcpState

/-- Common data for all socket types. -/
structure SocketCommon (Addr Time : Type) where
  userData : UserData Addr Time
  options : SocketOptions

inductive SocketInner (Addr Time : Type)
  | closed (common : SocketCommon Addr Time)
  | connection (c : Connection Addr Time)
  | listen (l : ListenSocket Addr Time)

namespace SocketInner

variable {Addr Time : Type}

/-- Deconstructs the inner socket and returns the user data. -/
def extractCommon : SocketInner Addr Time → SocketCommon Addr Time
  | closed common => common
  | listen l => ⟨l.userData, l.options⟩
  | connection c => ⟨c.userData, c.options⟩

end SocketInner

structure Socket (Addr Time : Type) where
  inner : SocketInner Addr Time

namespace Socket

variable {Addr Time : Type}

def new (userData : UserData Addr Time) : Socket Addr Time := ⟨.closed ⟨userData, .default⟩⟩

def state (s : Socket Addr Time) : ConnectionState :=
  match s.inner with
  | .closed _ => .closed
  | .listen _ => .listen
  | .connection c => c.connectionState

def options (s : Socket Addr Time) : SocketOptions := s.inner.extractCommon.options

def userData (s : Socket Addr Time) : UserData Addr Time := s.inner.extractCommon.userData

def callListen (s : Socket Addr Time) (backlog : Nat) : Socket Addr Time × Except Error Unit :=
  if s.state ≠ .closed then (s, .error .invalidStateTransition)
  else (⟨.listen (.callListen backlog s.inner.extractCommon.userData)⟩, .ok ())

variable [UserTime Time]

def callConnect (s : Socket Addr Time) (remote : Addr) :
    Res (Socket Addr Time × Except Error Unit) :=
  if s.state ≠ .closed then return (s, .error .invalidStateTransition)
  else do
    let common := s.inner.extractCommon
    let (c, result) ← { Connection.new remote common.userData with
      options := common.options }.callConnect
    return (⟨.connection c⟩, result)

def callAccept (s : Socket Addr Time) (makeUserData : ListenSocket Addr Time → UserData Addr Time) :
    Res (Socket Addr Time × Except Error (Addr × Connection Addr Time)) :=
  match s.inner with
  | .closed _ => return (s, .error .closed)
  | .connection _ => return (s, .error .invalidStateTransition)
  | .listen l => do
      let (l, r) ← l.callAccept makeUserData
      return (⟨.listen l⟩, r)

def callClose (s : Socket Addr Time) : Res (Socket Addr Time × Except Error Unit) :=
  match s.inner with
  | .closed _ => return (s, .error .closed)
  | .connection c => do
      let (c, r) ← c.callClose
      return (⟨.connection c⟩, r)
  | .listen l => return (⟨.listen l.callClose⟩, .ok ())

def callAbort (s : Socket Addr Time) : Res (Socket Addr Time × Except Error Unit) :=
  match s.inner with
  | .closed _ => return (s, .error .closed)
  | .connection c => do
      let (c, r) ← c.callAbort
      return (⟨.connection c⟩, r)
  | .listen l => return (⟨.listen l.callClose⟩, .ok ())

def callShutdown (s : Socket Addr Time) : Res (Socket Addr Time × Except Error Unit) :=
  match s.inner with
  | .closed _ => return (s, .error .closed)
  | .listen _ => return (s, .error .listening)
  | .connection c => do
      let (c, r) ← c.callShutdown
      return (⟨.connection c⟩, r)

def callSend (s : Socket Addr Time) (data : List UInt8) :
    Res (Socket Addr Time × Except Error Unit) :=
  match s.inner with
  | .closed _ => return (s, .error .closed)
  | .listen _ => return (s, .error .listening)
  | .connection c => do
      let (c, r) ← c.callSend data
      return (⟨.connection c⟩, r)

def callRecv (s : Socket Addr Time) (bufferLen : Nat) :
    Res (Socket Addr Time × Except Error (List UInt8)) :=
  match s.inner with
  | .closed _ => return (s, .error .closed)
  | .listen _ => return (s, .error .listening)
  | .connection c => do
      let (c, r) ← c.callRecv bufferLen
      return (⟨.connection c⟩, r)

def onSegment (s : Socket Addr Time) (src : Addr) (seg : SegmentMeta) : Res (Socket Addr Time) :=
  match s.inner with
  | .closed common => do
      match ← responseToClosed seg with
      | some resp => return ⟨.closed { common with userData := common.userData.send src resp }⟩
      | none => return s
  | .listen l => return ⟨.listen (l.onSegment src seg)⟩
  | .connection c => do
      let c ← c.onSegment seg
      return ⟨.connection c⟩

def onTimeTick (s : Socket Addr Time) (time : Time) : Res (Socket Addr Time) :=
  match s.inner with
  | .closed _ | .listen _ => return s
  | .connection c => do
      let c ← c.onTimeTick time
      return ⟨.connection c⟩

end Socket

end TcpState
