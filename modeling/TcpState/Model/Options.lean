import TcpState.Model.Result

/-!
# Constants and socket options
-/

namespace TcpState

def maxRto : Duration := Duration.fromSecs 120

def maxSegmentLifetime : Duration := Duration.fromSecs 120
def maxSegmentSize : Nat := 512
def slowStartTreshold : BitVec 16 := 512#16

def initialWindowSize : BitVec 16 := 0x1000#16

structure SocketOptions where
  /-- Zero for TCP_NODELAY. -/
  nagleDelay : Duration
deriving DecidableEq, Repr

def SocketOptions.default : SocketOptions := ⟨Duration.zero⟩

end TcpState
