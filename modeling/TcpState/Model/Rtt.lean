import TcpState.Model.Connection

/-!
# Round-trip time estimation

The timings of a connection and how a measured round-trip time updates them.
No other function of the source calls `update_rtt`.
-/

namespace TcpState

/-- Multiplication panics when the product does not fit. -/
def Duration.mul (k : Nat) (a : Duration) : Res Duration :=
  if k * a < fromSecs (2 ^ 64) then .ok (k * a) else .error .overflow

theorem Duration.mul_ok_iff {k : Nat} {a b : Duration} :
    mul k a = .ok b ↔ k * a < fromSecs (2 ^ 64) ∧ b = k * a := Fallible.ite_ok_iff

def durationAbsdiff (a b : Duration) : Duration := if a > b then a - b else b - a

namespace Timings

def updateRtt (t : Timings) (rtt : Duration) : Res Timings :=
  if t.srtt = Duration.zero then return { t with srtt := rtt, rttVar := rtt / 2 }
  else do
    let weighted ← Duration.mul 3 t.rttVar
    let sum ← Duration.add weighted (durationAbsdiff t.srtt rtt)
    let t := { t with rttVar := sum / 4 }
    let weighted ← Duration.mul 7 t.srtt
    let sum ← Duration.add weighted rtt
    let t := { t with srtt := sum / 8 }
    let clockGranularity := Duration.zero
    let variation ← Duration.mul 4 t.rttVar
    let rto ← Duration.add t.srtt (max variation clockGranularity)
    return { t with rto := max (min rto Duration.second) maxRto }

/-- The samples in the order in which they are measured. -/
def updateAll (t : Timings) (samples : List Duration) : Res Timings :=
  samples.foldlM updateRtt t

end Timings

end TcpState
