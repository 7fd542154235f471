import TcpState.Model.Result

/-!
# Connection states

The two channels of an open connection only move forward, which the source
checks at every transition in builds with debug assertions.
-/

namespace TcpState

/-- One direction of a connection. The first constructor is the source's `Open`. -/
inductive ChannelState
  | opened
  | fin
  | closed
deriving DecidableEq, Repr

namespace ChannelState

def rank : ChannelState → Nat
  | opened => 0
  | fin => 1
  | closed => 2

instance : LE ChannelState := ⟨fun a b => a.rank ≤ b.rank⟩

instance (a b : ChannelState) : Decidable (a ≤ b) :=
  inferInstanceAs (Decidable (a.rank ≤ b.rank))

end ChannelState

inductive ConnectionState
  | listen
  | synSent
  | synReceived
  | established (txState rxState : ChannelState) (closeCalled closeActive : Bool)
  | timeWait
  | reset
  | closed
deriving DecidableEq, Repr

namespace ConnectionState

def fullyOpen : ConnectionState := .established .opened .opened false false

/-- A `debug_assert!` of `debug_validate_transition`. -/
def validate (p : Prop) [Decidable p] : Res Unit := Fallible.ensure .invalidTransition p

/-- Check for some invalid transitions. -/
def debugValidateTransition : ConnectionState → ConnectionState → Res Unit
  | .established txState rxState closeCalled closeActive,
    .established toTxState toRxState toCloseCalled toCloseActive => do
      validate (txState ≤ toTxState)
      validate (rxState ≤ toRxState)
      validate (closeCalled ≤ toCloseCalled)
      validate (closeActive ≤ toCloseActive)
      if closeCalled then validate (ChannelState.fin ≤ toTxState)
  | _, _ => return ()

def tx : ConnectionState → ChannelState
  | .synSent | .synReceived => .opened
  | .established txState _ _ _ => txState
  | .listen | .timeWait | .reset | .closed => .closed

def rx : ConnectionState → ChannelState
  | .synSent | .synReceived => .opened
  | .established _ rxState _ _ => rxState
  | .listen | .timeWait | .reset | .closed => .closed

def closeCalled : ConnectionState → Res Bool
  | .synSent | .synReceived => return false
  | .established _ _ closeCalled _ => return closeCalled
  | .listen | .timeWait | .reset | .closed => .error .explicit

def closeActive : ConnectionState → Res Bool
  | .synSent | .synReceived => return false
  | .established _ _ _ closeActive => return closeActive
  | .timeWait => return true
  | .listen | .reset | .closed => .error .explicit

/-- Have we sent a FIN packet already? Asserts that the state is not `Closed`. -/
def finSent : ConnectionState → Res Bool
  | .closed => .error .debugAssertion
  | .established .fin _ _ _ | .established .closed _ _ _ | .timeWait => return true
  | _ => return false

/-- Output buffer must be empty by now. Asserts that the state is not `Closed`. -/
def outputBufferGuaranteedClear : ConnectionState → Res Bool
  | .closed => .error .debugAssertion
  | .established _ .closed _ _ | .timeWait => return true
  | _ => return false

/-- The transitions that pass every assertion of `debugValidateTransition`. -/
def ValidTransition : ConnectionState → ConnectionState → Prop
  | .established txState rxState closeCalled closeActive,
    .established toTxState toRxState toCloseCalled toCloseActive =>
      txState ≤ toTxState ∧ rxState ≤ toRxState ∧ closeCalled ≤ toCloseCalled ∧
        closeActive ≤ toCloseActive ∧ (closeCalled = true → ChannelState.fin ≤ toTxState)
  | _, _ => True

instance (s t : ConnectionState) : Decidable (ValidTransition s t) := by
  unfold ValidTransition
  split <;> infer_instance

theorem debugValidateTransition_ok_iff {s t : ConnectionState} {u : Unit} :
    s.debugValidateTransition t = .ok u ↔ ValidTransition s t := by
  unfold debugValidateTransition ValidTransition
  split
  · rename_i closeCalled _ _ _ _ _
    cases closeCalled <;>
      simp [validate, Fallible.bind_ok_iff, pure, Except.pure]
  · simp [pure, Except.pure]

/-- The assertions have one kind of panic. -/
theorem debugValidateTransition_of_not_valid {s t : ConnectionState} (h : ¬ ValidTransition s t) :
    s.debugValidateTransition t = .error .invalidTransition := by
  cases hs : s.debugValidateTransition t with
  | ok u => exact absurd (debugValidateTransition_ok_iff.mp hs) h
  | error e =>
      unfold debugValidateTransition at hs
      split at hs
      · simp only [validate, Fallible.ensure] at hs
        split_ifs at hs <;> first | exact hs.symm | cases hs
      · cases hs

end ConnectionState

end TcpState
