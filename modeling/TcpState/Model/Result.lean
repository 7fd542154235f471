import Mathlib
import TcpState.Foundation.Fallible

/-!
# Results, panics and durations

A call returns a Rust value or panics. The build with debug assertions and
overflow checks is modelled, so `debug_assert!` and checked arithmetic panic
as `assert!` does.
-/

namespace TcpState

/-- What a panic of the source comes from. -/
inductive Panic
  | assertion
  | debugAssertion
  /-- An assertion of `debug_validate_transition`. -/
  | invalidTransition
  | unreachable
  | explicit
  | overflow
  | unwrap
deriving DecidableEq, Repr

/-- A call that may panic. -/
abbrev Res := Except Panic

def assert (p : Prop) [Decidable p] : Res Unit := Fallible.ensure .assertion p

def debugAssert (p : Prop) [Decidable p] : Res Unit := Fallible.ensure .debugAssertion p

/-- Event cookie of a blocking operation. -/
abbrev Cookie := Nat

inductive Error
  | invalidStateTransition
  | notConnected
  | connectionReset
  | outputClosed
  | connectionClosing
  | listenClosed
  | timedOut
  | closed
  | listening
  | eventNotActive
  | retryAfter (cookie : Cookie)
  | continueAfter (cookie : Cookie)
deriving DecidableEq, Repr

/-- Nanoseconds. The source type holds fewer than `2 ^ 64` whole seconds. -/
abbrev Duration := Nat

namespace Duration

def zero : Duration := 0
def fromSecs (secs : Nat) : Duration := secs * 1000000000
def second : Duration := fromSecs 1

/-- Addition panics when the sum does not fit. -/
def add (a b : Duration) : Res Duration :=
  if a + b < fromSecs (2 ^ 64) then .ok (a + b) else .error .overflow

theorem add_ok_iff {a b r : Duration} :
    add a b = .ok r ↔ a + b < fromSecs (2 ^ 64) ∧ r = a + b := Fallible.ite_ok_iff

end Duration

/-- Instants of the user's clock. Its `add` is taken to return: that of
`std::time::Instant` unwraps `checked_add`, and panics where the sum does not
fit, which is at the 63rd expiry in a row. -/
class UserTime (Time : Type) extends LinearOrder Time where
  add : Time → Duration → Time

instance : UserTime Nat where
  add := fun t d => t + d

end TcpState
