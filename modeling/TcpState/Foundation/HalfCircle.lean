import TcpState.Foundation.Circular

/-!
# The order on a half circle

On the whole circle "at most half a turn ahead" is no order: it goes round.
Among the points less than half a turn ahead of a base point it is the order of
their distances from that point, wherever the raw values wrap.
-/

namespace Circular

variable {w : Nat}

/-- The points less than half a turn ahead of `b`. -/
def Half (b : BitVec (w + 1)) := {x : BitVec (w + 1) // span b x < 2 ^ w}

variable {b x y : BitVec (w + 1)}

/-- The point half a turn or more behind is not met within half a turn. -/
theorem span_lt_half_iff (hx : span b x < 2 ^ w) (hy : span b y < 2 ^ w) :
    span x y < 2 ^ w ↔ span b x ≤ span b y := by
  have hturn : 2 ^ (w + 1) = 2 ^ w + 2 ^ w := by rw [pow_succ, mul_two]
  constructor
  · intro hxy
    by_contra hlt
    rw [span_back (not_le.mp hlt)] at hxy
    omega
  · intro hle
    rw [span_rebase hle]
    omega

namespace Half

theorem span_injective : Function.Injective fun p : Half b => span b p.1 := by
  intro p q h
  exact Subtype.ext (span_inj.mp h)

instance : LinearOrder (Half b) := LinearOrder.lift' _ span_injective

/-- The order is being reached within half a turn. -/
theorem le_iff {p q : Half b} : p ≤ q ↔ span p.1 q.1 < 2 ^ w :=
  (span_lt_half_iff p.2 q.2).symm

end Half

/-- Fewer than half a turn of unit steps lead into the half circle. -/
theorem span_step_lt (b : BitVec (w + 1)) {i : Nat} (hi : i < 2 ^ w) :
    span b (b + BitVec.ofNat (w + 1) i) < 2 ^ w := by
  rw [span_add_ofNat b (hi.trans (Nat.pow_lt_pow_succ (by omega)))]
  exact hi

/-- Two counts of steps below half a turn compare as the points they lead to. -/
theorem span_steps_lt_iff (b : BitVec (w + 1)) {i j : Nat} (hi : i < 2 ^ w) (hj : j < 2 ^ w) :
    span (b + BitVec.ofNat (w + 1) i) (b + BitVec.ofNat (w + 1) j) < 2 ^ w ↔ i ≤ j := by
  have hturn : 2 ^ w < 2 ^ (w + 1) := Nat.pow_lt_pow_succ (by omega)
  rw [span_lt_half_iff (span_step_lt b hi) (span_step_lt b hj),
    span_add_ofNat b (hi.trans hturn), span_add_ofNat b (hj.trans hturn)]

end Circular
