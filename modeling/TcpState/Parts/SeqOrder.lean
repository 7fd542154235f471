import TcpState.Foundation.HalfCircle
import TcpState.Model.Segment

/-!
# Sequence numbers in order

The source compares wrapped raw values. On a window of half the numbers its
`lte` is the order of the distances from the start of the window.
-/

namespace TcpState

namespace SeqN

/-- The numbers less than `2 ^ 31` steps from `b`. -/
abbrev HalfWindow (b : SeqN) := Circular.Half (w := 31) b

/-- On a window `lte` is its linear order. -/
theorem lte_iff_le {b : SeqN} {x y : HalfWindow b} : lte x.1 y.1 = true ↔ x ≤ y := by
  rw [lte_iff, Circular.Half.le_iff]

/-- The range test compares distances from its start, `lte` compares steps from
any base, and so it orders every half of the numbers linearly. -/
theorem circular_order :
    (∀ x s e : SeqN, inRangeInclusive x s e = true ↔
      ((x.toNat : Int) - s.toNat) % 2 ^ 32 ≤ ((e.toNat : Int) - s.toNat) % 2 ^ 32) ∧
    (∀ (b : SeqN) (i j : Nat), i < 2 ^ 31 → j < 2 ^ 31 →
      (lte (b + BitVec.ofNat 32 i) (b + BitVec.ofNat 32 j) = true ↔ i ≤ j)) ∧
    ∀ b : SeqN, IsLinearOrder (HalfWindow b) fun x y => lte x.1 y.1 = true := by
  refine ⟨fun x s e => ?_, fun b i j hi hj => ?_, fun b => ?_⟩
  · rw [inRangeInclusive_iff, ← Circular.span_eq_emod, ← Circular.span_eq_emod, Nat.cast_le]
  · rw [lte_iff]
    exact Circular.span_steps_lt_iff (w := 31) b hi hj
  · simp only [lte_iff_le]
    infer_instance

/-- One step before the wrap and three steps after it. -/
theorem circular_order_wrapped :
    lte 0xffffffff#32 0x2#32 = true ∧ ¬ lte 0x2#32 0xffffffff#32 = true := by
  have hord := circular_order.2.1 0xfffffffe#32
  exact ⟨(hord 1 4 (by decide) (by decide)).mpr (by decide),
    fun h => absurd ((hord 4 1 (by decide) (by decide)).mp h) (by decide)⟩

end SeqN

end TcpState
