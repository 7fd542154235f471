import Mathlib

/-!
# Exponential smoothing of natural numbers

A running average gives each new sample a fixed weight. In integer arithmetic
the average is rounded down at every step.
-/

namespace Smoothing

/-- The average moved towards the sample by its weight, rounded down. -/
def smooth (weight : ℚ) (avg sample : Nat) : Nat :=
  ⌊(1 - weight) * avg + weight * sample⌋₊

variable {weight : ℚ} {avg sample bound : Nat}

/-- With weight `1 / k` the average is one integer division. -/
theorem smooth_eq_div {k : Nat} (hk : 0 < k) (avg sample : Nat) :
    smooth (1 / k) avg sample = ((k - 1) * avg + sample) / k := by
  have hk' : (k : ℚ) ≠ 0 := Nat.cast_ne_zero.mpr hk.ne'
  have hsum : (1 - 1 / (k : ℚ)) * avg + 1 / k * sample =
      (((k - 1) * avg + sample : Nat) : ℚ) / (k : ℚ) := by
    rw [Nat.cast_add, Nat.cast_mul, Nat.cast_sub hk, Nat.cast_one]
    field_simp
  rw [smooth, hsum, Nat.floor_div_eq_div]

theorem smooth_le (h₀ : 0 ≤ weight) (h₁ : weight ≤ 1) (havg : avg ≤ bound)
    (hsample : sample ≤ bound) : smooth weight avg sample ≤ bound := by
  refine Nat.floor_le_of_le ?_
  have ha : (avg : ℚ) ≤ bound := Nat.cast_le.mpr havg
  have hs : (sample : ℚ) ≤ bound := Nat.cast_le.mpr hsample
  calc (1 - weight) * avg + weight * sample
      ≤ (1 - weight) * bound + weight * bound := by
        gcongr
    _ = bound := by ring

theorem le_smooth (h₀ : 0 ≤ weight) (h₁ : weight ≤ 1) (havg : bound ≤ avg)
    (hsample : bound ≤ sample) : bound ≤ smooth weight avg sample := by
  refine Nat.le_floor ?_
  have ha : (bound : ℚ) ≤ avg := Nat.cast_le.mpr havg
  have hs : (bound : ℚ) ≤ sample := Nat.cast_le.mpr hsample
  calc (bound : ℚ) = (1 - weight) * bound + weight * bound := by ring
    _ ≤ (1 - weight) * avg + weight * sample := by
        gcongr

end Smoothing
