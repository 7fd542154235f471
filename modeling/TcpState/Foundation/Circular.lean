import Mathlib

/-!
# Forward distance on a circle of bit vectors

A counter that wraps at `2 ^ w` is compared through the number of steps from a
base point forward to it. All facts about wrapping comparisons are stated with
this distance, which is an ordinary natural number below `2 ^ w`.
-/

namespace Circular

variable {w : Nat}

/-- The number of unit steps from `s` forward to `x`. -/
def span (s x : BitVec w) : Nat := (x - s).toNat

theorem span_eq_ite (s x : BitVec w) :
    span s x = if s.toNat ≤ x.toNat then x.toNat - s.toNat
      else 2 ^ w + x.toNat - s.toNat := by
  have hs := s.isLt
  have hx := x.isLt
  rw [span, BitVec.toNat_sub]
  split
  · rename_i h
    rw [show 2 ^ w - s.toNat + x.toNat = (x.toNat - s.toNat) + 2 ^ w by omega,
      Nat.add_mod_right, Nat.mod_eq_of_lt (by omega)]
  · rename_i h
    rw [Nat.mod_eq_of_lt (by omega)]
    omega

@[simp] theorem span_self (s : BitVec w) : span s s = 0 := by simp [span_eq_ite]

/-- The distance is the difference of the raw values modulo a full turn. -/
theorem span_eq_emod (s x : BitVec w) :
    (span s x : Int) = ((x.toNat : Int) - s.toNat) % 2 ^ w := by
  have hs := s.isLt
  rw [span, BitVec.toNat_sub, Int.natCast_emod, Nat.cast_add, Nat.cast_sub (Nat.le_of_lt hs)]
  push_cast
  rw [show (2 : Int) ^ w - s.toNat + x.toNat = x.toNat - s.toNat + 2 ^ w by ring,
    Int.add_emod_right]

theorem span_inj {s x y : BitVec w} : span s x = span s y ↔ x = y := by
  constructor
  · intro h
    have hs := s.isLt
    have hx := x.isLt
    have hy := y.isLt
    apply BitVec.eq_of_toNat_eq
    rw [span_eq_ite, span_eq_ite] at h
    split at h <;> split at h <;> omega
  · rintro rfl
    rfl

theorem span_eq_zero_iff {s x : BitVec w} : span s x = 0 ↔ x = s := by
  rw [← span_self s, span_inj]

/-- The distance is the same between two points moved together. -/
theorem span_add_right (a s x : BitVec w) : span (s + a) (x + a) = span s x := by
  rw [span, span, add_sub_add_right_eq_sub]

/-- Steps taken from a base point are counted exactly below one full turn. -/
theorem span_add_ofNat (s : BitVec w) {n : Nat} (hn : n < 2 ^ w) :
    span s (s + BitVec.ofNat w n) = n := by
  have h : s + BitVec.ofNat w n - s = BitVec.ofNat w n := by
    rw [BitVec.add_comm, BitVec.add_sub_cancel]
  rw [span, h, BitVec.toNat_ofNat, Nat.mod_eq_of_lt hn]

/-- Any number of steps leads at most that far. -/
theorem span_add_ofNat_le (s : BitVec w) (n : Nat) : span s (s + BitVec.ofNat w n) ≤ n := by
  have h : s + BitVec.ofNat w n - s = BitVec.ofNat w n := by
    rw [BitVec.add_comm, BitVec.add_sub_cancel]
  rw [span, h, BitVec.toNat_ofNat]
  exact Nat.mod_le n _

theorem add_ofNat_span (s x : BitVec w) : s + BitVec.ofNat w (span s x) = x := by
  rw [span, BitVec.ofNat_toNat, BitVec.setWidth_eq, BitVec.add_comm, BitVec.sub_add_cancel]

/-- Moving a point forward lengthens its distance by no more. -/
theorem span_add_le (s x d : BitVec w) : span s (x + d) ≤ span s x + d.toNat := by
  have h : x + d = s + BitVec.ofNat w (span s x + d.toNat) := by
    rw [BitVec.ofNat_add, ← BitVec.add_assoc, add_ofNat_span, BitVec.ofNat_toNat,
      BitVec.setWidth_eq]
  rw [h]
  exact span_add_ofNat_le s _

/-- Moving the base point forward shortens the distance by the same amount. -/
theorem span_rebase {s x y : BitVec w} (h : span s x ≤ span s y) :
    span x y = span s y - span s x := by
  have hs := s.isLt
  have hx := x.isLt
  have hy := y.isLt
  simp only [span_eq_ite] at h ⊢
  split_ifs at h ⊢ <;> omega

/-- A point behind the base is reached only after almost a full turn. -/
theorem span_back {s x y : BitVec w} (h : span s y < span s x) :
    span x y = 2 ^ w - (span s x - span s y) := by
  have hs := s.isLt
  have hx := x.isLt
  have hy := y.isLt
  simp only [span_eq_ite] at h ⊢
  split_ifs at h ⊢ <;> omega

/-- Two points given by counts from one base compare as their counts do. -/
theorem span_add_add (s : BitVec w) {i j : Nat} (hij : i ≤ j) (hj : j < 2 ^ w) :
    span (s + BitVec.ofNat w i) (s + BitVec.ofNat w j) = j - i := by
  have hi := span_add_ofNat s (show i < 2 ^ w by omega)
  have hj' := span_add_ofNat s hj
  rw [span_rebase (s := s) (by omega), hi, hj']

/-- Against the order of their counts, two points are nearly a turn apart. -/
theorem span_add_back (s : BitVec w) {i j : Nat} (hji : j < i) (hi : i < 2 ^ w) :
    span (s + BitVec.ofNat w i) (s + BitVec.ofNat w j) = 2 ^ w - (i - j) := by
  have hi' := span_add_ofNat s hi
  have hj' := span_add_ofNat s (show j < 2 ^ w by omega)
  rw [span_back (s := s) (by omega), hi', hj']

theorem add_ofNat_inj (s : BitVec w) {i j : Nat} (hi : i < 2 ^ w) (hj : j < 2 ^ w) :
    s + BitVec.ofNat w i = s + BitVec.ofNat w j ↔ i = j := by
  rw [← span_inj (s := s), span_add_ofNat s hi, span_add_ofNat s hj]

theorem add_ofNat_add (s : BitVec w) (i j : Nat) :
    s + BitVec.ofNat w i + BitVec.ofNat w j = s + BitVec.ofNat w (i + j) := by
  rw [BitVec.add_assoc, ← BitVec.ofNat_add]

end Circular
