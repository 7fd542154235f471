import TcpState.Foundation.Circular

/-!
# Contiguous pieces on a circle

A list of pieces, each of which starts where the one before it ends, tiles an
arc. Pieces are appended at its end and dropped from its front up to a point
inside it, where the point is compared with the ends of the pieces through the
half circle behind it.
-/

namespace Circular

variable {w : Nat} {α : Type*} (start size : α → BitVec w)

/-- The pieces tile the arc from one point to another. -/
def Tiles : BitVec w → List α → BitVec w → Prop
  | s, [], e => e = s
  | s, a :: l, e => start a = s ∧ Tiles (s + size a) l e

/-- The length of all pieces, not wrapped. -/
def total (l : List α) : Nat := (l.map fun a => (size a).toNat).sum

@[simp] theorem total_nil : total size [] = 0 := rfl

@[simp] theorem total_cons (a : α) (l : List α) :
    total size (a :: l) = (size a).toNat + total size l := rfl

theorem total_append (l : List α) (a : α) :
    total size (l ++ [a]) = total size l + (size a).toNat := by
  simp [total]

variable {start size} {s e : BitVec w} {l : List α}

theorem Tiles.append (h : Tiles start size s l e) {a : α} (ha : start a = e) :
    Tiles start size s (l ++ [a]) (e + size a) := by
  induction l generalizing s with
  | nil =>
      obtain rfl : e = s := h
      exact ⟨ha, rfl⟩
  | cons b l ih => exact ⟨h.1, ih h.2⟩

/-- The arc is as long as its pieces together. -/
theorem Tiles.stop (h : Tiles start size s l e) : e = s + BitVec.ofNat w (total size l) := by
  induction l generalizing s with
  | nil =>
      obtain rfl : e = s := h
      simp
  | cons a l ih =>
      rw [ih h.2, total_cons, ← add_ofNat_add, BitVec.ofNat_toNat, BitVec.setWidth_eq]

theorem Tiles.isChain (h : Tiles start size s l e) :
    l.IsChain fun a b => start b = start a + size a := by
  induction l generalizing s with
  | nil => exact .nil
  | cons a l ih =>
      obtain ⟨ha, hl⟩ := h
      cases l with
      | nil => exact .singleton a
      | cons b l => exact .cons_cons (by rw [hl.1, ha]) (ih hl)

theorem Tiles.last (h : Tiles start size s l e) :
    ∀ a ∈ l.getLast?, start a + size a = e := by
  induction l generalizing s with
  | nil => exact fun a ha => by cases ha
  | cons b l ih =>
      intro a ha
      cases l with
      | nil =>
          obtain rfl : b = a := by simpa using ha
          obtain ⟨rfl, hstop⟩ := h
          exact hstop.symm
      | cons c l => exact ih h.2 a (by simpa using ha)

theorem Tiles.head (h : Tiles start size s l e) : ∀ a ∈ l.head?, start a = s := by
  cases l with
  | nil => exact fun a ha => by cases ha
  | cons b l =>
      intro a ha
      obtain rfl : b = a := by simpa using ha
      exact h.1

/-- Dropping the pieces that end in the half circle behind a point, none of
them longer than the half circle, leaves a tiling that still covers the point. -/
theorem Tiles.dropWhile_covers {p : α → Bool} {half : Nat} (hhalf : 2 ^ w = 2 * half)
    (h : Tiles start size s l e) {a : Nat} {x : BitVec w} (hx : x = s + BitVec.ofNat w a)
    (hp : ∀ b, p b = true ↔ span (start b + size b) x < half) (hle : a ≤ total size l)
    (hsize : ∀ b ∈ l, (size b).toNat ≤ half) :
    ∃ s' a', Tiles start size s' (l.dropWhile p) e ∧ x = s' + BitVec.ofNat w a' ∧
      total size (l.dropWhile p) + a = total size l + a' ∧ a' ≤ total size (l.dropWhile p) := by
  induction l generalizing s a with
  | nil => exact ⟨s, a, h, hx, rfl, hle⟩
  | cons b l ih =>
      obtain ⟨hb, hl⟩ := h
      have hlen := hsize b List.mem_cons_self
      have hend : start b + size b = s + BitVec.ofNat w (size b).toNat := by
        rw [hb, BitVec.ofNat_toNat, BitVec.setWidth_eq]
      by_cases hdrop : p b = true
      · have hin : (size b).toNat ≤ a := by
          by_contra hfar
          have hspan := (hp b).mp hdrop
          rw [hend, hx, span_add_back s (by omega) (size b).isLt] at hspan
          omega
        have hsplit : x = s + size b + BitVec.ofNat w (a - (size b).toNat) := by
          rw [hx, ← hb, hend, hb, add_ofNat_add, Nat.add_sub_cancel' hin]
        rw [total_cons] at hle
        obtain ⟨s', a', ht, hpoint, htotal, hcovers⟩ :=
          ih hl hsplit (by omega) fun c hc => hsize c (List.mem_cons_of_mem b hc)
        rw [List.dropWhile_cons_of_pos hdrop, total_cons]
        exact ⟨s', a', ht, hpoint, by omega, hcovers⟩
      · rw [List.dropWhile_cons_of_neg hdrop]
        exact ⟨s, a, ⟨hb, hl⟩, hx, rfl, hle⟩

/-- Dropping the pieces that end in the half circle behind a point leaves a
tiling whose first piece holds the point. -/
theorem Tiles.dropWhile {p : α → Bool} {half : Nat} (hhalf : 2 ^ w = 2 * half)
    (h : Tiles start size s l e) {a : Nat} {x : BitVec w} (hx : x = s + BitVec.ofNat w a)
    (hp : ∀ b, p b = true ↔ span (start b + size b) x < half) (hle : a ≤ total size l)
    (hlt : total size l < a + half) (hhead : ∀ b ∈ l.head?, a < (size b).toNat + half) :
    ∃ s' a', Tiles start size s' (l.dropWhile p) e ∧ x = s' + BitVec.ofNat w a' ∧
      total size (l.dropWhile p) + a = total size l + a' ∧
      (l.dropWhile p = [] → a' = 0) ∧ ∀ b ∈ (l.dropWhile p).head?, a' < (size b).toNat := by
  induction l generalizing s a with
  | nil =>
      obtain rfl : a = 0 := Nat.le_zero.mp hle
      exact ⟨s, 0, h, hx, rfl, fun _ => rfl, fun b hb => by cases hb⟩
  | cons b l ih =>
      obtain ⟨hb, hl⟩ := h
      rw [total_cons] at hle hlt ⊢
      have hfar := hhead b rfl
      have hsize := (size b).isLt
      have hend : start b + size b = s + BitVec.ofNat w (size b).toNat := by
        rw [hb, BitVec.ofNat_toNat, BitVec.setWidth_eq]
      by_cases hin : (size b).toNat ≤ a
      · have hsplit : x = s + size b + BitVec.ofNat w (a - (size b).toNat) := by
          rw [hx, ← hb, hend, hb, add_ofNat_add, Nat.add_sub_cancel' hin]
        have hdrop : p b = true := by
          rw [hp, hsplit, hb, span_add_ofNat _ (by omega)]
          omega
        obtain ⟨s', a', ht, hpoint, htotal, hnil, hfirst⟩ :=
          ih hl hsplit (by omega) (by omega) fun _ _ => by omega
        rw [List.dropWhile_cons_of_pos hdrop]
        exact ⟨s', a', ht, hpoint, by omega, hnil, hfirst⟩
      · have hkeep : ¬ p b = true := by
          rw [hp, hend, hx, span_add_back s (by omega) hsize]
          omega
        rw [List.dropWhile_cons_of_neg hkeep]
        refine ⟨s, a, ⟨hb, hl⟩, hx, by rw [total_cons],
          fun hnil => absurd hnil (List.cons_ne_nil _ _), ?_⟩
        intro c hc
        obtain rfl : b = c := by simpa using hc
        omega

end Circular
