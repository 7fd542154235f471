import Mathlib

/-!
# Reliable transfer of a stream over an unreliable wire

A sender puts a stream out in pieces, each with the place it starts at, and
keeps every piece until it is acknowledged. The wire may lose, repeat and
reorder pieces. The receiver stores a piece only when it continues what is
stored, and acknowledges no more than is stored. Then what is stored is always
a prefix of the stream, and no piece is given up before it is stored.
-/

namespace Transfer

variable {α : Type*}

/-- Part of a stream with the place it starts at. -/
structure Piece (α : Type*) where
  start : Nat
  body : List α

namespace Piece

/-- The place after the piece. -/
def stop (p : Piece α) : Nat := p.start + p.body.length

/-- The stream holds the piece at its place. -/
def Within (p : Piece α) (s : List α) : Prop := p.start ≤ s.length ∧ p.body <+: s.drop p.start

variable {p : Piece α} {s t : List α}

theorem Within.append (h : p.Within s) (t : List α) : p.Within (s ++ t) := by
  refine ⟨by rw [List.length_append]; exact Nat.le_add_right_of_le h.1, ?_⟩
  rw [List.drop_append_of_le_length h.1]
  exact h.2.trans (List.prefix_append _ _)

/-- The newest piece of a stream. -/
theorem within_last (s b : List α) : Within ⟨s.length, b⟩ (s ++ b) := by
  refine ⟨by simp, ?_⟩
  simp

/-- A piece that continues a prefix of the stream continues it rightly. -/
theorem Within.extends (h : p.Within s) (ht : t <+: s) (hstart : p.start = t.length) :
    t ++ p.body <+: s := by
  obtain ⟨rest, rfl⟩ := ht
  have hbody := h.2
  rw [hstart, List.drop_left] at hbody
  exact (List.prefix_append_right_inj t).mpr hbody

/-- A prefix long enough for the piece holds it too. -/
theorem Within.restrict (h : p.Within s) (ht : t <+: s) (hstop : p.stop ≤ t.length) :
    p.Within t := by
  rw [stop] at hstop
  obtain ⟨rest, rfl⟩ := ht
  refine ⟨by omega, ?_⟩
  have hbody := h.2
  rw [List.drop_append_of_le_length (by omega)] at hbody
  exact List.prefix_of_prefix_length_le hbody (List.prefix_append _ _)
    (by rw [List.length_drop]; omega)

/-- The pieces follow each other from a place. -/
def Consecutive : Nat → List (Piece α) → Prop
  | _, [] => True
  | k, p :: l => p.start = k ∧ Consecutive p.stop l

/-- What the pieces hold, one after the other. -/
def bodies (l : List (Piece α)) : List α := (l.map body).flatten

@[simp] theorem bodies_nil : bodies ([] : List (Piece α)) = [] := rfl

@[simp] theorem bodies_cons (p : Piece α) (l : List (Piece α)) :
    bodies (p :: l) = p.body ++ bodies l := rfl

theorem bodies_concat (l : List (Piece α)) (p : Piece α) :
    bodies (l ++ [p]) = bodies l ++ p.body := by
  simp [bodies]

theorem Consecutive.concat {k : Nat} {l : List (Piece α)} (h : Consecutive k l)
    (hstart : p.start = k + (bodies l).length) : Consecutive k (l ++ [p]) := by
  induction l generalizing k with
  | nil => exact ⟨hstart, trivial⟩
  | cons q l ih =>
      refine ⟨h.1, ih h.2 ?_⟩
      rw [hstart, bodies_cons, List.length_append, stop, h.1, Nat.add_assoc]

/-- Giving up pieces from the front leaves the end of the stream. -/
theorem Consecutive.dropWhile {k n : Nat} {l : List (Piece α)} (h : Consecutive k l)
    (hs : bodies l = s.drop k) (hk : k ≤ n) :
    ∃ k' ≤ n, Consecutive k' (l.dropWhile fun p => decide (p.stop ≤ n)) ∧
      bodies (l.dropWhile fun p => decide (p.stop ≤ n)) = s.drop k' := by
  induction l generalizing k with
  | nil => exact ⟨k, hk, trivial, hs⟩
  | cons q l ih =>
      by_cases hstop : q.stop ≤ n
      · rw [List.dropWhile_cons_of_pos (by simpa using hstop)]
        refine ih h.2 ?_ hstop
        rw [stop, h.1, ← List.drop_drop, ← hs, bodies_cons, List.drop_left]
      · rw [List.dropWhile_cons_of_neg (by simpa using hstop)]
        exact ⟨k, hk, h, hs⟩

end Piece

/-- One direction of a transfer: the stream put out, the part the receiver has
stored, how far the sender knows it stored, every piece ever put on the wire,
and the pieces kept for resending, oldest first. -/
structure Channel (α : Type*) where
  sent : List α
  stored : List α
  acked : Nat
  wire : List (Piece α)
  pending : List (Piece α)

namespace Channel

/-- A channel before anything is sent. -/
def empty : Channel α := ⟨[], [], 0, [], []⟩

/-- The sender puts out more of the stream. Nothing happens for nothing. -/
def emit [DecidableEq α] (ch : Channel α) (b : List α) : Channel α :=
  if b = [] then ch
  else
    { ch with sent := ch.sent ++ b, wire := ch.wire ++ [⟨ch.sent.length, b⟩],
              pending := ch.pending ++ [⟨ch.sent.length, b⟩] }

/-- The receiver stores more of the stream. -/
def store (ch : Channel α) (b : List α) : Channel α := { ch with stored := ch.stored ++ b }

/-- The sender learns how far the stream is stored, and gives up the oldest
pieces that end there or before. -/
def ack (ch : Channel α) (n : Nat) : Channel α :=
  { ch with acked := n, pending := ch.pending.dropWhile fun p => decide (p.stop ≤ n) }

/-- The receiver starts over. -/
def restart (ch : Channel α) : Channel α := { ch with stored := [] }

/-- What is on the wire repeats the stream, and what is stored is a prefix. -/
structure Delivers (ch : Channel α) : Prop where
  wire : ∀ p ∈ ch.wire, p.Within ch.sent
  stored : ch.stored <+: ch.sent

/-- Only stored pieces count as acknowledged, and the others are kept. -/
structure Acknowledges (ch : Channel α) : Prop where
  acked : ch.acked ≤ ch.stored.length
  kept : ∀ p ∈ ch.wire, p ∈ ch.pending ∨ p.stop ≤ ch.acked
  unacked : ∀ p ∈ ch.pending, ch.acked < p.stop ∧ p.stop ≤ ch.sent.length
  ordered : ch.pending.Pairwise fun p q => p.stop ≤ q.stop
  /-- The kept pieces are the end of the stream. -/
  rest : ∃ k ≤ ch.acked, Piece.Consecutive k ch.pending ∧ Piece.bodies ch.pending = ch.sent.drop k

variable {ch : Channel α}

theorem delivers_empty : (empty : Channel α).Delivers := ⟨nofun, List.prefix_refl _⟩

theorem acknowledges_empty : (empty : Channel α).Acknowledges := by
  constructor
  · exact Nat.le_refl _
  · exact nofun
  · exact nofun
  · exact List.Pairwise.nil
  · exact ⟨0, Nat.le_refl _, trivial, rfl⟩

section Emit

variable [DecidableEq α] {b : List α}

@[simp] theorem emit_nil (ch : Channel α) : ch.emit [] = ch := if_pos rfl

theorem emit_sent (ch : Channel α) (b : List α) : (ch.emit b).sent = ch.sent ++ b := by
  unfold emit
  split
  · rename_i h
    rw [h, List.append_nil]
  · rfl

@[simp] theorem emit_stored (ch : Channel α) (b : List α) : (ch.emit b).stored = ch.stored := by
  unfold emit
  split <;> rfl

@[simp] theorem emit_acked (ch : Channel α) (b : List α) : (ch.emit b).acked = ch.acked := by
  unfold emit
  split <;> rfl

theorem mem_wire_emit {p : Piece α} (h : p ∈ ch.wire) : p ∈ (ch.emit b).wire := by
  unfold emit
  split
  · exact h
  · exact List.mem_append_left _ h

theorem last_mem_wire_emit (hb : b ≠ []) : ⟨ch.sent.length, b⟩ ∈ (ch.emit b).wire := by
  rw [emit, if_neg hb]
  exact List.mem_append_right _ (List.mem_singleton_self _)

theorem Delivers.emit (h : ch.Delivers) (b : List α) : (ch.emit b).Delivers := by
  refine ⟨fun p hp => ?_, ?_⟩
  · rw [emit_sent]
    unfold Channel.emit at hp
    split at hp
    · exact (h.wire p hp).append b
    · rcases List.mem_append.mp hp with hp | hp
      · exact (h.wire p hp).append b
      · rw [List.mem_singleton.mp hp]
        exact Piece.within_last ch.sent b
  · rw [emit_sent, emit_stored]
    exact h.stored.trans (List.prefix_append _ _)

theorem Acknowledges.emit (h : ch.Acknowledges) (hd : ch.Delivers) (b : List α) :
    (ch.emit b).Acknowledges := by
  unfold Channel.emit
  split
  · exact h
  · rename_i hb
    have hpos := List.length_pos_of_ne_nil hb
    have hacked : ch.acked ≤ ch.sent.length := Nat.le_trans h.acked hd.stored.length_le
    constructor
    · exact h.acked
    · intro p hp
      rcases List.mem_append.mp hp with hp | hp
      · exact (h.kept p hp).imp_left (List.mem_append_left _)
      · exact .inl (List.mem_append_right _ hp)
    · intro p hp
      simp only [List.length_append]
      rcases List.mem_append.mp hp with hp | hp
      · have := h.unacked p hp
        omega
      · rw [List.mem_singleton.mp hp, Piece.stop]
        dsimp only
        omega
    · refine List.pairwise_append.mpr ⟨h.ordered, List.pairwise_singleton _ _, ?_⟩
      intro p hp q hq
      have hstop := (h.unacked p hp).2
      rw [List.mem_singleton.mp hq]
      exact Nat.le_trans hstop (Nat.le_add_right _ _)
    · obtain ⟨k, hk, hrun, hrest⟩ := h.rest
      have hle : k ≤ ch.sent.length := Nat.le_trans hk hacked
      refine ⟨k, hk, hrun.concat ?_, ?_⟩
      · rw [hrest, List.length_drop]
        exact (Nat.add_sub_cancel' hle).symm
      · rw [Piece.bodies_concat, hrest, List.drop_append_of_le_length hle]

end Emit

@[simp] theorem store_nil (ch : Channel α) : ch.store [] = ch := by
  rw [store, List.append_nil]

/-- A piece from the wire is stored only where it continues what is stored. -/
theorem Delivers.store (h : ch.Delivers) {p : Piece α} (hp : p ∈ ch.wire)
    (hstart : p.start = ch.stored.length) : (ch.store p.body).Delivers :=
  ⟨h.wire, (h.wire p hp).extends h.stored hstart⟩

theorem Acknowledges.store (h : ch.Acknowledges) (b : List α) : (ch.store b).Acknowledges where
  acked := by
    have := h.acked
    simp only [Channel.store, List.length_append]
    omega
  kept := h.kept
  unacked := h.unacked
  ordered := h.ordered
  rest := h.rest

theorem Delivers.ack (h : ch.Delivers) (n : Nat) : (ch.ack n).Delivers := ⟨h.wire, h.stored⟩

theorem Delivers.restart (h : ch.Delivers) : ch.restart.Delivers :=
  ⟨h.wire, ⟨_, rfl⟩⟩

/-- In order, giving up the oldest pieces up to a place gives up exactly the
pieces that end there or before. -/
theorem mem_dropWhile_stop {l : List (Piece α)} {n : Nat}
    (hl : l.Pairwise fun p q => p.stop ≤ q.stop) {p : Piece α} :
    p ∈ l.dropWhile (fun p => decide (p.stop ≤ n)) ↔ p ∈ l ∧ n < p.stop := by
  induction l with
  | nil => simp
  | cons q l ih =>
      obtain ⟨hq, hl⟩ := List.pairwise_cons.mp hl
      by_cases hn : q.stop ≤ n
      · rw [List.dropWhile_cons_of_pos (by simpa using hn), ih hl, List.mem_cons]
        constructor
        · exact fun h => ⟨.inr h.1, h.2⟩
        · rintro ⟨rfl | h, hlt⟩
          · omega
          · exact ⟨h, hlt⟩
      · rw [List.dropWhile_cons_of_neg (by simpa using hn)]
        refine ⟨fun h => ⟨h, ?_⟩, And.left⟩
        rcases List.mem_cons.mp h with rfl | h
        · omega
        · have := hq p h
          omega

theorem Acknowledges.ack (h : ch.Acknowledges) {n : Nat} (hn : ch.acked ≤ n)
    (hstored : n ≤ ch.stored.length) : (ch.ack n).Acknowledges where
  acked := hstored
  kept := by
    intro p hp
    by_cases hle : p.stop ≤ n
    · exact .inr hle
    · refine .inl ((mem_dropWhile_stop h.ordered).mpr ⟨?_, Nat.lt_of_not_le hle⟩)
      exact (h.kept p hp).resolve_right (by omega)
  unacked := by
    intro p hp
    obtain ⟨hmem, hlt⟩ := (mem_dropWhile_stop h.ordered).mp hp
    exact ⟨hlt, (h.unacked p hmem).2⟩
  ordered := h.ordered.sublist (List.dropWhile_sublist _)
  rest := by
    obtain ⟨k, hk, hrun, hrest⟩ := h.rest
    exact hrun.dropWhile hrest (Nat.le_trans hk hn)

/-- An old acknowledgement changes nothing. -/
theorem Acknowledges.ack_acked (h : ch.Acknowledges) : ch.ack ch.acked = ch := by
  have hkeep : ch.pending.dropWhile (fun p => decide (p.stop ≤ ch.acked)) = ch.pending := by
    cases hl : ch.pending with
    | nil => rfl
    | cons p l =>
        have := (h.unacked p (by rw [hl]; exact List.mem_cons_self)).1
        rw [List.dropWhile_cons_of_neg (by simpa using this)]
  rw [Channel.ack, hkeep]

/-- A piece that is no longer kept is stored at its place. -/
theorem Acknowledges.within_stored (h : ch.Acknowledges) (hd : ch.Delivers) {p : Piece α}
    (hp : p ∈ ch.wire) : p ∈ ch.pending ∨ p.Within ch.stored :=
  (h.kept p hp).imp_right fun hstop =>
    (hd.wire p hp).restrict hd.stored (Nat.le_trans hstop h.acked)

/-- The stream is what is stored, followed by the rest of what is kept. -/
theorem Acknowledges.sent_eq (h : ch.Acknowledges) (hd : ch.Delivers) :
    ∃ k, ch.sent = ch.stored ++ (Piece.bodies ch.pending).drop k := by
  obtain ⟨k, hk, -, hrest⟩ := h.rest
  refine ⟨ch.stored.length - k, ?_⟩
  rw [hrest, List.drop_drop, Nat.add_sub_cancel' (Nat.le_trans hk h.acked)]
  obtain ⟨rest, hsent⟩ := hd.stored
  rw [← hsent, List.drop_left]

end Channel

end Transfer
