import Mathlib
import TcpState.Network.Symbol

/-!
# The send buffer as the sending half of a channel

Counted from the initial sequence number, `unack` and `next` are the
acknowledged and the emitted length of the stream, and the retransmit queue
holds the pending pieces. The comparisons on the circle agree with the order of
the counts as long as the stream is short.
-/

namespace TcpState

open Transfer (Piece Channel)

/-- The segment is a copy of the piece. -/
structure Copies (isn : SeqN) (seg : SegmentMeta) (p : Piece Symbol) : Prop where
  body : p.body = seg.symbols
  seqn : seg.seqn = isn + BitVec.ofNat 32 p.start

theorem Copies.seqnAfter {isn : SeqN} {seg : SegmentMeta} {p : Piece Symbol}
    (h : Copies isn seg p) : seg.seqnAfter = isn + BitVec.ofNat 32 p.stop := by
  rw [SegmentMeta.seqnAfter, h.seqn, seg.seqSize_eq_ofNat, Circular.add_ofNat_add, Piece.stop,
    h.body]

/-- Dropping related elements from the front keeps lists related. -/
theorem forall₂_dropWhile {α β : Type*} {R : α → β → Prop} {f : α → Bool} {g : β → Bool}
    {l : List α} {m : List β} (h : List.Forall₂ R l m)
    (hfg : ∀ a, ∀ b ∈ m, R a b → f a = g b) :
    List.Forall₂ R (l.dropWhile f) (m.dropWhile g) := by
  induction h with
  | nil => exact .nil
  | @cons a b l m hab h ih =>
      have heq := hfg a b List.mem_cons_self hab
      by_cases hg : g b = true
      · rw [List.dropWhile_cons_of_pos hg, List.dropWhile_cons_of_pos (heq.trans hg)]
        exact ih fun a b hb => hfg a b (List.mem_cons_of_mem _ hb)
      · rw [List.dropWhile_cons_of_neg hg, List.dropWhile_cons_of_neg (by rwa [heq])]
        exact .cons hab h

theorem forall₂_exists_left {α β : Type*} {R : α → β → Prop} {l : List α} {m : List β}
    (h : List.Forall₂ R l m) {b : β} (hb : b ∈ m) : ∃ a ∈ l, R a b := by
  induction h with
  | nil => cases hb
  | @cons a b' l m hab _ ih =>
      rcases List.mem_cons.mp hb with rfl | hb
      · exact ⟨a, List.mem_cons_self, hab⟩
      · obtain ⟨a', ha', hab'⟩ := ih hb
        exact ⟨a', List.mem_cons_of_mem _ ha', hab'⟩

/-- Copies carry the bytes of their pieces. -/
theorem bytes_bodies {isn : SeqN} {l : List SegmentMeta} {m : List (Piece Symbol)}
    (h : List.Forall₂ (Copies isn) l m) :
    Symbol.bytes (Piece.bodies m) = (l.map SegmentMeta.data).flatten := by
  induction h with
  | nil => rfl
  | cons hcopy _ ih =>
      rw [Piece.bodies_cons, Symbol.bytes_append, hcopy.body, SegmentMeta.bytes_symbols, ih,
        List.map_cons, List.flatten_cons]

namespace TxBuffer

/-- The data kept for resending, oldest first. -/
def keptData (tx : TxBuffer) : List UInt8 := (tx.reTx.map SegmentMeta.data).flatten

/-- The send buffer holds the sending half of the channel. -/
structure Realises (tx : TxBuffer) (isn : SeqN) (ch : Channel Symbol) : Prop where
  initSeqn : tx.initSeqn = isn
  unack : tx.unack = isn + BitVec.ofNat 32 ch.acked
  next : tx.next = isn + BitVec.ofNat 32 ch.sent.length
  acked : ch.acked ≤ ch.sent.length
  reTx : List.Forall₂ (Copies isn) tx.reTx ch.pending

/-- The longest stream for which every comparison is in order. -/
def maxLength : Nat := 2 ^ 31 + 1

variable {tx tx' : TxBuffer} {isn : SeqN} {ch : Channel Symbol}

theorem Realises.congr (h : tx.Realises isn ch) (hinit : tx'.initSeqn = tx.initSeqn)
    (hunack : tx'.unack = tx.unack) (hnext : tx'.next = tx.next) (hre : tx'.reTx = tx.reTx) :
    tx'.Realises isn ch where
  initSeqn := hinit.trans h.initSeqn
  unack := hunack.trans h.unack
  next := hnext.trans h.next
  acked := h.acked
  reTx := hre ▸ h.reTx

/-- Sending a segment at `next` emits what it carries. -/
theorem Realises.emit (h : tx.Realises isn ch) {seg : SegmentMeta} (hseqn : seg.seqn = tx.next)
    (hlen : seg.symbols.length < 2 ^ 32) (hinit : tx'.initSeqn = tx.initSeqn)
    (hunack : tx'.unack = tx.unack) (hnext : tx'.next = tx.next + seg.seqSize)
    (hre : tx'.reTx = tx.reTx ++ if seg.seqSize = 0#32 then [] else [seg]) :
    tx'.Realises isn (ch.emit seg.symbols) := by
  have hsize : seg.seqSize = 0#32 ↔ seg.symbols = [] := by
    rw [seg.seqSize_eq_ofNat, ← BitVec.toNat_inj, BitVec.toNat_ofNat, Nat.mod_eq_of_lt hlen]
    simp
  constructor
  · exact hinit.trans h.initSeqn
  · rw [Channel.emit_acked, hunack, h.unack]
  · rw [Channel.emit_sent, List.length_append, hnext, h.next, seg.seqSize_eq_ofNat,
      Circular.add_ofNat_add]
  · rw [Channel.emit_sent, Channel.emit_acked, List.length_append]
    exact Nat.le_add_right_of_le h.acked
  · rw [hre]
    by_cases hnil : seg.symbols = []
    · rw [if_pos (hsize.mpr hnil), List.append_nil, hnil, Channel.emit_nil]
      exact h.reTx
    · rw [if_neg (hsize.not.mpr hnil), Channel.emit, if_neg hnil]
      exact List.rel_append h.reTx (.cons ⟨rfl, hseqn.trans h.next⟩ .nil)

/-- An acknowledgement in range is not older than the last one. -/
theorem Realises.acked_le (h : tx.Realises isn ch) (hlen : ch.sent.length ≤ maxLength) {n : Nat}
    {ackn : SeqN} (hackn : ackn = isn + BitVec.ofNat 32 n)
    (hrange : ackn.inRangeInclusive tx.unack tx.next = true) : ch.acked ≤ n := by
  have hle := h.acked
  rw [maxLength] at hlen
  rw [SeqN.inRangeInclusive_iff, hackn, h.unack, h.next,
    Circular.span_add_add isn h.acked (by omega)] at hrange
  by_contra hlt
  rw [Circular.span_add_back isn (Nat.lt_of_not_le hlt) (by omega)] at hrange
  omega

/-- Acknowledging up to a count drops the segments that end there or before.
Once something has been acknowledged no segment ends at the first number. -/
theorem Realises.ack (h : tx.Realises isn ch) (ha : ch.Acknowledges)
    (hlen : ch.sent.length ≤ maxLength) (hsmall : ch.acked = 0 → ch.sent.length ≤ 2) {n : Nat}
    (hpos : 1 ≤ n) (hacked : ch.acked ≤ n) (hn : n ≤ ch.sent.length) {ackn : SeqN}
    (hackn : ackn = isn + BitVec.ofNat 32 n) (hinit : tx'.initSeqn = tx.initSeqn)
    (hunack : tx'.unack = ackn) (hnext : tx'.next = tx.next)
    (hre : tx'.reTx = if tx.unack = ackn then tx.reTx
      else tx.reTx.dropWhile fun head => head.seqnAfter.lte ackn) :
    tx'.Realises isn (ch.ack n) := by
  rw [maxLength] at hlen
  refine ⟨hinit.trans h.initSeqn, hunack.trans hackn, hnext.trans h.next, hn, ?_⟩
  rw [hre]
  split
  · rename_i hold
    rw [h.unack, hackn, Circular.add_ofNat_inj isn (by omega) (by omega)] at hold
    rw [← hold, ha.ack_acked]
    exact h.reTx
  · refine forall₂_dropWhile h.reTx fun seg p hp hcopy => ?_
    obtain ⟨hstop, hle⟩ := ha.unacked p hp
    rw [Bool.eq_iff_iff, SeqN.lte_iff, decide_eq_true_iff, hcopy.seqnAfter, hackn]
    rcases Nat.lt_or_ge n p.stop with hlt | hge
    · rw [Circular.span_add_back isn hlt (by omega)]
      omega
    · rw [Circular.span_add_add isn hge (by omega)]
      by_cases hzero : ch.acked = 0
      · have := hsmall hzero
        omega
      · omega

end TxBuffer

end TcpState
