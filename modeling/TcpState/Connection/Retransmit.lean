import TcpState.Connection.Send
import TcpState.Foundation.Tiling

/-!
# The retransmit queue along a run

The queue tiles the arc from the start of its first segment to `next`, and the
oldest unacknowledged number lies in that first segment. Sending appends a tile
and an acknowledgement drops tiles from the front.
-/

namespace TcpState

open Circular (span Tiles total)

namespace TxBuffer

/-- The queue is ordered without gaps up to `next`, and `unack` is in its first
segment. -/
structure Ordered (tx : TxBuffer) : Prop where
  contiguous : tx.reTx.IsChain fun seg following => following.seqn = seg.seqnAfter
  last : ∀ seg ∈ tx.reTx.getLast?, seg.seqnAfter = tx.next
  head : ∀ seg ∈ tx.reTx.head?, span seg.seqn tx.unack < span seg.seqn seg.seqnAfter
  empty : tx.reTx = [] ↔ tx.unack = tx.next

/-- `unack` moves forward to a number up to `next`, and `next` moves forward
from there. -/
structure Forward (tx tx' : TxBuffer) : Prop where
  unack : span tx.unack tx'.unack ≤ span tx.unack tx.next
  next : span tx'.unack tx'.next = span tx'.unack tx.next + span tx.next tx'.next

/-- The queue with the start of its first segment and the part of it that is
already acknowledged. The lengths are counted without wrapping. -/
structure TiledFrom (tx : TxBuffer) (s : SeqN) (off : Nat) : Prop where
  tiles : Tiles SegmentMeta.seqn SegmentMeta.seqSize s tx.reTx tx.next
  unack : tx.unack = s + BitVec.ofNat 32 off
  total : total SegmentMeta.seqSize tx.reTx = off + span tx.unack tx.next
  nil : tx.reTx = [] → off = 0
  head : ∀ seg ∈ tx.reTx.head?, off < seg.seqSize.toNat

def Tiled (tx : TxBuffer) : Prop := ∃ s off, tx.TiledFrom s off

variable {tx tx' : TxBuffer} {seg : SegmentMeta}

theorem Tiled.ordered (h : tx.Tiled) : tx.Ordered := by
  obtain ⟨s, off, h⟩ := h
  constructor
  · exact h.tiles.isChain
  · exact h.tiles.last
  · intro seg hseg
    have hoff := h.head seg hseg
    have hsize : span seg.seqn seg.seqnAfter = seg.seqSize.toNat := by
      have hend := Circular.span_add_ofNat seg.seqn seg.seqSize.isLt
      rwa [BitVec.ofNat_toNat, BitVec.setWidth_eq] at hend
    rw [hsize, h.unack, h.tiles.head seg hseg,
      Circular.span_add_ofNat s (Nat.lt_trans hoff seg.seqSize.isLt)]
    exact hoff
  · have htotal := h.total
    constructor
    · intro hnil
      rw [hnil, Circular.total_nil] at htotal
      exact (Circular.span_eq_zero_iff.mp (by omega)).symm
    · intro heq
      rw [heq, Circular.span_self] at htotal
      cases hre : tx.reTx with
      | nil => rfl
      | cons seg rest =>
          have hoff := h.head seg (by rw [hre]; rfl)
          rw [hre, Circular.total_cons] at htotal
          omega

/-- An empty queue in front of `next`. -/
theorem Tiled.of_nil (hre : tx.reTx = []) (hunack : tx.unack = tx.next) : tx.Tiled := by
  refine ⟨tx.next, 0, ?_⟩
  constructor
  · rw [hre]
    rfl
  · rw [hunack]
    simp
  · rw [hre, hunack, Circular.span_self]
    rfl
  · exact fun _ => rfl
  · rw [hre]
    exact fun _ h => absurd h (Option.not_mem_none _)

theorem Tiled.congr (h : tx.Tiled) (hre : tx'.reTx = tx.reTx) (hunack : tx'.unack = tx.unack)
    (hnext : tx'.next = tx.next) : tx'.Tiled := by
  obtain ⟨s, off, h⟩ := h
  refine ⟨s, off, ?_⟩
  constructor
  · rw [hre, hnext]
    exact h.tiles
  · rw [hunack]
    exact h.unack
  · rw [hre, hunack, hnext]
    exact h.total
  · rw [hre]
    exact h.nil
  · rw [hre]
    exact h.head

theorem span_send (hflight : span tx.unack tx.next < 2 ^ 31) (hsize : seg.seqSize.toNat < 2 ^ 31) :
    span tx.unack (tx.next + seg.seqSize) = span tx.unack tx.next + seg.seqSize.toNat := by
  have hnext : tx.next + seg.seqSize =
      tx.unack + BitVec.ofNat 32 (span tx.unack tx.next + seg.seqSize.toNat) := by
    rw [← Circular.add_ofNat_add, Circular.add_ofNat_span, BitVec.ofNat_toNat,
      BitVec.setWidth_eq]
  rw [hnext, Circular.span_add_ofNat _ (by omega)]

/-- A segment sent at `next` is a further tile. -/
theorem Tiled.send (h : tx.Tiled) (hflight : span tx.unack tx.next < 2 ^ 31)
    (hseqn : seg.seqn = tx.next) (hsize : seg.seqSize.toNat < 2 ^ 31)
    (hunack : tx'.unack = tx.unack) (hnext : tx'.next = tx.next + seg.seqSize)
    (hre : tx'.reTx = tx.reTx ++ if seg.seqSize = 0#32 then [] else [seg]) : tx'.Tiled := by
  by_cases hzero : seg.seqSize = 0#32
  · rw [if_pos hzero, List.append_nil] at hre
    rw [hzero, BitVec.add_zero] at hnext
    exact h.congr hre hunack hnext
  rw [if_neg hzero] at hre
  obtain ⟨s, off, h⟩ := h
  refine ⟨s, off, ?_⟩
  have hpos : 0 < seg.seqSize.toNat := by
    rw [← BitVec.toNat_inj, BitVec.toNat_ofNat] at hzero
    omega
  constructor
  · rw [hre, hnext]
    exact h.tiles.append hseqn
  · rw [hunack]
    exact h.unack
  · rw [hre, Circular.total_append, h.total, hunack, hnext, span_send hflight hsize, Nat.add_assoc]
  · intro hnil
    rw [hre] at hnil
    exact absurd hnil (List.append_ne_nil_of_right_ne_nil _ (List.cons_ne_nil _ _))
  · intro first hfirst
    rw [hre] at hfirst
    cases hold : tx.reTx with
    | nil =>
        rw [hold] at hfirst
        obtain rfl : seg = first := by simpa using hfirst
        rw [h.nil hold]
        exact hpos
    | cons head rest =>
        rw [hold] at hfirst
        obtain rfl : head = first := by simpa using hfirst
        exact h.head head (by rw [hold]; rfl)

/-- An acknowledgement in range drops the tiles it covers. -/
theorem Tiled.ack (h : tx.Tiled) (hflight : span tx.unack tx.next < 2 ^ 31) {ackn : SeqN}
    (hrange : ackn.inRangeInclusive tx.unack tx.next = true) (hunack : tx'.unack = ackn)
    (hnext : tx'.next = tx.next)
    (hre : tx'.reTx = tx.reTx.dropWhile fun head => head.seqnAfter.lte ackn) : tx'.Tiled := by
  obtain ⟨s, off, h⟩ := h
  rw [SeqN.inRangeInclusive_iff] at hrange
  have hackn : ackn = s + BitVec.ofNat 32 (off + span tx.unack ackn) := by
    rw [← Circular.add_ofNat_add, ← h.unack, Circular.add_ofNat_span]
  have htotal := h.total
  obtain ⟨s', off', htiles, hpoint, hrest, hnil, hhead⟩ :=
    h.tiles.dropWhile (show 2 ^ 32 = 2 * 2 ^ 31 by decide) hackn
      (fun b => SeqN.lte_iff b.seqnAfter ackn) (by omega) (by omega)
      fun seg hseg => by have := h.head seg hseg; omega
  rw [← hre] at htiles hrest hnil hhead
  refine ⟨s', off', ?_⟩
  constructor
  · rw [hnext]
    exact htiles
  · rw [hunack]
    exact hpoint
  · rw [hunack, hnext, Circular.span_rebase hrange]
    omega
  · exact hnil
  · exact hhead

/-- An acknowledgement of up to everything, and then perhaps a segment. -/
theorem Forward.of_ack (hflight : span tx.unack tx.next < 2 ^ 31)
    (hrange : tx'.unack.inRangeInclusive tx.unack tx.next = true)
    (hsize : seg.seqSize.toNat < 2 ^ 31) (hnext : tx'.next = tx.next + seg.seqSize) :
    Forward tx tx' := by
  rw [SeqN.inRangeInclusive_iff] at hrange
  refine ⟨hrange, ?_⟩
  have hless : span tx'.unack tx.next < 2 ^ 31 := by
    rw [Circular.span_rebase hrange]
    omega
  have hmoved := @span_send { tx with unack := tx'.unack } seg hless hsize
  have hgrown : span tx.next (tx.next + seg.seqSize) = seg.seqSize.toNat := by
    have hend := Circular.span_add_ofNat tx.next seg.seqSize.isLt
    rwa [BitVec.ofNat_toNat, BitVec.setWidth_eq] at hend
  rw [hnext, hmoved, hgrown]

theorem Forward.of_eq (hunack : tx'.unack = tx.unack) (hnext : tx'.next = tx.next) :
    Forward tx tx' where
  unack := by
    rw [hunack, Circular.span_self]
    exact Nat.zero_le _
  next := by rw [hunack, hnext, Circular.span_self, Nat.add_zero]

end TxBuffer

namespace Connection

variable {Addr Time : Type} {c c₀ c' : Connection Addr Time}

open TxBuffer (Tiled Forward)

/-- Less than half of the sequence numbers are in flight. -/
def FlightShort (c : Connection Addr Time) (_ : Op Time) : Prop := c.inFlight < 2 ^ 31

instance (c : Connection Addr Time) (op : Op Time) : Decidable (c.FlightShort op) :=
  inferInstanceAs (Decidable (c.inFlight < 2 ^ 31))

theorem outSegment_seqSize_lt (c : Connection Addr Time) :
    c.outSegment.seqSize.toNat < 2 ^ 31 := by
  have hdata := c.outData_length_le
  have hfin := Bool.toNat_le c.sendsFin
  rw [outSegment_seqSize_toNat]
  rw [maxSegmentSize] at hdata
  omega

theorem TxSent.tiled (ht : TxSent c₀ c') (h : c₀.tx.Tiled) (hflight : c₀.inFlight < 2 ^ 31) :
    c'.tx.Tiled :=
  h.send hflight rfl c₀.outSegment_seqSize_lt ht.unack ht.next ht.reTx

/-- Sending moves `next` only. -/
theorem TxSent.forward (ht : TxSent c₀ c') (hunack : c₀.tx.unack = c.tx.unack)
    (hnext : c₀.tx.next = c.tx.next) (hflight : c.inFlight < 2 ^ 31) : Forward c.tx c'.tx := by
  refine .of_ack hflight ?_ c₀.outSegment_seqSize_lt (by rw [ht.next, hnext])
  rw [ht.unack, hunack, SeqN.inRangeInclusive_iff, Circular.span_self]
  exact Nat.zero_le _

/-- The queue after an acknowledgement, which may be a repeated one. -/
theorem tiled_ackedTx {seg : SegmentMeta} (h : c.tx.Tiled) (hflight : c.inFlight < 2 ^ 31)
    (hrange : seg.ackn.inRangeInclusive c.tx.unack c.tx.next = true) :
    (c.ackedTx seg).Tiled := by
  by_cases hold : c.tx.unack = seg.ackn
  · exact h.congr (if_pos hold) hold.symm rfl
  · exact h.ack hflight hrange rfl rfl (if_neg hold)

theorem span_ackedTx {seg : SegmentMeta} (hflight : c.inFlight < 2 ^ 31)
    (hrange : seg.ackn.inRangeInclusive c.tx.unack c.tx.next = true) :
    Circular.span seg.ackn c.tx.next < 2 ^ 31 := by
  rw [SeqN.inRangeInclusive_iff] at hrange
  rw [inFlight] at hflight
  rw [Circular.span_rebase hrange]
  omega

/-- The queue of a connection that has just sent its SYN. -/
theorem tiled_opening {tx : TxBuffer} {isn : SeqN} {syn : SegmentMeta}
    (htx : c'.tx = (tx.init isn).onSend syn) (hre : tx.reTx = []) (hseqn : syn.seqn = isn)
    (hsize : syn.seqSize = 1#32) : c'.tx.Tiled := by
  have hempty : (tx.init isn).Tiled := .of_nil hre rfl
  rw [htx]
  refine hempty.send ?_ hseqn (by rw [hsize]; decide) (by simp) (by simp) (by simp)
  rw [TxBuffer.init, Circular.span_self]
  decide

/-- One operation keeps the queue ordered and only moves forward, unless it
clears or opens the connection. -/
theorem TxEffect.tiled {op : Op Time} {out : Output} (effect : TxEffect c op out c')
    (hwf : WellFormed c) (h : c.tx.Tiled) (hflight : c.inFlight < 2 ^ 31) :
    c'.tx.Tiled ∧ (c.connectionState.idle = false → c'.connectionState.idle = false →
      Forward c.tx c'.tx) := by
  cases effect with
  | kept _ htx =>
      exact ⟨h.congr htx.reTx htx.unack htx.next, fun _ _ => .of_eq htx.unack htx.next⟩
  | cleared _ hidle _ htx =>
      refine ⟨?_, fun _ hno => by rw [hidle] at hno; cases hno⟩
      rw [htx]
      exact .of_nil rfl rfl
  | connecting hs _ hc =>
      have hidle : c.connectionState.idle = true := by
        rcases hs with hs | hs <;> rw [hs] <;> rfl
      refine ⟨?_, fun hno => by rw [hidle] at hno; cases hno⟩
      refine tiled_opening hc.tx ?_ rfl (seqSize_of_syn (.inl rfl) rfl)
      rw [(hwf.idle hidle).1]
      rfl
  | answered hst _ _ hc =>
      have hidle : c.connectionState.idle = true := by rw [hst]; rfl
      refine ⟨?_, fun hno => by rw [hidle] at hno; cases hno⟩
      refine @tiled_opening _ _ _ { c.tx with window := _ } _ _ hc.tx ?_ rfl
        (seqSize_of_syn (.inr rfl) rfl)
      change c.tx.reTx = []
      rw [(hwf.idle hidle).1]
      rfl
  | queued _ _ _ htx =>
      rw [htx]
      exact ⟨h.congr rfl rfl rfl, fun _ _ => .of_eq rfl rfl⟩
  | appended _ _ _ _ _ _ ht =>
      exact ⟨ht.tiled (h.congr rfl rfl rfl) hflight, fun _ _ => ht.forward rfl rfl hflight⟩
  | marked _ _ _ _ _ htx _ _ _ ht =>
      refine ⟨ht.tiled ?_ ?_, fun _ _ => ht.forward ?_ ?_ hflight⟩
      · rw [htx]
        exact h.congr rfl rfl rfl
      · rw [inFlight, htx]
        exact hflight
      · rw [htx]
        rfl
      · rw [htx]
        rfl
  | acked _ _ _ hrange htx =>
      rw [htx]
      refine ⟨tiled_ackedTx h hflight hrange, fun _ _ => ?_⟩
      refine @Forward.of_ack _ _ ⟨0#32, 0#32, 0#16, .ack, []⟩ hflight hrange (by decide) ?_
      exact (BitVec.add_zero _).symm
  | stored _ hstores htx _ _ _ ht =>
      refine ⟨ht.tiled ?_ ?_, fun _ _ => ?_⟩
      · rw [htx]
        exact tiled_ackedTx h hflight hstores.range
      · rw [inFlight, htx]
        exact span_ackedTx hflight hstores.range
      · refine .of_ack hflight ?_ (outSegment_seqSize_lt _) (by rw [ht.next, htx]; rfl)
        rw [ht.unack, htx]
        exact hstores.range
  | synAcked _ hrange =>
      refine ⟨h.ack hflight hrange rfl rfl rfl, fun _ _ => ?_⟩
      refine @Forward.of_ack _ _ ⟨0#32, 0#32, 0#16, .ack, []⟩ hflight hrange (by decide) ?_
      exact (BitVec.add_zero _).symm
  | opened _ hrange _ _ _ _ ht =>
      refine ⟨ht.tiled ?_ ?_, fun _ _ => ?_⟩
      · rw [entered_tx]
        exact h.ack hflight hrange rfl rfl rfl
      · rw [inFlight, entered_tx]
        exact @span_ackedTx _ _ c _ hflight hrange
      · refine .of_ack hflight ?_ (outSegment_seqSize_lt _) (by rw [ht.next, entered_tx]; rfl)
        rw [ht.unack, entered_tx]
        exact hrange

variable [UserTime Time]

/-- A property that every effect on the send side preserves holds along every
run. -/
theorem txInvariant {allowed : Connection Addr Time → Op Time → Prop}
    {P : Connection Addr Time → Prop} (hinit : ∀ c, Initial c → P c)
    (hstep : ∀ c op out c', WellFormed c → P c → allowed c op → TxEffect c op out c' → P c')
    {c : Connection Addr Time} (h : ReachableUnder allowed c) : P c := by
  refine Transition.ReachableUnder.invariant hinit ?_ h
  rintro c op c' hreach hp hallowed ⟨out, hc⟩
  have hwf : WellFormed c := Reachable.wellFormed hreach
  exact hstep c op out c' hwf hp hallowed (hwf.txEffect hc)

theorem tiled_of_reachable (h : ReachableUnder FlightShort c) : c.tx.Tiled := by
  refine txInvariant ?_ (fun c op out c' hwf hp hshort effect => (effect.tiled hwf hp hshort).1) h
  intro c hinit
  rw [((Reachable.wellFormed (.init hinit)).idle hinit.fresh.2.2).1]
  exact .of_nil rfl rfl

/-- Against any peer, while less than half of the sequence numbers are in
flight, the retransmit queue is ordered without gaps up to `next` and `unack`
is in its first segment; until the connection is cleared `unack` only moves
forward and never passes `next`. -/
theorem reTx_ordered (h : ReachableUnder FlightShort c) : c.tx.Ordered ∧
    ∀ op out c', c.FlightShort op → c.step op = .ok (c', out) →
      c.connectionState.idle = false → c'.connectionState.idle = false → Forward c.tx c'.tx := by
  have htiled := tiled_of_reachable h
  have hwf : WellFormed c := Reachable.wellFormed h.reachable
  exact ⟨htiled.ordered, fun op out c' hshort hc => ((hwf.txEffect hc).tiled hwf htiled hshort).2⟩

/-- Two segments in flight of which the first is acknowledged in part, next to
the wrap-around. -/
theorem reTx_ordered_partial : ∃ c : Connection Unit Nat, c.tx.reTx.length = 2 ∧ c.tx.Ordered ∧
    ∀ op out c', c.FlightShort op → c.step op = .ok (c', out) →
      c.connectionState.idle = false → c'.connectionState.idle = false → Forward c.tx c'.tx := by
  obtain ⟨c, hreach, hlen⟩ : ∃ c : Connection Unit Nat,
      ReachableUnder FlightShort c ∧ c.tx.reTx.length = 2 :=
    Transition.exists_reachableUnder step_of_next
      (initial_listening () .default { zeroUser with seqns := fun _ => 0xffffffff#32 })
      [.onSegment ⟨100#32, 0#32, 1000#16, .syn, []⟩,
       .onSegment ⟨101#32, 0#32, 1000#16, .ack, []⟩, .callSend [1, 2, 3], .callSend [4, 5],
       .onSegment ⟨101#32, 2#32, 1000#16, .ack, []⟩] (by decide)
  exact ⟨c, hlen, reTx_ordered hreach⟩

end Connection

end TcpState
