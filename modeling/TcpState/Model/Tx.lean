import TcpState.Model.Queue
import TcpState.Model.Segment

/-!
# Transmit buffer
-/

namespace TcpState

structure TxBuffer where
  /-- Output data stream buffer, segmentized into the network and `reTx`. -/
  tx : BlobQueue
  /-- Retransmit queue, oldest first. -/
  reTx : List SegmentMeta
  /-- Oldest unacknowledged sequence number. -/
  unack : SeqN
  /-- Send sequence number to use when sending. -/
  next : SeqN
  initSeqn : SeqN
  window : BitVec 16
  /-- Last sent (seqn, ackn, window) tuple, to skip duplicates. -/
  lastSent : Option (SeqN × SeqN × BitVec 16)
deriving DecidableEq, Repr

namespace TxBuffer

def default : TxBuffer where
  tx := .new
  reTx := []
  unack := .zero
  next := .zero
  initSeqn := .zero
  window := 0#16
  lastSent := none

def init (tx : TxBuffer) (seqn : SeqN) : TxBuffer :=
  { tx with initSeqn := seqn, unack := seqn, next := seqn }

/-- Next index is within unack window. -/
def unackHasSpace (tx : TxBuffer) : Bool :=
  tx.next.lt (tx.unack + tx.window.setWidth 32)

/-- Number of bytes available in unack window, by a wrapping subtraction. -/
def spaceAvailable (tx : TxBuffer) : BitVec 32 :=
  let stop := tx.unack + tx.window.setWidth 32
  stop - tx.next

/-- This ACK packet is for a packet we sent, but not the next unack one. -/
def isNonOrderedAck (tx : TxBuffer) (ackn : SeqN) : Bool :=
  decide (ackn ≠ tx.unack) && ackn.inRangeInclusive tx.unack tx.next

def onSend (tx : TxBuffer) (seg : SegmentMeta) : TxBuffer :=
  let tx := { tx with lastSent := some (seg.seqn, seg.ackn, seg.window),
                      next := tx.next + seg.seqSize }
  if seg.seqSize ≠ 0#32 then { tx with reTx := tx.reTx ++ [seg] } else tx

/-- The sequence numbers in flight. -/
def flight (tx : TxBuffer) : Nat := Circular.span tx.unack tx.next

/-- The sequence numbers the window has room for. -/
def room (tx : TxBuffer) : Nat := tx.window.toNat - tx.flight

/-- The wrapping subtraction counts from `next` to the end of the window, nearly
a full turn when the window ends behind `next`. -/
theorem spaceAvailable_toNat (tx : TxBuffer) : tx.spaceAvailable.toNat =
    if tx.flight ≤ tx.window.toNat then tx.room else 2 ^ 32 - (tx.flight - tx.window.toNat) := by
  have hflight : tx.flight < 2 ^ 32 := (tx.next - tx.unack).isLt
  have hwindow := tx.window.isLt
  have hnext := Circular.add_ofNat_span tx.unack tx.next
  have hspace : tx.spaceAvailable.toNat = Circular.span tx.next
      (tx.unack + BitVec.ofNat 32 tx.window.toNat) := by
    rw [BitVec.ofNat_toNat]
    rfl
  rw [hspace, ← hnext]
  split
  · rename_i hle
    exact Circular.span_add_add tx.unack hle (by omega)
  · rename_i hlt
    exact Circular.span_add_back tx.unack (not_le.mp hlt) hflight

theorem unackHasSpace_iff (tx : TxBuffer) :
    tx.unackHasSpace = true ↔ tx.spaceAvailable.toNat < 2 ^ 31 := SeqN.lt_iff _ _

@[simp] theorem onSend_tx (tx : TxBuffer) (seg : SegmentMeta) : (tx.onSend seg).tx = tx.tx := by
  unfold onSend; split <;> rfl

@[simp] theorem onSend_unack (tx : TxBuffer) (seg : SegmentMeta) :
    (tx.onSend seg).unack = tx.unack := by
  unfold onSend; split <;> rfl

@[simp] theorem onSend_next (tx : TxBuffer) (seg : SegmentMeta) :
    (tx.onSend seg).next = tx.next + seg.seqSize := by
  unfold onSend; split <;> rfl

@[simp] theorem onSend_initSeqn (tx : TxBuffer) (seg : SegmentMeta) :
    (tx.onSend seg).initSeqn = tx.initSeqn := by
  unfold onSend; split <;> rfl

@[simp] theorem onSend_window (tx : TxBuffer) (seg : SegmentMeta) :
    (tx.onSend seg).window = tx.window := by
  unfold onSend; split <;> rfl

@[simp] theorem onSend_reTx (tx : TxBuffer) (seg : SegmentMeta) :
    (tx.onSend seg).reTx = tx.reTx ++ if seg.seqSize = 0#32 then [] else [seg] := by
  unfold onSend; split <;> simp_all

end TxBuffer

end TcpState
