import TcpState.Model.Options
import TcpState.Model.Queue
import TcpState.Model.Segment

/-!
# Receive buffer
-/

namespace TcpState

structure RxBuffer where
  /-- ACK'd user-readable data. -/
  buffer : BlobQueue
  /-- Last ACK'd sequence number. -/
  ackd : SeqN
  done : Bool
  /-- Window size. -/
  window : BitVec 16
  /-- Initial sequence number. -/
  initSeqn : SeqN
deriving DecidableEq, Repr

namespace RxBuffer

def default : RxBuffer where
  buffer := .new
  ackd := .zero
  done := false
  window := initialWindowSize
  initSeqn := .zero

/-- Called in Listen on a SYN and in SynSent on a SYN-ACK. The number after
the SYN is expected next. -/
def init (rx : RxBuffer) (seqn : SeqN) : RxBuffer :=
  { rx with initSeqn := seqn, ackd := seqn + 1#32 }

def inWindow (rx : RxBuffer) (seqn : SeqN) : Bool :=
  seqn.inRangeInclusive rx.ackd (rx.ackd + rx.window.setWidth 32 - 1#32)

def windowSize (rx : RxBuffer) : BitVec 16 := rx.window

def availableBytes (rx : RxBuffer) : Nat := rx.buffer.availableBytes

/-- Takes up to `limit` bytes. A shorter result is asserted to end the stream. -/
def readBytes (rx : RxBuffer) (limit : Nat) : Res (RxBuffer × List UInt8) := do
  assert (rx.done = false)
  let (buffer, result, fin) ← rx.buffer.readBytes limit
  if result.length < limit then assert (fin = true)
  return ({ rx with buffer := buffer, done := fin }, result)

/-- Bytes from the network are written using this. The FIN marker is set
before the data is stored. -/
def write (rx : RxBuffer) (seg : SegmentMeta) : Res RxBuffer := do
  let rx := { rx with ackd := rx.ackd + seg.seqSize }
  let rx ← (if seg.flags.contains .fin then do
      debugAssert (rx.buffer.fin = false)
      return { rx with buffer := rx.buffer.markFin }
    else return rx)
  let buffer ← rx.buffer.writeBytes seg.data
  return { rx with buffer := buffer }

/-- The window field of new segments. -/
def currWindow (rx : RxBuffer) : BitVec 16 :=
  if rx.buffer.fin then 0#16
  else if rx.window.toNat ≤ rx.availableBytes then 0#16
  else rx.window - BitVec.ofNat 16 rx.availableBytes

/-- The stored bytes, not yet read. -/
def bytes (rx : RxBuffer) : List UInt8 := rx.buffer.bytes

theorem availableBytes_eq (rx : RxBuffer) : rx.availableBytes = rx.bytes.length :=
  rx.buffer.availableBytes_eq

/-- The advertised window is what is left of the full one. -/
theorem currWindow_toNat (rx : RxBuffer) :
    rx.currWindow.toNat = if rx.buffer.fin then 0 else rx.window.toNat - rx.bytes.length := by
  have hw := rx.window.isLt
  have hlen := rx.availableBytes_eq
  unfold currWindow
  split
  · rfl
  split
  · simp only [BitVec.toNat_ofNat]
    omega
  · rw [BitVec.toNat_sub, BitVec.toNat_ofNat]
    omega

@[simp] theorem bytes_default : default.bytes = [] := rfl

@[simp] theorem fin_default : default.buffer.fin = false := rfl

@[simp] theorem bytes_init (rx : RxBuffer) (seqn : SeqN) : (rx.init seqn).bytes = rx.bytes := rfl

@[simp] theorem window_init (rx : RxBuffer) (seqn : SeqN) :
    (rx.init seqn).window = rx.window := rfl

@[simp] theorem buffer_init (rx : RxBuffer) (seqn : SeqN) :
    (rx.init seqn).buffer = rx.buffer := rfl

/-- A store succeeds exactly when it does not put data or a second FIN behind
a FIN marker. Data that comes with the FIN is put behind it. -/
theorem write_succeeds_iff {rx : RxBuffer} {seg : SegmentMeta} :
    (∃ rx', rx.write seg = .ok rx') ↔
      (seg.hasFin = true → rx.buffer.fin = false ∧ seg.data = []) ∧
        (seg.data = [] ∨ rx.buffer.fin = false) := by
  cases hfin : seg.flags.contains .fin with
  | false =>
      have h := @BlobQueue.writeBytes_succeeds_iff rx.buffer seg.data
      simp [write, SegmentMeta.hasFin, hfin, Fallible.bind_ok_iff, pure, Except.pure] at h ⊢
      exact h
  | true =>
      have h := @BlobQueue.writeBytes_succeeds_iff rx.buffer.markFin seg.data
      simp [write, SegmentMeta.hasFin, hfin, debugAssert, Fallible.bind_ok_iff, pure,
        Except.pure] at h ⊢
      rw [h]
      grind

/-- A successful store appends the data, advances the acknowledged number by
the segment's size and sets the marker exactly with the FIN. -/
theorem write_spec {rx rx' : RxBuffer} {seg : SegmentMeta} (h : rx.write seg = .ok rx') :
    rx'.bytes = rx.bytes ++ seg.data ∧ rx'.buffer.fin = (rx.buffer.fin || seg.hasFin) ∧
      rx'.ackd = rx.ackd + seg.seqSize ∧ rx'.done = rx.done ∧ rx'.window = rx.window ∧
      rx'.initSeqn = rx.initSeqn := by
  simp only [write, Fallible.bind_ok_iff, Fallible.pure_ok_iff] at h
  obtain ⟨marked, hmarked, q, hq, rfl⟩ := h
  obtain ⟨hbytes, hfin, -⟩ := BlobQueue.writeBytes_spec hq
  split at hmarked
  · rename_i hseg
    simp only [Fallible.bind_ok_iff, Fallible.pure_ok_iff] at hmarked
    obtain ⟨_, -, rfl⟩ := hmarked
    simp [bytes, hbytes, hfin, SegmentMeta.hasFin, hseg]
  · rename_i hseg
    obtain rfl := Fallible.pure_ok_iff.mp hmarked
    simp [bytes, hbytes, hfin, SegmentMeta.hasFin, hseg]

/-- A successful read takes a prefix of the stored bytes and keeps the rest;
it is short only at the end of the stream. -/
theorem readBytes_spec {rx rx' : RxBuffer} {limit : Nat} {data : List UInt8}
    (h : rx.readBytes limit = .ok (rx', data)) :
    data = rx.bytes.take limit ∧ rx'.bytes = rx.bytes.drop limit ∧
      rx'.buffer.fin = rx.buffer.fin ∧ rx'.ackd = rx.ackd ∧ rx'.window = rx.window ∧
      rx'.initSeqn = rx.initSeqn ∧
      rx'.done = (decide (rx.bytes.length < limit) && rx.buffer.fin) ∧
      (data.length < limit → rx.buffer.fin = true) := by
  simp only [readBytes, assert, Fallible.bind_ok_iff, Fallible.ensure_eq_ok] at h
  obtain ⟨_, -, ⟨q, result, fin⟩, hread, hrest⟩ := h
  obtain ⟨rfl, hq, hmark, hfin⟩ := BlobQueue.readBytes_spec hread
  split at hrest
  · simp only [Fallible.bind_ok_iff, Fallible.ensure_eq_ok, Fallible.pure_ok_iff] at hrest
    obtain ⟨_, hend, hout⟩ := hrest
    obtain ⟨rfl, rfl⟩ := Prod.mk.inj hout
    rw [hfin] at hend
    exact ⟨rfl, hq, hmark, rfl, rfl, rfl, hfin, fun _ => (Bool.and_eq_true_iff.mp hend).2⟩
  · rename_i hshort
    obtain ⟨rfl, rfl⟩ := Prod.mk.inj (Fallible.pure_ok_iff.mp hrest)
    exact ⟨rfl, hq, hmark, rfl, rfl, rfl, hfin, fun h => absurd h hshort⟩

theorem readBytes_limit {rx : RxBuffer} {limit : Nat} {r : RxBuffer × List UInt8}
    (h : rx.readBytes limit = .ok r) : limit ≠ 0 := by
  simp only [readBytes, assert, Fallible.bind_ok_iff, Fallible.ensure_eq_ok] at h
  obtain ⟨_, -, _, hread, -⟩ := h
  exact (BlobQueue.readBytes_ok_iff.mp hread).1

theorem readBytes_succeeds {rx : RxBuffer} {limit : Nat} (hdone : rx.done = false)
    (hlimit : limit ≠ 0) (hend : rx.bytes.length < limit → rx.buffer.fin = true) :
    ∃ rx' data, rx.readBytes limit = .ok (rx', data) := by
  obtain ⟨q, data, fin, hread⟩ := BlobQueue.readBytes_succeeds (q := rx.buffer) hlimit
  obtain ⟨hdata, -, -, hfin⟩ := BlobQueue.readBytes_spec hread
  refine ⟨{ rx with buffer := q, done := fin }, data, ?_⟩
  have hshort : data.length < limit → fin = true := by
    intro hlt
    have hlen : rx.bytes.length < limit := by
      rw [hdata, List.length_take] at hlt
      simp only [bytes]
      omega
    rw [hfin, hend hlen]
    simpa [bytes] using hlen
  by_cases hlt : data.length < limit
  · simp [readBytes, assert, Fallible.ensure, hdone, hread, hlt, hshort hlt, pure, Except.pure]
  · simp [readBytes, assert, Fallible.ensure, hdone, hread, hlt, pure, Except.pure]

end RxBuffer

end TcpState
