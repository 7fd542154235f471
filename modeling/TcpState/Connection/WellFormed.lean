import TcpState.Connection.Run
import TcpState.Connection.SegmentSteps

/-!
# What holds of every reachable connection

`WellFormed` collects the facts that hold after every operation against any
peer. It is proved once for each step of `on_segment` and for each call.
-/

namespace TcpState

/-- The segments the retransmit queue may hold: SYN without data, or an
acknowledging segment with data or a FIN, never both. -/
structure Retransmittable (seg : SegmentMeta) : Prop where
  noRst : seg.hasRst = false
  short : seg.data.length ≤ maxSegmentSize
  alone : seg.hasFin = true → seg.data = []
  acked : seg.hasSyn = false → seg.hasAck = true
  bare : seg.hasSyn = true → seg.data = [] ∧ seg.hasFin = false

/-- The segments that open a connection take one sequence number. -/
theorem seqSize_of_syn {seg : SegmentMeta} (hflags : seg.flags = .syn ∨ seg.flags = .syn ||| .ack)
    (hdata : seg.data = []) : seg.seqSize = 1#32 := by
  rcases hflags with hflags | hflags <;> simp [SegmentMeta.seqSize, hflags, hdata]

theorem Retransmittable.of_syn {seg : SegmentMeta}
    (hflags : seg.flags = .syn ∨ seg.flags = .syn ||| .ack) (hdata : seg.data = []) :
    Retransmittable seg := by
  rcases hflags with hflags | hflags <;>
    constructor <;>
    simp [SegmentMeta.hasRst, SegmentMeta.hasFin, SegmentMeta.hasSyn, SegmentMeta.hasAck, hflags,
      hdata]

namespace Connection

variable {Addr Time : Type}

/-- The facts that do not mention the state. -/
structure Steady (c : Connection Addr Time) : Prop where
  dupAck : c.dupAckCount = 0#8
  congestion : initialWindowSize.toNat ≤ c.congestionWindow.toNat
  rxWindow : c.rx.window = initialWindowSize
  /-- The output queue is empty when its FIN marker is set. -/
  marked : c.tx.tx.fin = true → c.tx.tx.bytes = []
  reTx : ∀ seg ∈ c.tx.reTx, Retransmittable seg

structure WellFormed (c : Connection Addr Time) : Prop extends Steady c where
  wroteFin : c.connectionState.wroteFin = true → c.tx.tx.fin = true
  closePending : c.connectionState.closePending = true → c.tx.tx.fin = true
  readClosed : c.connectionState.readClosed = true → c.rx.buffer.fin = true
  readable : c.connectionState.readClosed = false → c.rx.done = false
  /-- Nothing is received or marked before the connection is open. -/
  early : c.connectionState.synced = false →
    c.tx.tx.fin = false ∧ c.rx.bytes = [] ∧ c.rx.buffer.fin = false
  idle : c.connectionState.idle = true → c.tx = .default ∧ c.rx = .default
  /-- During the handshake only our SYN is on the wire. -/
  opening : c.connectionState.opening = true →
    c.tx.unack = c.tx.initSeqn ∧ c.tx.next = c.tx.initSeqn + 1#32
  /-- Data queued before the peer's ACK belongs to a suspended sender. -/
  queued : c.connectionState = .synReceived → c.tx.tx.bytes ≠ [] →
    ∃ p ∈ c.dataWaiters, p.1.isAcknowledged = true
  readers : (∃ p ∈ c.dataWaiters, p.1.isRecv = true) → c.connectionState.readOpen = true

variable {c c' : Connection Addr Time}

theorem Steady.congr (h : Steady c) (hdup : c'.dupAckCount = c.dupAckCount)
    (hcw : c'.congestionWindow = c.congestionWindow) (htx : c'.tx.tx = c.tx.tx)
    (hre : c'.tx.reTx = c.tx.reTx) (hwin : c'.rx.window = c.rx.window) : Steady c' where
  dupAck := by rw [hdup, h.dupAck]
  congestion := by rw [hcw]; exact h.congestion
  rxWindow := by rw [hwin, h.rxWindow]
  marked := by rw [htx]; exact h.marked
  reTx := by rw [hre]; exact h.reTx

/-- A cleared output queue carries no data while its FIN marker is set. -/
theorem Steady.outData_eq_nil (h : Steady c) (hfin : c.tx.tx.fin = true) : c.outData = [] := by
  rw [outData, h.marked hfin, List.take_nil]

/-- What `send_ack` builds may be queued for retransmission. -/
theorem outSegment_retransmittable (hmarked : c.tx.tx.fin = true → c.tx.tx.bytes = []) :
    Retransmittable c.outSegment where
  noRst := by simp
  short := c.outData_length_le
  alone := by
    intro hfin
    rw [outSegment_hasFin] at hfin
    simp only [sendsFin, Bool.and_eq_true] at hfin
    exact (congrArg (List.take _) (hmarked hfin.1.2)).trans List.take_nil
  acked := by simp
  bare := by simp

namespace WellFormed

/-- Only the state, the counters, the buffers and the data waiters matter. -/
theorem congr (h : WellFormed c) (hstate : c'.connectionState = c.connectionState)
    (hdup : c'.dupAckCount = c.dupAckCount) (hcw : c'.congestionWindow = c.congestionWindow)
    (htx : c'.tx = c.tx) (hrx : c'.rx = c.rx) (hw : c'.dataWaiters = c.dataWaiters) :
    WellFormed c' := by
  constructor
  case toSteady => exact h.toSteady.congr hdup hcw (by rw [htx]) (by rw [htx]) (by rw [hrx])
  all_goals simp only [hstate, htx, hrx, hw]
  exacts [h.wroteFin, h.closePending, h.readClosed, h.readable, h.early, h.idle, h.opening,
    h.queued, h.readers]

theorem send (h : WellFormed c) (seg : SegmentMeta) : WellFormed (c.send seg) :=
  h.congr rfl rfl rfl rfl rfl (dataWaiters_congr rfl)

theorem setTimerReTx [UserTime Time] (h : WellFormed c) (d : Duration) :
    WellFormed (c.setTimerReTx d) :=
  h.congr rfl rfl rfl rfl rfl (dataWaiters_congr rfl)

/-- A connection in a state without a peer, with fresh buffers. -/
theorem of_idle (hidle : c.connectionState.idle = true) (hdup : c.dupAckCount = 0#8)
    (hcw : c.congestionWindow = initialWindowSize) (htx : c.tx = .default)
    (hrx : c.rx = .default) (hw : c.dataWaiters = []) : WellFormed c := by
  have hsynced : c.connectionState.wroteFin = false ∧ c.connectionState.closePending = false ∧
      c.connectionState.readClosed = false ∧ c.connectionState.opening = false := by
    cases hs : c.connectionState <;> simp_all [ConnectionState.idle, ConnectionState.wroteFin,
      ConnectionState.closePending, ConnectionState.readClosed, ConnectionState.opening]
  obtain ⟨hwrote, hpending, hread, hopening⟩ := hsynced
  constructor
  case toSteady => constructor <;> simp [hdup, hcw, htx, hrx, RxBuffer.default, TxBuffer.default]
  all_goals simp only [htx, hrx, hw, hwrote, hpending, hread, hopening]
  all_goals simp [RxBuffer.default, TxBuffer.default, RxBuffer.bytes]

theorem clear (c : Connection Addr Time) : WellFormed c.clear :=
  of_idle rfl rfl rfl rfl rfl (by simp)

theorem reset (c : Connection Addr Time) : WellFormed c.reset :=
  of_idle rfl rfl rfl rfl rfl (dataWaiters_clear c)

theorem clear_entered (c : Connection Addr Time) {state : ConnectionState}
    (hidle : state.idle = true) : WellFormed (c.clear.entered state) :=
  of_idle (by simpa using hidle) (by simp) (by simp) (by simp) (by simp) (by simp)

/-- The facts that matter once the handshake is over. -/
theorem of_synced (hs : c.connectionState.synced = true) (hsteady : Steady c)
    (hwrote : c.connectionState.wroteFin = true ∨ c.connectionState.closePending = true →
      c.tx.tx.fin = true)
    (hread : c.connectionState.readClosed = true → c.rx.buffer.fin = true)
    (hdone : c.connectionState.readClosed = false → c.rx.done = false)
    (hreaders : (∃ p ∈ c.dataWaiters, p.1.isRecv = true) → c.connectionState.readOpen = true) :
    WellFormed c where
  toSteady := hsteady
  wroteFin := fun h => hwrote (.inl h)
  closePending := fun h => hwrote (.inr h)
  readClosed := hread
  readable := hdone
  early := fun h => by rw [hs] at h; cases h
  idle := fun h => by
    cases hst : c.connectionState <;> simp_all [ConnectionState.idle, ConnectionState.synced]
  opening := fun h => by
    cases hst : c.connectionState <;> simp_all [ConnectionState.opening, ConnectionState.synced]
  queued := fun h => by rw [h] at hs; cases hs
  readers := hreaders

/-- Resuming waiters is harmless unless it drops the senders of a handshake. -/
theorem triggerEvent (h : WellFormed c) {f : WaitUntil → Bool} {r : Except Error Unit}
    (hf : c.connectionState = .synReceived → ∀ w : WaitUntil, w.isAcknowledged = true →
      f w = false) : WellFormed (c.triggerEvent f r) := by
  have hmem (p : WaitUntil × Cookie) : p ∈ (c.triggerEvent f r).dataWaiters ↔
      p ∈ c.dataWaiters ∧ f p.1 = false := by
    simp only [mem_dataWaiters, triggerEvent_suspended, List.mem_filter, Bool.not_eq_true']
    tauto
  constructor
  case toSteady => exact h.toSteady.congr rfl rfl rfl rfl rfl
  all_goals simp only [triggerEvent_connectionState, triggerEvent_tx, triggerEvent_rx, hmem]
  case queued =>
    intro ho hb
    obtain ⟨p, hp, ha⟩ := h.queued ho hb
    exact ⟨p, ⟨hp, hf ho p.1 ha⟩, ha⟩
  case readers =>
    rintro ⟨p, ⟨hp, -⟩, hr⟩
    exact h.readers ⟨p, hp, hr⟩
  exacts [h.wroteFin, h.closePending, h.readClosed, h.readable, h.early, h.idle, h.opening]

/-- Suspending a call is harmless; readers wait only while data may come. -/
theorem suspend (h : WellFormed c) {w : WaitUntil}
    (hw : w.isRecv = true → c.connectionState.readOpen = true) : WellFormed (c.suspend w) := by
  constructor
  case toSteady => exact h.toSteady.congr rfl rfl rfl rfl rfl
  case queued =>
    intro ho hb
    obtain ⟨p, hp, ha⟩ := h.queued ho hb
    refine ⟨p, ?_, ha⟩
    rw [dataWaiters_suspend]
    exact List.mem_append_left _ hp
  case readers =>
    rintro ⟨p, hp, hr⟩
    rw [dataWaiters_suspend, List.mem_append] at hp
    rcases hp with hp | hp
    · exact h.readers ⟨p, hp, hr⟩
    · split at hp
      · rw [List.mem_singleton] at hp
        subst hp
        exact hw hr
      · cases hp
  exacts [h.wroteFin, h.closePending, h.readClosed, h.readable, h.early, h.idle, h.opening]

end WellFormed

end Connection

end TcpState
