import TcpState.Connection.StateChange
import TcpState.Model.Calls

/-!
# What one call of `send_ack` does

The data taken, whether a FIN goes out and the segment built are functions of
the connection before the call. `AckSent` lists the fields after it.
-/

namespace TcpState

namespace ConnectionState

/-- The state after a FIN has been put on the wire. -/
def withFin : ConnectionState → ConnectionState
  | .established _ rxState closeCalled closeActive =>
      .established .fin rxState closeCalled closeActive
  | _ => .established .fin .opened false false

end ConnectionState

namespace Connection

variable {Addr Time : Type}

/-- The suspended readers and senders. -/
def dataWaiters (c : Connection Addr Time) : List (WaitUntil × Cookie) :=
  c.events.suspended.filter fun p => p.1.isRecv || p.1.isAcknowledged

theorem mem_dataWaiters {c : Connection Addr Time} {p : WaitUntil × Cookie} :
    p ∈ c.dataWaiters ↔ p ∈ c.events.suspended ∧
      (p.1.isRecv = true ∨ p.1.isAcknowledged = true) := by
  simp [dataWaiters]

theorem anySuspended_iff {c : Connection Addr Time} :
    c.events.anySuspended WaitUntil.isAcknowledged = true ↔
      ∃ p ∈ c.dataWaiters, p.1.isAcknowledged = true := by
  rw [Events.anySuspended_iff]
  constructor
  · rintro ⟨p, hp, ha⟩
    exact ⟨p, mem_dataWaiters.mpr ⟨hp, .inr ha⟩, ha⟩
  · rintro ⟨p, hp, ha⟩
    exact ⟨p, (mem_dataWaiters.mp hp).1, ha⟩

/-- Resuming other waiters leaves readers and senders suspended. -/
theorem dataWaiters_filter {c c' : Connection Addr Time} {f : WaitUntil → Bool}
    (hs : c'.events.suspended = c.events.suspended.filter fun p => !f p.1)
    (hf : ∀ w : WaitUntil, (w.isRecv || w.isAcknowledged) = true → f w = false) :
    c'.dataWaiters = c.dataWaiters := by
  rw [dataWaiters, dataWaiters, hs, List.filter_filter]
  apply List.filter_congr
  intro p _
  cases hp : p.1.isRecv || p.1.isAcknowledged with
  | false => simp
  | true => simp [hf p.1 hp]

theorem dataWaiters_triggerEvent (c : Connection Addr Time) {f : WaitUntil → Bool}
    {r : Except Error Unit}
    (hf : ∀ w : WaitUntil, (w.isRecv || w.isAcknowledged) = true → f w = false) :
    (c.triggerEvent f r).dataWaiters = c.dataWaiters :=
  dataWaiters_filter rfl hf

theorem dataWaiters_congr {c c' : Connection Addr Time} (h : c'.events = c.events) :
    c'.dataWaiters = c.dataWaiters := by
  rw [dataWaiters, dataWaiters, h]

theorem dataWaiters_suspend (c : Connection Addr Time) (w : WaitUntil) :
    (c.suspend w).dataWaiters = c.dataWaiters ++
      if w.isRecv || w.isAcknowledged then [(w, c.events.nextCookie)] else [] := by
  simp only [dataWaiters, suspend, List.filter_append]
  cases w <;> rfl

@[simp] theorem dataWaiters_clear (c : Connection Addr Time) : c.clear.dataWaiters = [] := by
  simp [dataWaiters]

@[simp] theorem dataWaiters_entered (c : Connection Addr Time) (state : ConnectionState) :
    (c.entered state).dataWaiters = c.dataWaiters := by
  refine dataWaiters_filter (entered_suspended c state) fun w hw => ?_
  cases w with
  | recv count => exact state.releases_recv count
  | acknowledged seqn => exact state.releases_acknowledged seqn
  | _ => simp [WaitUntil.isRecv, WaitUntil.isAcknowledged] at hw

/-- The number of bytes one segment may carry now. -/
def outLimit (c : Connection Addr Time) : Nat :=
  min maxSegmentSize c.tx.spaceAvailable.toNat

def outData (c : Connection Addr Time) : List UInt8 := c.tx.tx.bytes.take c.outLimit

/-- The queue ends below the limit at its FIN marker and no FIN was sent. -/
def sendsFin (c : Connection Addr Time) : Bool :=
  decide (c.tx.tx.bytes.length < c.outLimit) && c.tx.tx.fin && !c.connectionState.wroteFin

/-- The flags of a segment from `send_ack`. -/
def ackFlags (fin : Bool) : SegmentFlags := if fin then .fin ||| .ack else .ack

def outSegment (c : Connection Addr Time) : SegmentMeta where
  seqn := c.tx.next
  ackn := c.rx.ackd
  window := c.rx.currWindow
  flags := ackFlags c.sendsFin
  data := c.outData

/-- The empty segment that repeats the last one is not sent. -/
def skipsRepeat (c : Connection Addr Time) : Prop :=
  c.outSegment.seqSize = 0#32 ∧
    some (c.outSegment.seqn, c.outSegment.ackn, c.outSegment.window) = c.tx.lastSent

instance (c : Connection Addr Time) : Decidable c.skipsRepeat := by
  unfold skipsRepeat
  infer_instance

theorem outData_length_le (c : Connection Addr Time) : c.outData.length ≤ maxSegmentSize := by
  rw [outData, List.length_take, outLimit]
  omega

@[simp] theorem outSegment_hasAck (c : Connection Addr Time) : c.outSegment.hasAck = true :=
  (by decide : ∀ b, (ackFlags b).contains .ack = true) c.sendsFin

@[simp] theorem outSegment_hasFin (c : Connection Addr Time) :
    c.outSegment.hasFin = c.sendsFin :=
  (by decide : ∀ b, (ackFlags b).contains .fin = b) c.sendsFin

@[simp] theorem outSegment_hasSyn (c : Connection Addr Time) : c.outSegment.hasSyn = false :=
  (by decide : ∀ b, (ackFlags b).contains .syn = false) c.sendsFin

@[simp] theorem outSegment_hasRst (c : Connection Addr Time) : c.outSegment.hasRst = false :=
  (by decide : ∀ b, (ackFlags b).contains .rst = false) c.sendsFin

/-- The segment takes one sequence number for each byte and one for its FIN. -/
theorem outSegment_seqSize (c : Connection Addr Time) :
    c.outSegment.seqSize = BitVec.ofNat 32 (c.outData.length + c.sendsFin.toNat) := by
  rw [SegmentMeta.seqSize_eq, outSegment_hasSyn, outSegment_hasFin]
  rfl

theorem outSegment_seqSize_toNat (c : Connection Addr Time) :
    c.outSegment.seqSize.toNat = c.outData.length + c.sendsFin.toNat := by
  have hlen := c.outData_length_le
  have hfin := Bool.toNat_le c.sendsFin
  rw [outSegment_seqSize, BitVec.toNat_ofNat, Nat.mod_eq_of_lt]
  simp only [maxSegmentSize] at hlen
  omega

theorem outSegment_seqSize_eq_zero (c : Connection Addr Time) :
    c.outSegment.seqSize = 0#32 ↔ c.outData = [] ∧ c.sendsFin = false := by
  rw [← BitVec.toNat_inj, outSegment_seqSize_toNat]
  cases c.sendsFin <;> simp

/-- What one segment takes stays within its limit, FIN included. -/
theorem outSegment_le_outLimit (c : Connection Addr Time) :
    c.outData.length + c.sendsFin.toNat ≤ c.outLimit := by
  have hlen : c.outData.length = min c.outLimit c.tx.tx.bytes.length := by
    rw [outData, List.length_take]
  cases hfin : c.sendsFin with
  | false => simp only [Bool.toNat_false]; omega
  | true =>
      have hlt : c.tx.tx.bytes.length < c.outLimit := by
        simp only [sendsFin, Bool.and_eq_true, decide_eq_true_iff] at hfin
        exact hfin.1.1
      simp only [Bool.toNat_true]
      omega

/-- What one segment takes fits in the space the window leaves, FIN included. -/
theorem outSegment_fits (c : Connection Addr Time) :
    c.outData.length + c.sendsFin.toNat ≤ c.tx.spaceAvailable.toNat :=
  c.outSegment_le_outLimit.trans (min_le_right _ _)

theorem takeOutput_spec {c c' : Connection Addr Time} {limit : Nat} {data : List UInt8}
    {done : Bool} (h : c.takeOutput limit = .ok (c', data, done)) :
    (∃ q : BlobQueue, q.bytes = c.tx.tx.bytes.drop limit ∧ q.fin = c.tx.tx.fin ∧
        c'.tx = { c.tx with tx := q }) ∧
      data = c.tx.tx.bytes.take limit ∧
      done = (decide (c.tx.tx.bytes.length < limit) && c.tx.tx.fin) ∧
      c'.connectionState = c.connectionState ∧ c'.rx = c.rx ∧
      c'.dupAckCount = c.dupAckCount ∧ c'.congestionWindow = c.congestionWindow ∧
      c'.timers = c.timers ∧ c'.timings = c.timings ∧
      c'.dataWaiters = c.dataWaiters ∧ c'.userData.sent = c.userData.sent := by
  rw [takeOutput] at h
  split at h
  · rename_i hzero
    subst hzero
    obtain ⟨rfl, hd⟩ := Prod.mk.inj (Fallible.pure_ok_iff.mp h)
    obtain ⟨rfl, rfl⟩ := Prod.mk.inj hd
    exact ⟨⟨c.tx.tx, by simp, rfl, rfl⟩, by simp, by simp, rfl, rfl, rfl, rfl, rfl, rfl, rfl, rfl⟩
  · simp only [Fallible.bind_ok_iff, Prod.exists, Fallible.pure_ok_iff, Prod.mk.injEq] at h
    obtain ⟨q, txData, txFin, hread, rfl, rfl, rfl⟩ := h
    obtain ⟨hdata, hrest, hfin, hdone⟩ := BlobQueue.readBytes_spec hread
    have hwait (c₁ : Connection Addr Time) :
        (c₁.triggerEvent (· == .txQueueEmpty) (.ok ())).dataWaiters = c₁.dataWaiters := by
      apply dataWaiters_triggerEvent
      intro w hw
      cases w <;> first | rfl | simp [WaitUntil.isRecv, WaitUntil.isAcknowledged] at hw
    refine ⟨⟨q, hrest, hfin, ?_⟩, hdata, hdone, ?_⟩
    · split <;> rfl
    · split
      · exact ⟨rfl, rfl, rfl, rfl, rfl, rfl, hwait _, triggerEvent_sent _ _ _⟩
      · exact ⟨rfl, rfl, rfl, rfl, rfl, rfl, rfl, rfl⟩

theorem takeOutput_succeeds (c : Connection Addr Time) (limit : Nat) :
    ∃ c' data done, c.takeOutput limit = .ok (c', data, done) := by
  rw [takeOutput]
  split
  · exact ⟨_, _, _, rfl⟩
  · rename_i hlimit
    obtain ⟨q, data, done, hread⟩ := BlobQueue.readBytes_succeeds (q := c.tx.tx) hlimit
    rw [hread, Fallible.ok_bind]
    exact ⟨_, _, _, rfl⟩

variable [UserTime Time]

/-- The fields after a successful `send_ack`. -/
structure AckSent (c c' : Connection Addr Time) : Prop where
  state : c'.connectionState =
    if c.sendsFin then c.connectionState.withFin else c.connectionState
  rx : c'.rx = c.rx
  bytes : c'.tx.tx.bytes = c.tx.tx.bytes.drop c.outLimit
  fin : c'.tx.tx.fin = c.tx.tx.fin
  unack : c'.tx.unack = c.tx.unack
  next : c'.tx.next = c.tx.next + c.outSegment.seqSize
  initSeqn : c'.tx.initSeqn = c.tx.initSeqn
  window : c'.tx.window = c.tx.window
  reTx : c'.tx.reTx = c.tx.reTx ++ if c.outSegment.seqSize = 0#32 then [] else [c.outSegment]
  dupAckCount : c'.dupAckCount = c.dupAckCount
  congestionWindow : c'.congestionWindow = c.congestionWindow
  waiters : c'.dataWaiters = c.dataWaiters
  sent : c'.userData.sent = c.userData.sent ++ if c.skipsRepeat then [] else [c.outSegment]

theorem takeFin_ok_iff {c c' : Connection Addr Time} {txFin : Bool} {flags : SegmentFlags} :
    c.takeFin txFin = .ok (c', flags) ↔ c.connectionState ≠ .closed ∧
      if txFin && !c.connectionState.wroteFin then
        c.connectionState ≠ .listen ∧ c.connectionState ≠ .reset ∧
          c' = c.entered c.connectionState.withFin ∧ flags = .fin ||| .ack
      else c' = c ∧ flags = .ack := by
  have hentered (s : ConnectionState) : c.stateSet s.withFin = c.entered s.withFin := by
    cases s <;> exact stateSet_eq_entered c (.inl (by decide))
  simp only [takeFin, Fallible.bind_ok_iff, ConnectionState.finSent_ok_iff]
  constructor
  · rintro ⟨b, ⟨hclosed, rfl⟩, h⟩
    refine ⟨hclosed, ?_⟩
    split at h
    · rename_i hfin
      rw [if_pos hfin]
      have hwrote : c.connectionState.wroteFin = false := by simp_all
      simp only [Fallible.bind_ok_iff, Fallible.pure_ok_iff, setState_ok_iff,
        Prod.mk.injEq] at h
      obtain ⟨cc, hcc, ca, hca, _, ⟨-, -, rfl⟩, rfl, rfl⟩ := h
      have hs := hentered c.connectionState
      cases hst : c.connectionState with
      | synSent | synReceived =>
          rw [hst] at hcc hca hs
          obtain rfl := Fallible.pure_ok_iff.mp hcc
          obtain rfl := Fallible.pure_ok_iff.mp hca
          exact ⟨by simp, by simp, hs, rfl⟩
      | established t r cc' ca' =>
          rw [hst] at hcc hca hs
          obtain rfl := Fallible.pure_ok_iff.mp hcc
          obtain rfl := Fallible.pure_ok_iff.mp hca
          exact ⟨by simp, by simp, hs, rfl⟩
      | listen => rw [hst] at hcc; cases hcc
      | reset => rw [hst] at hcc; cases hcc
      | closed => exact absurd hst hclosed
      | timeWait => rw [hst] at hcc; cases hcc
    · rename_i hfin
      rw [if_neg hfin]
      obtain ⟨rfl, rfl⟩ := Prod.mk.inj (Fallible.pure_ok_iff.mp h)
      exact ⟨rfl, rfl⟩
  · rintro ⟨hclosed, h⟩
    refine ⟨_, ⟨hclosed, rfl⟩, ?_⟩
    split at h
    · rename_i hfin
      obtain ⟨hlisten, hreset, rfl, rfl⟩ := h
      have hwrote : c.connectionState.wroteFin = false := by simp_all
      rw [if_pos hfin]
      simp only [Fallible.bind_ok_iff, Fallible.pure_ok_iff, setState_ok_iff]
      have hs := hentered c.connectionState
      cases hst : c.connectionState with
      | synSent | synReceived =>
          rw [hst] at hs
          exact ⟨false, rfl, false, rfl, _, ⟨trivial, by simp, rfl⟩, by rw [← hs]; rfl⟩
      | established t r cc ca =>
          rw [hst] at hs hwrote
          cases t with
          | opened =>
              refine ⟨cc, rfl, ca, rfl, _, ⟨?_, by simp, rfl⟩, by rw [← hs]; rfl⟩
              exact ⟨by decide, Nat.le_refl _, Bool.le_refl cc, Bool.le_refl ca,
                fun _ => Nat.le_refl _⟩
          | fin => simp [ConnectionState.wroteFin] at hwrote
          | closed => simp [ConnectionState.wroteFin] at hwrote
      | listen => exact absurd hst hlisten
      | reset => exact absurd hst hreset
      | closed => exact absurd hst hclosed
      | timeWait => rw [hst] at hwrote; simp [ConnectionState.wroteFin] at hwrote
    · rename_i hfin
      obtain ⟨rfl, rfl⟩ := h
      rw [if_neg hfin]
      rfl

theorem emit_spec (c : Connection Addr Time) (seg : SegmentMeta) :
    (c.emit seg).connectionState = c.connectionState ∧ (c.emit seg).rx = c.rx ∧
      (c.emit seg).tx.tx = c.tx.tx ∧ (c.emit seg).tx.unack = c.tx.unack ∧
      (c.emit seg).tx.next = c.tx.next + seg.seqSize ∧
      (c.emit seg).tx.initSeqn = c.tx.initSeqn ∧ (c.emit seg).tx.window = c.tx.window ∧
      (c.emit seg).tx.reTx = c.tx.reTx ++ (if seg.seqSize = 0#32 then [] else [seg]) ∧
      (c.emit seg).dupAckCount = c.dupAckCount ∧
      (c.emit seg).congestionWindow = c.congestionWindow ∧
      (c.emit seg).dataWaiters = c.dataWaiters ∧
      (c.emit seg).userData.sent = c.userData.sent ++
        (if seg.seqSize = 0#32 ∧ some (seg.seqn, seg.ackn, seg.window) = c.tx.lastSent then []
        else [seg]) := by
  by_cases hskip : seg.seqSize = 0#32 ∧ some (seg.seqn, seg.ackn, seg.window) = c.tx.lastSent
  · have hemit : c.emit seg = c := if_pos hskip
    rw [hemit, if_pos hskip, if_pos hskip.1, hskip.1]
    simp
  · rw [if_neg hskip]
    simp only [emit, if_neg hskip]
    split <;>
      exact ⟨rfl, rfl, by simp, by simp, by simp, by simp, by simp, by simp, rfl, rfl,
        dataWaiters_congr rfl, by simp⟩

theorem sendAck_spec {c c' : Connection Addr Time} (h : c.sendAck = .ok c') : AckSent c c' := by
  simp only [sendAck, Fallible.bind_ok_iff, Fallible.pure_ok_iff, Prod.exists] at h
  obtain ⟨c₁, data, done, htake, b, hsent, _, -, c₂, flags, hfin, rfl⟩ := h
  obtain ⟨⟨q, hq, hqfin, htx⟩, rfl, rfl, hstate, hrx, hdup, hcw, -, -, hwait, hsentlog⟩ :=
    takeOutput_spec htake
  obtain ⟨-, hfin⟩ := takeFin_ok_iff.mp hfin
  rw [hstate] at hfin
  have hdone : (decide (c.tx.tx.bytes.length < c.outLimit) && c.tx.tx.fin &&
      !c.connectionState.wroteFin) = c.sendsFin := rfl
  have hlimit : min maxSegmentSize c.tx.spaceAvailable.toNat = c.outLimit := rfl
  rw [hlimit] at hfin hq ⊢
  rw [hdone] at hfin
  have hdata : c.tx.tx.bytes.take c.outLimit = c.outData := rfl
  rw [hdata]
  -- The record the segment is built from, with the flags of the FIN case.
  have hc₂ : c₂.tx = { c.tx with tx := q } ∧ c₂.rx = c.rx ∧ c₂.dupAckCount = c.dupAckCount ∧
      c₂.congestionWindow = c.congestionWindow ∧ c₂.dataWaiters = c.dataWaiters ∧
      c₂.userData.sent = c.userData.sent ∧
      c₂.connectionState =
        (if c.sendsFin then c.connectionState.withFin else c.connectionState) ∧
      flags = ackFlags c.sendsFin := by
    cases hs : c.sendsFin with
    | false =>
        simp only [hs, Bool.false_eq_true, if_false] at hfin ⊢
        obtain ⟨rfl, rfl⟩ := hfin
        exact ⟨htx, hrx, hdup, hcw, hwait, hsentlog, hstate, rfl⟩
    | true =>
        simp only [hs, if_true] at hfin ⊢
        obtain ⟨-, -, rfl, rfl⟩ := hfin
        simp [htx, hrx, hdup, hcw, hwait, hsentlog, ackFlags]
  obtain ⟨htx₂, hrx₂, hdup₂, hcw₂, hwait₂, hsent₂, hstate₂, rfl⟩ := hc₂
  have hseg : (⟨c₂.tx.next, c₂.rx.ackd, c₂.rx.currWindow, ackFlags c.sendsFin, c.outData⟩ :
      SegmentMeta) = c.outSegment := by
    rw [htx₂, hrx₂]
    rfl
  rw [hseg]
  obtain ⟨e1, e2, e3, e4, e5, e6, e7, e8, e9, e10, e11, e12⟩ := emit_spec c₂ c.outSegment
  exact {
    state := by rw [e1, hstate₂]
    rx := by rw [e2, hrx₂]
    bytes := by rw [e3, htx₂]; exact hq
    fin := by rw [e3, htx₂]; exact hqfin
    unack := by rw [e4, htx₂]
    next := by rw [e5, htx₂]
    initSeqn := by rw [e6, htx₂]
    window := by rw [e7, htx₂]
    reTx := by rw [e8, htx₂]
    dupAckCount := by rw [e9, hdup₂]
    congestionWindow := by rw [e10, hcw₂]
    waiters := by rw [e11, hwait₂]
    sent := by
      rw [e12, hsent₂, htx₂]
      rfl }

/-- `send_ack` panics exactly in a cleared connection, when data would follow
a FIN, or when a FIN would leave outside of a connection. -/
theorem sendAck_succeeds_iff (c : Connection Addr Time) :
    (∃ c', c.sendAck = .ok c') ↔ c.connectionState ≠ .closed ∧
      (c.connectionState.wroteFin = true → c.outData = []) ∧
      (c.sendsFin = true → c.connectionState ≠ .listen ∧ c.connectionState ≠ .reset) := by
  obtain ⟨c₁, data, done, htake⟩ := c.takeOutput_succeeds c.outLimit
  obtain ⟨-, rfl, rfl, hstate, -⟩ := takeOutput_spec htake
  have hlimit : min maxSegmentSize c.tx.spaceAvailable.toNat = c.outLimit := rfl
  have hdone : (decide (c.tx.tx.bytes.length < c.outLimit) && c.tx.tx.fin &&
      !c.connectionState.wroteFin) = c.sendsFin := rfl
  have hdata : c.tx.tx.bytes.take c.outLimit = c.outData := rfl
  rw [hdata] at htake
  simp only [sendAck, hlimit, htake, Fallible.ok_bind, Fallible.bind_ok_iff,
    ConnectionState.finSent_ok_iff, debugAssert, Fallible.ensure_eq_ok, hstate,
    Fallible.pure_ok_iff, Prod.exists, takeFin_ok_iff, hdone]
  constructor
  · rintro ⟨c', b, ⟨hclosed, rfl⟩, _, hempty, c₂, flags, ⟨-, hfin⟩, -⟩
    refine ⟨hclosed, hempty, fun hs => ?_⟩
    rw [if_pos hs] at hfin
    exact ⟨hfin.1, hfin.2.1⟩
  · rintro ⟨hclosed, hempty, hfin⟩
    cases hs : c.sendsFin with
    | false => exact ⟨_, _, ⟨hclosed, rfl⟩, (), hempty, c₁, .ack, ⟨hclosed, rfl, rfl⟩, rfl⟩
    | true =>
        obtain ⟨hlisten, hreset⟩ := hfin hs
        exact ⟨_, _, ⟨hclosed, rfl⟩, (), hempty, c₁.entered c.connectionState.withFin,
          .fin ||| .ack, ⟨hclosed, hlisten, hreset, rfl, rfl⟩, rfl⟩

end Connection

end TcpState
