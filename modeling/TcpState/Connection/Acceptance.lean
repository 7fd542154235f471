import TcpState.Connection.Intake
import TcpState.Connection.SegmentPanic

/-!
# The acceptance test

`check_segment_seq_ok` is compared with the table it cites, and the segments
that `on_segment` gives up on are shown to change the send window alone.
-/

namespace TcpState

/-- The table on page 26 of RFC 793, for the next expected number, the receive
window, and the first number and the length of a segment. -/
def RfcAcceptable (rcvNxt : SeqN) (rcvWnd : BitVec 16) (segSeq : SeqN) (segLen : BitVec 32) :
    Prop :=
  if segLen = 0#32 then
    if rcvWnd = 0#16 then segSeq = rcvNxt else Circular.span rcvNxt segSeq < rcvWnd.toNat
  else rcvWnd ≠ 0#16 ∧ (Circular.span rcvNxt segSeq < rcvWnd.toNat ∨
    Circular.span rcvNxt (segSeq + segLen - 1#32) < rcvWnd.toNat)

instance (rcvNxt : SeqN) (rcvWnd : BitVec 16) (segSeq : SeqN) (segLen : BitVec 32) :
    Decidable (RfcAcceptable rcvNxt rcvWnd segSeq segLen) := by
  unfold RfcAcceptable
  infer_instance

namespace RxBuffer

/-- A number the advertised window has room for. -/
def Offers (rx : RxBuffer) (seqn : SeqN) : Prop :=
  Circular.span rx.ackd seqn < rx.currWindow.toNat

/-- A number of the full window that stored bytes have taken the room of. -/
def Withholds (rx : RxBuffer) (seqn : SeqN) : Prop :=
  rx.inWindow seqn = true ∧ ¬ rx.Offers seqn

/-- The full window counts its numbers from the next expected one. -/
theorem inWindow_iff {rx : RxBuffer} (hwindow : rx.window ≠ 0#16) (seqn : SeqN) :
    rx.inWindow seqn = true ↔ Circular.span rx.ackd seqn < rx.window.toNat := by
  have hlt := rx.window.isLt
  have hpos : 0 < rx.window.toNat := by
    rw [Nat.pos_iff_ne_zero]
    exact fun h => hwindow (BitVec.eq_of_toNat_eq h)
  have hlast : rx.ackd + rx.window.setWidth 32 - 1#32 =
      rx.ackd + BitVec.ofNat 32 (rx.window.toNat - 1) := by
    have hwide : rx.window.setWidth 32 = BitVec.ofNat 32 (rx.window.toNat - 1) + 1#32 := by
      apply BitVec.eq_of_toNat_eq
      simp only [BitVec.toNat_setWidth, BitVec.toNat_add, BitVec.toNat_ofNat]
      omega
    rw [hwide, ← BitVec.add_assoc, BitVec.add_sub_cancel]
  rw [inWindow, SeqN.inRangeInclusive_iff, hlast, Circular.span_add_ofNat _ (by omega)]
  omega

/-- The advertised window is a part of the full one. -/
theorem Offers.inWindow {rx : RxBuffer} {seqn : SeqN} (hwindow : rx.window ≠ 0#16)
    (h : rx.Offers seqn) : rx.inWindow seqn = true := by
  have hle := rx.currWindow_toNat
  rw [inWindow_iff hwindow]
  unfold Offers at h
  split at hle <;> omega

/-- The segments the test and the table disagree on, while the window is open:
behind the advertised window but inside the full one, or across one edge of
both windows. -/
def Misjudged (rx : RxBuffer) (seg : SegmentMeta) : Prop :=
  rx.currWindow ≠ 0#16 ∧
    (rx.Withholds seg.seqn ∧ (seg.seqSize = 0#32 ∨ rx.Withholds seg.lastSeqn) ∨
      seg.seqSize ≠ 0#32 ∧ rx.inWindow seg.seqn = false ∧ rx.Offers seg.lastSeqn ∨
      seg.seqSize ≠ 0#32 ∧ rx.Offers seg.seqn ∧ rx.inWindow seg.lastSeqn = false)

instance (rx : RxBuffer) (seg : SegmentMeta) : Decidable (rx.Misjudged seg) := by
  unfold Misjudged Withholds Offers
  infer_instance

end RxBuffer

namespace Connection

variable {Addr Time : Type}

/-- The test, in the words of the two windows. -/
theorem checkSegmentSeqOk_iff (c : Connection Addr Time) (seg : SegmentMeta) :
    c.checkSegmentSeqOk seg = true ↔
      if c.rx.currWindow = 0#16 then seg.seqSize = 0#32 ∧ seg.seqn = c.rx.ackd
      else c.rx.inWindow seg.seqn = true ∧
        (seg.seqSize = 0#32 ∨ c.rx.inWindow seg.lastSeqn = true) := by
  unfold checkSegmentSeqOk
  split
  · rw [Bool.and_eq_true, decide_eq_true_iff, decide_eq_true_iff]
  · rw [Bool.and_eq_true, Bool.or_eq_true, decide_eq_true_iff]
    rfl

/-- The table, in the words of the advertised window. -/
theorem rfcAcceptable_iff (rx : RxBuffer) (seg : SegmentMeta) :
    RfcAcceptable rx.ackd rx.currWindow seg.seqn seg.seqSize ↔
      if rx.currWindow = 0#16 then seg.seqSize = 0#32 ∧ seg.seqn = rx.ackd
      else rx.Offers seg.seqn ∨ seg.seqSize ≠ 0#32 ∧ rx.Offers seg.lastSeqn := by
  have hlast : Circular.span rx.ackd (seg.seqn + seg.seqSize - 1#32) < rx.currWindow.toNat ↔
      rx.Offers seg.lastSeqn := Iff.rfl
  have hfirst : Circular.span rx.ackd seg.seqn < rx.currWindow.toNat ↔ rx.Offers seg.seqn :=
    Iff.rfl
  unfold RfcAcceptable
  rw [hlast, hfirst]
  by_cases hsize : seg.seqSize = 0#32 <;> by_cases hclosed : rx.currWindow = 0#16 <;>
    simp [hsize, hclosed]

variable [UserTime Time] {c c' : Connection Addr Time} {seg : SegmentMeta}

/-- The acceptance test follows the table exactly on the segments that are not
misjudged. -/
theorem checkSegmentSeqOk_iff_rfcAcceptable (h : Reachable c) (seg : SegmentMeta) :
    (c.checkSegmentSeqOk seg = true ↔
        RfcAcceptable c.rx.ackd c.rx.currWindow seg.seqn seg.seqSize) ↔
      ¬ c.rx.Misjudged seg := by
  have hwindow : c.rx.window ≠ 0#16 := by
    rw [h.wellFormed.rxWindow]
    decide
  have hfirst : c.rx.Offers seg.seqn → c.rx.inWindow seg.seqn = true :=
    RxBuffer.Offers.inWindow hwindow
  have hlast : c.rx.Offers seg.lastSeqn → c.rx.inWindow seg.lastSeqn = true :=
    RxBuffer.Offers.inWindow hwindow
  rw [checkSegmentSeqOk_iff, rfcAcceptable_iff, RxBuffer.Misjudged, RxBuffer.Withholds,
    RxBuffer.Withholds, ← Bool.not_eq_true, ← Bool.not_eq_true]
  by_cases hclosed : c.rx.currWindow = 0#16
  · simp [hclosed]
  · rw [if_neg hclosed, if_neg hclosed]
    by_cases hoffers : c.rx.Offers seg.seqn
    · have hin := hfirst hoffers
      by_cases hsize : seg.seqSize = 0#32 <;> simp [hclosed, hoffers, hin, hsize]
    · by_cases hoffersLast : c.rx.Offers seg.lastSeqn
      · have hin := hlast hoffersLast
        by_cases hsize : seg.seqSize = 0#32 <;>
          simp [hclosed, hoffers, hoffersLast, hin, hsize]
      · by_cases hsize : seg.seqSize = 0#32 <;> simp [hclosed, hoffers, hoffersLast, hsize]

/-- On an empty open connection the test and the table agree on data that fits. -/
theorem checkSegmentSeqOk_iff_rfcAcceptable_two : ∃ c : Connection Unit Nat,
    c.connectionState.isEstablished = true ∧
      (c.checkSegmentSeqOk ⟨101#32, 1#32, 1000#16, .ack, [1, 2]⟩ = true ↔
        RfcAcceptable c.rx.ackd c.rx.currWindow 101#32 2#32) := by
  obtain ⟨c, hreach, hest, hjudged⟩ : ∃ c : Connection Unit Nat, Reachable c ∧
      c.connectionState.isEstablished = true ∧
        ¬ c.rx.Misjudged ⟨101#32, 1#32, 1000#16, .ack, [1, 2]⟩ :=
    Transition.exists_reachableUnder step_of_next (initial_listening () .default zeroUser)
      [.onSegment ⟨100#32, 0#32, 1000#16, .syn, []⟩,
       .onSegment ⟨101#32, 1#32, 1000#16, .ack, []⟩] (by decide)
  exact ⟨c, hest, (checkSegmentSeqOk_iff_rfcAcceptable hreach _).mpr hjudged⟩

/-- A segment that repeats one byte and brings another is refused. -/
theorem overlap_misjudged : ¬ ∀ c : Connection Unit Nat, Reachable c → c.Peered →
    ∀ seg : SegmentMeta, c.checkSegmentSeqOk seg = true ↔
      RfcAcceptable c.rx.ackd c.rx.currWindow seg.seqn seg.seqSize := by
  intro hall
  obtain ⟨c, hreach, hpeer, hcheck, htable⟩ : ∃ c : Connection Unit Nat, Reachable c ∧
      c.Peered ∧ c.checkSegmentSeqOk ⟨102#32, 1#32, 1000#16, .ack, [2, 3]⟩ = false ∧
        RfcAcceptable c.rx.ackd c.rx.currWindow 102#32 2#32 :=
    Transition.exists_reachableUnder step_of_next (initial_listening () .default zeroUser)
      [.onSegment ⟨100#32, 0#32, 1000#16, .syn, []⟩,
       .onSegment ⟨101#32, 1#32, 1000#16, .ack, []⟩,
       .onSegment ⟨101#32, 1#32, 1000#16, .ack, [1, 2]⟩] (by decide)
  exact Bool.false_ne_true (hcheck.symm.trans ((hall c hreach hpeer _).mpr htable))

/-- The segments `on_segment` gives up on: those that are not acceptable, and
those whose acknowledgement is outside of what is in flight. -/
def Discards (c : Connection Addr Time) (seg : SegmentMeta) : Prop :=
  c.checkSegmentSeqOk seg = false ∨
    seg.hasRst = false ∧ seg.hasSyn = false ∧ seg.hasAck = true ∧
      seg.ackn.inRangeInclusive c.tx.unack c.tx.next = false

omit [UserTime Time] in
instance (c : Connection Addr Time) (seg : SegmentMeta) : Decidable (c.Discards seg) := by
  unfold Discards
  infer_instance

/-- Every field but the user's log stays, and at most one segment is sent, an
ACK without data. -/
def LeavesAlone (c : Connection Addr Time) (seg : SegmentMeta) : Prop :=
  ∃ c', c.onSegment seg = .ok c' ∧
    (c' = c ∨ ∃ ack : SegmentMeta, ack.flags = .ack ∧ ack.data = [] ∧ c' = c.send ack)

/-- A segment that is not acceptable is answered, unless it is a RST. -/
theorem onSegment_unacceptable (hs : c.Peered) (hcheck : c.checkSegmentSeqOk seg = false) :
    c.onSegment seg =
      .ok (if seg.hasRst then c else c.send (c.bareSegment c.rx.ackd .ack)) := by
  rw [onSegment_of_peered hs, synchronizedStep_iff]
  split
  · rename_i hrst
    exact .dropped hcheck hrst
  · rename_i hrst
    exact .rejected hcheck (by simpa using hrst)

/-- An acknowledgement out of range is dropped after the window was taken. -/
theorem onSegment_invalidAck (hs : c.Peered) (hcheck : c.checkSegmentSeqOk seg = true)
    (hrst : seg.hasRst = false) (hsyn : seg.hasSyn = false) (hack : seg.hasAck = true)
    (hrange : seg.ackn.inRangeInclusive c.tx.unack c.tx.next = false) :
    c.onSegment seg = .ok (c.windowed seg) := by
  have hdropped : (c.windowed seg).onAck seg = .ok (c.windowed seg, false) :=
    onAck_ok_iff.mpr (.inr ⟨hrange, rfl, rfl⟩)
  rw [onSegment_of_peered hs, synchronizedStep_iff]
  refine .accepted hcheck hrst hsyn ?_
  rw [onAccepted, if_pos hack, hdropped]
  rfl

/-- A discarded segment leaves the connection alone exactly when it is not
acceptable or brings the send window the connection has already. -/
theorem leavesAlone_iff (hs : c.Peered) (hd : c.Discards seg) :
    c.LeavesAlone seg ↔
      (c.checkSegmentSeqOk seg = true → minU16 seg.window c.congestionWindow = c.tx.window) := by
  cases hcheck : c.checkSegmentSeqOk seg with
  | false =>
      refine iff_of_true ?_ nofun
      refine ⟨_, onSegment_unacceptable hs hcheck, ?_⟩
      split
      · exact .inl rfl
      · exact .inr ⟨_, rfl, rfl, rfl⟩
  | true =>
      obtain ⟨hrst, hsyn, hack, hrange⟩ :=
        hd.resolve_left fun h => Bool.false_ne_true (h.symm.trans hcheck)
      have hstep := onSegment_invalidAck hs hcheck hrst hsyn hack hrange
      constructor
      · rintro ⟨c', hc, hsame⟩ -
        obtain rfl := Except.ok.inj (hstep.symm.trans hc)
        have htx : (c.windowed seg).tx = c.tx := by
          rcases hsame with heq | ⟨_, -, -, heq⟩
          · rw [heq]
          · rw [heq, send_tx]
        exact congrArg TxBuffer.window htx
      · intro hwindow
        refine ⟨_, hstep, .inl ?_⟩
        rw [windowed, hwindow rfl]

/-- An acknowledgement out of range that repeats the window leaves an open
connection alone. -/
theorem leavesAlone_sameWindow : ∃ c : Connection Unit Nat, Reachable c ∧
    c.LeavesAlone ⟨101#32, 7#32, 1000#16, .ack, [1]⟩ := by
  obtain ⟨c, hreach, hpeer, hd, hwindow⟩ : ∃ c : Connection Unit Nat, Reachable c ∧
      c.Peered ∧ c.Discards ⟨101#32, 7#32, 1000#16, .ack, [1]⟩ ∧
        minU16 1000#16 c.congestionWindow = c.tx.window :=
    Transition.exists_reachableUnder step_of_next (initial_listening () .default zeroUser)
      [.onSegment ⟨100#32, 0#32, 1000#16, .syn, []⟩,
       .onSegment ⟨101#32, 1#32, 1000#16, .ack, []⟩] (by decide)
  exact ⟨c, hreach, (leavesAlone_iff hpeer hd).mpr fun _ => hwindow⟩

/-- An acknowledgement out of range shuts the send window of an open connection. -/
theorem discarded_shuts_window : ¬ ∀ c : Connection Unit Nat, Reachable c → c.Peered →
    ∀ seg : SegmentMeta, c.Discards seg → c.LeavesAlone seg := by
  intro hall
  obtain ⟨c, hreach, hpeer, hcheck, hrange, hwindow⟩ : ∃ c : Connection Unit Nat,
      Reachable c ∧ c.Peered ∧
        c.checkSegmentSeqOk ⟨101#32, 7#32, 0#16, .ack, []⟩ = true ∧
        SeqN.inRangeInclusive 7#32 c.tx.unack c.tx.next = false ∧ c.tx.window = 1000#16 :=
    Transition.exists_reachableUnder step_of_next (initial_listening () .default zeroUser)
      [.onSegment ⟨100#32, 0#32, 1000#16, .syn, []⟩,
       .onSegment ⟨101#32, 1#32, 1000#16, .ack, []⟩] (by decide)
  obtain ⟨c', hc, hsame⟩ := hall c hreach hpeer ⟨101#32, 7#32, 0#16, .ack, []⟩
    (.inr ⟨by decide, by decide, by decide, hrange⟩)
  have hstep := onSegment_invalidAck hpeer hcheck (by decide) (by decide) (by decide) hrange
  obtain rfl := Except.ok.inj (hstep.symm.trans hc)
  have htx : (c.windowed ⟨101#32, 7#32, 0#16, .ack, []⟩).tx.window = c.tx.window := by
    rcases hsame with heq | ⟨_, -, -, heq⟩
    · rw [heq]
    · rw [heq, send_tx]
  rw [hwindow, windowed, minU16] at htx
  simp at htx

end Connection

end TcpState
