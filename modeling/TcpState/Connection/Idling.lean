import TcpState.Connection.AcceptedStep
import TcpState.Connection.Retransmit

/-!
# A sender with work to do

Sending is driven by `call_send` and by the end of `on_segment`. As long as no
early return of `on_segment` leaves unsent bytes behind with nothing in flight,
room in the send window means that something is in flight.
-/

namespace TcpState

open Circular (span Tiles total)

namespace TxBuffer

/-- The queue reaches from the oldest unacknowledged number at least as far as
the numbers in flight do. The lengths are counted without wrapping. -/
def Covered (tx : TxBuffer) : Prop :=
  ∃ s off, Tiles SegmentMeta.seqn SegmentMeta.seqSize s tx.reTx tx.next ∧
    tx.unack = s + BitVec.ofNat 32 off ∧
    off + span tx.unack tx.next ≤ total SegmentMeta.seqSize tx.reTx

variable {tx tx' : TxBuffer} {seg : SegmentMeta}

namespace Covered

/-- With nothing to retransmit everything is acknowledged. -/
theorem settled (h : tx.Covered) (hre : tx.reTx = []) : tx.unack = tx.next := by
  obtain ⟨s, off, -, -, htotal⟩ := h
  rw [hre, Circular.total_nil] at htotal
  exact (Circular.span_eq_zero_iff.mp (by omega)).symm

theorem of_nil (hre : tx.reTx = []) (hunack : tx.unack = tx.next) : tx.Covered := by
  refine ⟨tx.next, 0, ?_, ?_, ?_⟩
  · rw [hre]
    rfl
  · rw [hunack]
    simp
  · rw [hre, hunack, Circular.span_self]
    exact Nat.le_refl _

theorem congr (h : tx.Covered) (hre : tx'.reTx = tx.reTx) (hunack : tx'.unack = tx.unack)
    (hnext : tx'.next = tx.next) : tx'.Covered := by
  unfold Covered
  rw [hre, hunack, hnext]
  exact h

/-- A segment sent at `next` is a further tile. -/
theorem send (h : tx.Covered) (hseqn : seg.seqn = tx.next) (hunack : tx'.unack = tx.unack)
    (hnext : tx'.next = tx.next + seg.seqSize)
    (hre : tx'.reTx = tx.reTx ++ if seg.seqSize = 0#32 then [] else [seg]) : tx'.Covered := by
  by_cases hzero : seg.seqSize = 0#32
  · rw [if_pos hzero, List.append_nil] at hre
    rw [hzero, BitVec.add_zero] at hnext
    exact h.congr hre hunack hnext
  rw [if_neg hzero] at hre
  obtain ⟨s, off, htiles, hpoint, htotal⟩ := h
  have hgrown : span tx.unack (tx.next + seg.seqSize) ≤
      span tx.unack tx.next + seg.seqSize.toNat := by
    unfold Circular.span
    rw [show tx.next + seg.seqSize - tx.unack = tx.next - tx.unack + seg.seqSize by
      rw [BitVec.sub_eq_add_neg, BitVec.sub_eq_add_neg, BitVec.add_assoc, BitVec.add_assoc,
        BitVec.add_comm seg.seqSize], BitVec.toNat_add]
    exact Nat.mod_le _ _
  refine ⟨s, off, ?_, ?_, ?_⟩
  · rw [hre, hnext]
    exact htiles.append hseqn
  · rw [hunack]
    exact hpoint
  · rw [hre, Circular.total_append, hunack, hnext]
    omega

/-- An acknowledgement in range drops tiles up to the number it names. -/
theorem ack (h : tx.Covered) (hsize : ∀ g ∈ tx.reTx, g.seqSize.toNat ≤ 2 ^ 31) {ackn : SeqN}
    (hrange : ackn.inRangeInclusive tx.unack tx.next = true) (hunack : tx'.unack = ackn)
    (hnext : tx'.next = tx.next)
    (hre : tx'.reTx = tx.reTx.dropWhile fun head => head.seqnAfter.lte ackn) : tx'.Covered := by
  obtain ⟨s, off, htiles, hpoint, htotal⟩ := h
  rw [SeqN.inRangeInclusive_iff] at hrange
  have hackn : ackn = s + BitVec.ofNat 32 (off + span tx.unack ackn) := by
    rw [← Circular.add_ofNat_add, ← hpoint, Circular.add_ofNat_span]
  obtain ⟨s', off', htiles', hpoint', hrest, hcovers⟩ :=
    htiles.dropWhile_covers (show 2 ^ 32 = 2 * 2 ^ 31 by decide) hackn
      (fun b => SeqN.lte_iff b.seqnAfter ackn) (by omega) hsize
  rw [← hre] at htiles' hrest hcovers
  refine ⟨s', off', ?_, ?_, ?_⟩
  · rw [hnext]
    exact htiles'
  · rw [hunack]
    exact hpoint'
  · rw [hunack, hnext, Circular.span_rebase hrange]
    omega

end Covered

end TxBuffer

namespace Connection

variable {Addr Time : Type}

/-- `unack + window` lies beyond `next` by at most 65535. -/
def HasRoom (c : Connection Addr Time) : Prop :=
  c.tx.spaceAvailable ≠ 0#32 ∧ c.tx.spaceAvailable.toNat ≤ 65535

/-- An open sender without Nagle delay that has unsent bytes and room for them
waits for something in flight. -/
def NeverIdles (c : Connection Addr Time) : Prop :=
  c.connectionState.isEstablished = true → c.options.nagleDelay = .zero → c.tx.tx.bytes ≠ [] →
    c.HasRoom → c.tx.reTx ≠ []

/-- The segment is acceptable but not stored, so `on_segment` returns early. It
opens the window of a sender with unsent bytes and nothing left in flight. -/
def Strands (c : Connection Addr Time) (seg : SegmentMeta) : Prop :=
  c.Peered ∧ c.checkSegmentSeqOk seg = true ∧ seg.hasRst = false ∧ seg.hasSyn = false ∧
    ¬ c.Stores seg ∧ c.tx.tx.bytes ≠ [] ∧ seg.window ≠ 0#16 ∧
    if seg.hasAck = true ∧ seg.ackn.inRangeInclusive c.tx.unack c.tx.next = true then
      seg.ackn = c.tx.next
    else c.tx.unack = c.tx.next

instance (c : Connection Addr Time) (seg : SegmentMeta) : Decidable (c.Strands seg) := by
  unfold Strands
  infer_instance

/-- No segment strands the sender, and `call_send` finds no Nagle delay. -/
def KeepsGoing (c : Connection Addr Time) : Op Time → Prop
  | .callSend _ => c.options.nagleDelay = .zero
  | .onSegment seg => ¬ c.Strands seg
  | _ => True

instance (c : Connection Addr Time) : DecidablePred c.KeepsGoing
  | .callSend _ => inferInstanceAs (Decidable (c.options.nagleDelay = .zero))
  | .onSegment seg => inferInstanceAs (Decidable (¬ c.Strands seg))
  | .callConnect | .callRecv _ | .callShutdown | .callClose | .callAbort | .setOptions _
  | .onTimeTick _ => .isTrue trivial

/-- The send buffer once the window and the acknowledgement of an accepted
segment are taken. -/
def takenTx (c : Connection Addr Time) (seg : SegmentMeta) : TxBuffer :=
  if seg.hasAck = true ∧ seg.ackn.inRangeInclusive c.tx.unack c.tx.next = true then c.ackedTx seg
  else (c.windowed seg).tx

/-- What an accepted segment does to the send buffer. Only a stored one is
followed by `send_ack`, and only the end of a passive close clears it. -/
inductive AcceptedTx (c : Connection Addr Time) (seg : SegmentMeta) :
    Connection Addr Time → Prop
  | aside {c' : Connection Addr Time} (haside : ¬ c.Stores seg) (htx : c'.tx = c.takenTx seg) :
      AcceptedTx c seg c'
  | stored {c₀ c' : Connection Addr Time} (hstores : c.Stores seg) (htx : c₀.tx = c.takenTx seg)
      (hwrote : c₀.connectionState.wroteFin = c.connectionState.wroteFin) (ht : TxSent c₀ c') :
      AcceptedTx c seg c'
  | cleared {c' : Connection Addr Time} (hidle : c'.connectionState.idle = true)
      (htx : c'.tx = .default) : AcceptedTx c seg c'

/-- Unsent bytes and an open window come with something in flight. -/
def Busy (c : Connection Addr Time) : Prop :=
  c.tx.tx.bytes ≠ [] → c.tx.window ≠ 0#16 → c.tx.reTx ≠ []

variable {c c₀ c' : Connection Addr Time} {seg : SegmentMeta}

/-- With everything acknowledged the room is the window. -/
theorem spaceAvailable_of_settled (h : c.tx.unack = c.tx.next) :
    c.tx.spaceAvailable = c.tx.window.setWidth 32 := by
  rw [TxBuffer.spaceAvailable, h, BitVec.add_comm, BitVec.add_sub_cancel]

theorem Busy.neverIdles (h : Busy c) (hcov : c.tx.Covered) : c.NeverIdles := by
  rintro - - hbytes ⟨hspace, -⟩ hre
  rw [spaceAvailable_of_settled (hcov.settled hre)] at hspace
  refine h hbytes (fun hw => ?_) hre
  rw [hw] at hspace
  exact hspace rfl

/-- Sending what there is leaves the sender busy. -/
theorem TxSent.busy (ht : TxSent c₀ c') (hcov : c₀.tx.Covered) : Busy c' := by
  intro hbytes hwindow hre
  rw [ht.reTx, List.append_eq_nil_iff] at hre
  have hsettled := hcov.settled hre.1
  have hempty : c₀.outSegment.seqSize = 0#32 := by
    by_contra hsize
    rw [if_neg hsize] at hre
    exact List.cons_ne_nil _ _ hre.2
  have hdata := ((outSegment_seqSize_eq_zero c₀).mp hempty).1
  have hlimit : c₀.outLimit ≠ 0 := by
    rw [ht.window] at hwindow
    rw [outLimit, spaceAvailable_of_settled hsettled, maxSegmentSize]
    intro hzero
    refine hwindow (BitVec.eq_of_toNat_eq ?_)
    rw [BitVec.toNat_setWidth] at hzero
    have := c₀.tx.window.isLt
    rw [Nat.mod_eq_of_lt (by omega)] at hzero
    change c₀.tx.window.toNat = 0
    omega
  have hnil : c₀.tx.tx.bytes = [] := by
    rw [outData, List.take_eq_nil_iff] at hdata
    exact hdata.resolve_left hlimit
  rw [ht.bytes, hnil, List.drop_nil] at hbytes
  exact hbytes rfl

/-- The SYN is in flight until the handshake is over. -/
theorem busy_of_opening (hwf : WellFormed c) (hcov : c.tx.Covered)
    (hst : c.connectionState.opening = true) : Busy c := by
  intro _ _ hre
  obtain ⟨hunack, hnext⟩ := hwf.opening hst
  have hsettled := hcov.settled hre
  rw [hunack, hnext] at hsettled
  have hone : (1#32 : BitVec 32) = 0#32 := by
    rw [← BitVec.add_right_inj c.tx.initSeqn, ← hsettled, BitVec.add_zero]
  cases hone

theorem Busy.congr (h : Busy c) (hbytes : c'.tx.tx.bytes = c.tx.tx.bytes)
    (hwindow : c'.tx.window = c.tx.window) (hre : c'.tx.reTx = c.tx.reTx) : Busy c' := by
  unfold Busy
  rw [hbytes, hwindow, hre]
  exact h

theorem busy_of_default (h : c.tx = .default) : Busy c := by
  intro hbytes
  rw [h] at hbytes
  exact absurd rfl hbytes

theorem seqSize_le_of_retransmittable (h : Retransmittable seg) :
    seg.seqSize.toNat ≤ 2 ^ 31 := by
  have hsyn := Bool.toNat_le seg.hasSyn
  have hfin := Bool.toNat_le seg.hasFin
  have hshort := h.short
  rw [maxSegmentSize] at hshort
  rw [SegmentMeta.seqSize_eq, BitVec.toNat_ofNat]
  exact Nat.le_trans (Nat.mod_le _ _) (by omega)

theorem TxSent.covered (ht : TxSent c₀ c') (h : c₀.tx.Covered) : c'.tx.Covered :=
  h.send rfl ht.unack ht.next ht.reTx

/-- The queue after an acknowledgement, which may be a repeated one. -/
theorem covered_ackedTx (h : c.tx.Covered) (hwf : WellFormed c)
    (hrange : seg.ackn.inRangeInclusive c.tx.unack c.tx.next = true) :
    (c.ackedTx seg).Covered := by
  by_cases hold : c.tx.unack = seg.ackn
  · exact h.congr (if_pos hold) hold.symm rfl
  · exact h.ack (fun g hg => seqSize_le_of_retransmittable (hwf.reTx g hg)) hrange rfl rfl
      (if_neg hold)

theorem covered_synAcked (h : c.tx.Covered) (hwf : WellFormed c)
    (hrange : seg.ackn.inRangeInclusive c.tx.unack c.tx.next = true) :
    (c.synAcked seg).tx.Covered :=
  h.ack (fun g hg => seqSize_le_of_retransmittable (hwf.reTx g hg)) hrange rfl rfl rfl

/-- The queue of a connection that has just sent its SYN. -/
theorem covered_opening {tx : TxBuffer} {isn : SeqN} {syn : SegmentMeta}
    (htx : c'.tx = (tx.init isn).onSend syn) (hre : tx.reTx = []) (hseqn : syn.seqn = isn) :
    c'.tx.Covered := by
  have hempty : (tx.init isn).Covered := .of_nil hre rfl
  rw [htx]
  exact hempty.send hseqn (by simp) (by simp) (by simp)

theorem TxEffect.covered {op : Op Time} {out : Output} (effect : TxEffect c op out c')
    (hwf : WellFormed c) (h : c.tx.Covered) : c'.tx.Covered := by
  cases effect with
  | kept _ htx => exact h.congr htx.reTx htx.unack htx.next
  | cleared _ _ _ htx =>
      rw [htx]
      exact .of_nil rfl rfl
  | connecting hs _ hc =>
      have hidle : c.connectionState.idle = true := by
        rcases hs with hs | hs <;> rw [hs] <;> rfl
      refine covered_opening hc.tx ?_ rfl
      rw [(hwf.idle hidle).1]
      rfl
  | answered hst _ _ hc =>
      have hidle : c.connectionState.idle = true := by rw [hst]; rfl
      refine @covered_opening _ _ _ { c.tx with window := _ } _ _ hc.tx ?_ rfl
      change c.tx.reTx = []
      rw [(hwf.idle hidle).1]
      rfl
  | queued _ _ _ htx =>
      rw [htx]
      exact h.congr rfl rfl rfl
  | appended _ _ _ _ _ _ ht => exact ht.covered (h.congr rfl rfl rfl)
  | marked _ _ _ _ _ htx _ _ _ ht =>
      refine ht.covered ?_
      rw [htx]
      exact h.congr rfl rfl rfl
  | acked _ _ _ hrange htx =>
      rw [htx]
      exact covered_ackedTx h hwf hrange
  | stored _ hstores htx _ _ _ ht =>
      refine ht.covered ?_
      rw [htx]
      exact covered_ackedTx h hwf hstores.range
  | synAcked _ hrange => exact covered_synAcked h hwf hrange
  | opened _ hrange _ _ _ _ ht =>
      refine ht.covered ?_
      rw [entered_tx]
      exact covered_synAcked h hwf hrange

theorem takenTx_acked (hack : seg.hasAck = true)
    (hrange : seg.ackn.inRangeInclusive c.tx.unack c.tx.next = true) :
    c.takenTx seg = c.ackedTx seg :=
  if_pos ⟨hack, hrange⟩

theorem takenTx_windowed (h : seg.hasAck = false ∨
    seg.ackn.inRangeInclusive c.tx.unack c.tx.next = false) :
    c.takenTx seg = (c.windowed seg).tx := by
  refine if_neg ?_
  rintro ⟨hack, hrange⟩
  rcases h with h | h
  · exact absurd (h.symm.trans hack) Bool.false_ne_true
  · exact absurd (h.symm.trans hrange) Bool.false_ne_true

theorem takenTx_queue (c : Connection Addr Time) (seg : SegmentMeta) :
    (c.takenTx seg).tx = c.tx.tx := by
  unfold takenTx
  split <;> rfl

theorem takenTx_window (hzero : seg.window = 0#16) : (c.takenTx seg).window = 0#16 := by
  unfold takenTx
  split
  all_goals
    change minU16 seg.window _ = 0#16
    rw [hzero]
    exact if_pos (Nat.zero_le _)

theorem takenTx_settled (h : (c.takenTx seg).unack = (c.takenTx seg).next) :
    if seg.hasAck = true ∧ seg.ackn.inRangeInclusive c.tx.unack c.tx.next = true then
      seg.ackn = c.tx.next
    else c.tx.unack = c.tx.next := by
  unfold takenTx at h
  split
  · rename_i hacked
    rw [if_pos hacked] at h
    exact h
  · rename_i hacked
    rw [if_neg hacked] at h
    exact h

theorem covered_takenTx (h : c.tx.Covered) (hwf : WellFormed c) : (c.takenTx seg).Covered := by
  unfold takenTx
  split
  · rename_i hacked
    exact covered_ackedTx h hwf hacked.2
  · exact h.congr rfl rfl rfl

variable [UserTime Time]

theorem covered_of_reachable (h : Reachable c) : c.tx.Covered := by
  refine txInvariant ?_ (fun c op out c' hwf hp _ effect => effect.covered hwf hp) h
  intro c hinit
  rw [((Reachable.wellFormed (.init hinit)).idle hinit.fresh.2.2).1]
  exact .of_nil rfl rfl

/-- Only an incoming segment moves the send window, unless the connection is
cleared. -/
theorem window_of_step {op : Op Time} {out : Output} (hc : c.step op = .ok (c', out))
    (hop : ∀ seg, op ≠ .onSegment seg) : c'.tx.window = c.tx.window ∨
      c'.connectionState.idle = true ∧ c'.tx = .default := by
  cases opStep_of_ok hc with
  | @onSegment seg _ _ => exact absurd rfl (hop seg)
  | callConnect hc =>
      cases connectStep_of_ok hc with
      | refused => exact .inl rfl
      | connecting _ hsyn =>
          left
          rw [hsyn.tx, TxBuffer.onSend_window]
          rfl
  | callSend hc =>
      cases (sendStep_of_ok hc).2 with
      | refused | delayed | queued => exact .inl rfl
      | sent _ _ _ hsend => exact .inl (sendAck_spec hsend).window
  | callRecv hc =>
      cases recvStep_of_ok hc with
      | refused | ended | early | waiting | read | full => exact .inl rfl
      | @drained t cc ca rx _ =>
          rcases stateSet_tx { c with rx := rx } t .closed cc ca with ⟨htx, -⟩ | ⟨c₀, heq, -⟩
          · rw [htx]
            exact .inl rfl
          · rw [heq]
            exact .inr ⟨rfl, rfl⟩
  | callShutdown hc =>
      cases shutdownStep_of_ok hc with
      | refused | delayed => exact .inl rfl
      | cleared => exact .inr ⟨rfl, rfl⟩
      | early _ _ hsend =>
          rw [entered_tx]
          exact .inl (sendAck_spec hsend).window
      | @active cc _ _ _ _ _ _ hsend =>
          left
          rw [(sendAck_spec hsend).window]
          change (c.entered (.established .opened .opened cc true)).tx.window = c.tx.window
          rw [entered_tx]
      | passive _ _ _ _ hsend => exact .inl (sendAck_spec hsend).window
  | callClose hc =>
      cases closeStep_of_ok hc with
      | refused | delayed => exact .inl rfl
      | cleared => exact .inr ⟨rfl, rfl⟩
      | @early c₁ _ _ _ _ hsend =>
          left
          change (c₁.entered (.established .fin .opened true true)).tx.window = _
          rw [entered_tx]
          exact (sendAck_spec hsend).window
      | @opened rx _ ca c₁ _ hs _ _ hsend =>
          have hest : c₁.connectionState.isEstablished = true :=
            sendAck_isEstablished (by rw [withQueue_connectionState, hs]; rfl) hsend
          rcases closing_tx c₁ (ca || decide (rx = .opened)) hest with ⟨htx, -⟩ | ⟨-, c₀, heq, -⟩
          · rw [htx]
            exact .inl (sendAck_spec hsend).window
          · rw [heq]
            exact .inr ⟨rfl, rfl⟩
      | @ended _ rx _ ca _ hs =>
          rcases closing_tx c (ca || decide (rx = .opened)) (by rw [hs]; rfl) with
            ⟨htx, -⟩ | ⟨-, c₀, heq, -⟩
          · rw [htx]
            exact .inl rfl
          · rw [heq]
            exact .inr ⟨rfl, rfl⟩
  | callAbort hc =>
      cases abortStep_of_ok hc with
      | refused => exact .inl rfl
      | cleared | reset => exact .inr ⟨rfl, rfl⟩
  | setOptions => exact .inl rfl
  | onTimeTick hc =>
      cases tickStep_of_ok hc with
      | kept _ htx =>
          rw [htx]
          exact .inl rfl
      | cleared => exact .inr ⟨rfl, rfl⟩

omit [UserTime Time] in
/-- Without Nagle delay, bytes and room are sent at once. -/
theorem sendsNow_of_settled {q : BlobQueue} (hsettled : c.tx.unack = c.tx.next)
    (hnagle : c.options.nagleDelay = .zero) (hbytes : q.bytes ≠ []) : c.SendsNow q := by
  refine ⟨?_, .inr ⟨?_, hnagle⟩⟩
  · rw [TxBuffer.unackHasSpace, SeqN.lt_iff, hsettled, Circular.span, BitVec.add_comm,
      BitVec.add_sub_cancel, BitVec.toNat_setWidth]
    have := c.tx.window.isLt
    omega
  · rw [BlobQueue.availableBytes_eq]
    exact List.length_pos_iff.mpr hbytes

theorem callSend_sends {inputData : List UInt8} {result : Except Error Unit} {q : BlobQueue}
    {r : ChannelState} {cc ca : Bool} (hs : c.connectionState = .established .opened r cc ca)
    (hq : c.tx.tx.writeBytes inputData = .ok q) (hnow : c.SendsNow q)
    (hc : c.callSend inputData = .ok (c', result)) : (c.withQueue q).sendAck = .ok c' := by
  simp only [callSend, assert, Fallible.bind_ok_iff, Fallible.ensure_eq_ok] at hc
  obtain ⟨_, -, hc⟩ := hc
  split at hc
  case h_7 =>
    simp only [debugAssert, hq, Fallible.ok_bind, Fallible.bind_ok_iff, Fallible.ensure_eq_ok] at hc
    obtain ⟨_, -, hc⟩ := hc
    split at hc
    · simp only [Fallible.bind_ok_iff, Fallible.pure_ok_iff, Prod.mk.injEq] at hc
      obtain ⟨_, hsend, rfl, -⟩ := hc
      exact hsend
    · rename_i hlater
      exact absurd hnow hlater
  all_goals
    rename_i hst
    rw [hs] at hst
    cases hst

theorem acceptedTx_of_ok (hwf : WellFormed c) (hs : c.Peered)
    (hcheck : c.checkSegmentSeqOk seg = true) (hrst : seg.hasRst = false)
    (hsyn : seg.hasSyn = false) (hc : (c.windowed seg).onAccepted seg = .ok c') :
    AcceptedTx c seg c' := by
  have hs' : (c.windowed seg).Peered := hs
  cases acceptedStep_of_ok hc with
  | unacknowledged hack hfin =>
      have htx : c'.tx = (c.windowed seg).tx := by
        split at hfin
        · exact (onFin_tx hs' hfin).1
        · obtain rfl := Except.ok.inj hfin
          rfl
      refine .aside (fun h => ?_) (htx.trans (takenTx_windowed (.inl hack)).symm)
      exact absurd (hack.symm.trans h.ack) Bool.false_ne_true
  | invalid _ hrange =>
      refine .aside (fun h => ?_) (takenTx_windowed (.inr hrange)).symm
      exact absurd (hrange.symm.trans h.range) Bool.false_ne_true
  | @discarded c₁ c₂ hack hrange h₁ h₂ hseq =>
      rcases h₁.finAcked hwf hs h₂ with ⟨htx₂, hrx₂, -⟩ | ⟨-, c₀, rfl, -⟩
      · have htx : (if seg.seqn.lt c₂.rx.ackd then c₂.send (c₂.bareSegment c₂.rx.ackd .ack)
            else c₂).tx = c₂.tx := by
          split <;> rfl
        rw [hrx₂] at hseq
        refine .aside (fun h => hseq h.inOrder) ?_
        exact htx.trans (htx₂.trans (takenTx_acked hack hrange).symm)
      · refine .cleared ?_ ?_
        · split <;> rfl
        · split <;> rfl
  | @stored c₁ c₂ c₃ _ rx hack hrange h₁ h₂ hseq _ h₃ hfin =>
      rcases h₁.finAcked hwf hs h₂ with ⟨htx₂, hrx₂, -, hstate⟩ | ⟨-, c₀, rfl, -⟩
      · rw [hrx₂] at hseq
        have a := sendAck_spec h₃
        have ht : TxSent { c₂ with rx := rx } c' := by
          split at hfin
          · obtain ⟨htx, hsent, hrx, -⟩ := onFin_tx (AckSent.rxState a (.inl hstate.synced)).1 hfin
            exact a.txSent.congr htx hrx hsent
          · obtain rfl := Except.ok.inj hfin
            exact a.txSent
        refine .stored ⟨hcheck, hrst, hsyn, hack, hrange, hseq⟩ ?_ ?_ ht
        · exact htx₂.trans (takenTx_acked hack hrange).symm
        · exact hstate.wroteFin.trans (Bool.or_false _)
      · exact absurd h₃ (sendAck_closed rfl)

/-- An acceptable segment that does not strand the sender leaves it busy. -/
theorem busy_onAccepted (hwf : WellFormed c) (hcov : c.tx.Covered) (hs : c.Peered)
    (hcheck : c.checkSegmentSeqOk seg = true) (hrst : seg.hasRst = false)
    (hsyn : seg.hasSyn = false) (hno : ¬ c.Strands seg)
    (hc : (c.windowed seg).onAccepted seg = .ok c') : Busy c' := by
  have htaken : (c.takenTx seg).Covered := covered_takenTx hcov hwf
  cases acceptedTx_of_ok hwf hs hcheck hrst hsyn hc with
  | aside haside htx =>
      -- an early return that finds bytes, an open window and nothing in flight
      intro hqueue hopen hre
      rw [htx] at hqueue hopen hre
      have hsettled := htaken.settled hre
      rw [takenTx_queue] at hqueue
      exact hno ⟨hs, hcheck, hrst, hsyn, haside, hqueue, fun hzero => hopen (takenTx_window hzero),
        takenTx_settled hsettled⟩
  | stored _ htx _ ht =>
      refine ht.busy ?_
      rw [htx]
      exact htaken
  | cleared _ htx => exact busy_of_default htx

/-- A segment that does not strand the sender leaves it busy. -/
theorem busy_onSegment (hwf : WellFormed c) (hwf' : WellFormed c') (hcov : c.tx.Covered)
    (hcov' : c'.tx.Covered) (hbusy : Busy c) (hno : ¬ c.Strands seg)
    (hc : c.onSegment seg = .ok c') : Busy c' := by
  unfold Connection.onSegment at hc
  split at hc
  case h_1 | h_2 =>
    simp only [Fallible.bind_ok_iff] at hc
    obtain ⟨resp, -, hc⟩ := hc
    split at hc
    all_goals
      obtain rfl := Fallible.pure_ok_iff.mp hc
      exact hbusy.congr rfl rfl rfl
  case h_3 =>
    cases listened_of_ok hc with
    | ignored | refused => exact hbusy.congr rfl rfl rfl
    | answered _ _ _ _ hsyn => exact busy_of_opening hwf' hcov' (by rw [hsyn.state]; rfl)
  case h_4 hst =>
    cases synSentStep_of_ok hc with
    | ignored | refused => exact hbusy.congr rfl rfl rfl
    | reset => exact busy_of_default rfl
    | waiting => exact busy_of_opening hwf' hcov' (by
        change c.connectionState.opening = true
        rw [hst]
        rfl)
    | opened hrange _ _ _ _ hsend =>
        refine (sendAck_spec hsend).txSent.busy ?_
        rw [entered_tx]
        exact covered_synAcked hcov hwf hrange
  case h_5 hst | h_6 hst | h_7 hst =>
    have hs : c.Peered := by simp [Peered, hst, ConnectionState.synced]
    cases synchronizedStep_iff.mp hc with
    | dropped | rejected => exact hbusy.congr rfl rfl rfl
    | reset _ _ hrst => exact busy_of_default (onRst_spec hrst).tx
    | syn _ _ _ hsyn => exact busy_of_default (onSyn_spec hsyn).tx
    | accepted hcheck hrst hsyn hacc =>
        exact busy_onAccepted hwf hcov hs hcheck hrst hsyn hno hacc

/-- One operation keeps the sender busy. -/
theorem busy_step {op : Op Time} {out : Output} (hwf : WellFormed c) (hcov : c.tx.Covered)
    (hbusy : Busy c) (hallowed : c.KeepsGoing op) (hc : c.step op = .ok (c', out)) :
    Busy c' := by
  have effect := hwf.txEffect hc
  have hwf' := hwf.step hc
  have hcov' := effect.covered hwf hcov
  by_cases hseg : ∃ seg, op = .onSegment seg
  · obtain ⟨seg, rfl⟩ := hseg
    exact busy_onSegment hwf hwf' hcov hcov' hbusy hallowed (step_onSegment.mp hc).1
  have hop (seg : SegmentMeta) : op ≠ .onSegment seg := fun h => hseg ⟨seg, h⟩
  cases effect with
  | kept _ htx =>
      rcases window_of_step hc hop with hwindow | ⟨-, hdefault⟩
      · exact hbusy.congr (by rw [htx.queue]) hwindow htx.reTx
      · exact busy_of_default hdefault
  | cleared _ _ _ htx => exact busy_of_default htx
  | connecting _ _ hsyn => exact busy_of_opening hwf' hcov' (by rw [hsyn.state]; rfl)
  | @queued _ q _ _ _ hs hq htx hstate =>
      rcases hs with hopening | ⟨hsync, hwrote⟩
      · exact busy_of_opening hwf' hcov' (by rw [hstate, hopening])
      obtain ⟨r, cc, ca, hst⟩ := ConnectionState.eq_established_opened hsync hwrote
      by_cases hnow : c.SendsNow q
      · cases opStep_of_ok hc with
        | callSend hc =>
            have hsent := (sendAck_spec (callSend_sends hst hq hnow hc)).txSent
            exact hsent.busy (hcov.congr rfl rfl rfl)
      · intro hbytes _ hre
        rw [htx] at hbytes hre
        exact hnow (sendsNow_of_settled (hcov.settled hre) hallowed hbytes)
  | appended _ _ _ _ _ _ ht => exact ht.busy (hcov.congr rfl rfl rfl)
  | marked _ _ _ _ _ htx _ _ _ ht =>
      refine ht.busy ?_
      rw [htx]
      exact hcov.congr rfl rfl rfl
  | answered | acked | stored | synAcked | opened => exact absurd rfl (hop _)

theorem busy_of_reachable (h : ReachableUnder KeepsGoing c) : Busy c := by
  refine Transition.ReachableUnder.invariant (P := Busy) ?_ ?_ h
  · intro c hinit
    exact busy_of_default ((Reachable.wellFormed (.init hinit)).idle hinit.fresh.2.2).1
  · rintro c op c' hreach hbusy hallowed ⟨out, hc⟩
    exact busy_step (Reachable.wellFormed hreach) (covered_of_reachable hreach) hbusy hallowed hc

/-- As long as no segment strands the sender, it never idles with work to do. -/
theorem never_idles (h : ReachableUnder KeepsGoing c) : c.NeverIdles :=
  (busy_of_reachable h).neverIdles (covered_of_reachable h.reachable)

/-- A sender with unsent bytes waits for the first of its segments. -/
theorem never_idles_unsent : ∃ c : Connection Unit Nat, c.connectionState.isEstablished = true ∧
    c.options.nagleDelay = .zero ∧ c.tx.tx.bytes ≠ [] ∧ c.tx.spaceAvailable.toNat = 488 ∧
    c.NeverIdles := by
  obtain ⟨c, hreach, hest, hnagle, hbytes, hspace⟩ : ∃ c : Connection Unit Nat,
      ReachableUnder KeepsGoing c ∧ c.connectionState.isEstablished = true ∧
        c.options.nagleDelay = .zero ∧ c.tx.tx.bytes ≠ [] ∧ c.tx.spaceAvailable.toNat = 488 :=
    Transition.exists_reachableUnder step_of_next (initial_listening () .default zeroUser)
      [.onSegment ⟨100#32, 0#32, 1000#16, .syn, []⟩,
       .onSegment ⟨101#32, 1#32, 1000#16, .ack, []⟩, .callSend (List.replicate 513 7)]
      (by decide +kernel)
  exact ⟨c, hest, hnagle, hbytes, hspace, never_idles hreach⟩

/-- A segment out of order opens the closed window, and nothing is sent. -/
theorem idles_out_of_order : ¬ ∀ c : Connection Unit Nat, Reachable c → c.NeverIdles := by
  intro hall
  obtain ⟨c, hreach, hest, hnagle, hbytes, hspace, hlimit, hre⟩ : ∃ c : Connection Unit Nat,
      Reachable c ∧ c.connectionState.isEstablished = true ∧ c.options.nagleDelay = .zero ∧
        c.tx.tx.bytes ≠ [] ∧ c.tx.spaceAvailable ≠ 0#32 ∧ c.tx.spaceAvailable.toNat ≤ 65535 ∧
          c.tx.reTx = [] :=
    Transition.exists_reachableUnder step_of_next (initial_listening () .default zeroUser)
      [.onSegment ⟨100#32, 0#32, 0#16, .syn, []⟩, .onSegment ⟨101#32, 1#32, 0#16, .ack, []⟩,
       .callSend [1], .onSegment ⟨102#32, 1#32, 1000#16, .ack, []⟩] (by decide)
  exact hall c hreach hest hnagle hbytes ⟨hspace, hlimit⟩ hre

end Connection

end TcpState
