import TcpState.Connection.Acceptance
import TcpState.Connection.Congestion
import TcpState.Connection.FinWithData

/-!
# What a segment is answered with

A stored segment is acknowledged in the same call, a segment delivered twice
does nothing the second time, and a repeated FIN never reaches the branch that
would restart TimeWait.
-/

namespace TcpState

namespace Connection

open ConnectionState Fallible

variable {Addr Time : Type} [UserTime Time] {c c' : Connection Addr Time} {seg : SegmentMeta}

section Acknowledge

/-- A stored segment that does not end the connection, up to the `send_ack`
that answers it. -/
structure Answered (c : Connection Addr Time) (seg : SegmentMeta) (c' c₂ : Connection Addr Time) :
    Prop where
  noted : AckNoted c → AckNoted c₂
  rx : c₂.rx = c.rx
  sent : c₂.userData.sent = c.userData.sent
  written : c.rx.write seg = .ok c'.rx
  answer : ∃ c₃, { c₂ with rx := c'.rx }.sendAck = .ok c₃ ∧
    c'.userData.sent = c₃.userData.sent

theorem Stores.answered (hs : c.Peered) (hst : c.Stores seg) (hc : c.onSegment seg = .ok c')
    (hkept : c'.connectionState.idle = false) : ∃ c₂, Answered c seg c' c₂ := by
  have hwritten : c.rx.write seg = .ok c'.rx :=
    ((onSegment_stores hs hst hc).resolve_left (Bool.eq_false_iff.mp hkept)).2
  rw [onSegment_of_peered hs] at hc
  cases synchronizedStep_iff.mp hc with
  | dropped hcheck => exact absurd (hcheck.symm.trans hst.check) Bool.false_ne_true
  | rejected hcheck => exact absurd (hcheck.symm.trans hst.check) Bool.false_ne_true
  | reset _ hrst => exact absurd (hst.noRst.symm.trans hrst) Bool.false_ne_true
  | syn _ _ hsyn => exact absurd (hst.noSyn.symm.trans hsyn) Bool.false_ne_true
  | accepted _ _ _ hacc =>
      have hs₀ : Peered (c.windowed seg) := hs
      cases acceptedStep_of_ok hacc with
      | unacknowledged hack => exact absurd (hack.symm.trans hst.ack) Bool.false_ne_true
      | invalid _ hrange => exact absurd (hrange.symm.trans hst.range) Bool.false_ne_true
      | discarded _ _ h₁ h₂ hseq =>
          obtain ⟨hs₁, -, hrx₁⟩ := h₁.peered hs₀
          rcases onFinAcked_peered hs₁ h₂ with ⟨-, -, hrx₂⟩ | ⟨-, rfl⟩
          · exact absurd (hst.inOrder.trans (by rw [hrx₂, hrx₁]; rfl)) hseq
          · split at hkept <;> cases hkept
      | @stored c₁ c₂ c₃ _ rx _ _ h₁ h₂ _ hrx h₃ hfin =>
          obtain ⟨hs₁, -, hrx₁⟩ := h₁.peered hs₀
          have hsync₁ := (h₁.acknowledged.frame.1 ▸ opened_synced hs₀ :)
          rcases onFinAcked_tx hsync₁ h₂ with ⟨-, hsent₂, hsync₂, -⟩ | ⟨c₀, rfl, -⟩
          · rcases onFinAcked_peered hs₁ h₂ with ⟨-, hs₂, hrx₂⟩ | ⟨-, rfl⟩
            · have hstored : rx = c'.rx := by
                rw [hrx₂, hrx₁] at hrx
                exact Except.ok.inj (hrx.symm.trans hwritten)
              subst hstored
              have hs₃ := (AckSent.rxState (sendAck_spec h₃) hs₂).1
              refine ⟨c₂, fun hnoted => ?_, hrx₂.trans hrx₁, ?_, hwritten, c₃, h₃, ?_⟩
              · have hnoted₀ : AckNoted (c.windowed seg) := hnoted.congr rfl rfl
                exact (hnoted₀.takes h₁).onFinAcked hs₂ h₂
              · exact hsent₂.trans h₁.acknowledged.frame.2.2.2.2.2.2.2
              · split at hfin
                · exact (onFin_tx hs₃ hfin).2.1
                · rw [Except.ok.inj hfin]
            · exact absurd h₃ (sendAck_closed rfl)
          · exact absurd h₃ (sendAck_closed rfl)

/-- Receiving more than before is acknowledged by a segment of the same call. -/
theorem received_is_acked (h : Reachable c) (hs : c.Peered) (hc : c.onSegment seg = .ok c')
    (hkept : c'.connectionState.idle = false) (hackd : c'.rx.ackd ≠ c.rx.ackd) :
    ∃ ack, c'.userData.sent = c.userData.sent ++ [ack] ∧ ack.hasAck = true ∧
      ack.ackn = c'.rx.ackd := by
  have hst : c.Stores seg := by
    cases h.wellFormed.rxEffect (step_onSegment.mpr ⟨hc, rfl⟩) with
    | kept _ hrx => exact absurd (congrArg RxBuffer.ackd hrx) hackd
    | cleared _ hidle => exact absurd (hkept.symm.trans hidle) Bool.false_ne_true
    | answered hst => exact absurd hs (not_peered_of_idle (by rw [hst]; rfl))
    | synAcked hst => rcases hs with hs | hs <;> rw [hst] at hs <;> cases hs
    | stored _ hst => exact hst
    | finOnly _ _ _ _ _ _ _ _ hrx => exact absurd (congrArg RxBuffer.ackd hrx) hackd
  obtain ⟨c₂, ha⟩ := hst.answered hs hc hkept
  obtain ⟨c₃, hsend, hsent⟩ := ha.answer
  have hnew : ¬ { c₂ with rx := c'.rx }.skipsRepeat := by
    -- The last segment acknowledged the old number.
    rintro ⟨-, hlast⟩
    obtain ⟨seqn, window, hnoted⟩ := ha.noted (ackNoted_of_reachable h hs)
    have hsame := (Prod.mk.inj (Prod.mk.inj (Option.some.inj (hlast.trans hnoted))).2).1
    change c'.rx.ackd = c₂.rx.ackd at hsame
    rw [ha.rx] at hsame
    exact hackd hsame
  refine ⟨{ c₂ with rx := c'.rx }.outSegment, ?_, by simp, rfl⟩
  rw [hsent, (sendAck_spec hsend).sent, if_neg hnew]
  exact congrArg (· ++ _) ha.sent

/-- Two bytes are acknowledged at once. -/
theorem received_is_acked_two : ∃ c c' : Connection Unit Nat,
    c.onSegment ⟨101#32, 1#32, 1000#16, .ack, [1, 2]⟩ = .ok c' ∧ c'.rx.ackd = 103#32 ∧
      ∃ ack, c'.userData.sent = c.userData.sent ++ [ack] ∧ ack.hasAck = true ∧
        ack.ackn = c'.rx.ackd := by
  obtain ⟨c, hreach, hpeer, hackd, hok⟩ : ∃ c : Connection Unit Nat, Reachable c ∧ c.Peered ∧
      c.rx.ackd = 101#32 ∧
        (c.onSegment ⟨101#32, 1#32, 1000#16, .ack, [1, 2]⟩).toOption.any (fun c' =>
          decide (c'.connectionState.idle = false ∧ c'.rx.ackd = 103#32)) = true :=
    Transition.exists_reachableUnder step_of_next (initial_listening () .default zeroUser)
      [.onSegment ⟨100#32, 0#32, 1000#16, .syn, []⟩,
       .onSegment ⟨101#32, 1#32, 1000#16, .ack, []⟩] (by decide)
  obtain ⟨c', hc, hafter⟩ := exists_of_toOption_any hok
  obtain ⟨hkept, hackd'⟩ := of_decide_eq_true hafter
  refine ⟨c, c', hc, hackd', received_is_acked hreach hpeer hc hkept ?_⟩
  rw [hackd, hackd']
  decide

end Acknowledge

section Repeat

/-- A segment that leaves a live connection was refused by the acceptance test
or went all the way. -/
theorem refused_or_accepted (hs : c.Peered) (hc : c.onSegment seg = .ok c')
    (hlive : c'.connectionState.idle = false) :
    c.checkSegmentSeqOk seg = false ∧ c'.rx = c.rx ∨
      c.checkSegmentSeqOk seg = true ∧ seg.hasRst = false ∧ seg.hasSyn = false ∧
        AcceptedStep (c.windowed seg) seg c' := by
  rw [onSegment_of_peered hs] at hc
  have hcleared {c₀ : Connection Addr Time} {state : ConnectionState} {P : Prop}
      (hset : c₀.setState state = .ok c') (hidle : state.reduced.idle = true) : P := by
    obtain ⟨-, -, rfl⟩ := setState_ok_iff.mp hset
    rw [stateSet_connectionState, hidle] at hlive
    cases hlive
  cases synchronizedStep_iff.mp hc with
  | dropped hcheck => exact .inl ⟨hcheck, rfl⟩
  | rejected hcheck => exact .inl ⟨hcheck, rfl⟩
  | reset _ _ hreset =>
      unfold onRst at hreset
      split at hreset
      · exact hcleared hreset rfl
      · exact hcleared hreset rfl
      · cases hreset
  | syn _ _ _ hreset => exact hcleared hreset rfl
  | accepted hcheck hrst hsyn hacc => exact .inr ⟨hcheck, hrst, hsyn, acceptedStep_of_ok hacc⟩

/-- Nothing but the user's log differs, and it by one segment at most, without
data and FIN. -/
def Echoes (c c' : Connection Addr Time) : Prop :=
  c' = c ∨ ∃ echo : SegmentMeta, echo.data = [] ∧ echo.hasFin = false ∧ c' = c.send echo

omit [UserTime Time] in
theorem bareSegment_echoes (c : Connection Addr Time) (ackn : SeqN) :
    Echoes c (c.send (c.bareSegment ackn .ack)) :=
  .inr ⟨_, rfl, by simp [bareSegment, SegmentMeta.hasFin]; decide, rfl⟩

/-- A segment that is not acceptable leaves an echo at most. -/
theorem echoes_unacceptable (hs : c.Peered) (hcheck : c.checkSegmentSeqOk seg = false) :
    ∃ c', c.onSegment seg = .ok c' ∧ Echoes c c' := by
  refine ⟨_, onSegment_unacceptable hs hcheck, ?_⟩
  split
  · exact .inl rfl
  · exact bareSegment_echoes c _

omit [UserTime Time] in
/-- Numbers behind the next expected one are not acceptable, as long as the
full window does not reach around to them. -/
theorem unacceptable_behind (hwindow : c.rx.window ≠ 0#16) {n : Nat} (hsize : seg.seqSize ≠ 0#32)
    (hpos : 0 < n) (hroom : c.rx.window.toNat + n ≤ 2 ^ 32)
    (hackd : c.rx.ackd = seg.seqn + BitVec.ofNat 32 n) :
    c.checkSegmentSeqOk seg = false := by
  have hspan : Circular.span c.rx.ackd seg.seqn = 2 ^ 32 - n := by
    have hback := Circular.span_add_back seg.seqn hpos (by
      have := c.rx.window.isLt
      have hne : c.rx.window.toNat ≠ 0 := fun h => hwindow (BitVec.eq_of_toNat_eq h)
      omega)
    rw [hackd]
    simpa using hback
  rw [← Bool.not_eq_true, checkSegmentSeqOk_iff]
  split
  · exact fun h => hsize h.1
  · rintro ⟨hin, -⟩
    rw [RxBuffer.inWindow_iff hwindow, hspan] at hin
    omega

omit [UserTime Time] in
/-- An acceptable segment with sequence numbers fits the full window. -/
theorem seqSize_le_window (hwindow : c.rx.window ≠ 0#16) (hsize : seg.seqSize ≠ 0#32)
    (hcheck : c.checkSegmentSeqOk seg = true) (hseq : seg.seqn = c.rx.ackd) :
    seg.seqSize.toNat ≤ c.rx.window.toNat := by
  have hlt := seg.seqSize.isLt
  have hpos : 0 < seg.seqSize.toNat := by
    rw [Nat.pos_iff_ne_zero]
    exact fun h => hsize (BitVec.eq_of_toNat_eq h)
  rw [checkSegmentSeqOk_iff] at hcheck
  split at hcheck
  · exact absurd hcheck.1 hsize
  · have hlast := hcheck.2.resolve_left hsize
    have hsplit : seg.seqSize = BitVec.ofNat 32 (seg.seqSize.toNat - 1) + 1#32 := by
      apply BitVec.eq_of_toNat_eq
      simp only [BitVec.toNat_add, BitVec.toNat_ofNat]
      omega
    rw [RxBuffer.inWindow_iff hwindow, SegmentMeta.lastSeqn, SegmentMeta.seqnAfter, hsplit,
      ← BitVec.add_assoc, BitVec.add_sub_cancel, hseq,
      Circular.span_add_ofNat _ (by omega)] at hlast
    omega

/-- The window and the acknowledgement of the segment have been taken, and our
FIN has been counted if the segment acknowledges it. -/
structure Settled (c : Connection Addr Time) (seg : SegmentMeta) : Prop where
  window : minU16 seg.window c.congestionWindow = c.tx.window
  unack : c.tx.unack = seg.ackn
  fin : c.connectionState.tx = .fin → seg.ackn ≠ c.tx.next

/-- The acknowledgement bookkeeping leaves a settled connection. -/
theorem Takes.settled {c₁ c₂ : Connection Addr Time} (h₁ : (c.windowed seg).Takes seg c₁)
    (hs : c.Peered) (h₂ : c₁.onFinAcked seg.ackn = .ok c₂)
    (hsync : c₂.connectionState.synced = true) : c₂.Settled seg ∧ c₂.rx = c.rx := by
  have hs₀ : (c.windowed seg).Peered := hs
  obtain ⟨hs₁, -, hrx₁⟩ := h₁.peered hs₀
  have hsync₁ : c₁.connectionState.synced = true := by
    rw [h₁.acknowledged.frame.1]
    exact opened_synced hs₀
  have hwindow₁ : minU16 seg.window c₁.congestionWindow = c₁.tx.window := by
    cases h₁.acknowledged with
    | repeated => rw [opened_congestionWindow, opened_tx]; rfl
    | new _ hnew => rw [hnew.tx]
  have hclosed {P : Prop} {c₀ : Connection Addr Time} (heq : c₂ = c₀.clear) : P := by
    rw [heq] at hsync
    cases hsync
  rcases onFinAcked_tx hsync₁ h₂ with ⟨htx, -⟩ | ⟨c₀, heq, -⟩
  · rcases onFinAcked_congestion hs₁ h₂ with ⟨-, hcw⟩ | ⟨c₀, heq⟩
    · rcases onFinAcked_peered hs₁ h₂ with ⟨-, -, hrx₂⟩ | ⟨-, heq⟩
      · refine ⟨⟨by rw [hcw, htx, hwindow₁], ?_, ?_⟩, by rw [hrx₂, hrx₁]; rfl⟩
        · rw [htx, h₁.acknowledged.frame.2.2.2.2.2.1]
        · rcases onFinAcked_ok_iff.mp h₂ with ⟨r, cc, ca, -, -, -, -, rfl⟩ | ⟨hno, rfl⟩
          · -- Entering tx state Closed leaves Fin for good.
            intro hfin
            rw [stateSet_connectionState] at hfin
            cases r <;> cases cc <;> cases ca <;> exact absurd hfin (by decide)
          · exact hno
      · exact hclosed heq
    · exact hclosed heq
  · exact hclosed heq

/-- A settled connection has nothing to do for the same segment out of order. -/
theorem Settled.onSegment (h : c.Settled seg) (hsync : c.connectionState.synced = true)
    (hcheck : c.checkSegmentSeqOk seg = true) (hrst : seg.hasRst = false)
    (hsyn : seg.hasSyn = false) (hack : seg.hasAck = true) (hseq : seg.seqn ≠ c.rx.ackd) :
    c.onSegment seg =
      .ok (if seg.seqn.lt c.rx.ackd then c.send (c.bareSegment c.rx.ackd .ack) else c) := by
  have hwindowed : c.windowed seg = c := by
    rw [windowed, h.window]
  have hopened : c.opened = c := by
    rw [opened, if_neg fun hst => ?_]
    rw [hst] at hsync
    cases hsync
  have hrange : seg.ackn.inRangeInclusive c.tx.unack c.tx.next = true := by
    rw [SeqN.inRangeInclusive_iff, h.unack, Circular.span_self]
    exact Nat.zero_le _
  have hstored : c.storeData seg = .ok
      (if seg.seqn.lt c.rx.ackd then c.send (c.bareSegment c.rx.ackd .ack) else c, false) :=
    storeData_ok_iff.mpr (.inr ⟨hseq, rfl, rfl⟩)
  have hacked : c.onAck seg = .ok
      (if seg.seqn.lt c.rx.ackd then c.send (c.bareSegment c.rx.ackd .ack) else c, false) := by
    refine onAck_ok_iff.mpr (.inl ⟨hrange, c, c, ?_, ?_, hstored⟩)
    · rw [if_neg (not_not.mpr h.unack), hopened]
    · exact onFinAcked_ok_iff.mpr (.inr ⟨h.fin, rfl⟩)
  rw [onSegment_of_peered (.inl hsync), synchronizedStep_iff]
  refine .accepted hcheck hrst hsyn ?_
  rw [hwindowed, onAccepted, if_pos hack, hacked]
  rfl

theorem Settled.echoes (h : c.Settled seg) (hsync : c.connectionState.synced = true)
    (hcheck : c.checkSegmentSeqOk seg = true) (hrst : seg.hasRst = false)
    (hsyn : seg.hasSyn = false) (hack : seg.hasAck = true) (hseq : seg.seqn ≠ c.rx.ackd) :
    ∃ c', c.onSegment seg = .ok c' ∧ Echoes c c' := by
  refine ⟨_, h.onSegment hsync hcheck hrst hsyn hack hseq, ?_⟩
  split
  · exact bareSegment_echoes _ _
  · exact .inl rfl

/-- A segment that was stored is behind the window afterwards. -/
theorem Stores.unacceptable_after (h : Reachable c) (hs : c.Peered) (hst : c.Stores seg)
    (hsize : seg.seqSize ≠ 0#32) (hc : c.onSegment seg = .ok c')
    (hlive : c'.connectionState.idle = false) : c'.checkSegmentSeqOk seg = false := by
  have hfull : initialWindowSize.toNat = 4096 := rfl
  have hwindow : c.rx.window = initialWindowSize := h.wellFormed.rxWindow
  have hwritten := ((onSegment_stores hs hst hc).resolve_left (Bool.eq_false_iff.mp hlive)).2
  obtain ⟨-, -, hackd, -, hwindow', -⟩ := RxBuffer.write_spec hwritten
  have hle := seqSize_le_window (by rw [hwindow]; decide) hsize hst.check hst.inOrder
  rw [hwindow] at hle hwindow'
  have hpos : 0 < seg.seqSize.toNat := by
    rw [Nat.pos_iff_ne_zero]
    exact fun h => hsize (BitVec.eq_of_toNat_eq h)
  refine unacceptable_behind (by rw [hwindow']; decide) hsize hpos ?_ ?_
  · rw [hwindow', hfull]
    omega
  · rw [hackd, hst.inOrder, BitVec.ofNat_toNat, BitVec.setWidth_eq]

/-- The SYN that ends SynSent is one number behind the next expected one. -/
theorem unacceptable_of_opened (hwf' : WellFormed c') (hst : c.connectionState = .synSent)
    (hsize : seg.seqSize ≠ 0#32) (hc : c.onSegment seg = .ok c')
    (hsync : c'.connectionState.synced = true) : c'.checkSegmentSeqOk seg = false := by
  rw [Connection.onSegment, hst] at hc
  have hunsynced {c₀ : Connection Addr Time} {P : Prop} (heq : c' = c₀)
      (hst₀ : c₀.connectionState = .synSent) : P := by
    rw [heq, hst₀] at hsync
    cases hsync
  cases synSentStep_of_ok hc with
  | ignored => exact hunsynced rfl hst
  | refused => exact hunsynced rfl hst
  | reset => cases hsync
  | waiting => exact hunsynced rfl hst
  | opened _ _ _ _ _ hsend =>
      have hrx : c'.rx = c.rx.init seg.seqn := by
        rw [(sendAck_spec hsend).rx, entered_rx]
        rfl
      refine unacceptable_behind (n := 1) ?_ hsize (by decide) ?_ ?_
      · rw [hwf'.rxWindow]
        decide
      · rw [hwf'.rxWindow]
        decide
      · rw [hrx]
        rfl

/-- A segment that was accepted but found out of order is so again, with
nothing left to acknowledge. -/
theorem Takes.discarded_echoes {c₁ c₂ : Connection Addr Time} (h₁ : (c.windowed seg).Takes seg c₁)
    (hs : c.Peered) (h₂ : c₁.onFinAcked seg.ackn = .ok c₂)
    (hsync₂ : c₂.connectionState.synced = true) (hcheck : c.checkSegmentSeqOk seg = true)
    (hrst : seg.hasRst = false) (hsyn : seg.hasSyn = false) (hack : seg.hasAck = true)
    (hseq : seg.seqn ≠ c₂.rx.ackd) :
    ∃ c'', (if seg.seqn.lt c₂.rx.ackd then c₂.send (c₂.bareSegment c₂.rx.ackd .ack)
        else c₂).onSegment seg = .ok c'' ∧
      Echoes (if seg.seqn.lt c₂.rx.ackd then c₂.send (c₂.bareSegment c₂.rx.ackd .ack)
        else c₂) c'' := by
  obtain ⟨hsettled, hrx₂⟩ := h₁.settled hs h₂ hsync₂
  have hcheck₂ : c₂.checkSegmentSeqOk seg = true := by
    rw [checkSegmentSeqOk, hrx₂]
    exact hcheck
  split
  · exact Settled.echoes (c := c₂.send (c₂.bareSegment c₂.rx.ackd .ack))
      ⟨hsettled.window, hsettled.unack, hsettled.fin⟩ hsync₂ hcheck₂ hrst hsyn hack hseq
  · exact hsettled.echoes hsync₂ hcheck₂ hrst hsyn hack hseq

/-- A segment that acknowledges and has sequence numbers does nothing when it
comes a second time to the connection it left open. -/
theorem second_delivery_echoes (h : Reachable c)
    (hs : c.connectionState = .synSent ∨ c.Peered) (hack : seg.hasAck = true)
    (hsize : seg.seqSize ≠ 0#32) (hc : c.onSegment seg = .ok c')
    (hsync : c'.connectionState.synced = true) :
    ∃ c'', c'.onSegment seg = .ok c'' ∧ Echoes c' c'' := by
  have hwf' : WellFormed c' := (h.next (step_onSegment.mpr ⟨hc, rfl⟩)).wellFormed
  have hpeer' : c'.Peered := .inl hsync
  rcases hs with hst | hs
  · exact echoes_unacceptable hpeer' (unacceptable_of_opened hwf' hst hsize hc hsync)
  · rcases refused_or_accepted hs hc hpeer'.not_idle with ⟨hcheck, hrx⟩ | ⟨hcheck, hrst, hsyn, hacc⟩
    · refine echoes_unacceptable hpeer' ?_
      rw [checkSegmentSeqOk, hrx]
      exact hcheck
    · cases hacc with
      | unacknowledged hno => exact absurd (hno.symm.trans hack) Bool.false_ne_true
      | invalid _ hrange =>
          have hagain := onSegment_invalidAck (c := c.windowed seg) hs hcheck hrst hsyn hack hrange
          exact ⟨_, hagain, .inl rfl⟩
      | @discarded c₁ c₂ _ hrange h₁ h₂ hseq =>
          have hsync₂ : c₂.connectionState.synced = true := by
            split at hsync
            · exact hsync
            · exact hsync
          exact h₁.discarded_echoes hs h₂ hsync₂ hcheck hrst hsyn hack hseq
      | @stored c₁ c₂ c₃ _ _ _ hrange h₁ h₂ hseq _ h₃ _ =>
          have hinOrder : seg.seqn = c.rx.ackd := by
            rcases onFinAcked_peered (h₁.peered hs).1 h₂ with ⟨-, -, hrx₂⟩ | ⟨-, rfl⟩
            · rw [hseq, hrx₂, (h₁.peered hs).2.2]
              rfl
            · exact absurd h₃ (sendAck_closed rfl)
          have hst : c.Stores seg := ⟨hcheck, hrst, hsyn, hack, hrange, hinOrder⟩
          exact echoes_unacceptable hpeer' (hst.unacceptable_after h hs hsize hc hpeer'.not_idle)

/-- Data that comes twice is acknowledged a second time. -/
theorem second_delivery_echoes_two : ∃ c c' c'' : Connection Unit Nat,
    c.onSegment ⟨101#32, 1#32, 1000#16, .ack, [1, 2]⟩ = .ok c' ∧
      c'.onSegment ⟨101#32, 1#32, 1000#16, .ack, [1, 2]⟩ = .ok c'' ∧ Echoes c' c'' := by
  obtain ⟨c, hreach, hpeer, hok⟩ : ∃ c : Connection Unit Nat, Reachable c ∧ c.Peered ∧
      (c.onSegment ⟨101#32, 1#32, 1000#16, .ack, [1, 2]⟩).toOption.any (fun c' =>
        c'.connectionState.synced) = true :=
    Transition.exists_reachableUnder step_of_next (initial_listening () .default zeroUser)
      [.onSegment ⟨100#32, 0#32, 1000#16, .syn, []⟩,
       .onSegment ⟨101#32, 1#32, 1000#16, .ack, []⟩] (by decide)
  obtain ⟨c', hc, hsync⟩ := exists_of_toOption_any hok
  obtain ⟨c'', hc'', hechoes⟩ :=
    second_delivery_echoes hreach (.inr hpeer) (by decide) (by decide) hc hsync
  exact ⟨c, c', c'', hc, hc'', hechoes⟩

end Repeat

section RepeatedFin

/-- A copy of the segment that carried the FIN of the peer: its last number is
the last one received, and it acknowledges everything sent. -/
structure FinCopy (c : Connection Addr Time) (seg : SegmentMeta) : Prop where
  fin : seg.hasFin = true
  ack : seg.hasAck = true
  last : seg.lastSeqn = c.rx.ackd - 1#32
  ackn : seg.ackn = c.tx.next
  data : seg.data = []

omit [UserTime Time] in
instance (c : Connection Addr Time) (seg : SegmentMeta) : Decidable (c.FinCopy seg) :=
  decidable_of_iff (seg.hasFin = true ∧ seg.hasAck = true ∧ seg.lastSeqn = c.rx.ackd - 1#32 ∧
      seg.ackn = c.tx.next ∧ seg.data = [])
    ⟨fun ⟨h₁, h₂, h₃, h₄, h₅⟩ => ⟨h₁, h₂, h₃, h₄, h₅⟩,
      fun h => ⟨h.fin, h.ack, h.last, h.ackn, h.data⟩⟩

/-- The segment is acknowledged and the connection waits for the full time
again: the user is asked for a timeout counted from a reading of the clock. -/
def RestartsTimeWait (c : Connection Addr Time) (seg : SegmentMeta) : Prop :=
  ∃ c' ack n, c.onSegment seg = .ok c' ∧ c'.userData.sent = c.userData.sent ++ [ack] ∧
    ack.hasAck = true ∧ ack.ackn = c.rx.ackd ∧ c'.connectionState = .timeWait ∧
    c'.timers.timewait = some (UserTime.add (c.userData.clock n) (maxSegmentLifetime * 2)) ∧
    Callback.addTimeout (UserTime.add (c.userData.clock n) (maxSegmentLifetime * 2)) ∈
      c'.userData.calls.drop c.userData.calls.length

omit [UserTime Time] in
/-- Behind the FIN of the peer the window is closed to every further FIN. -/
theorem fin_unacceptable (hmark : c.rx.buffer.fin = true) (hfin : seg.hasFin = true)
    (hdata : seg.data = []) : c.checkSegmentSeqOk seg = false := by
  have hclosed : c.rx.currWindow = 0#16 := by
    rw [RxBuffer.currWindow, if_pos hmark]
  have hsize : seg.seqSize ≠ 0#32 := by
    rw [SegmentMeta.seqSize_eq, hfin, hdata]
    cases seg.hasSyn <;> decide
  rw [← Bool.not_eq_true, checkSegmentSeqOk_iff, if_pos hclosed]
  exact fun h => hsize h.1

/-- No timeout is asked for when a segment is not acceptable. -/
theorem unacceptable_never_restarts (hs : c.Peered) (hcheck : c.checkSegmentSeqOk seg = false) :
    ¬ c.RestartsTimeWait seg := by
  rintro ⟨c', ack, n, hc, -, -, -, -, -, hcall⟩
  have hc' := Except.ok.inj (hc.symm.trans (onSegment_unacceptable hs hcheck))
  rw [hc'] at hcall
  split at hcall
  · rw [List.drop_length] at hcall
    cases hcall
  · have hcalls : (c.send (c.bareSegment c.rx.ackd .ack)).userData.calls =
        c.userData.calls ++ [.send c.remote (c.bareSegment c.rx.ackd .ack)] := rfl
    rw [hcalls, List.drop_left, List.mem_singleton] at hcall
    cases hcall

/-- In TimeWait a repeated FIN never restarts the wait. -/
theorem repeatedFin_never_restarts (h : Reachable c) (hst : c.connectionState = .timeWait)
    (hcopy : c.FinCopy seg) : ¬ c.RestartsTimeWait seg := by
  have hs : c.Peered := by
    left
    rw [hst]
    rfl
  have hmark : c.rx.buffer.fin = true := by
    apply h.wellFormed.readClosed
    rw [hst]
    rfl
  exact unacceptable_never_restarts hs (fin_unacceptable hmark hcopy.fin hcopy.data)

/-- An active close in TimeWait gets the FIN again. -/
theorem repeatedFin_never_restarts_once : ∃ c : Connection Unit Nat,
    c.connectionState = .timeWait ∧
      c.FinCopy ⟨101#32, 2#32, 1000#16, .fin ||| .ack, []⟩ ∧
      ¬ c.RestartsTimeWait ⟨101#32, 2#32, 1000#16, .fin ||| .ack, []⟩ := by
  obtain ⟨c, hreach, hst, hcopy⟩ : ∃ c : Connection Unit Nat, Reachable c ∧
      c.connectionState = .timeWait ∧
        c.FinCopy ⟨101#32, 2#32, 1000#16, .fin ||| .ack, []⟩ :=
    Transition.exists_reachableUnder step_of_next (initial_listening () .default zeroUser)
      [.onSegment ⟨100#32, 0#32, 1000#16, .syn, []⟩,
       .onSegment ⟨101#32, 1#32, 1000#16, .ack, []⟩, .callClose,
       .onSegment ⟨101#32, 2#32, 1000#16, .fin ||| .ack, []⟩, .callRecv 1] (by decide)
  exact ⟨c, hst, hcopy, repeatedFin_never_restarts hreach hst hcopy⟩

/-- The FIN of an active close is not answered by a new wait. -/
theorem repeatedFin_waits_out : ¬ ∀ c : Connection Unit Nat, Reachable c →
    c.connectionState = .timeWait → ∀ seg : SegmentMeta, c.FinCopy seg →
      c.RestartsTimeWait seg := by
  intro hall
  obtain ⟨c, hreach, hst, hcopy, hpeer, hcheck⟩ : ∃ c : Connection Unit Nat, Reachable c ∧
      c.connectionState = .timeWait ∧ c.FinCopy ⟨101#32, 2#32, 1000#16, .fin ||| .ack, []⟩ ∧
        c.Peered ∧
        c.checkSegmentSeqOk ⟨101#32, 2#32, 1000#16, .fin ||| .ack, []⟩ = false :=
    Transition.exists_reachableUnder step_of_next (initial_listening () .default zeroUser)
      [.onSegment ⟨100#32, 0#32, 1000#16, .syn, []⟩,
       .onSegment ⟨101#32, 1#32, 1000#16, .ack, []⟩, .callClose,
       .onSegment ⟨101#32, 2#32, 1000#16, .fin ||| .ack, []⟩, .callRecv 1] (by decide)
  exact unacceptable_never_restarts hpeer hcheck (hall c hreach hst _ hcopy)

end RepeatedFin

end Connection

end TcpState
