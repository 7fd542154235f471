import TcpState.Connection.AcceptedStep
import TcpState.Connection.Intake

/-!
# The end of a passive close

The acknowledgement of our FIN clears a connection that has read everything,
and `on_segment` then goes on with the cleared receive buffer. What it does
there depends on where the sequence number of the segment lies from zero.
-/

namespace TcpState

namespace Connection

variable {Addr Time : Type}

/-- Every field but the remote address, the options, the user data and the
cookie counter is that of a new connection. -/
def Blank (c : Connection Addr Time) : Prop :=
  c = { new c.remote c.userData with
        options := c.options
        events := { Events.new with nextCookie := c.events.nextCookie } }

theorem blank_clear (c : Connection Addr Time) : Blank c.clear := by
  unfold Blank clear triggerEvent
  simp [new, Events.new]

variable [UserTime Time]

/-- `on_segment` reaches the close reduction: the segment is accepted and
acknowledges our FIN, and the connection is cleared. -/
def ReachesClose (c : Connection Addr Time) (seg : SegmentMeta) : Prop :=
  c.Peered ∧ c.checkSegmentSeqOk seg = true ∧ seg.hasRst = false ∧ seg.hasSyn = false ∧
    seg.hasAck = true ∧ seg.ackn.inRangeInclusive c.tx.unack c.tx.next = true ∧
    ∃ c₁ c₂, (c.windowed seg).Takes seg c₁ ∧ c₁.onFinAcked seg.ackn = .ok c₂ ∧
      c₂.connectionState = .closed

/-- If the connection reaches the close reduction, the call returns, nothing is
sent and the connection is as new. -/
def EndsCleanly (c : Connection Addr Time) (seg : SegmentMeta) : Prop :=
  c.ReachesClose seg → ∃ c', c.onSegment seg = .ok c' ∧ c'.userData.sent = c.userData.sent ∧
    c'.Blank

variable {c c' : Connection Addr Time} {seg : SegmentMeta}

omit [UserTime Time] in
theorem Peered.not_closed (hs : c.Peered) : c.connectionState ≠ .closed := by
  intro hst
  have := hs.not_idle
  rw [hst] at this
  cases this

/-- `on_segment` leaves a connection in Closed by the close reduction only. -/
theorem reachesClose_of_closed (hs : c.Peered) (hc : c.onSegment seg = .ok c')
    (hclosed : c'.connectionState = .closed) : c.ReachesClose seg := by
  rw [onSegment_of_peered hs] at hc
  cases synchronizedStep_iff.mp hc with
  | dropped => exact absurd hclosed hs.not_closed
  | rejected => exact absurd hclosed hs.not_closed
  | reset _ _ hrst =>
      exact absurd hclosed (onRst_spec hrst).not_closed
  | syn _ _ _ hsyn =>
      exact absurd hclosed (onSyn_spec hsyn).not_closed
  | accepted hcheck hrst hsyn hacc =>
      have hs' : (c.windowed seg).Peered := hs
      cases acceptedStep_of_ok hacc with
      | unacknowledged _ hfin =>
          split at hfin
          · exact absurd hclosed (onFin_rx hs' hfin).1.not_closed
          · obtain rfl := Except.ok.inj hfin
            exact absurd hclosed hs'.not_closed
      | invalid => exact absurd hclosed hs'.not_closed
      | @discarded c₁ c₂ hack hrange h₁ h₂ =>
          refine ⟨hs, hcheck, hrst, hsyn, hack, hrange, c₁, c₂, h₁, h₂, ?_⟩
          split at hclosed <;> exact hclosed
      | @stored c₁ c₂ c₃ _ _ _ _ h₁ h₂ _ _ h₃ hfin =>
          rcases onFinAcked_peered (h₁.peered hs').1 h₂ with ⟨-, hs₂, -⟩ | ⟨-, rfl⟩
          · have hs₃ := (AckSent.rxState (sendAck_spec h₃) hs₂).1
            split at hfin
            · exact absurd hclosed (onFin_rx hs₃ hfin).1.not_closed
            · obtain rfl := Except.ok.inj hfin
              exact absurd hclosed hs₃.not_closed
          · exact absurd h₃ (sendAck_closed rfl)

/-- After the reduction the call panics at sequence number zero, and answers a
segment that lies behind zero. -/
theorem ReachesClose.onSegment (h : c.ReachesClose seg) :
    ∃ c₂, c₂.Blank ∧ c₂.userData.sent = c.userData.sent ∧
      ∀ c', c.onSegment seg = .ok c' ↔ seg.seqn ≠ .zero ∧
        c' = if seg.seqn.lt .zero then c₂.send (c₂.bareSegment .zero .ack) else c₂ := by
  obtain ⟨hs, hcheck, hrst, hsyn, hack, hrange, c₁, c₂, h₁, h₂, hclosed⟩ := h
  have hs' : (c.windowed seg).Peered := hs
  have hframe := h₁.acknowledged.frame
  obtain ⟨-, rfl⟩ : c₁.FinishesClose seg.ackn ∧ c₂ = _ := by
    refine (onFinAcked_peered (h₁.peered hs').1 h₂).resolve_left ?_
    rintro ⟨-, hs₂, -⟩
    exact hs₂.not_closed hclosed
  refine ⟨(c₁.entered (.established .closed .closed true false)).clear, blank_clear _, ?_,
    fun c' => ?_⟩
  · rw [clear_sent, entered_sent]
    exact hframe.2.2.2.2.2.2.2
  rw [onSegment_of_peered hs, synchronizedStep_iff]
  constructor
  · intro hstep
    cases hstep with
    | dropped h | rejected h => exact absurd (h.symm.trans hcheck) Bool.false_ne_true
    | reset _ h => exact absurd (hrst.symm.trans h) Bool.false_ne_true
    | syn _ _ h => exact absurd (hsyn.symm.trans h) Bool.false_ne_true
    | accepted _ _ _ hacc =>
        cases acceptedStep_of_ok hacc with
        | unacknowledged h => exact absurd (h.symm.trans hack) Bool.false_ne_true
        | invalid _ h => exact absurd (h.symm.trans hrange) Bool.false_ne_true
        | discarded _ _ h₁' h₂' hseq =>
            obtain rfl := Except.ok.inj (h₁.symm.trans h₁')
            obtain rfl := Except.ok.inj (h₂.symm.trans h₂')
            exact ⟨hseq, rfl⟩
        | stored _ _ h₁' h₂' _ _ h₃ =>
            obtain rfl := Except.ok.inj (h₁.symm.trans h₁')
            obtain rfl := Except.ok.inj (h₂.symm.trans h₂')
            exact absurd h₃ (sendAck_closed rfl)
  · rintro ⟨hseq, rfl⟩
    refine .accepted hcheck hrst hsyn ?_
    have honAck := (onAck_ok_iff (c := c.windowed seg)).mpr (.inl ⟨hrange, c₁, _, h₁, h₂,
      storeData_ok_iff.mpr (.inr ⟨hseq, rfl, rfl⟩)⟩)
    simp only [onAccepted, if_pos (show seg.flags.contains .ack = true from hack), honAck,
      Fallible.ok_bind, Bool.false_and, Bool.false_eq_true, if_false]
    rfl

/-- A passive close ends cleanly exactly where the sequence number of the
segment that acknowledges our FIN does not lie behind zero. -/
theorem endsCleanly_iff (c : Connection Addr Time) (seg : SegmentMeta) :
    c.EndsCleanly seg ↔ (c.ReachesClose seg → seg.seqn.lt .zero = false) := by
  refine imp_congr_right fun hreach => ?_
  obtain ⟨c₂, hblank, hsent, hstep⟩ := hreach.onSegment
  constructor
  · rintro ⟨c', hc, hclean, -⟩
    obtain ⟨-, rfl⟩ := (hstep c').mp hc
    by_contra hlt
    rw [if_pos (by simpa using hlt), send_sent, hsent] at hclean
    simp at hclean
  · intro hlt
    refine ⟨c₂, (hstep c₂).mpr ⟨?_, by rw [if_neg (Bool.eq_false_iff.mp hlt)]⟩, hsent, hblank⟩
    rintro hzero
    rw [hzero] at hlt
    cases hlt

/-- A peer that counts from the upper half of the sequence numbers gets an ACK
from the cleared connection. -/
theorem endsUncleanly : ¬ ∀ (c : Connection Unit Nat), Reachable c →
    ∀ (seg : SegmentMeta) (c' : Connection Unit Nat), c.onSegment seg = .ok c' → c.Peered →
      c'.connectionState = .closed → c'.userData.sent = c.userData.sent ∧ c'.Blank := by
  intro hall
  obtain ⟨c, hreach, hpeer, hunclean⟩ : ∃ c : Connection Unit Nat, Reachable c ∧ c.Peered ∧
      ∃ c' ∈ (c.onSegment ⟨0xfffffff2#32, 2#32, 1000#16, .ack, []⟩).toOption,
        c'.connectionState = .closed ∧ c'.userData.sent ≠ c.userData.sent :=
    Transition.exists_reachableUnder step_of_next (initial_listening () .default zeroUser)
      [.onSegment ⟨0xfffffff0#32, 0#32, 1000#16, .syn, []⟩,
       .onSegment ⟨0xfffffff1#32, 1#32, 1000#16, .fin ||| .ack, []⟩, .callRecv 1, .callClose]
      (by decide)
  obtain ⟨c', hc, hclosed, hsent⟩ := hunclean
  refine hsent (hall c hreach ⟨0xfffffff2#32, 2#32, 1000#16, .ack, []⟩ c' ?_ hpeer hclosed).1
  cases hres : c.onSegment ⟨0xfffffff2#32, 2#32, 1000#16, .ack, []⟩ with
  | ok c₀ =>
      rw [hres] at hc
      exact congrArg _ (Option.some.inj hc)
  | error p =>
      rw [hres] at hc
      cases hc

end Connection

end TcpState
