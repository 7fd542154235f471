import TcpState.Connection.SegmentPanic

/-!
# Which segments open a connection

From SynSent only the peer that answers our SYN opens the connection. From
SynReceived two more kinds of segments do: one that acknowledges the number
before our SYN, and a FIN without any acknowledgement.
-/

namespace TcpState

namespace ConnectionState

theorem withFin_isEstablished (s : ConnectionState) : s.withFin.isEstablished = true := by
  cases s <;> rfl

end ConnectionState

namespace Connection

variable {Addr Time : Type}

section Condition

variable (c : Connection Addr Time) (seg : SegmentMeta)

/-- The segment acknowledges our SYN. -/
def AcksSyn : Prop :=
  seg.hasAck = true ∧ seg.ackn ≠ c.tx.initSeqn ∧
    seg.ackn.inRangeInclusive c.tx.initSeqn c.tx.next = true

/-- The segments that open the connection without having seen our SYN. -/
def OpensUnseen : Prop :=
  c.connectionState = .synReceived ∧ c.checkSegmentSeqOk seg = true ∧ seg.hasRst = false ∧
    seg.hasSyn = false ∧
    (seg.hasAck = false ∧ seg.hasFin = true ∨
      seg.hasAck = true ∧ seg.ackn = c.tx.initSeqn ∧
        ¬ (seg.seqn = c.rx.ackd ∧ seg.hasFin = true ∧ seg.data ≠ []))

instance : Decidable (c.AcksSyn seg) := by
  unfold AcksSyn
  infer_instance

instance : Decidable (c.OpensUnseen seg) := by
  unfold OpensUnseen
  infer_instance

end Condition

variable [UserTime Time] {c c' : Connection Addr Time} {seg : SegmentMeta}

theorem sendAck_isEstablished (hs : c.connectionState.isEstablished = true)
    (hc : c.sendAck = .ok c') : c'.connectionState.isEstablished = true := by
  rw [(sendAck_spec hc).state]
  split
  · exact ConnectionState.withFin_isEstablished _
  · exact hs

/-- Storing in an open connection leaves it open. -/
theorem storeData_isEstablished (hs : c.connectionState.isEstablished = true) {proceed : Bool}
    (hc : c.storeData seg = .ok (c', proceed)) : c'.connectionState.isEstablished = true := by
  rcases storeData_ok_iff.mp hc with ⟨-, -, rx, -, hack⟩ | ⟨-, -, rfl⟩
  · exact @sendAck_isEstablished _ _ _ { c with rx := rx } c' hs hack
  · split <;> exact hs

/-- A FIN leaves an open connection open and opens one in SynReceived. -/
theorem onFin_isEstablished
    (hs : c.connectionState.isEstablished = true ∨ c.connectionState = .synReceived)
    {isNew : Bool} (hc : c.onFin isNew = .ok c') : c'.connectionState.isEstablished = true := by
  unfold onFin at hc
  split at hc
  case h_5 hst =>
    obtain ⟨-, -, rfl⟩ := setState_ok_iff.mp hc
    rw [stateSet_eq_entered _ (.inl (by decide)), entered_connectionState]
    rfl
  case h_6 hst =>
    obtain ⟨-, -, rfl⟩ := setState_ok_iff.mp hc
    rw [stateSet_eq_entered _ (.inr (.inl (by decide))), entered_connectionState]
    rfl
  all_goals
    rename_i hst
    rw [hst] at hs
    rcases hs with hs | hs <;> cases hs

/-- An acknowledgement in range opens a connection in SynReceived. -/
theorem onAck_isEstablished (hst : c.connectionState = .synReceived)
    (hrange : seg.ackn.inRangeInclusive c.tx.unack c.tx.next = true) {proceed : Bool}
    (hc : c.onAck seg = .ok (c', proceed)) : c'.connectionState.isEstablished = true := by
  rcases onAck_ok_iff.mp hc with ⟨-, c₁, c₂, h₁, h₂, h₃⟩ | ⟨hno, -⟩
  · have hstate : c₁.connectionState = .fullyOpen := by
      rw [(acknowledged_of_ok h₁).frame.1, opened_connectionState, if_pos hst]
    rcases onFinAcked_ok_iff.mp h₂ with ⟨_, _, _, hfin, -⟩ | ⟨-, rfl⟩
    · rw [hstate] at hfin
      cases hfin
    · exact storeData_isEstablished (by rw [hstate]; rfl) h₃
  · rw [hrange] at hno
    cases hno

theorem onAccepted_isEstablished (hst : c.connectionState = .synReceived)
    (hopen : seg.hasAck = false ∧ seg.hasFin = true ∨
      seg.hasAck = true ∧ seg.ackn.inRangeInclusive c.tx.unack c.tx.next = true)
    (hc : c.onAccepted seg = .ok c') : c'.connectionState.isEstablished = true := by
  simp only [onAccepted, Fallible.bind_ok_iff, Prod.exists] at hc
  obtain ⟨c₁, proceed, hack, hfin⟩ := hc
  rcases hopen with ⟨hno, hseg⟩ | ⟨hyes, hrange⟩
  · rw [if_neg (by simpa using hno)] at hack
    obtain ⟨rfl, rfl⟩ := Prod.mk.inj (Fallible.pure_ok_iff.mp hack)
    rw [if_pos (by simpa using hseg)] at hfin
    exact onFin_isEstablished (.inr hst) hfin
  · rw [if_pos hyes] at hack
    have hs := onAck_isEstablished hst hrange hack
    split at hfin
    · exact onFin_isEstablished (.inl hs) hfin
    · exact Fallible.pure_ok_iff.mp hfin ▸ hs

namespace WellFormed

omit [UserTime Time] in
/-- A peer in SynReceived that acknowledges nothing new panics only with data
in the segment of its FIN. -/
theorem ackPanics_of_unseen (h : WellFormed c) (hst : c.connectionState = .synReceived)
    (hackn : seg.ackn = c.tx.initSeqn) :
    c.ackPanics seg ↔ seg.seqn = c.rx.ackd ∧ seg.hasFin = true ∧ seg.data ≠ [] := by
  obtain ⟨hun, -⟩ := h.opening (by rw [hst]; rfl)
  obtain ⟨-, -, hfin⟩ := h.early (by rw [hst]; rfl)
  simp [ackPanics, ackOverflows, acksFin, finishes, storePanics, finPanics, hst, hfin, hun,
    hackn, ConnectionState.tx, ConnectionState.closePending]

omit [UserTime Time] in
/-- The range of acceptable acknowledgements during the handshake. -/
theorem inRange_opening (h : WellFormed c) (seg : SegmentMeta)
    (ho : c.connectionState.opening = true) :
    seg.ackn.inRangeInclusive c.tx.unack c.tx.next = true ↔
      seg.ackn = c.tx.initSeqn ∨ seg.ackn ≠ c.tx.initSeqn ∧
        seg.ackn.inRangeInclusive c.tx.initSeqn c.tx.next = true := by
  obtain ⟨hun, -⟩ := h.opening ho
  rw [hun]
  by_cases heq : seg.ackn = c.tx.initSeqn
  · simp [heq, SeqN.inRangeInclusive_iff]
  · simp [heq]

/-- From SynReceived, exactly the listed segments open the connection without
acknowledging our SYN. -/
theorem opens_synReceived_iff (h : WellFormed c) (hst : c.connectionState = .synReceived) :
    (∀ c', c.onSegmentSynchronized seg = .ok c' →
        c'.connectionState.isEstablished = true → c.AcksSyn seg) ↔ ¬ c.OpensUnseen seg := by
  have hpeer : Peered c := .inr hst
  have hrange := h.inRange_opening seg (by rw [hst]; rfl)
  constructor
  · rintro hall ⟨-, hcheck, hrst, hsyn, hcase⟩
    have hok : ¬ (seg.hasAck = true ∧
        seg.ackn.inRangeInclusive c.tx.unack c.tx.next = true ∧ c.ackPanics seg ∨
        seg.hasAck = false ∧ seg.hasFin = true ∧ c.connectionState.refusesFin = true) := by
      rintro (⟨hack, -, hp⟩ | ⟨-, -, href⟩)
      · rcases hcase with ⟨hno, -⟩ | ⟨-, hackn, hp'⟩
        · rw [hack] at hno
          cases hno
        · exact hp' ((h.ackPanics_of_unseen hst hackn).mp hp)
      · rw [hst] at href
        cases href
    obtain ⟨c', hc'⟩ := h.onSegmentSynchronized_succeeds_iff hpeer seg |>.mpr
      (by
        rintro ⟨-, ⟨hr, -⟩ | ⟨-, -, hp⟩⟩
        · rw [hrst] at hr
          cases hr
        · exact hok hp)
    have hest : c'.connectionState.isEstablished = true := by
      cases synchronizedStep_iff.mp hc' with
      | accepted _ _ _ hacc =>
          refine @onAccepted_isEstablished _ _ _ (c.windowed seg) c' seg hst ?_ hacc
          exact hcase.imp id fun ⟨hack, hackn, _⟩ => ⟨hack, hrange.mpr (.inl hackn)⟩
      | _ => simp_all
    obtain ⟨hack, hne, -⟩ := hall c' hc' hest
    rcases hcase with ⟨hno, -⟩ | ⟨-, hackn, -⟩
    · rw [hack] at hno
      cases hno
    · exact hne hackn
  · intro hseen c' hc' hest
    cases synchronizedStep_iff.mp hc' with
    | dropped => rw [hst] at hest; cases hest
    | rejected => rw [send_connectionState, hst] at hest; cases hest
    | reset _ _ hrst =>
        rw [Connection.onRst, windowed_connectionState, hst] at hrst
        obtain ⟨-, -, rfl⟩ := setState_ok_iff.mp hrst
        rw [stateSet_listen, entered_connectionState] at hest
        cases hest
    | syn _ _ _ hsyn =>
        obtain ⟨-, -, rfl⟩ := setState_ok_iff.mp hsyn
        rw [stateSet_reset, entered_connectionState] at hest
        cases hest
    | accepted hcheck hrst hsyn hacc =>
        have hsame (hid : c' = c.windowed seg) : False := by
          rw [hid, windowed_connectionState, hst] at hest
          cases hest
        by_contra hno
        cases hack : seg.hasAck with
        | false =>
            cases hfin : seg.hasFin with
            | true => exact hseen ⟨hst, hcheck, hrst, hsyn, .inl ⟨hack, hfin⟩⟩
            | false =>
                refine hsame ?_
                simp only [SegmentMeta.hasAck, SegmentMeta.hasFin] at hack hfin
                simpa [Connection.onAccepted, hack, hfin, pure, Except.pure, eq_comm]
                  using hacc
        | true =>
            cases hin : seg.ackn.inRangeInclusive c.tx.unack c.tx.next with
            | true =>
                rcases hrange.mp hin with hackn | ⟨hne, hin'⟩
                · refine hseen ⟨hst, hcheck, hrst, hsyn, .inr ⟨hack, hackn, ?_⟩⟩
                  intro hp
                  have hfail := h.onSegmentSynchronized_succeeds_iff hpeer seg |>.mp ⟨c', hc'⟩
                  exact hfail ⟨hcheck, .inr ⟨hrst, hsyn, .inl ⟨hack, hin,
                    (h.ackPanics_of_unseen hst hackn).mpr hp⟩⟩⟩
                · exact hno ⟨hack, hne, hin'⟩
            | false =>
                simp only [Connection.onAccepted, Fallible.bind_ok_iff, Prod.exists] at hacc
                obtain ⟨c₁, proceed, hack₁, hfin₁⟩ := hacc
                rw [if_pos hack] at hack₁
                rcases onAck_ok_iff.mp hack₁ with ⟨hin', -⟩ | ⟨-, rfl, rfl⟩
                · exact absurd (hin'.symm.trans hin) (by decide)
                · exact hsame (Fallible.pure_ok_iff.mp hfin₁).symm

end WellFormed

/-- A connection under way to being open is opened only by acknowledging our
SYN, except by exactly the segments of `OpensUnseen`. -/
theorem opens_only_seen_iff (h : Reachable c) (ho : c.connectionState.opening = true)
    (seg : SegmentMeta) :
    (∀ c', c.onSegment seg = .ok c' → c'.connectionState.isEstablished = true →
        c.AcksSyn seg) ↔ ¬ c.OpensUnseen seg := by
  have hwf := h.wellFormed
  cases hst : c.connectionState with
  | synSent =>
      obtain ⟨hun, hnext⟩ := hwf.opening ho
      have hnever : ¬ c.OpensUnseen seg := by
        rintro ⟨hrec, -⟩
        rw [hst] at hrec
        cases hrec
      refine iff_of_true ?_ hnever
      intro c' hc' hest
      rw [onSegment, hst] at hc'
      cases synSentStep_of_ok hc' with
      | ignored => rw [hst] at hest; cases hest
      | refused => rw [send_connectionState, hst] at hest; cases hest
      | reset => cases hest
      | waiting => rw [show (c.synAcked seg).connectionState = _ from hst] at hest; cases hest
      | opened hrange _ hack _ heq =>
          refine ⟨hack, ?_, by rwa [hun] at hrange⟩
          rw [heq]
          intro hself
          have hone := Circular.span_add_ofNat c.tx.initSeqn (show 1 < 2 ^ 32 by decide)
          rw [hself] at hone
          simp at hone
  | synReceived =>
      rw [onSegment, hst]
      exact hwf.opens_synReceived_iff hst
  | _ => rw [hst] at ho; cases ho

/-- In SynReceived a segment that acknowledges our SYN opens the connection. -/
theorem opens_only_seen_synReceived : ∃ c : Connection Unit Nat,
    c.connectionState = .synReceived ∧ ∀ c',
      c.onSegment ⟨101#32, 1#32, 1000#16, .ack, []⟩ = .ok c' →
        c'.connectionState.isEstablished = true →
          c.AcksSyn ⟨101#32, 1#32, 1000#16, .ack, []⟩ := by
  obtain ⟨c, hreach, hst, hseen⟩ : ∃ c : Connection Unit Nat, Reachable c ∧
      c.connectionState = .synReceived ∧
        ¬ c.OpensUnseen ⟨101#32, 1#32, 1000#16, .ack, []⟩ :=
    Transition.exists_reachableUnder step_of_next (initial_listening () .default zeroUser)
      [.onSegment ⟨100#32, 0#32, 1000#16, .syn, []⟩] (by decide)
  exact ⟨c, hst, (opens_only_seen_iff hreach (by rw [hst]; rfl) _).mpr hseen⟩

/-- A bare FIN opens a connection in SynReceived. -/
theorem opens_unseen : ¬ ∀ (c : Connection Unit Nat), Reachable c →
    c.connectionState.opening = true → ∀ (seg : SegmentMeta) (c' : Connection Unit Nat),
      c.onSegment seg = .ok c' → c'.connectionState.isEstablished = true → c.AcksSyn seg := by
  intro hall
  obtain ⟨c, hreach, ho, hopen, hseen⟩ : ∃ c : Connection Unit Nat, Reachable c ∧
      c.connectionState.opening = true ∧
        (c.next (.onSegment ⟨101#32, 0#32, 1000#16, .fin, []⟩)).any
          (fun c' => c'.connectionState.isEstablished) = true ∧
        ¬ c.AcksSyn ⟨101#32, 0#32, 1000#16, .fin, []⟩ :=
    Transition.exists_reachableUnder step_of_next (initial_listening () .default zeroUser)
      [.onSegment ⟨100#32, 0#32, 1000#16, .syn, []⟩] (by decide)
  obtain ⟨c', hnext, hest⟩ := Option.any_eq_true _ _ |>.mp hopen
  obtain ⟨out, hstep⟩ := step_of_next _ _ _ hnext
  exact hseen (hall c hreach ho _ c' (step_onSegment.mp hstep).1 hest)

end Connection

end TcpState
