import TcpState.Connection.RxEffect

/-!
# The branches of an acceptable segment

An acceptable segment without RST and SYN is inverted once, with the
connections between its steps: after the acknowledgement, after our FIN was
counted, after the data was stored.
-/

namespace TcpState

namespace Connection

variable {Addr Time : Type} [UserTime Time]

/-- The acknowledgement bookkeeping: the handshake ends and a new number is
processed. -/
def Takes (c : Connection Addr Time) (seg : SegmentMeta) (c₁ : Connection Addr Time) : Prop :=
  (if c.tx.unack ≠ seg.ackn then c.opened.onNewAck seg else .ok c.opened) = .ok c₁

/-- The branches of `onAccepted`. -/
inductive AcceptedStep (c : Connection Addr Time) (seg : SegmentMeta) :
    Connection Addr Time → Prop
  | unacknowledged {c' : Connection Addr Time} (hack : seg.hasAck = false)
      (hfin : (if seg.hasFin then c.onFin false else .ok c) = .ok c') : AcceptedStep c seg c'
  | invalid (hack : seg.hasAck = true)
      (hrange : seg.ackn.inRangeInclusive c.tx.unack c.tx.next = false) : AcceptedStep c seg c
  | discarded {c₁ c₂ : Connection Addr Time} (hack : seg.hasAck = true)
      (hrange : seg.ackn.inRangeInclusive c.tx.unack c.tx.next = true) (h₁ : c.Takes seg c₁)
      (h₂ : c₁.onFinAcked seg.ackn = .ok c₂) (hseq : seg.seqn ≠ c₂.rx.ackd) :
      AcceptedStep c seg
        (if seg.seqn.lt c₂.rx.ackd then c₂.send (c₂.bareSegment c₂.rx.ackd .ack) else c₂)
  | stored {c₁ c₂ c₃ c' : Connection Addr Time} {rx : RxBuffer} (hack : seg.hasAck = true)
      (hrange : seg.ackn.inRangeInclusive c.tx.unack c.tx.next = true) (h₁ : c.Takes seg c₁)
      (h₂ : c₁.onFinAcked seg.ackn = .ok c₂) (hseq : seg.seqn = c₂.rx.ackd)
      (hrx : c₂.rx.write seg = .ok rx) (h₃ : { c₂ with rx := rx }.sendAck = .ok c₃)
      (hfin : (if seg.hasFin then c₃.onFin (c.tx.isNonOrderedAck seg.ackn) else .ok c₃) = .ok c') :
      AcceptedStep c seg c'

variable {c c' c₁ c₂ : Connection Addr Time} {seg : SegmentMeta}

theorem acceptedStep_of_ok (h : c.onAccepted seg = .ok c') : AcceptedStep c seg c' := by
  simp only [Connection.onAccepted, Fallible.bind_ok_iff, Prod.exists] at h
  obtain ⟨c₃, proceed, hack, hfin⟩ := h
  split at hack
  · rename_i hflag
    rw [hflag, Bool.true_and] at hfin
    rcases onAck_ok_iff.mp hack with ⟨hrange, c₁, c₂, h₁, h₂, h₃⟩ | ⟨hrange, rfl, rfl⟩
    · rcases storeData_ok_iff.mp h₃ with ⟨hseq, rfl, rx, hrx, hsend⟩ | ⟨hseq, rfl, rfl⟩
      · exact .stored hflag hrange h₁ h₂ hseq hrx hsend hfin
      · obtain rfl := Fallible.pure_ok_iff.mp hfin
        exact .discarded hflag hrange h₁ h₂ hseq
    · obtain rfl := Fallible.pure_ok_iff.mp hfin
      exact .invalid hflag hrange
  · rename_i hflag
    obtain ⟨rfl, rfl⟩ := Prod.mk.inj (Fallible.pure_ok_iff.mp hack)
    rw [Bool.eq_false_iff.mpr hflag, Bool.false_and] at hfin
    exact .unacknowledged (by simpa using hflag) hfin

theorem Takes.acknowledged (h : c.Takes seg c₁) : Acknowledged c seg c₁ := acknowledged_of_ok h

/-- The acknowledgement bookkeeping keeps the peer and the receive side. -/
theorem Takes.peered (h : c.Takes seg c₁) (hs : Peered c) :
    Peered c₁ ∧ c₁.connectionState.rx = c.connectionState.rx ∧ c₁.rx = c.rx := by
  obtain ⟨hstate, hrx, -⟩ := h.acknowledged.frame
  have hopen := opened_rxState hs
  unfold Peered
  rw [hstate]
  exact ⟨hopen.1, hopen.2, hrx⟩

/-- Our FIN is acknowledged on a passive close that has read everything: the
connection is cleared. -/
def FinishesClose (c : Connection Addr Time) (ackn : SeqN) : Prop :=
  c.connectionState = .established .fin .closed true false ∧ ackn = c.tx.next

/-- A connection with a peer keeps it unless the acknowledgement of its FIN
finishes a passive close. -/
theorem onFinAcked_peered {ackn : SeqN} (hs : Peered c₁) (h : c₁.onFinAcked ackn = .ok c₂) :
    ¬ c₁.FinishesClose ackn ∧ Peered c₂ ∧ c₂.rx = c₁.rx ∨
      c₁.FinishesClose ackn ∧
        c₂ = (c₁.entered (.established .closed .closed true false)).clear := by
  rcases onFinAcked_ok_iff.mp h with ⟨r, cc, ca, hst, hackn, -, -, rfl⟩ | ⟨hno, rfl⟩
  · by_cases hclear : r = .closed ∧ cc = true ∧ ca = false
    · obtain ⟨rfl, rfl, rfl⟩ := hclear
      exact .inr ⟨⟨hst, hackn⟩, rfl⟩
    · left
      obtain ⟨-, hsync, -⟩ := stateSet_finAcked c₁ hclear
      refine ⟨fun hf => hclear ?_, ?_⟩
      · obtain ⟨-, rfl, rfl, rfl⟩ := ConnectionState.established.inj (hst.symm.trans hf.1)
        exact ⟨rfl, rfl, rfl⟩
      rcases stateSet_rx c₁ .closed r cc ca with ⟨h₁, -, h₃, -⟩ | ⟨hidle, -⟩
      · exact ⟨h₁, h₃⟩
      · cases hst' : (c₁.stateSet (.established .closed r cc ca)).connectionState <;>
          simp_all [ConnectionState.idle, ConnectionState.synced]
  · refine .inl ⟨fun hf => hno ?_ hf.2, hs, rfl⟩
    rw [hf.1]
    rfl

theorem sendAck_closed (hst : c.connectionState = .closed) :
    c.sendAck ≠ .ok c' := by
  intro h
  exact ((sendAck_succeeds_iff c).mp ⟨c', h⟩).1 hst

/-- In TimeWait nothing is left to send. -/
theorem timeWait_of_sendAck (hst : c.connectionState = .timeWait) (hc : c.sendAck = .ok c') :
    c'.connectionState = .timeWait := by
  rw [(sendAck_spec hc).state, if_neg, hst]
  intro hfin
  have hwrote := (sendsFin_iff.mp hfin).2.2
  rw [hst] at hwrote
  cases hwrote

theorem timeWait_of_onFin {isNew : Bool} (hst : c.connectionState = .timeWait)
    (hc : (if seg.hasFin then c.onFin isNew else .ok c) = .ok c') :
    c'.connectionState = .timeWait := by
  split at hc
  · unfold onFin at hc
    rw [hst] at hc
    dsimp only at hc
    split at hc
    all_goals
      obtain rfl := Fallible.pure_ok_iff.mp hc
      exact hst
  · obtain rfl := Except.ok.inj hc
    exact hst

end Connection

end TcpState
