import TcpState.Connection.CallsPreserved

/-!
# When an incoming segment panics

The assertions of `on_segment` are checked against the invariant. Those that a
peer can make fail are collected in `SegmentPanics`, a condition on the
connection and the segment alone.
-/

namespace TcpState

open Fallible

namespace ConnectionState

/-- The states whose validation rejects the move to rx state `Fin`. -/
def refusesFin : ConnectionState → Bool
  | .established .opened _ true _ => true
  | .established _ .closed _ _ => true
  | _ => false

end ConnectionState

namespace Connection

variable {Addr Time : Type}

section Condition

variable (c : Connection Addr Time) (seg : SegmentMeta)

/-- A new acknowledgement overflows the congestion window. -/
def ackOverflows : Prop :=
  c.tx.unack ≠ seg.ackn ∧ 2 ^ 16 ≤ c.congestionWindow.toNat + seg.data.length % 2 ^ 16

/-- The acknowledgement covers everything sent, our FIN included. -/
def acksFin : Prop := c.connectionState.tx = .fin ∧ seg.ackn = c.tx.next

/-- The acknowledgement of our FIN clears the connection. -/
def finishes : Prop :=
  c.connectionState = .established .fin .closed true false ∧ seg.ackn = c.tx.next

/-- The retransmit queue after the acknowledgement. -/
def unackedAfter : List SegmentMeta :=
  if c.tx.unack = seg.ackn then c.tx.reTx
  else c.tx.reTx.dropWhile fun head => head.seqnAfter.lte seg.ackn

/-- The send window after the acknowledgement. -/
def windowAfter : BitVec 16 :=
  minU16 seg.window (if c.tx.unack = seg.ackn then c.congestionWindow
    else c.congestionWindow + BitVec.ofNat 16 seg.data.length)

/-- Storing would put data or a FIN behind a FIN. -/
def storePanics : Prop :=
  c.rx.buffer.fin = true ∧ (seg.data ≠ [] ∨ seg.hasFin = true) ∨
    seg.hasFin = true ∧ seg.data ≠ []

/-- The peer's FIN finds a close whose own FIN still has no room to leave. -/
def finPanics : Prop :=
  seg.hasFin = true ∧ c.connectionState.closePending = true ∧
    seg.ackn + (c.windowAfter seg).setWidth 32 = c.tx.next

/-- An acceptable acknowledgement that panics. -/
def ackPanics : Prop :=
  c.ackOverflows seg ∨ c.acksFin seg ∧ c.unackedAfter seg ≠ [] ∨
    c.finishes seg ∧ seg.seqn = .zero ∨
    ¬ c.finishes seg ∧ seg.seqn = c.rx.ackd ∧ (c.storePanics seg ∨ c.finPanics seg)

/-- Every segment that panics in a reachable connection. -/
def SegmentPanics : Prop :=
  match c.connectionState with
  | .closed | .reset =>
      seg.hasRst = false ∧ seg.hasAck = true ∧ 2 ^ 32 ≤ seg.data.length
  | .listen =>
      seg.hasRst = false ∧ seg.hasAck = false ∧ seg.hasSyn = true ∧ seg.data ≠ []
  | .synSent => False
  | .timeWait | .synReceived | .established _ _ _ _ =>
      c.checkSegmentSeqOk seg = true ∧
        (seg.hasRst = true ∧ c.connectionState = .timeWait ∨
          seg.hasRst = false ∧ seg.hasSyn = false ∧
            (seg.hasAck = true ∧ seg.ackn.inRangeInclusive c.tx.unack c.tx.next = true ∧
                c.ackPanics seg ∨
              seg.hasAck = false ∧ seg.hasFin = true ∧ c.connectionState.refusesFin = true))

instance : Decidable (c.ackPanics seg) := by
  unfold ackPanics ackOverflows acksFin finishes storePanics finPanics
  infer_instance

instance : Decidable (c.SegmentPanics seg) := by
  unfold SegmentPanics
  split <;> infer_instance

end Condition

variable [UserTime Time] {c : Connection Addr Time} {seg : SegmentMeta}

omit [UserTime Time] in
theorem storePanics_iff : c.storePanics seg ↔ ¬ ∃ rx, c.rx.write seg = .ok rx := by
  rw [RxBuffer.write_succeeds_iff, storePanics]
  cases seg.hasFin <;> cases c.rx.buffer.fin <;> simp

theorem onFin_succeeds_iff (hs : Peered c) (isNew : Bool) :
    Succeeds (c.onFin isNew) ↔ c.connectionState.refusesFin = false := by
  cases hst : c.connectionState with
  | established t r cc ca =>
      simp only [Succeeds, onFin, hst, setState_ok_iff, triggerEvent_connectionState]
      cases t <;> cases r <;> cases cc <;>
        simp [ConnectionState.ValidTransition, ConnectionState.refusesFin] <;> decide
  | timeWait =>
      simp only [onFin, hst, ConnectionState.refusesFin, iff_true]
      split <;> simp
  | synReceived =>
      simp [Succeeds, onFin, hst, setState_ok_iff, ConnectionState.ValidTransition,
        ConnectionState.refusesFin]
  | _ => simp [Peered, hst, ConnectionState.synced] at hs

namespace WellFormed

/-- Sending succeeds in every open connection. -/
theorem sendAck_succeeds (h : WellFormed c) (hs : c.connectionState.synced = true) :
    ∃ c', c.sendAck = .ok c' := by
  rw [sendAck_succeeds_iff]
  refine ⟨?_, ?_, ?_⟩
  · rintro hst
    rw [hst] at hs
    cases hs
  · exact fun hw => h.outData_eq_nil (h.wroteFin hw)
  · intro _
    constructor <;> rintro hst <;> rw [hst] at hs <;> cases hs

omit [UserTime Time] in
/-- A requested FIN leaves exactly when the window has room for it. -/
theorem sendsFin_of_closePending (h : WellFormed c)
    (hp : c.connectionState.closePending = true) :
    c.sendsFin = true ↔ c.tx.spaceAvailable ≠ 0#32 := by
  have hfin := h.closePending hp
  have hwrote : c.connectionState.wroteFin = false := by
    cases hst : c.connectionState with
    | established t r cc ca =>
        rw [hst] at hp
        cases t <;> first | rfl | simp [ConnectionState.closePending] at hp
    | _ => rw [hst] at hp; cases hp
  rw [sendsFin_iff, h.marked hfin, hfin, hwrote, outLimit, ne_eq, ← BitVec.toNat_inj]
  simp only [List.length_nil, maxSegmentSize, BitVec.toNat_ofNat, and_self, and_true]
  omega

/-- After the data has been stored, the FIN branch panics exactly when our own
FIN has been requested but found no room. -/
theorem refusesFin_sendAck (h : WellFormed c) (hs : c.connectionState.synced = true)
    (hread : c.connectionState.readClosed = false) {c' : Connection Addr Time}
    (hsend : c.sendAck = .ok c') :
    c'.connectionState.refusesFin = true ↔
      c.connectionState.closePending = true ∧ c.tx.spaceAvailable = 0#32 := by
  have a := sendAck_spec hsend
  have hpending := h.sendsFin_of_closePending
  rw [a.state]
  cases hst : c.connectionState with
  | established t r cc ca =>
      rw [hst] at hread hpending
      have hr : r ≠ .closed := by
        rintro rfl
        cases hread
      cases t with
      | opened =>
          cases cc with
          | true =>
              have hiff := hpending rfl
              cases hf : c.sendsFin with
              | true =>
                  have hspace := hiff.mp hf
                  cases r <;> simp_all [ConnectionState.withFin, ConnectionState.refusesFin]
              | false =>
                  have hspace : c.tx.spaceAvailable = 0#32 := by
                    by_contra hne
                    rw [hiff.mpr hne] at hf
                    cases hf
                  simp [ConnectionState.refusesFin, ConnectionState.closePending, hspace]
          | false =>
              cases c.sendsFin <;> cases r <;>
                simp_all [ConnectionState.withFin, ConnectionState.refusesFin,
                  ConnectionState.closePending]
      | fin =>
          cases c.sendsFin <;> cases r <;>
            simp_all [ConnectionState.withFin, ConnectionState.refusesFin,
              ConnectionState.closePending]
      | closed =>
          cases c.sendsFin <;> cases r <;>
            simp_all [ConnectionState.withFin, ConnectionState.refusesFin,
              ConnectionState.closePending]
  | timeWait => rw [hst] at hread; cases hread
  | _ => rw [hst] at hs; cases hs

/-- Storing, then the FIN branch: they panic behind a FIN, and when our own
FIN has been requested but finds no room. -/
theorem storeData_succeeds_iff (h : WellFormed c) (hs : c.connectionState.synced = true)
    (isNew : Bool) :
    (∃ c' proceed, c.storeData seg = .ok (c', proceed) ∧
        Succeeds (if proceed && seg.flags.contains .fin then c'.onFin isNew else return c')) ↔
      ¬ (seg.seqn = c.rx.ackd ∧ (c.storePanics seg ∨ seg.hasFin = true ∧
        c.connectionState.closePending = true ∧ c.tx.spaceAvailable = 0#32)) := by
  by_cases heq : seg.seqn = c.rx.ackd
  · by_cases hp : c.storePanics seg
    · simp only [heq, hp, true_or, and_true, not_true_eq_false, iff_false]
      rintro ⟨c', proceed, hstore, -⟩
      rcases storeData_ok_iff.mp hstore with ⟨-, -, rx, hrx, -⟩ | ⟨hne, -⟩
      · exact storePanics_iff.mp hp ⟨rx, hrx⟩
      · exact hne heq
    · obtain ⟨rx, hrx⟩ := not_not.mp (mt storePanics_iff.mpr hp)
      have hwf := h.write hs hrx
      obtain ⟨c', hsend⟩ := hwf.sendAck_succeeds hs
      have hstore : c.storeData seg = .ok (c', true) :=
        storeData_ok_iff.mpr (.inl ⟨heq, rfl, rx, hrx, hsend⟩)
      have hs' : c'.connectionState.synced = true := (h.storeData hs hstore).2
      simp only [hstore, Except.ok.injEq, Prod.mk.injEq, heq, hp, true_and, false_or]
      cases hfin : seg.flags.contains .fin with
      | false =>
          simp only [SegmentMeta.hasFin, hfin, Bool.false_eq_true, false_and, not_false_iff,
            iff_true]
          exact ⟨c', true, ⟨rfl, rfl⟩, by simp⟩
      | true =>
          have hread : c.connectionState.readClosed = false := by
            by_contra hr
            exact hp (.inl ⟨h.readClosed (by simpa using hr), .inr hfin⟩)
          have hrefuse := hwf.refusesFin_sendAck hs hread hsend
          have hiff := onFin_succeeds_iff (.inl hs' : Peered c') isNew
          have hcond : c'.connectionState.refusesFin = false ↔
              ¬ (c.connectionState.closePending = true ∧ c.tx.spaceAvailable = 0#32) := by
            rw [← hrefuse, Bool.not_eq_true]
          simp only [SegmentMeta.hasFin, hfin, true_and, ← hcond, ← hiff]
          constructor
          · rintro ⟨_, _, ⟨rfl, rfl⟩, h⟩
            exact h
          · intro h
            exact ⟨c', true, ⟨rfl, rfl⟩, h⟩
  · simp only [heq, false_and, not_false_iff, iff_true]
    exact ⟨_, false, storeData_ok_iff.mpr (.inr ⟨heq, rfl, rfl⟩), by simp⟩

theorem newAck_succeeds_iff (h : WellFormed c) :
    (∃ c', (if c.tx.unack ≠ seg.ackn then c.opened.onNewAck seg else .ok c.opened) = .ok c') ↔
      ¬ c.ackOverflows seg := by
  by_cases heq : c.tx.unack = seg.ackn
  · simp [ackOverflows, heq]
  · have hdup : c.opened.dupAckCount = 0#8 := (opened_dupAckCount c).trans h.dupAck
    have hcw : initialWindowSize.toNat ≤ c.opened.congestionWindow.toNat := by
      rw [opened_congestionWindow]
      exact h.congestion
    rw [if_pos heq, onNewAck_ok_iff, nextCongestionWindow_eq hdup hcw]
    simp [addU16_ok_iff, ackOverflows, heq]

end WellFormed

omit [UserTime Time] in
theorem unackedAfter_subset : c.unackedAfter seg ⊆ c.tx.reTx := by
  unfold unackedAfter
  split
  · exact List.Subset.refl _
  · exact List.dropWhile_subset _

omit [UserTime Time] in
/-- What an acknowledgement leaves of the queue and the window. -/
theorem Acknowledged.tx {c₁ : Connection Addr Time} (hdup : c.dupAckCount = 0#8)
    (hcw : initialWindowSize.toNat ≤ c.congestionWindow.toNat)
    (h : Acknowledged c seg c₁) :
    c₁.tx.reTx = c.unackedAfter seg ∧
      (c.tx.window = minU16 seg.window c.congestionWindow →
        c₁.tx.window = c.windowAfter seg) := by
  cases h with
  | repeated heq => simp [unackedAfter, windowAfter, heq]
  | new hne hc =>
      have hdup' : c.opened.dupAckCount = 0#8 := (opened_dupAckCount c).trans hdup
      have hcw' : initialWindowSize.toNat ≤ c.opened.congestionWindow.toNat := by
        rw [opened_congestionWindow]
        exact hcw
      have hw := hc.congestion
      rw [nextCongestionWindow_eq hdup' hcw'] at hw
      obtain ⟨-, hw⟩ := addU16_ok_iff.mp hw
      simp [hc.tx, hw, unackedAfter, windowAfter, hne]

omit [UserTime Time] in
theorem tx_eq_fin_iff {s : ConnectionState} :
    s.tx = .fin ↔ ∃ r cc ca, s = .established .fin r cc ca := by
  cases s with
  | established t r cc ca => simp [ConnectionState.tx]
  | _ => simp [ConnectionState.tx]

omit [UserTime Time] in
/-- The end of the handshake leaves the write state of the other states. -/
theorem opened_writeState (c : Connection Addr Time) :
    c.opened.connectionState.tx = c.connectionState.tx ∧
      c.opened.connectionState.closePending = c.connectionState.closePending := by
  rw [opened_connectionState]
  split
  · rename_i hst
    rw [hst]
    exact ⟨rfl, rfl⟩
  · exact ⟨rfl, rfl⟩

/-- Unless it clears the connection, the ACK of our FIN keeps it open. -/
theorem stateSet_finAcked (c : Connection Addr Time) {r : ChannelState} {cc ca : Bool}
    (h : ¬ (r = .closed ∧ cc = true ∧ ca = false)) :
    (c.stateSet (.established .closed r cc ca)).rx = c.rx ∧
      (c.stateSet (.established .closed r cc ca)).connectionState.synced = true ∧
      (c.stateSet (.established .closed r cc ca)).connectionState.closePending = false := by
  unfold stateSet
  split
  · simp [ConnectionState.synced, ConnectionState.closePending]
  · rename_i heq
    obtain ⟨-, rfl, rfl, rfl⟩ := ConnectionState.established.inj heq
    exact absurd ⟨rfl, rfl, rfl⟩ h
  · simp [ConnectionState.synced, ConnectionState.closePending]

namespace WellFormed

theorem onFinAcked_succeeds_iff (h : WellFormed c) (ackn : SeqN) :
    (∃ c', c.onFinAcked ackn = .ok c') ↔
      ¬ (c.connectionState.tx = .fin ∧ ackn = c.tx.next ∧ c.tx.reTx ≠ []) := by
  simp only [onFinAcked_ok_iff]
  constructor
  · rintro ⟨c', ⟨_, _, _, -, -, -, hre, -⟩ | ⟨hne, -⟩⟩ ⟨htx, hack, hre'⟩
    · exact hre' hre
    · exact hne htx hack
  · intro hno
    by_cases hfin : c.connectionState.tx = .fin ∧ ackn = c.tx.next
    · obtain ⟨htx, hack⟩ := hfin
      obtain ⟨r, cc, ca, hst⟩ := tx_eq_fin_iff.mp htx
      have hre : c.tx.reTx = [] := by
        by_contra hre
        exact hno ⟨htx, hack, hre⟩
      exact ⟨_, .inl ⟨r, cc, ca, hst, hack, h.marked (h.wroteFin (by rw [hst]; rfl)), hre, rfl⟩⟩
    · exact ⟨c, .inr ⟨fun htx hack => hfin ⟨htx, hack⟩, rfl⟩⟩

/-- What is left of the ACK branch once our FIN is counted, and the FIN branch
behind it. -/
theorem storedAfter_succeeds_iff {c₁ c₂ : Connection Addr Time} (h : WellFormed c) (hs : Peered c)
    (hwin : c.tx.window = minU16 seg.window c.congestionWindow) (hack : Acknowledged c seg c₁)
    (h₂ : c₁.onFinAcked seg.ackn = .ok c₂) (isNew : Bool) :
    (∃ c' proceed, c₂.storeData seg = .ok (c', proceed) ∧
        Succeeds (if proceed && seg.flags.contains .fin then c'.onFin isNew else return c')) ↔
      ¬ (c.finishes seg ∧ seg.seqn = .zero ∨
        ¬ c.finishes seg ∧ seg.seqn = c.rx.ackd ∧ (c.storePanics seg ∨ c.finPanics seg)) := by
  obtain ⟨hstate, hrx, -, hnext, -, hunack, -⟩ := hack.frame
  obtain ⟨-, hwindow⟩ := hack.tx h.dupAck h.congestion
  obtain ⟨htx, hpending⟩ := opened_writeState c
  have hwf₁ := h.acknowledged (opened_synced hs) hack
  have hwf₂ := hwf₁.onFinAcked h₂
  rcases onFinAcked_ok_iff.mp h₂ with ⟨r, cc, ca, hst₁, hackn, -, -, rfl⟩ | ⟨hno, rfl⟩
  · -- Our FIN has been acknowledged.
    have hfin : c.connectionState.tx = .fin := by
      rw [← htx, ← hstate, hst₁]
      rfl
    obtain ⟨r', cc', ca', hst⟩ := tx_eq_fin_iff.mp hfin
    have hsame : c.connectionState = .established .fin r cc ca := by
      rw [← hst₁, hstate, opened_connectionState, if_neg (by simp [hst])]
    rw [hnext] at hackn
    by_cases hclear : r = .closed ∧ cc = true ∧ ca = false
    · obtain ⟨rfl, rfl, rfl⟩ := hclear
      have hfinishes : c.finishes seg := ⟨hsame, hackn⟩
      simp only [hfinishes, true_and, not_true_eq_false, false_and, or_false]
      change (∃ c' proceed, (c₁.entered _).clear.storeData seg = .ok (c', proceed) ∧ _) ↔ _
      constructor
      · rintro ⟨c', p, hstore, -⟩
        exact (storeData_clear hstore).2.1
      · intro hne
        exact ⟨_, false, storeData_ok_iff.mpr (.inr ⟨hne, rfl, rfl⟩), by simp⟩
    · have hfinishes : ¬ c.finishes seg := by
        rintro ⟨hfin, -⟩
        rw [hsame] at hfin
        obtain ⟨-, rfl, rfl, rfl⟩ := ConnectionState.established.inj hfin
        exact hclear ⟨rfl, rfl, rfl⟩
      obtain ⟨hrx₂, hs₂, hpending₂⟩ := stateSet_finAcked c₁ hclear
      have hnopanic : ¬ c.finPanics seg := by
        rintro ⟨-, hp, -⟩
        rw [hsame] at hp
        cases hp
      rw [hwf₂.storeData_succeeds_iff hs₂ isNew, hpending₂]
      simp [hfinishes, hnopanic, storePanics, hrx₂, hrx]
  · have hfinishes : ¬ c.finishes seg := by
      rintro ⟨hfin, hackn⟩
      refine hno ?_ (hackn.trans hnext.symm)
      rw [hstate, htx, hfin]
      rfl
    have hsync : c₂.connectionState.synced = true := by
      rw [hstate]
      exact opened_synced hs
    have hspace : c₂.tx.spaceAvailable = 0#32 ↔
        seg.ackn + (c.windowAfter seg).setWidth 32 = c.tx.next := by
      rw [TxBuffer.spaceAvailable, hunack, hnext, hwindow hwin, BitVec.sub_eq_iff_eq_add,
        BitVec.zero_add]
    rw [hwf₁.storeData_succeeds_iff hsync isNew, hstate, hpending, hspace]
    simp [hfinishes, finPanics, storePanics, hrx]

/-- The ACK branch and the FIN branch behind it. -/
theorem onAck_succeeds_iff (h : WellFormed c) (hs : Peered c)
    (hwin : c.tx.window = minU16 seg.window c.congestionWindow)
    (hrange : seg.ackn.inRangeInclusive c.tx.unack c.tx.next = true) (isNew : Bool) :
    (∃ c' proceed, c.onAck seg = .ok (c', proceed) ∧
        Succeeds (if proceed && seg.flags.contains .fin then c'.onFin isNew else return c')) ↔
      ¬ c.ackPanics seg := by
  have houter : (∃ c' proceed, c.onAck seg = .ok (c', proceed) ∧
        Succeeds (if proceed && seg.flags.contains .fin then c'.onFin isNew else return c')) ↔
      ∃ c₁, (if c.tx.unack ≠ seg.ackn then c.opened.onNewAck seg else .ok c.opened) = .ok c₁ ∧
        ∃ c₂, c₁.onFinAcked seg.ackn = .ok c₂ ∧ ∃ c' proceed,
          c₂.storeData seg = .ok (c', proceed) ∧
          Succeeds (if proceed && seg.flags.contains .fin then c'.onFin isNew
            else return c') := by
    simp only [onAck_ok_iff, hrange, true_and, Bool.true_eq_false, false_and, or_false]
    constructor
    · rintro ⟨c', p, ⟨c₁, c₂, h₁, h₂, h₃⟩, h₄⟩
      exact ⟨c₁, h₁, c₂, h₂, c', p, h₃, h₄⟩
    · rintro ⟨c₁, h₁, c₂, h₂, c', p, h₃, h₄⟩
      exact ⟨c', p, ⟨c₁, c₂, h₁, h₂, h₃⟩, h₄⟩
  rw [houter]
  by_cases hover : c.ackOverflows seg
  · refine iff_of_false ?_ (not_not.mpr (.inl hover))
    rintro ⟨c₁, h₁, -⟩
    exact (h.newAck_succeeds_iff.mp ⟨c₁, h₁⟩) hover
  obtain ⟨c₁, h₁⟩ := h.newAck_succeeds_iff.mpr hover
  have hack := acknowledged_of_ok h₁
  obtain ⟨hstate, -, -, hnext, -⟩ := hack.frame
  obtain ⟨hre, -⟩ := hack.tx h.dupAck h.congestion
  have hwf₁ := h.acknowledged (opened_synced hs) hack
  simp only [h₁, Except.ok.injEq, exists_eq_left']
  have hfinAcked := hwf₁.onFinAcked_succeeds_iff seg.ackn
  rw [hstate, (opened_writeState c).1, hnext, hre] at hfinAcked
  by_cases hqueue : c.acksFin seg ∧ c.unackedAfter seg ≠ []
  · refine iff_of_false ?_ (not_not.mpr (.inr (.inl hqueue)))
    rintro ⟨c₂, h₂, -⟩
    exact hfinAcked.mp ⟨c₂, h₂⟩ ⟨hqueue.1.1, hqueue.1.2, hqueue.2⟩
  obtain ⟨c₂, h₂⟩ := hfinAcked.mpr fun ⟨htx, hackn, hne⟩ => hqueue ⟨⟨htx, hackn⟩, hne⟩
  simp only [h₂, Except.ok.injEq, exists_eq_left']
  rw [h.storedAfter_succeeds_iff hs hwin hack h₂ isNew]
  simp only [ackPanics, hover, hqueue, false_or]

theorem onAccepted_succeeds_iff (h : WellFormed c) (hs : Peered c) (seg : SegmentMeta)
    (hwin : c.tx.window = minU16 seg.window c.congestionWindow) :
    Succeeds (c.onAccepted seg) ↔
      ¬ (seg.hasAck = true ∧ seg.ackn.inRangeInclusive c.tx.unack c.tx.next = true ∧
          c.ackPanics seg ∨
        seg.hasAck = false ∧ seg.hasFin = true ∧ c.connectionState.refusesFin = true) := by
  simp only [Connection.onAccepted, succeeds_bind, Prod.exists, SegmentMeta.hasAck,
    SegmentMeta.hasFin]
  cases hack : seg.flags.contains .ack with
  | true =>
      simp only [if_true, Bool.true_and, true_and, Bool.true_eq_false, false_and, or_false]
      cases hrange : seg.ackn.inRangeInclusive c.tx.unack c.tx.next with
      | true =>
          simp only [true_and]
          exact h.onAck_succeeds_iff hs hwin hrange _
      | false =>
          simp only [Bool.false_eq_true, false_and, not_false_iff, iff_true]
          exact ⟨c, false, onAck_ok_iff.mpr (.inr ⟨hrange, rfl, rfl⟩), by simp⟩
  | false =>
      simp only [Bool.false_eq_true, if_false, false_and, false_or, true_and,
        pure_ok_iff, Prod.mk.injEq]
      cases hfin : seg.flags.contains .fin with
      | true =>
          have hiff := onFin_succeeds_iff hs false
          simp only [true_and, Bool.not_eq_true, ← hiff]
          constructor
          · rintro ⟨_, _, ⟨rfl, rfl⟩, h⟩
            exact h
          · intro h
            exact ⟨c, true, ⟨rfl, rfl⟩, h⟩
      | false =>
          simp only [Bool.false_eq_true, false_and, not_false_iff, iff_true]
          exact ⟨c, true, ⟨rfl, rfl⟩, by simp⟩

theorem onSegmentSynchronized_succeeds_iff (h : WellFormed c) (hs : Peered c)
    (seg : SegmentMeta) :
    Succeeds (c.onSegmentSynchronized seg) ↔
      ¬ (c.checkSegmentSeqOk seg = true ∧
        (seg.hasRst = true ∧ c.connectionState = .timeWait ∨
          seg.hasRst = false ∧ seg.hasSyn = false ∧
            (seg.hasAck = true ∧ seg.ackn.inRangeInclusive c.tx.unack c.tx.next = true ∧
                c.ackPanics seg ∨
              seg.hasAck = false ∧ seg.hasFin = true ∧
                c.connectionState.refusesFin = true))) := by
  have hidle : c.connectionState.idle = false := Peered.not_idle hs
  simp only [Succeeds, synchronizedStep_iff]
  cases hcheck : c.checkSegmentSeqOk seg with
  | false =>
      simp only [Bool.false_eq_true, false_and, not_false_iff, iff_true]
      cases hrst : seg.hasRst with
      | true => exact ⟨c, .dropped hcheck hrst⟩
      | false => exact ⟨_, .rejected hcheck hrst⟩
  | true =>
      cases hrst : seg.hasRst with
      | true =>
          simp only [true_and, Bool.true_eq_false, false_and, or_false]
          constructor
          · rintro ⟨c', step⟩ hst
            cases step with
            | reset _ _ hc =>
                rw [Connection.onRst, windowed_connectionState, hst] at hc
                cases hc
            | _ => simp_all
          · intro hst
            have hrst' : ∃ c', (c.windowed seg).onRst = .ok c' := by
              rw [Connection.onRst, windowed_connectionState]
              rcases hs with hs | hs
              · cases hst' : c.connectionState with
                | established t r cc ca => exact ⟨_, setState_eq_ok trivial (by simp)⟩
                | timeWait => exact absurd hst' hst
                | _ => rw [hst'] at hs; cases hs
              · rw [hs]
                exact ⟨_, setState_eq_ok trivial (by simp)⟩
            obtain ⟨c', hc'⟩ := hrst'
            exact ⟨c', .reset hcheck hrst hc'⟩
      | false =>
          cases hsyn : seg.hasSyn with
          | true =>
              simp only [Bool.false_eq_true, Bool.true_eq_false, false_and, and_false, or_self,
                not_false_iff, iff_true]
              have hsyn' : ∃ c', (c.windowed seg).onSyn = .ok c' :=
                ⟨_, setState_eq_ok trivial (by simp)⟩
              obtain ⟨c', hc'⟩ := hsyn'
              exact ⟨c', .syn hcheck hrst hsyn hc'⟩
          | false =>
              have haccepted := (h.windowed hidle seg).onAccepted_succeeds_iff hs seg rfl
              simp only [true_and, Bool.false_eq_true, false_and, false_or]
              refine Iff.trans ?_ haccepted
              constructor
              · rintro ⟨c', step⟩
                cases step <;> simp_all [Succeeds]
              · rintro ⟨c', hc'⟩
                exact ⟨c', .accepted hcheck hrst hsyn hc'⟩

end WellFormed

omit [UserTime Time] in
theorem responseToClosed_succeeds_iff : Succeeds (responseToClosed seg) ↔
    ¬ (seg.hasRst = false ∧ seg.hasAck = true ∧ 2 ^ 32 ≤ seg.data.length) := by
  unfold responseToClosed
  cases hrst : seg.flags.contains .rst <;> cases hack : seg.flags.contains .ack <;>
    simp [SegmentMeta.hasRst, SegmentMeta.hasAck, hrst, hack]
  split
  · rename_i hlen
    simpa using hlen
  · rename_i hlen
    simpa using hlen

theorem onSegmentListen_succeeds_iff (hst : c.connectionState = .listen) :
    Succeeds (c.onSegmentListen seg) ↔
      ¬ (seg.hasRst = false ∧ seg.hasAck = false ∧ seg.hasSyn = true ∧ seg.data ≠ []) := by
  unfold onSegmentListen
  cases hrst : seg.flags.contains .rst with
  | true => simp [hrst]
  | false =>
      cases hack : seg.flags.contains .ack with
      | true => simp [hrst, hack]
      | false =>
          cases hsyn : seg.flags.contains .syn with
          | false => simp [hrst, hack, hsyn]
          | true =>
              simp only [Bool.false_eq_true, if_false, Bool.not_true, hrst, hack, hsyn,
                succeeds_bind, assert, ensure_eq_ok, true_and, not_not]
              constructor
              · rintro ⟨_, hdata, -⟩
                exact hdata
              · intro hdata
                refine ⟨(), hdata, _, setState_eq_ok ?_ (by simp), succeeds_pure _⟩
                simp only [hst]
                trivial

theorem onSegmentSynSent_succeeds (seg : SegmentMeta) (hst : c.connectionState = .synSent)
    (hwf : WellFormed c) : Succeeds (c.onSegmentSynSent seg) := by
  unfold onSegmentSynSent
  split
  · simp
  split
  · simp
  split
  · change Succeeds (if (c.synAcked seg).tx.unack = (c.synAcked seg).tx.initSeqn + 1#32 then
        ((c.synAcked seg).setState .fullyOpen >>= fun c => c.sendAck)
      else return c.synAcked seg)
    split
    · have hv : (c.synAcked seg).connectionState.ValidTransition .fullyOpen := by
        rw [show (c.synAcked seg).connectionState = _ from hst]
        trivial
      rw [setState_eq_ok hv (by decide), stateSet_fullyOpen, ok_bind]
      have hwf' := hwf.synAcked_opened hst seg
      exact hwf'.sendAck_succeeds (by simp; rfl)
    · simp
  · simp

/-- An incoming segment is processed exactly when it is not one of those
listed, in every reachable connection and whatever its fields. -/
theorem onSegment_succeeds_iff (h : Reachable c) (seg : SegmentMeta) :
    Succeeds (c.onSegment seg) ↔ ¬ c.SegmentPanics seg := by
  have hwf := h.wellFormed
  unfold onSegment SegmentPanics
  cases hst : c.connectionState with
  | closed | reset =>
      simp only [succeeds_bind]
      rw [← responseToClosed_succeeds_iff]
      constructor
      · rintro ⟨resp, hresp, -⟩
        exact ⟨resp, hresp⟩
      · rintro ⟨resp, hresp⟩
        refine ⟨resp, hresp, ?_⟩
        cases resp <;> simp
  | listen => exact onSegmentListen_succeeds_iff hst
  | synSent => simpa using onSegmentSynSent_succeeds seg hst hwf
  | timeWait | synReceived | established t r cc ca =>
      have hs : Peered c := by simp [Peered, hst, ConnectionState.synced]
      simpa only [hst] using hwf.onSegmentSynchronized_succeeds_iff hs seg

/-- A user that draws the initial sequence number zero at time zero. -/
def zeroUser : UserData Unit Nat := ⟨[], fun _ => 0#32, fun _ => 0⟩

/-- A SYN without data is processed by the connection it is handed to. -/
theorem onSegment_succeeds_syn : Succeeds ((listening () .default zeroUser).onSegment
    ⟨100#32, 0#32, 1000#16, .syn, []⟩) :=
  (onSegment_succeeds_iff (.init (initial_listening () .default zeroUser)) _).mpr (by decide)

/-- Data in the segment that carries the FIN stops the connection. -/
theorem onSegment_panics : ¬ ∀ (c : Connection Unit Nat), Reachable c → ∀ seg : SegmentMeta,
    Succeeds (c.onSegment seg) := by
  intro hall
  obtain ⟨c, hreach, hfail⟩ : ∃ c : Connection Unit Nat, Reachable c ∧
      ¬ Succeeds (c.onSegment ⟨101#32, 1#32, 1000#16, .fin ||| .ack, [7]⟩) :=
    Transition.exists_reachableUnder step_of_next (initial_listening () .default zeroUser)
      [.onSegment ⟨100#32, 0#32, 1000#16, .syn, []⟩,
       .onSegment ⟨101#32, 1#32, 1000#16, .ack, []⟩] (by decide)
  exact hfail (hall c hreach _)

end Connection

end TcpState
