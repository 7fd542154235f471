import TcpState.Network.Delivery

/-!
# Whether a retransmission is accepted

The copy that a timer sends again keeps the acknowledgement number of its first
transmission, and the receiver drops it once that number lies behind what has
been acknowledged since.
-/

namespace TcpState

/-- Data or a FIN takes a sequence number. -/
theorem Retransmittable.seqSize_ne_zero {s : SegmentMeta} (h : Retransmittable s)
    (hcarries : s.data ≠ [] ∨ s.hasFin = true) : s.seqSize ≠ 0#32 := by
  have hshort := h.short
  have hlen := s.length_symbols
  have hsyn := Bool.toNat_le s.hasSyn
  have hfin := Bool.toNat_le s.hasFin
  rw [maxSegmentSize] at hshort
  have hpos : 0 < s.symbols.length := by
    rcases hcarries with hdata | hf
    · have := List.length_pos_of_ne_nil hdata
      omega
    · rw [hf] at hlen
      simp only [Bool.toNat_true] at hlen
      omega
  rw [s.seqSize_eq_ofNat, ne_eq, ← BitVec.toNat_inj, BitVec.toNat_ofNat, BitVec.toNat_ofNat]
  omega

namespace Connection

variable {Addr Time : Type} [UserTime Time] {a a' b b' c c' : Connection Addr Time}
  {seg h : SegmentMeta}

/-- An expired retransmission timer sends the oldest kept segment again. -/
theorem onTimeTick_resends {time : Time} (hst : a.connectionState.isEstablished = true)
    (hhead : a.tx.reTx.head? = some h) (hexp : expired a.timers.reTx time = true)
    (hc : a.onTimeTick time = .ok a') : a'.userData.sent = a.userData.sent ++ [h] := by
  simp only [onTimeTick, Fallible.bind_ok_iff] at hc
  obtain ⟨c₁, h₁, c₂, h₂, h₃⟩ := hc
  have hsent₁ : c₁.userData.sent = a.userData.sent ++ [h] := by
    rw [if_pos hexp] at h₁
    obtain ⟨t, r, cc, ca, hst⟩ := ConnectionState.isEstablished_iff.mp hst
    obtain ⟨rest, hre⟩ := List.head?_eq_some_iff.mp hhead
    simp only [onTimerReTx, hst, hre, Fallible.bind_ok_iff, Fallible.pure_ok_iff] at h₁
    obtain ⟨_, -, _, -, rfl⟩ := h₁
    simp
  have hsent₂ : c₂.userData.sent = a.userData.sent ++ [h] := by
    split at h₂
    · simp only [onTimerTimewait, Fallible.bind_ok_iff, Fallible.pure_ok_iff] at h₂
      obtain ⟨_, -, rfl⟩ := h₂
      exact (clear_sent _).trans hsent₁
    · obtain rfl := Fallible.pure_ok_iff.mp h₂
      exact hsent₁
  split at h₃
  · obtain rfl := Fallible.pure_ok_iff.mp h₃
    exact (clear_sent _).trans ((triggerEvent_sent _ _ _).trans hsent₂)
  · obtain rfl := Fallible.pure_ok_iff.mp h₃
    exact hsent₂

/-- A segment whose acknowledgement is out of range is not stored. -/
theorem rx_of_outOfRange (hrst : seg.hasRst = false) (hsyn : seg.hasSyn = false)
    (hack : seg.hasAck = true) (hrange : seg.ackn.inRangeInclusive c.tx.unack c.tx.next = false)
    (hc : c.onSegmentSynchronized seg = .ok c') : c'.rx = c.rx := by
  cases synchronizedStep_iff.mp hc with
  | dropped => rfl
  | rejected => rfl
  | reset _ hbad => rw [hrst] at hbad; cases hbad
  | syn _ _ hbad => rw [hsyn] at hbad; cases hbad
  | accepted _ _ _ hacc =>
      cases acceptedStep_of_ok hacc with
      | unacknowledged hno => exact absurd (hno.symm.trans hack) Bool.false_ne_true
      | invalid => rfl
      | discarded _ hin | stored _ hin =>
          exact absurd (hrange.symm.trans hin) Bool.false_ne_true

/-- While the read side is open, an acceptable segment that is next in order
and acknowledges is stored. -/
theorem rx_of_stores (hs : Peered c) (hopen : c.connectionState.rx = .opened)
    (hstores : c.Stores seg) (hc : c.onSegmentSynchronized seg = .ok c') :
    c.rx.write seg = .ok c'.rx := by
  cases synchronizedStep_iff.mp hc with
  | dropped hbad => rw [hstores.check] at hbad; cases hbad
  | rejected hbad => rw [hstores.check] at hbad; cases hbad
  | reset _ hbad => rw [hstores.noRst] at hbad; cases hbad
  | syn _ _ hbad => rw [hstores.noSyn] at hbad; cases hbad
  | accepted _ _ _ hacc =>
      have hs' : (c.windowed seg).Peered := hs
      cases acceptedStep_of_ok hacc with
      | unacknowledged hno => exact absurd (hno.symm.trans hstores.ack) Bool.false_ne_true
      | invalid _ hout => exact absurd (hout.symm.trans hstores.range) Bool.false_ne_true
      | discarded _ _ h₁ h₂ hne =>
          obtain ⟨hs₁, hrxState₁, hrx₁⟩ := h₁.peered hs'
          rcases onFinAcked_peered hs₁ h₂ with ⟨-, -, hrx₂⟩ | ⟨⟨hst, -⟩, -⟩
          · rw [hrx₂, hrx₁] at hne
            exact absurd hstores.inOrder hne
          · -- Only a closed read side is cleared.
            rw [hst] at hrxState₁
            exact absurd (hrxState₁.trans hopen) (by decide)
      | @stored c₁ c₂ c₃ _ rx _ _ h₁ h₂ _ hrx h₃ hfin =>
          obtain ⟨hs₁, -, hrx₁⟩ := h₁.peered hs'
          rcases onFinAcked_peered hs₁ h₂ with ⟨-, hs₂, hrx₂⟩ | ⟨-, rfl⟩
          · have a := sendAck_spec h₃
            have hrx₃ : c₃.rx = rx := a.rx
            rw [hrx₂, hrx₁] at hrx
            split at hfin
            · rw [(onFin_rx (AckSent.rxState a hs₂).1 hfin).2.1, hrx₃]
              exact hrx
            · obtain rfl := Except.ok.inj hfin
              rw [hrx₃]
              exact hrx
          · exact absurd h₃ (sendAck_closed rfl)

/-- The oldest segment `a` keeps is what `b` expects, and `b` has room for it. -/
structure Expected (a b : Connection Addr Time) (h : SegmentMeta) : Prop where
  sender : a.connectionState.isEstablished = true
  receiver : b.connectionState.isEstablished = true
  opened : b.connectionState.rx = .opened
  head : a.tx.reTx.head? = some h
  carries : h.data ≠ [] ∨ h.hasFin = true
  starts : h.seqn = b.rx.ackd
  room : 0 < b.rx.currWindow.toNat
  fits : h.seqSize.toNat ≤ b.rx.currWindow.toNat

instance (a b : Connection Addr Time) (h : SegmentMeta) : Decidable (Expected a b h) :=
  decidable_of_iff (a.connectionState.isEstablished = true ∧
      b.connectionState.isEstablished = true ∧ b.connectionState.rx = .opened ∧
      a.tx.reTx.head? = some h ∧ (h.data ≠ [] ∨ h.hasFin = true) ∧ h.seqn = b.rx.ackd ∧
      0 < b.rx.currWindow.toNat ∧ h.seqSize.toNat ≤ b.rx.currWindow.toNat)
    ⟨fun ⟨h₁, h₂, h₃, h₄, h₅, h₆, h₇, h₈⟩ => ⟨h₁, h₂, h₃, h₄, h₅, h₆, h₇, h₈⟩,
      fun ⟨h₁, h₂, h₃, h₄, h₅, h₆, h₇, h₈⟩ => ⟨h₁, h₂, h₃, h₄, h₅, h₆, h₇, h₈⟩⟩

/-- Delivering the segment advances the receiver to its end. -/
def Advances (b : Connection Addr Time) (h : SegmentMeta) : Prop :=
  ∃ b', b.onSegment h = .ok b' ∧ b'.rx.ackd = h.seqnAfter

instance (b : Connection Addr Time) (h : SegmentMeta) : Decidable (Advances b h) :=
  match hb : b.onSegment h with
  | .ok b' => decidable_of_iff (b'.rx.ackd = h.seqnAfter)
      ⟨fun heq => ⟨b', hb, heq⟩, fun ⟨_, hc, heq⟩ => Except.ok.inj (hb.symm.trans hc) ▸ heq⟩
  | .error _ => .isFalse fun ⟨_, hc, _⟩ => nomatch hb.symm.trans hc

omit [UserTime Time] in
theorem Expected.check (e : Expected a b h) (hwf : WellFormed b) :
    b.checkSegmentSeqOk h = true := by
  have hroom := e.room
  have hfits := e.fits
  have hne : b.rx.currWindow ≠ 0#16 := by
    intro hzero
    rw [hzero] at hroom
    exact absurd hroom (by decide)
  have hle : b.rx.currWindow.toNat ≤ 4096 := by
    rw [b.rx.currWindow_toNat, hwf.rxWindow]
    split
    · exact Nat.zero_le _
    · exact Nat.sub_le _ _
  have hwindow {k : Nat} (hk : k < 4096) :
      b.rx.inWindow (b.rx.ackd + BitVec.ofNat 32 k) = true := by
    have hend : b.rx.ackd + b.rx.window.setWidth 32 - 1#32 =
        b.rx.ackd + BitVec.ofNat 32 4095 := by
      rw [hwf.rxWindow, BitVec.sub_eq_add_neg, BitVec.add_assoc]
      rfl
    rw [RxBuffer.inWindow, SeqN.inRangeInclusive_iff, hend,
      Circular.span_add_ofNat _ (by omega), Circular.span_add_ofNat _ (by decide)]
    omega
  unfold checkSegmentSeqOk
  rw [if_neg hne, Bool.and_eq_true, Bool.or_eq_true]
  refine ⟨?_, ?_⟩
  · rw [e.starts, ← BitVec.add_zero b.rx.ackd]
    exact hwindow (by decide)
  · by_cases hsize : h.seqSize = 0#32
    · exact .inl (by simpa using hsize)
    · right
      have hpos : h.seqSize.toNat ≠ 0 := fun hz => hsize (BitVec.toNat_inj.mp hz)
      have hlast : h.seqn + h.seqSize - 1#32 =
          b.rx.ackd + BitVec.ofNat 32 (h.seqSize.toNat - 1) := by
        rw [e.starts, BitVec.sub_eq_add_neg, BitVec.add_assoc, ← BitVec.sub_eq_add_neg]
        congr 1
        apply BitVec.eq_of_toNat_eq
        have := h.seqSize.isLt
        rw [BitVec.toNat_sub, BitVec.toNat_ofNat, BitVec.toNat_ofNat]
        omega
      rw [hlast]
      exact hwindow (by omega)

omit [UserTime Time] in
/-- The segment is one that the retransmit queue may hold. -/
theorem Expected.flags (e : Expected a b h) (hwf : WellFormed a) :
    Retransmittable h ∧ h.hasSyn = false ∧ h.hasAck = true := by
  have hret := hwf.reTx h (List.mem_of_head? e.head)
  have hsyn : h.hasSyn = false := by
    by_contra hsyn
    obtain ⟨hdata, hfin⟩ := hret.bare (by simpa using hsyn)
    rcases e.carries with hd | hf
    · exact hd hdata
    · rw [hfin] at hf
      cases hf
  exact ⟨hret, hsyn, hret.acked hsyn⟩

omit [UserTime Time] in
/-- Of the panics on an acknowledgement three kinds remain. -/
theorem Expected.ackPanics_iff (e : Expected a b h) (hwf : WellFormed a) :
    b.ackPanics h ↔ b.ackOverflows h ∨ b.acksFin h ∧ b.unackedAfter h ≠ [] ∨ b.finPanics h := by
  obtain ⟨hret, -⟩ := e.flags hwf
  have hfinishes : ¬ b.finishes h := by
    rintro ⟨hst, -⟩
    have := e.opened
    rw [hst] at this
    cases this
  have hmark : b.rx.buffer.fin = false := by
    by_contra hfin
    have hroom := e.room
    rw [b.rx.currWindow_toNat, if_pos (by simpa using hfin)] at hroom
    exact absurd hroom (by decide)
  have hstore : ¬ b.storePanics h := by
    rintro (⟨hfin, -⟩ | ⟨hfin, hdata⟩)
    · rw [hmark] at hfin
      cases hfin
    · exact hdata (hret.alone hfin)
  simp only [ackPanics, hfinishes, hstore, e.starts, false_and, false_or, not_false_eq_true,
    true_and]

/-- The head is stored unless its acknowledgement is out of range or the
receiver panics on it. -/
theorem Expected.advances_iff (e : Expected a b h) (ha : WellFormed a) (hb : WellFormed b) :
    Advances b h ↔ h.ackn.inRangeInclusive b.tx.unack b.tx.next = true ∧
      ¬ b.ackOverflows h ∧ ¬ (b.acksFin h ∧ b.unackedAfter h ≠ []) ∧ ¬ b.finPanics h := by
  obtain ⟨hret, hsyn, hack⟩ := e.flags ha
  have hcheck := e.check hb
  have hs : Peered b := .inl (ConnectionState.synced_of_isEstablished e.receiver)
  have hsync : b.onSegment h = b.onSegmentSynchronized h := by
    obtain ⟨t, r, cc, ca, hst⟩ := ConnectionState.isEstablished_iff.mp e.receiver
    unfold Connection.onSegment
    rw [hst]
  have hpanics : (∃ b', b.onSegmentSynchronized h = .ok b') ↔
      ¬ (h.ackn.inRangeInclusive b.tx.unack b.tx.next = true ∧ b.ackPanics h) := by
    rw [show (∃ b', b.onSegmentSynchronized h = .ok b') ↔ _ from
      hb.onSegmentSynchronized_succeeds_iff hs h]
    simp [hcheck, hret.noRst, hsyn, hack]
  have hnot : ¬ b.ackPanics h ↔
      ¬ b.ackOverflows h ∧ ¬ (b.acksFin h ∧ b.unackedAfter h ≠ []) ∧ ¬ b.finPanics h := by
    rw [e.ackPanics_iff ha, not_or, not_or]
  rw [Advances, hsync, ← hnot]
  constructor
  · rintro ⟨b', hc, hackd⟩
    have hrange : h.ackn.inRangeInclusive b.tx.unack b.tx.next = true := by
      by_contra hout
      have hrx := rx_of_outOfRange hret.noRst hsyn hack (by simpa using hout) hc
      -- The segment takes at least one sequence number.
      refine hret.seqSize_ne_zero e.carries ?_
      rw [hrx, ← e.starts, SegmentMeta.seqnAfter] at hackd
      have hself : h.seqn + 0#32 = h.seqn + h.seqSize := (BitVec.add_zero _).trans hackd
      exact ((BitVec.add_right_inj _).mp hself).symm
    exact ⟨hrange, fun hbad => hpanics.mp ⟨b', hc⟩ ⟨hrange, hbad⟩⟩
  · rintro ⟨hrange, hok⟩
    obtain ⟨b', hc⟩ := hpanics.mpr fun hbad => hok hbad.2
    refine ⟨b', hc, ?_⟩
    have hwrite := rx_of_stores hs e.opened ⟨hcheck, hret.noRst, hsyn, hack, hrange, e.starts⟩ hc
    rw [(RxBuffer.write_spec hwrite).2.2.1, ← e.starts]
    rfl

end Connection

namespace Net

open Connection

variable {Addr Time : Type} [UserTime Time] {n : Net Addr Time}

/-- When the timer of an endpoint expires while the peer expects the head of
its retransmit queue, the head is sent, and its delivery advances the peer
exactly when the acknowledgement the copy still carries is in range and the
peer does not panic on it. -/
theorem resend_advances_iff (run : Reachable n) (x : Side) {h : SegmentMeta}
    (e : Expected (n.get x).conn (n.get x.other).conn h) {time : Time} {a' : Connection Addr Time}
    (hexp : expired (n.get x).conn.timers.reTx time = true)
    (htick : (n.get x).conn.onTimeTick time = .ok a') :
    a'.userData.sent = (n.get x).log ++ [h] ∧
      (Advances (n.get x.other).conn h ↔
        h.ackn.inRangeInclusive (n.get x.other).conn.tx.unack (n.get x.other).conn.tx.next = true ∧
          ¬ (n.get x.other).conn.ackOverflows h ∧
          ¬ ((n.get x.other).conn.acksFin h ∧ (n.get x.other).conn.unackedAfter h ≠ []) ∧
          ¬ (n.get x.other).conn.finPanics h) :=
  ⟨onTimeTick_resends e.sender e.head hexp htick,
    e.advances_iff (run.conn x).wellFormed (run.conn x.other).wellFormed⟩

/-- A lost segment is sent again and stored. -/
theorem resend_advances_lost : ∃ n : Net Unit Nat,
    Advances n.server.conn ⟨1#32, 1#32, 4096#16, .ack, [1]⟩ := by
  obtain ⟨n, run, e, hexp, ⟨a', htick⟩, hrange, hok⟩ : ∃ n : Net Unit Nat, Reachable n ∧
      Expected n.client.conn n.server.conn ⟨1#32, 1#32, 4096#16, .ack, [1]⟩ ∧
      expired n.client.conn.timers.reTx 1000000000 = true ∧
      Fallible.Succeeds (n.client.conn.onTimeTick 1000000000) ∧
      SeqN.inRangeInclusive 1#32 n.server.conn.tx.unack n.server.conn.tx.next = true ∧
      ¬ n.server.conn.ackPanics ⟨1#32, 1#32, 4096#16, .ack, [1]⟩ :=
    Transition.exists_reachableUnder step_of_next initial_zeroStart
      [(.server, .onSegment ⟨0#32, 0#32, 4096#16, .syn, []⟩),
       (.client, .onSegment ⟨0#32, 1#32, 4096#16, .syn ||| .ack, []⟩),
       (.server, .onSegment ⟨1#32, 1#32, 4096#16, .ack, []⟩),
       (.client, .callSend [1])] (by decide)
  rw [e.ackPanics_iff (run.conn .client).wellFormed, not_or, not_or] at hok
  exact ⟨n, (resend_advances_iff run .client e hexp htick).2.mpr ⟨hrange, hok⟩⟩

/-- The client acknowledges data of the server while a segment of its own is
lost. The copy sent again still carries the old acknowledgement. -/
theorem resend_dropped : ¬ ∀ n : Net Unit Nat, Reachable n → ∀ (x : Side) (h : SegmentMeta),
    Expected (n.get x).conn (n.get x.other).conn h → ∀ (time : Nat) (a' : Connection Unit Nat),
      expired (n.get x).conn.timers.reTx time = true →
        (n.get x).conn.onTimeTick time = .ok a' → Advances (n.get x.other).conn h := by
  intro hall
  obtain ⟨n, run, e, hexp, ⟨a', htick⟩, hdropped⟩ : ∃ n : Net Unit Nat, Reachable n ∧
      Expected n.client.conn n.server.conn ⟨1#32, 1#32, 4096#16, .ack, [1]⟩ ∧
      expired n.client.conn.timers.reTx 1000000000 = true ∧
      Fallible.Succeeds (n.client.conn.onTimeTick 1000000000) ∧
      ¬ Advances n.server.conn ⟨1#32, 1#32, 4096#16, .ack, [1]⟩ :=
    Transition.exists_reachableUnder step_of_next initial_zeroStart
      [(.server, .onSegment ⟨0#32, 0#32, 4096#16, .syn, []⟩),
       (.client, .onSegment ⟨0#32, 1#32, 4096#16, .syn ||| .ack, []⟩),
       (.server, .onSegment ⟨1#32, 1#32, 4096#16, .ack, []⟩),
       (.client, .callSend [1]), (.server, .callSend [2]),
       (.client, .onSegment ⟨1#32, 1#32, 4096#16, .ack, [2]⟩),
       (.server, .onSegment ⟨2#32, 2#32, 4095#16, .ack, []⟩)] (by decide)
  exact hdropped (hall n run .client _ e 1000000000 a' hexp htick)

end Net

end TcpState
