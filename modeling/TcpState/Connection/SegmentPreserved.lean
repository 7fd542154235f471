import TcpState.Connection.WellFormed

/-!
# Incoming segments keep a connection well formed

One lemma for each step of the synchronized branch, then one for each state
`on_segment` distinguishes.
-/

namespace TcpState

namespace ConnectionState

/-- Once open, a state that has not put out a FIN has its write side open. -/
theorem eq_established_opened {s : ConnectionState} (hs : s.synced = true)
    (hw : s.wroteFin = false) :
    ∃ r cc ca, s = .established .opened r cc ca := by
  cases s with
  | established t r cc ca =>
      cases t with
      | opened => exact ⟨r, cc, ca, rfl⟩
      | fin => cases hw
      | closed => cases hw
  | timeWait => cases hw
  | _ => cases hs

theorem withFin_fields {s : ConnectionState} (hs : s.synced = true) (hw : s.wroteFin = false) :
    s.withFin.synced = true ∧ s.withFin.readClosed = s.readClosed ∧
      s.withFin.readOpen = s.readOpen ∧ s.withFin.closePending = false := by
  obtain ⟨r, cc, ca, rfl⟩ := eq_established_opened hs hw
  cases r <;> exact ⟨rfl, rfl, rfl, rfl⟩

end ConnectionState

namespace Connection

variable {Addr Time : Type}

theorem sendsFin_iff {c : Connection Addr Time} : c.sendsFin = true ↔
    c.tx.tx.bytes.length < c.outLimit ∧ c.tx.tx.fin = true ∧
      c.connectionState.wroteFin = false := by
  simp [sendsFin, and_assoc]

variable [UserTime Time]

omit [UserTime Time] in
theorem AckSent.steady {c c' : Connection Addr Time} (a : AckSent c c') (h : Steady c) :
    Steady c' where
  dupAck := by rw [a.dupAckCount, h.dupAck]
  congestion := by rw [a.congestionWindow]; exact h.congestion
  rxWindow := by rw [a.rx, h.rxWindow]
  marked := by
    rw [a.fin, a.bytes]
    intro hfin
    rw [h.marked hfin, List.drop_nil]
  reTx := by
    intro seg hseg
    rw [a.reTx, List.mem_append] at hseg
    rcases hseg with hseg | hseg
    · exact h.reTx seg hseg
    · split at hseg
      · cases hseg
      · rw [List.mem_singleton] at hseg
        rw [hseg]
        exact outSegment_retransmittable h.marked

omit [UserTime Time] in
/-- Without loss the congestion window grows by the length of the segment. -/
theorem nextCongestionWindow_eq {c : Connection Addr Time} (hdup : c.dupAckCount = 0#8)
    (hcw : initialWindowSize.toNat ≤ c.congestionWindow.toNat) (seg : SegmentMeta) :
    c.nextCongestionWindow seg = addU16 c.congestionWindow (BitVec.ofNat 16 seg.data.length) := by
  have hne : ¬ c.congestionWindow.toNat ≤ slowStartTreshold.toNat := by
    simp [initialWindowSize, slowStartTreshold] at hcw ⊢
    omega
  rw [nextCongestionWindow, if_neg (by simp [hdup]), if_neg hne]

namespace WellFormed

variable {c c' : Connection Addr Time}

theorem sendAck (h : WellFormed c) (hs : c.connectionState.synced = true)
    (hc : c.sendAck = .ok c') : WellFormed c' := by
  have a := sendAck_spec hc
  cases hfin : c.sendsFin with
  | false =>
      have hstate : c'.connectionState = c.connectionState := by
        rw [a.state, hfin]
        simp
      apply of_synced
      · rw [hstate, hs]
      · exact a.steady h.toSteady
      · rw [hstate, a.fin]
        rintro (hw | hp)
        · exact h.wroteFin hw
        · exact h.closePending hp
      · rw [hstate, a.rx]
        exact h.readClosed
      · rw [hstate, a.rx]
        exact h.readable
      · rw [hstate, a.waiters]
        exact h.readers
  | true =>
      obtain ⟨-, hmark, hwrote⟩ := sendsFin_iff.mp hfin
      obtain ⟨hsync, hread, hopen, -⟩ := ConnectionState.withFin_fields hs hwrote
      have hstate : c'.connectionState = c.connectionState.withFin := by
        rw [a.state, hfin]
        simp
      apply of_synced
      · rw [hstate, hsync]
      · exact a.steady h.toSteady
      · intro _
        rw [a.fin, hmark]
      · rw [hstate, hread, a.rx]
        exact h.readClosed
      · rw [hstate, hread, a.rx]
        exact h.readable
      · rw [hstate, hopen, a.waiters]
        exact h.readers

omit [UserTime Time] in
/-- The send window is no part of the invariant. -/
theorem windowed (h : WellFormed c) (hidle : c.connectionState.idle = false)
    (seg : SegmentMeta) : WellFormed (c.windowed seg) where
  toSteady := h.toSteady.congr rfl rfl rfl rfl rfl
  wroteFin := h.wroteFin
  closePending := h.closePending
  readClosed := h.readClosed
  readable := h.readable
  early := h.early
  idle := fun hi => absurd (hi.symm.trans hidle) (by decide)
  opening := h.opening
  queued := h.queued
  readers := h.readers

/-- A move between open states, with what the new state demands. -/
theorem stateSet_established {t r : ChannelState} {cc ca : Bool} (hsteady : Steady c)
    (hwrote : t ≠ .opened ∨ cc = true → c.tx.tx.fin = true)
    (hread : r = .closed → c.rx.buffer.fin = true)
    (hdone : r ≠ .closed → c.rx.done = false)
    (hreaders : (∃ p ∈ c.dataWaiters, p.1.isRecv = true) → r = .opened) :
    WellFormed (c.stateSet (.established t r cc ca)) := by
  unfold stateSet
  split
  · rename_i heq
    obtain ⟨rfl, rfl, rfl, rfl⟩ := ConnectionState.established.inj heq
    refine of_synced (by rfl) (hsteady.congr ?_ ?_ ?_ ?_ ?_) ?_ ?_ ?_ ?_
    · simp
    · simp
    · simp
    · simp
    · simp
    · intro _
      simpa using hwrote (.inr rfl)
    · intro _
      simpa using hread rfl
    · simp [ConnectionState.readClosed]
    · rintro ⟨p, hp, hr⟩
      have hw : { ((c.entered (.established .closed .closed true true)).entered .timeWait) with
          timers := .default }.dataWaiters = c.dataWaiters :=
        (dataWaiters_entered _ _).trans (dataWaiters_entered c _)
      rw [dataWaiters_congr (setTimerTimewait_events _ _), hw] at hp
      exact absurd (hreaders ⟨p, hp, hr⟩) (by decide)
  · exact WellFormed.clear _
  · apply of_synced
    · simp [ConnectionState.synced]
    · exact hsteady.congr (by simp) (by simp) (by simp) (by simp) (by simp)
    · simp only [entered_connectionState, entered_tx]
      intro hor
      apply hwrote
      cases t <;> cases cc <;>
        simp [ConnectionState.wroteFin, ConnectionState.closePending] at hor ⊢
    · simp only [entered_connectionState, entered_rx]
      intro hr
      apply hread
      cases r <;> simp [ConnectionState.readClosed] at hr ⊢
    · simp only [entered_connectionState, entered_rx]
      intro hr
      apply hdone
      cases r <;> simp [ConnectionState.readClosed] at hr ⊢
    · simp only [entered_connectionState, dataWaiters_entered]
      intro hr
      rw [hreaders hr]
      rfl

omit [UserTime Time] in
theorem entered_fullyOpen (h : WellFormed c) (ho : c.connectionState.opening = true) :
    WellFormed (c.entered .fullyOpen) := by
  have hsynced : c.connectionState.synced = false ∧ c.connectionState.readClosed = false ∧
      c.connectionState.readOpen = false := by
    cases hs : c.connectionState <;> simp_all [ConnectionState.opening, ConnectionState.synced,
      ConnectionState.readClosed, ConnectionState.readOpen]
  obtain ⟨hsync, hread, hopen⟩ := hsynced
  apply of_synced
  · simp [ConnectionState.fullyOpen, ConnectionState.synced]
  · exact h.toSteady.congr (by simp) (by simp) (by simp) (by simp) (by simp)
  · simp [ConnectionState.fullyOpen, ConnectionState.wroteFin, ConnectionState.closePending]
  · simp [ConnectionState.fullyOpen, ConnectionState.readClosed]
  · intro _
    simpa using h.readable hread
  · intro _
    simp [ConnectionState.fullyOpen, ConnectionState.readOpen]

omit [UserTime Time] in
theorem opened (h : WellFormed c) : WellFormed c.opened := by
  unfold Connection.opened
  split
  · rename_i hs
    exact h.entered_fullyOpen (by rw [hs]; rfl)
  · exact h

omit [UserTime Time] in
theorem newAck (h : WellFormed c) (hs : c.connectionState.synced = true) {seg : SegmentMeta}
    (hc : NewAck c seg c') : WellFormed c' := by
  have hsteady : Steady c' := by
    constructor
    · rw [hc.dupAckCount, h.dupAck]
    · have hw := hc.congestion
      have hcw := h.congestion
      rw [nextCongestionWindow_eq h.dupAck hcw] at hw
      obtain ⟨hlt, heq⟩ := addU16_ok_iff.mp hw
      rw [heq, BitVec.toNat_add, Nat.mod_eq_of_lt hlt]
      omega
    · rw [hc.rx, h.rxWindow]
    · rw [hc.tx]
      exact h.marked
    · rw [hc.tx]
      intro g hg
      exact h.reTx g (List.dropWhile_subset _ hg)
  apply of_synced
  · rw [hc.state, hs]
  · exact hsteady
  · rw [hc.state, hc.tx]
    rintro (hw | hp)
    · exact h.wroteFin hw
    · exact h.closePending hp
  · rw [hc.state, hc.rx]
    exact h.readClosed
  · rw [hc.state, hc.rx]
    exact h.readable
  · rw [hc.state, hc.waiters]
    rintro ⟨p, hp, hr⟩
    exact h.readers ⟨p, (List.mem_filter.mp hp).1, hr⟩

omit [UserTime Time] in
theorem acknowledged (h : WellFormed c) (hs : c.opened.connectionState.synced = true)
    {seg : SegmentMeta} (hc : Acknowledged c seg c') : WellFormed c' := by
  cases hc with
  | repeated => exact h.opened
  | new _ hc => exact h.opened.newAck hs hc

/-- What the ACK of our FIN leaves: an open connection, `TimeWait` or a
cleared record. -/
theorem onFinAcked (h : WellFormed c) {ackn : SeqN} (hc : c.onFinAcked ackn = .ok c') :
    WellFormed c' := by
  rcases onFinAcked_ok_iff.mp hc with ⟨r, cc, ca, hst, -, -, -, rfl⟩ | ⟨-, rfl⟩
  · have hfin : c.tx.tx.fin = true := h.wroteFin (by rw [hst]; rfl)
    apply stateSet_established h.toSteady
    · exact fun _ => hfin
    · rintro rfl
      exact h.readClosed (by rw [hst]; rfl)
    · intro hr
      apply h.readable
      rw [hst]
      cases r <;> simp [ConnectionState.readClosed] at hr ⊢
    · intro hw
      have := h.readers hw
      rw [hst] at this
      cases r <;> simp [ConnectionState.readOpen] at this ⊢
  · exact h

omit [UserTime Time] in
theorem write (h : WellFormed c) (hs : c.connectionState.synced = true) {seg : SegmentMeta}
    {rx : RxBuffer} (hrx : c.rx.write seg = .ok rx) : WellFormed { c with rx := rx } := by
  obtain ⟨-, hfin, -, hdone, hwin, -⟩ := RxBuffer.write_spec hrx
  apply of_synced
  · exact hs
  · exact h.toSteady.congr rfl rfl rfl rfl hwin
  · rintro (hw | hp)
    · exact h.wroteFin hw
    · exact h.closePending hp
  · intro hr
    simp [hfin, h.readClosed hr]
  · intro hr
    simp [hdone, h.readable hr]
  · exact h.readers

end WellFormed

/-- After the ACK of our FIN the connection is open, waiting or cleared. -/
theorem onFinAcked_state {c c' : Connection Addr Time} {ackn : SeqN}
    (hs : c.connectionState.synced = true) (hc : c.onFinAcked ackn = .ok c') :
    c'.connectionState.synced = true ∨ ∃ c₀ : Connection Addr Time, c' = c₀.clear := by
  rcases onFinAcked_ok_iff.mp hc with ⟨r, cc, ca, -, -, -, -, rfl⟩ | ⟨-, rfl⟩
  · unfold stateSet
    split
    · exact .inl rfl
    · exact .inr ⟨_, rfl⟩
    · left
      simp [ConnectionState.synced]
  · exact .inl hs

/-- A cleared connection cannot acknowledge: storing data in it panics. -/
theorem storeData_clear {c₀ c' : Connection Addr Time} {seg : SegmentMeta} {proceed : Bool}
    (hc : c₀.clear.storeData seg = .ok (c', proceed)) :
    proceed = false ∧ seg.seqn ≠ SeqN.zero ∧
      (c' = c₀.clear ∨ c' = c₀.clear.send (c₀.clear.bareSegment c₀.clear.rx.ackd .ack)) := by
  rcases storeData_ok_iff.mp hc with ⟨-, -, rx, -, hack⟩ | ⟨hne, rfl, rfl⟩
  · exact absurd rfl ((sendAck_succeeds_iff _).mp ⟨_, hack⟩).1
  · refine ⟨rfl, hne, ?_⟩
    split
    · exact .inr rfl
    · exact .inl rfl

omit [UserTime Time] in
theorem opened_synced {c : Connection Addr Time}
    (hs : c.connectionState.synced = true ∨ c.connectionState = .synReceived) :
    c.opened.connectionState.synced = true := by
  rw [opened_connectionState]
  split
  · rfl
  · rename_i hne
    exact hs.resolve_right hne

namespace WellFormed

variable {c c' : Connection Addr Time}

theorem storeData (h : WellFormed c) (hs : c.connectionState.synced = true) {seg : SegmentMeta}
    {proceed : Bool} (hc : c.storeData seg = .ok (c', proceed)) :
    WellFormed c' ∧ c'.connectionState.synced = true := by
  rcases storeData_ok_iff.mp hc with ⟨-, -, rx, hrx, hack⟩ | ⟨-, -, rfl⟩
  · have hwf := h.write hs hrx
    refine ⟨hwf.sendAck hs hack, ?_⟩
    have a := sendAck_spec hack
    rw [a.state]
    split
    · rename_i hfin
      exact (ConnectionState.withFin_fields hs (sendsFin_iff.mp hfin).2.2).1
    · exact hs
  · split
    · exact ⟨h.send _, hs⟩
    · exact ⟨h, hs⟩

/-- The ACK branch. When it proceeds to the FIN branch the connection is open
or waiting. -/
theorem onAck (h : WellFormed c)
    (hs : c.connectionState.synced = true ∨ c.connectionState = .synReceived)
    {seg : SegmentMeta} {proceed : Bool} (hc : c.onAck seg = .ok (c', proceed)) :
    WellFormed c' ∧ (proceed = true → c'.connectionState.synced = true) := by
  rcases onAck_ok_iff.mp hc with ⟨-, c₁, c₂, h₁, h₂, h₃⟩ | ⟨-, rfl, rfl⟩
  · have hack := acknowledged_of_ok h₁
    have hs₁ : c₁.connectionState.synced = true := by
      rw [hack.frame.1]
      exact opened_synced hs
    have hwf₁ := h.acknowledged (opened_synced hs) hack
    rcases onFinAcked_state hs₁ h₂ with hs₂ | ⟨c₀, rfl⟩
    · have hstore := (hwf₁.onFinAcked h₂).storeData hs₂ h₃
      exact ⟨hstore.1, fun _ => hstore.2⟩
    · obtain ⟨rfl, -, rfl | rfl⟩ := storeData_clear h₃
      · exact ⟨WellFormed.clear c₀, by simp⟩
      · exact ⟨(WellFormed.clear c₀).send _, by simp⟩
  · exact ⟨h, by simp⟩

theorem onFin (h : WellFormed c)
    (hs : c.connectionState.synced = true ∨ c.connectionState = .synReceived) {isNew : Bool}
    (hc : c.onFin isNew = .ok c') : WellFormed c' := by
  unfold Connection.onFin at hc
  have hno (f : WaitUntil → Bool) (hf : ∀ w : WaitUntil, w.isRecv = true → f w = true) :
      ¬ ∃ p ∈ (c.triggerEvent f (.ok ())).dataWaiters, p.1.isRecv = true := by
    rintro ⟨p, hp, hr⟩
    have hsusp := (mem_dataWaiters.mp hp).1
    rw [triggerEvent_suspended, List.mem_filter, hf p.1 hr] at hsusp
    simp at hsusp
  split at hc
  all_goals rename_i hst
  · simp [hst, ConnectionState.synced] at hs
  · simp [hst, ConnectionState.synced] at hs
  · simp [hst, ConnectionState.synced] at hs
  · split at hc
    · obtain rfl := Fallible.pure_ok_iff.mp hc
      have hwf := h.triggerEvent (f := fun _ => true) (r := .error .connectionClosing)
        (by simp [hst])
      exact hwf.congr rfl rfl rfl rfl rfl (dataWaiters_congr rfl)
    · obtain rfl := Fallible.pure_ok_iff.mp hc
      exact h
  · obtain ⟨-, -, rfl⟩ := setState_ok_iff.mp hc
    obtain ⟨-, -, hrxfin⟩ := h.early (by rw [hst]; rfl)
    refine stateSet_established (h.toSteady.congr rfl rfl rfl rfl rfl) (by simp) (by simp) ?_ ?_
    · intro _
      exact h.readable (by rw [hst]; rfl)
    · exact fun hw => absurd hw (hno _ fun _ hw => hw)
  · rename_i t r cc ca
    obtain ⟨hvalid, -, rfl⟩ := setState_ok_iff.mp hc
    simp only [triggerEvent_connectionState, hst] at hvalid
    refine stateSet_established (h.toSteady.congr rfl rfl rfl rfl rfl) ?_ (by simp) ?_ ?_
    · rintro (ht | rfl)
      · exact h.wroteFin (by rw [hst]; cases t <;> simp_all [ConnectionState.wroteFin])
      · cases t with
        | opened => exact h.closePending (by rw [hst]; rfl)
        | fin => exact h.wroteFin (by rw [hst]; rfl)
        | closed => exact h.wroteFin (by rw [hst]; rfl)
    · intro _
      apply h.readable
      rw [hst]
      cases r with
      | closed => exact absurd hvalid.2.1 (by decide)
      | _ => rfl
    · exact fun hw => absurd hw (hno _ fun _ hw => hw)
  · simp [hst, ConnectionState.synced] at hs

omit [UserTime Time] in
/-- A handshake state whose only segment on the wire is our SYN. -/
theorem of_opening (ho : c.connectionState.opening = true) (hdup : c.dupAckCount = 0#8)
    (hcw : initialWindowSize.toNat ≤ c.congestionWindow.toNat) {syn : SegmentMeta}
    (hsyn : Retransmittable syn) (htx : c.tx.tx = .new) (hre : c.tx.reTx = [syn])
    (hun : c.tx.unack = c.tx.initSeqn) (hnext : c.tx.next = c.tx.initSeqn + 1#32)
    (hrx : c.rx.buffer = .new) (hdone : c.rx.done = false)
    (hwin : c.rx.window = initialWindowSize)
    (hw : ¬ ∃ p ∈ c.dataWaiters, p.1.isRecv = true) : WellFormed c := by
  have hstate : c.connectionState.wroteFin = false ∧ c.connectionState.closePending = false ∧
      c.connectionState.readClosed = false ∧ c.connectionState.idle = false := by
    cases hs : c.connectionState <;> simp_all [ConnectionState.opening, ConnectionState.wroteFin,
      ConnectionState.closePending, ConnectionState.readClosed, ConnectionState.idle]
  obtain ⟨hwrote, hpending, hread, hidle⟩ := hstate
  constructor
  case toSteady =>
    constructor
    · exact hdup
    · exact hcw
    · exact hwin
    · simp [htx]
    · simpa [hre] using hsyn
  case opening => exact fun _ => ⟨hun, hnext⟩
  case readers => exact fun hr => absurd hr hw
  all_goals simp [hwrote, hpending, hread, hidle, RxBuffer.bytes, hrx, htx, hdone]

theorem onSegmentListen (h : WellFormed c) (hs : c.connectionState = .listen)
    {seg : SegmentMeta} (hc : c.onSegmentListen seg = .ok c') : WellFormed c' := by
  cases listened_of_ok hc with
  | ignored => exact h
  | refused => exact h.send _
  | answered hrst hack hsyn hdata ha =>
      obtain ⟨htx, hrx⟩ := h.idle (by rw [hs]; rfl)
      have hsize : (c.synReply seg).seqSize = 1#32 := seqSize_of_syn (.inr rfl) rfl
      have hreply : Retransmittable (c.synReply seg) := .of_syn (.inr rfl) rfl
      have hno : ¬ ∃ p ∈ c.dataWaiters, p.1.isRecv = true := by
        intro hw
        have := h.readers hw
        rw [hs] at this
        cases this
      refine of_opening ?_ ?_ ?_ hreply ?_ ?_ ?_ ?_ ?_ ?_ ?_ ?_
      · rw [ha.state]
        rfl
      · rw [ha.dupAckCount, h.dupAck]
      · rw [ha.congestionWindow]
        exact h.congestion
      · simp [ha.tx, htx, TxBuffer.init, TxBuffer.default]
      · simp [ha.tx, htx, TxBuffer.init, TxBuffer.default, hsize]
      · simp [ha.tx, TxBuffer.init]
      · simp [ha.tx, TxBuffer.init, hsize]
      · simp [ha.rx, hrx, RxBuffer.default]
      · simp [ha.rx, hrx, RxBuffer.default, RxBuffer.init]
      · simp [ha.rx, hrx, RxBuffer.default, RxBuffer.init]
      · rw [ha.waiters]
        exact hno

omit [UserTime Time] in
theorem synAcked_steady (h : WellFormed c) (seg : SegmentMeta) : Steady (c.synAcked seg) where
  dupAck := h.dupAck
  congestion := h.congestion
  rxWindow := h.rxWindow
  marked := h.marked
  reTx := fun g hg => h.reTx g (List.dropWhile_subset _ hg)

omit [UserTime Time] in
/-- A SYN-ACK in range that does not acknowledge our SYN changes no number. -/
theorem synAcked_waiting (h : WellFormed c) (hs : c.connectionState = .synSent)
    {seg : SegmentMeta} (hun : seg.ackn = c.tx.initSeqn) : WellFormed (c.synAcked seg) := by
  obtain ⟨-, hnext⟩ := h.opening (by rw [hs]; rfl)
  have hstate : (c.synAcked seg).connectionState = .synSent := hs
  have hbuffer : (c.synAcked seg).rx.buffer = c.rx.buffer := rfl
  constructor
  case toSteady => exact h.synAcked_steady seg
  case opening => exact fun _ => ⟨hun, hnext⟩
  case early => exact fun _ => h.early (by rw [hs]; rfl)
  case readable => exact fun _ => h.readable (by rw [hs]; rfl)
  case readers =>
    rintro ⟨p, hp, hr⟩
    have hmem := mem_dataWaiters.mp hp
    have := h.readers ⟨p, mem_dataWaiters.mpr ⟨(List.mem_filter.mp hmem.1).1, hmem.2⟩, hr⟩
    rw [hs] at this
    cases this
  all_goals
    intro hst
    rw [hstate] at hst
    cases hst

omit [UserTime Time] in
theorem synAcked_opened (h : WellFormed c) (hs : c.connectionState = .synSent)
    (seg : SegmentMeta) : WellFormed ((c.synAcked seg).entered .fullyOpen) := by
  apply of_synced
  · simp [ConnectionState.fullyOpen, ConnectionState.synced]
  · exact (h.synAcked_steady seg).congr (by simp) (by simp) (by simp) (by simp) (by simp)
  · simp [ConnectionState.fullyOpen, ConnectionState.wroteFin, ConnectionState.closePending]
  · simp [ConnectionState.fullyOpen, ConnectionState.readClosed]
  · intro _
    rw [entered_rx]
    exact h.readable (by rw [hs]; rfl)
  · intro _
    simp [ConnectionState.fullyOpen, ConnectionState.readOpen]

theorem onSegmentSynSent (h : WellFormed c) (hs : c.connectionState = .synSent)
    {seg : SegmentMeta} (hc : c.onSegmentSynSent seg = .ok c') : WellFormed c' := by
  obtain ⟨hun, hnext⟩ := h.opening (by rw [hs]; rfl)
  cases synSentStep_of_ok hc with
  | ignored => exact h
  | refused => exact h.send _
  | reset => exact .reset c
  | waiting hrange _ _ _ hne =>
      refine h.synAcked_waiting hs ?_
      -- The range holds the initial number and its successor only.
      have hle : Circular.span c.tx.initSeqn seg.ackn ≤ 1 := by
        rw [SeqN.inRangeInclusive_iff, hun, hnext] at hrange
        rwa [Circular.span_add_ofNat _ (by decide)] at hrange
      have hadd := Circular.add_ofNat_span c.tx.initSeqn seg.ackn
      rcases Nat.le_one_iff_eq_zero_or_eq_one.mp hle with h0 | h1
      · exact Circular.span_eq_zero_iff.mp h0
      · rw [h1] at hadd
        exact absurd hadd.symm hne
  | opened _ _ _ _ _ hsend =>
      refine (h.synAcked_opened hs seg).sendAck ?_ hsend
      simp [ConnectionState.fullyOpen, ConnectionState.synced]

theorem onRst (hc : c.onRst = .ok c') : WellFormed c' := by
  unfold Connection.onRst at hc
  split at hc
  · obtain ⟨-, -, rfl⟩ := setState_ok_iff.mp hc
    rw [stateSet_listen]
    exact clear_entered _ rfl
  · obtain ⟨-, -, rfl⟩ := setState_ok_iff.mp hc
    rw [stateSet_reset]
    exact clear_entered _ rfl
  · cases hc

theorem onSyn (hc : c.onSyn = .ok c') : WellFormed c' := by
  obtain ⟨-, -, rfl⟩ := setState_ok_iff.mp hc
  rw [stateSet_reset]
  exact clear_entered _ rfl

theorem onAccepted (h : WellFormed c)
    (hs : c.connectionState.synced = true ∨ c.connectionState = .synReceived)
    {seg : SegmentMeta} (hc : c.onAccepted seg = .ok c') : WellFormed c' := by
  simp only [Connection.onAccepted, Fallible.bind_ok_iff, Prod.exists] at hc
  obtain ⟨c₁, proceed, hack, hfin⟩ := hc
  have h₁ : WellFormed c₁ ∧ (proceed = true → c₁.connectionState.synced = true ∨
      c₁.connectionState = .synReceived) := by
    split at hack
    · obtain ⟨hwf, hsync⟩ := h.onAck hs hack
      exact ⟨hwf, fun hp => .inl (hsync hp)⟩
    · obtain ⟨rfl, -⟩ := Prod.mk.inj (Fallible.pure_ok_iff.mp hack)
      exact ⟨h, fun _ => hs⟩
  split at hfin
  · rename_i hp
    exact h₁.1.onFin (h₁.2 (Bool.and_eq_true_iff.mp hp).1) hfin
  · exact Fallible.pure_ok_iff.mp hfin ▸ h₁.1

theorem onSegmentSynchronized (h : WellFormed c)
    (hs : c.connectionState.synced = true ∨ c.connectionState = .synReceived)
    {seg : SegmentMeta} (hc : c.onSegmentSynchronized seg = .ok c') : WellFormed c' := by
  have hidle : c.connectionState.idle = false := Peered.not_idle hs
  cases synchronizedStep_iff.mp hc with
  | dropped => exact h
  | rejected => exact h.send _
  | reset _ _ hc => exact onRst hc
  | syn _ _ _ hc => exact onSyn hc
  | accepted _ _ _ hc => exact (h.windowed hidle seg).onAccepted hs hc

/-- An incoming segment, whatever its fields, keeps a connection well formed. -/
theorem onSegment (h : WellFormed c) {seg : SegmentMeta} (hc : c.onSegment seg = .ok c') :
    WellFormed c' := by
  unfold Connection.onSegment at hc
  split at hc
  case h_1 | h_2 =>
    simp only [Fallible.bind_ok_iff] at hc
    obtain ⟨resp, -, hc⟩ := hc
    cases resp with
    | none => exact Fallible.pure_ok_iff.mp hc ▸ h
    | some resp => exact Fallible.pure_ok_iff.mp hc ▸ h.send _
  case h_3 hs => exact h.onSegmentListen hs hc
  case h_4 hs => exact h.onSegmentSynSent hs hc
  case h_5 hs | h_6 hs | h_7 hs =>
    refine h.onSegmentSynchronized ?_ hc
    simp [hs, ConnectionState.synced]

end WellFormed

end Connection

end TcpState
