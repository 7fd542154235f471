import TcpState.Connection.Exact
import TcpState.Connection.Retransmit

/-!
# The timers of a connection

The retransmission timer is armed while something waits for its
acknowledgement, and the TimeWait timer exactly in TimeWait. One lemma for each
step shows that it keeps this.
-/

namespace TcpState

theorem Timers.eq_of_fields {Time : Type} {t u : Timers Time} (hre : t.reTx = u.reTx)
    (htimewait : t.timewait = u.timewait) (husertime : t.usertime = u.usertime) : t = u := by
  cases t
  cases u
  simp_all

namespace Connection

variable {Addr Time : Type}

/-- Which timers are armed. Nothing ever arms the user timer. -/
structure TimersHold (c : Connection Addr Time) : Prop where
  armed : c.tx.reTx ≠ [] → c.timers.reTx.isSome = true
  timewait : c.timers.timewait.isSome = true ↔ c.connectionState = .timeWait
  waiting : c.connectionState = .timeWait → c.timers.reTx = none
  idle : c.connectionState.idle = true → c.timers = .default
  usertime : c.timers.usertime = none
  /-- Our FIN is the last segment to be acknowledged. -/
  closed : c.connectionState.txClosed = true → c.tx.reTx = []

namespace TimersHold

variable {c c' : Connection Addr Time}

/-- Only the state, the retransmit queue and the timers matter. -/
theorem congr (h : TimersHold c) (hstate : c'.connectionState = c.connectionState)
    (hre : c'.tx.reTx = c.tx.reTx) (htimers : c'.timers = c.timers) : TimersHold c' := by
  constructor
  all_goals simp only [hstate, hre, htimers]
  exacts [h.armed, h.timewait, h.waiting, h.idle, h.usertime, h.closed]

/-- A connection without a peer has no timer. -/
theorem of_idle (hidle : c.connectionState.idle = true) (htx : c.tx = .default)
    (htimers : c.timers = .default) : TimersHold c := by
  have hstate : c.connectionState ≠ .timeWait ∧ c.connectionState.txClosed = false := by
    cases hs : c.connectionState <;>
      simp_all [ConnectionState.idle, ConnectionState.txClosed]
  constructor
  · rw [htx]
    exact fun h => absurd rfl h
  · rw [htimers]
    exact ⟨(fun h => by cases h), fun h => absurd h hstate.1⟩
  · exact fun h => absurd h hstate.1
  · exact fun _ => htimers
  · rw [htimers]
    rfl
  · intro h
    rw [hstate.2] at h
    cases h

theorem clear (c : Connection Addr Time) : TimersHold c.clear := of_idle rfl rfl rfl

theorem clear_entered (c : Connection Addr Time) {state : ConnectionState}
    (hidle : state.idle = true) : TimersHold (c.clear.entered state) :=
  of_idle (by simpa using hidle) (by simp) (by simp)

/-- A connection that waits for an acknowledgement, or for nothing. -/
theorem of_armed (hidle : c.connectionState.idle = false) (hwait : c.connectionState ≠ .timeWait)
    (hclosed : c.connectionState.txClosed = true → c.tx.reTx = [])
    (harmed : c.tx.reTx ≠ [] → c.timers.reTx.isSome = true) (htimewait : c.timers.timewait = none)
    (husertime : c.timers.usertime = none) : TimersHold c where
  armed := harmed
  timewait := by
    rw [htimewait]
    exact ⟨(fun h => by cases h), fun h => absurd h hwait⟩
  waiting := fun h => absurd h hwait
  idle := fun h => absurd (h.symm.trans hidle) (by decide)
  usertime := husertime
  closed := hclosed

/-- Outside of TimeWait its timer is not armed. -/
theorem timewait_none (h : TimersHold c) (hwait : c.connectionState ≠ .timeWait) :
    c.timers.timewait = none := by
  cases ht : c.timers.timewait with
  | none => rfl
  | some t => exact absurd (h.timewait.mp (by rw [ht]; rfl)) hwait

variable [UserTime Time]

/-- A move to an open state, reduced or not. -/
theorem stateSet (h : TimersHold c) (hwait : c.connectionState ≠ .timeWait)
    (t r : ChannelState) (cc ca : Bool) (hclosed : t = .closed → c.tx.reTx = []) :
    TimersHold (c.stateSet (.established t r cc ca)) := by
  unfold Connection.stateSet
  split
  · rename_i heq
    obtain ⟨rfl, rfl, rfl, rfl⟩ := ConnectionState.established.inj heq
    have hre := hclosed rfl
    constructor
    · intro hne
      rw [setTimerTimewait_tx, entered_tx, entered_tx] at hne
      exact absurd hre hne
    · exact ⟨fun _ => by simp, fun _ => rfl⟩
    · exact fun _ => rfl
    · intro hidle
      rw [setTimerTimewait_connectionState] at hidle
      simp [ConnectionState.idle] at hidle
    · rfl
    · intro _
      rw [setTimerTimewait_tx, entered_tx, entered_tx]
      exact hre
  · exact clear _
  · have hno := h.timewait_none hwait
    refine of_armed (by simp [ConnectionState.idle]) (by simp) ?_ ?_ ?_ ?_
    · rw [entered_connectionState, entered_tx]
      cases t with
      | closed => exact fun _ => hclosed rfl
      | opened => exact fun h => by cases h
      | fin => exact fun h => by cases h
    · rw [entered_tx, entered_timers]
      exact h.armed
    · rw [entered_timers]
      exact hno
    · rw [entered_timers]
      exact h.usertime

/-- `send_ack` arms the timer for what it queues; after our FIN there is nothing
to queue. -/
theorem sendAck (h : TimersHold c) (hidle : c.connectionState.idle = false)
    (hdone : c.connectionState.wroteFin = true → c.outSegment.seqSize = 0#32)
    (hc : c.sendAck = .ok c') : TimersHold c' := by
  have a := sendAck_spec hc
  obtain ⟨htimewait, husertime, hre⟩ := sendAck_timers hc
  by_cases hzero : c.outSegment.seqSize = 0#32
  · rw [if_pos hzero] at hre
    have hfin : c.sendsFin = false := (c.outSegment_seqSize_eq_zero.mp hzero).2
    refine h.congr ?_ ?_ ?_
    · rw [a.state, hfin, if_neg Bool.false_ne_true]
    · rw [a.reTx, if_pos hzero, List.append_nil]
    · exact Timers.eq_of_fields hre htimewait husertime
  · rw [if_neg hzero] at hre
    have hwrote : c.connectionState.wroteFin = false := by
      simpa using fun hw => hzero (hdone hw)
    have hwait : c.connectionState ≠ .timeWait := fun hw => by rw [hw] at hwrote; cases hwrote
    have hstate : c'.connectionState.idle = false ∧ c'.connectionState ≠ .timeWait ∧
        c'.connectionState.txClosed = false := by
      rw [a.state]
      split
      · cases hs : c.connectionState <;>
          simp_all [ConnectionState.withFin, ConnectionState.idle, ConnectionState.txClosed]
      · refine ⟨hidle, hwait, ?_⟩
        by_contra hcl
        have := ConnectionState.wroteFin_of_txClosed (by simpa using hcl)
        rw [hwrote] at this
        cases this
    exact of_armed hstate.1 hstate.2.1 (fun hcl => by rw [hstate.2.2] at hcl; cases hcl)
      (fun _ => hre) (htimewait.trans (h.timewait_none hwait)) (husertime.trans h.usertime)

/-- A new acknowledgement. -/
theorem onNewAck (h : TimersHold c) (hidle : c.connectionState.idle = false)
    {seg : SegmentMeta} (hc : c.onNewAck seg = .ok c') :
    TimersHold c' := by
  have a := onNewAck_spec hc
  obtain ⟨htimewait, husertime, hre⟩ := onNewAck_timers hc
  have htx : c'.tx.reTx = c.tx.reTx.dropWhile fun head => head.seqnAfter.lte seg.ackn := by
    rw [a.tx]
  have hclosed : c.connectionState.txClosed = true → c'.tx.reTx = [] := by
    intro hcl
    rw [htx, h.closed hcl]
    rfl
  constructor
  · intro hne
    rw [if_neg hne] at hre
    exact hre
  · rw [htimewait, a.state]
    exact h.timewait
  · intro hw
    rw [a.state] at hw
    rw [if_pos (hclosed (by rw [hw]; rfl))] at hre
    exact hre
  · rw [a.state]
    exact fun hi => absurd (hi.symm.trans hidle) (by decide)
  · rw [husertime]
    exact h.usertime
  · rw [a.state]
    exact hclosed

theorem opened (h : TimersHold c) : TimersHold c.opened := by
  unfold Connection.opened
  split
  · rename_i hst
    refine h.stateSet ?_ .opened .opened false false fun ht => by cases ht
    rw [hst]
    exact fun hw => by cases hw
  · exact h

theorem takes (h : TimersHold c) (hs : c.Peered) {seg : SegmentMeta}
    (hc : c.Takes seg c') : TimersHold c' := by
  have hidle := (opened_rxState hs).1.not_idle
  unfold Takes at hc
  split at hc
  · exact h.opened.onNewAck hidle hc
  · obtain rfl := Except.ok.inj hc
    exact h.opened

/-- The acknowledgement of our FIN asserts that nothing else is unacknowledged. -/
theorem onFinAcked (h : TimersHold c) {ackn : SeqN} (hc : c.onFinAcked ackn = .ok c') :
    TimersHold c' := by
  rcases onFinAcked_ok_iff.mp hc with ⟨r, cc, ca, hst, -, -, hre, rfl⟩ | ⟨-, rfl⟩
  · exact h.stateSet (by rw [hst]; exact fun hw => by cases hw) .closed r cc ca fun _ => hre
  · exact h

theorem onFin (h : TimersHold c) (hs : c.Peered) {isNew : Bool} (hc : c.onFin isNew = .ok c') :
    TimersHold c' := by
  unfold Connection.onFin at hc
  split at hc
  case h_1 hst | h_2 hst | h_3 hst | h_7 hst =>
    rcases hs with hs | hs <;> rw [hst] at hs <;> cases hs
  case h_4 hst =>
    split at hc
    · obtain rfl := Fallible.pure_ok_iff.mp hc
      have hre := h.closed (by rw [hst]; rfl)
      constructor
      · exact fun hne => absurd hre hne
      · exact ⟨fun _ => hst, fun _ => rfl⟩
      · exact fun _ => rfl
      · intro hidle
        change c.connectionState.idle = true at hidle
        rw [hst] at hidle
        cases hidle
      · rfl
      · exact fun _ => hre
    · obtain rfl := Fallible.pure_ok_iff.mp hc
      exact h
  case h_5 hst =>
    obtain ⟨-, -, rfl⟩ := setState_ok_iff.mp hc
    have h' : TimersHold (c.triggerEvent WaitUntil.isRecv (.ok ())) := h.congr rfl rfl rfl
    exact h'.stateSet (by simp [hst]) _ _ _ _ fun ht => by cases ht
  case h_6 t r cc ca hst =>
    obtain ⟨-, -, rfl⟩ := setState_ok_iff.mp hc
    have h' : TimersHold (c.triggerEvent WaitUntil.isRecv (.ok ())) := h.congr rfl rfl rfl
    refine h'.stateSet (by simp [hst]) _ _ _ _ fun ht => h.closed ?_
    rw [hst, ht]
    rfl

/-- An acceptable segment. -/
theorem onAccepted (h : TimersHold c) (hwf : WellFormed c) (hs : c.Peered) {seg : SegmentMeta}
    (hc : c.onAccepted seg = .ok c') : TimersHold c' := by
  cases acceptedStep_of_ok hc with
  | unacknowledged _ hfin =>
      split at hfin
      · exact h.onFin hs hfin
      · obtain rfl := Except.ok.inj hfin
        exact h
  | invalid => exact h
  | discarded _ _ h₁ h₂ =>
      have h' := (h.takes hs h₁).onFinAcked h₂
      split
      · exact h'.congr rfl rfl rfl
      · exact h'
  | @stored c₁ c₂ c₃ _ rx _ _ h₁ h₂ _ _ h₃ hfin =>
      have h' := (h.takes hs h₁).onFinAcked h₂
      have hwf₂ := (hwf.acknowledged (opened_synced hs) h₁.acknowledged).onFinAcked h₂
      rcases onFinAcked_peered (h₁.peered hs).1 h₂ with ⟨-, hs₂, -⟩ | ⟨-, rfl⟩
      · have h₀ : TimersHold { c₂ with rx := rx } := h'.congr rfl rfl rfl
        have h'' : TimersHold c₃ := h₀.sendAck hs₂.not_idle
          (fun hw => Traced.outSegment_of_wroteFin hwf₂ rfl rfl hw) h₃
        split at hfin
        · exact h''.onFin (AckSent.rxState (sendAck_spec h₃) hs₂).1 hfin
        · obtain rfl := Except.ok.inj hfin
          exact h''
      · exact absurd h₃ (sendAck_closed rfl)

/-- An answered SYN arms the timer for the SYN-ACK. -/
theorem onSegmentListen (h : TimersHold c) (hst : c.connectionState = .listen)
    {seg : SegmentMeta} (hc : c.onSegmentListen seg = .ok c') : TimersHold c' := by
  have hnone : c.timers = .default := h.idle (by rw [hst]; rfl)
  unfold Connection.onSegmentListen at hc
  split at hc
  · obtain rfl := Fallible.pure_ok_iff.mp hc
    exact h
  split at hc
  · obtain rfl := Fallible.pure_ok_iff.mp hc
    exact h.congr rfl rfl rfl
  split at hc
  · obtain rfl := Fallible.pure_ok_iff.mp hc
    exact h
  simp only [Fallible.bind_ok_iff, Fallible.pure_ok_iff, setState_ok_iff, stateSet_synReceived]
    at hc
  obtain ⟨_, -, c₁, ⟨-, -, rfl⟩, rfl⟩ := hc
  refine of_armed ?_ ?_ ?_ (fun _ => rfl) ?_ ?_
  · change (Connection.entered _ _).connectionState.idle = false
    simp [ConnectionState.idle]
  · change (Connection.entered _ _).connectionState ≠ _
    simp
  · change (Connection.entered _ _).connectionState.txClosed = true → _
    simp [ConnectionState.txClosed]
  · change (Connection.entered _ _).timers.timewait = none
    rw [entered_timers]
    exact congrArg Timers.timewait hnone
  · change (Connection.entered _ _).timers.usertime = none
    rw [entered_timers]
    exact congrArg Timers.usertime hnone

/-- A SYN-ACK leaves the timer of the SYN armed. -/
theorem onSegmentSynSent (h : TimersHold c) (hst : c.connectionState = .synSent)
    {seg : SegmentMeta} (hc : c.onSegmentSynSent seg = .ok c') : TimersHold c' := by
  have hacked : TimersHold (c.synAcked seg) := by
    refine of_armed (c := c.synAcked seg) ?_ ?_ ?_ ?_ ?_ h.usertime
    · change c.connectionState.idle = false
      rw [hst]
      rfl
    · change c.connectionState ≠ .timeWait
      rw [hst]
      exact fun hw => by cases hw
    · change c.connectionState.txClosed = true → _
      rw [hst]
      exact fun hw => by cases hw
    · intro hne
      refine h.armed fun hnil => hne ?_
      change c.tx.reTx.dropWhile _ = []
      rw [hnil]
      rfl
    · exact h.timewait_none (by rw [hst]; exact fun hw => by cases hw)
  cases synSentStep_of_ok hc with
  | ignored => exact h
  | refused => exact h.congr rfl rfl rfl
  | reset => exact of_idle rfl rfl rfl
  | waiting => exact hacked
  | opened _ _ _ _ _ hsend =>
      have hopen : TimersHold ((c.synAcked seg).entered .fullyOpen) := by
        refine hacked.stateSet ?_ .opened .opened false false fun ht => by cases ht
        change c.connectionState ≠ .timeWait
        rw [hst]
        exact fun hw => by cases hw
      refine hopen.sendAck (by simp; rfl) (fun hw => ?_) hsend
      rw [entered_connectionState] at hw
      cases hw

theorem onSegment (h : TimersHold c) (hwf : WellFormed c) {seg : SegmentMeta}
    (hc : c.onSegment seg = .ok c') : TimersHold c' := by
  have sync (hs : c.Peered) (hc : c.onSegmentSynchronized seg = .ok c') : TimersHold c' := by
    cases synchronizedStep_iff.mp hc with
    | dropped => exact h
    | rejected => exact h.congr rfl rfl rfl
    | reset _ _ hrst =>
        unfold Connection.onRst at hrst
        split at hrst
        · obtain ⟨-, -, rfl⟩ := setState_ok_iff.mp hrst
          rw [stateSet_listen]
          exact clear_entered _ rfl
        · obtain ⟨-, -, rfl⟩ := setState_ok_iff.mp hrst
          rw [stateSet_reset]
          exact clear_entered _ rfl
        · cases hrst
    | syn _ _ _ hsyn =>
        obtain ⟨-, -, rfl⟩ := setState_ok_iff.mp hsyn
        rw [stateSet_reset]
        exact clear_entered _ rfl
    | accepted _ _ _ hacc =>
        have h' : TimersHold (c.windowed seg) := h.congr rfl rfl rfl
        exact h'.onAccepted (hwf.windowed hs.not_idle seg) hs hacc
  unfold Connection.onSegment at hc
  split at hc
  case h_1 hst | h_2 hst =>
    simp only [Fallible.bind_ok_iff] at hc
    obtain ⟨resp, -, hc⟩ := hc
    cases resp with
    | none =>
        obtain rfl := Fallible.pure_ok_iff.mp hc
        exact h
    | some resp =>
        obtain rfl := Fallible.pure_ok_iff.mp hc
        exact h.congr rfl rfl rfl
  case h_3 hst => exact h.onSegmentListen hst hc
  case h_4 hst => exact h.onSegmentSynSent hst hc
  case h_5 hst | h_6 hst | h_7 hst =>
    exact sync (by simp [Peered, hst, ConnectionState.synced]) hc

/-- The SYN of `call_connect` arms the timer. -/
theorem callConnect (h : TimersHold c) {r : Except Error Unit}
    (hc : c.callConnect = .ok (c', r)) : TimersHold c' := by
  unfold Connection.callConnect at hc
  split at hc
  case h_1 hst | h_2 hst =>
    have hnone : c.timers = .default := h.idle (by rw [hst]; rfl)
    simp only [Fallible.bind_ok_iff, setState_ok_iff, continueAfter_ok_iff,
      stateSet_synSent] at hc
    obtain ⟨c₁, ⟨-, -, rfl⟩, -, rfl, rfl⟩ := hc
    refine of_armed ?_ ?_ ?_ (fun _ => rfl) ?_ ?_
    · change (Connection.entered _ _).connectionState.idle = false
      simp [ConnectionState.idle]
    · change (Connection.entered _ _).connectionState ≠ _
      simp
    · change (Connection.entered _ _).connectionState.txClosed = true → _
      simp [ConnectionState.txClosed]
    · change (c.entered .synSent).timers.timewait = none
      rw [entered_timers]
      exact congrArg Timers.timewait hnone
    · change (c.entered .synSent).timers.usertime = none
      rw [entered_timers]
      exact congrArg Timers.usertime hnone
  case h_3 =>
    obtain ⟨rfl, rfl⟩ := Prod.mk.inj (Fallible.pure_ok_iff.mp hc)
    exact h

/-- An open connection that has not sent its FIN sends what is queued. -/
theorem sendAck_opened (h : TimersHold c) (hidle : c.connectionState.idle = false)
    (hwrote : c.connectionState.wroteFin = false) (hc : c.sendAck = .ok c') : TimersHold c' :=
  h.sendAck hidle (fun hw => by rw [hwrote] at hw; cases hw) hc

/-- The end of a close. -/
theorem closing (h : TimersHold c) (hest : c.connectionState.isEstablished = true)
    (closeActive : Bool) : TimersHold (c.closing closeActive) := by
  obtain ⟨t, r, cc, ca, hst⟩ := ConnectionState.isEstablished_iff.mp hest
  have h' := h.stateSet (by rw [hst]; exact fun hw => by cases hw) c.connectionState.tx
    c.connectionState.rx true closeActive fun ht => h.closed (by
      rw [hst] at ht ⊢
      obtain rfl : t = .closed := ht
      rfl)
  unfold Connection.closing
  dsimp only
  split
  · exact h'
  · exact h'.congr rfl rfl rfl

/-- A close in SynReceived sends what is queued and enters FinWait. -/
theorem early (h : TimersHold c) (hs : c.connectionState = .synReceived)
    (hc : c.marked.sendAck = .ok c') {closeCalled : Bool} :
    TimersHold (c'.entered (.established .fin .opened closeCalled true)) := by
  have h₀ : TimersHold c.marked := h.congr rfl rfl rfl
  have h' := h₀.sendAck_opened (by rw [withQueue_connectionState, hs]; rfl)
    (by rw [withQueue_connectionState, hs]; rfl) hc
  have hwait : c'.connectionState ≠ .timeWait := by
    rw [(sendAck_spec hc).state, withQueue_connectionState, hs]
    split
    · exact fun hw => by cases hw
    · exact fun hw => by cases hw
  have := h'.stateSet hwait .fin .opened closeCalled true fun ht => by cases ht
  rwa [stateSet_eq_entered _ (.inl (by decide))] at this

omit [UserTime Time] in
/-- The state in which the retransmission timer fires. -/
theorem fires (h : TimersHold c) (harmed : c.timers.reTx ≠ none) :
    c.connectionState.idle = false ∧ c.connectionState ≠ .timeWait := by
  refine ⟨?_, fun hw => harmed (h.waiting hw)⟩
  by_contra hidle
  exact harmed (congrArg Timers.reTx (h.idle (by simpa using hidle)))

/-- What the fired timer sends again, it waits for again. -/
theorem onTimerReTx (h : TimersHold c) (harmed : c.timers.reTx ≠ none)
    (hc : { c with timers := { c.timers with reTx := none } }.onTimerReTx = .ok c') :
    TimersHold c' := by
  obtain ⟨hidle, hwait⟩ := h.fires harmed
  unfold Connection.onTimerReTx at hc
  split at hc
  case h_1 | h_2 | h_3 | h_4 =>
    split at hc
    · rename_i hnil
      obtain rfl := Fallible.pure_ok_iff.mp hc
      exact of_armed hidle hwait h.closed (fun hne => absurd hnil hne) (h.timewait_none hwait)
        h.usertime
    · simp only [Fallible.bind_ok_iff, Fallible.pure_ok_iff] at hc
      obtain ⟨_, -, _, -, rfl⟩ := hc
      exact of_armed hidle hwait h.closed (fun _ => rfl) (h.timewait_none hwait) h.usertime
  case h_5 hst =>
    change c.connectionState = .reset at hst
    rw [hst] at hidle
    cases hidle
  case h_6 | h_7 => cases hc

/-- The fired timer panics only when the back-off or the clock overflows. -/
theorem onTimerReTx_error (h : TimersHold c) (harmed : c.timers.reTx ≠ none) {p : Panic}
    (hc : { c with timers := { c.timers with reTx := none } }.onTimerReTx = .error p) :
    p = .overflow := by
  obtain ⟨hidle, hwait⟩ := h.fires harmed
  unfold Connection.onTimerReTx at hc
  split at hc
  case h_1 | h_2 | h_3 | h_4 =>
    split at hc
    · cases hc
    · rcases Fallible.bind_error_iff.mp hc with hc | ⟨_, -, hc⟩
      · unfold doubleBackoff at hc
        split at hc
        · cases hc
        · exact (Except.error.inj hc).symm
      · rcases Fallible.bind_error_iff.mp hc with hc | ⟨_, -, hc⟩
        · unfold Duration.add at hc
          split at hc
          · cases hc
          · exact (Except.error.inj hc).symm
        · cases hc
  case h_5 => cases hc
  case h_6 hst => exact absurd hst hwait
  case h_7 hst =>
    change c.connectionState = .closed at hst
    rw [hst] at hidle
    cases hidle

omit [UserTime Time] in
theorem ne_none_of_expired [UserTime Time] {timer : Option Time} {time : Time}
    (h : expired timer time = true) : timer ≠ none := by
  rintro rfl
  cases h

/-- The first of the three timers a tick looks at. -/
theorem onTimeTick_reTx (h : TimersHold c) {time : Time}
    (hc : (if expired c.timers.reTx time then
      { c with timers := { c.timers with reTx := none } }.onTimerReTx else pure c) = .ok c') :
    TimersHold c' := by
  split at hc
  · rename_i hexp
    exact h.onTimerReTx (ne_none_of_expired hexp) hc
  · obtain rfl := Fallible.pure_ok_iff.mp hc
    exact h

theorem onTimeTick (h : TimersHold c) {time : Time} (hc : c.onTimeTick time = .ok c') :
    TimersHold c' := by
  simp only [Connection.onTimeTick, Fallible.bind_ok_iff] at hc
  obtain ⟨c₁, h₁, c₂, h₂, hc⟩ := hc
  have hold₁ := h.onTimeTick_reTx h₁
  have hold₂ : TimersHold c₂ := by
    split at h₂
    · simp only [onTimerTimewait, Fallible.bind_ok_iff, Fallible.pure_ok_iff] at h₂
      obtain ⟨_, -, rfl⟩ := h₂
      exact clear _
    · obtain rfl := Fallible.pure_ok_iff.mp h₂
      exact hold₁
  split at hc
  · obtain rfl := Fallible.pure_ok_iff.mp hc
    exact clear _
  · obtain rfl := Fallible.pure_ok_iff.mp hc
    exact hold₂

/-- A tick finds the state its timer belongs to. -/
theorem onTimeTick_error (h : TimersHold c) {time : Time} {p : Panic}
    (hc : c.onTimeTick time = .error p) : p = .overflow := by
  rcases Fallible.bind_error_iff.mp hc with hc | ⟨c₁, h₁, hc⟩
  · split at hc
    · rename_i hexp
      exact h.onTimerReTx_error (ne_none_of_expired hexp) hc
    · cases hc
  have hold := h.onTimeTick_reTx h₁
  rcases Fallible.bind_error_iff.mp hc with hc | ⟨c₂, -, hc⟩
  · split at hc
    · rename_i hexp
      have hwait : c₁.connectionState = .timeWait := hold.timewait.mp
        (Option.isSome_iff_ne_none.mpr (ne_none_of_expired hexp))
      rcases Fallible.bind_error_iff.mp hc with hc | ⟨_, -, hc⟩
      · rw [assert, Fallible.ensure, if_pos hwait] at hc
        cases hc
      · cases hc
    · cases hc
  · split at hc <;> cases hc

theorem step (h : TimersHold c) (hwf : WellFormed c) {op : Op Time} {out : Output}
    (hc : c.step op = .ok (c', out)) : TimersHold c' := by
  cases opStep_of_ok hc with
  | callConnect hc => exact h.callConnect hc
  | callSend hc =>
      cases (sendStep_of_ok hc).2 with
      | refused => exact h
      | delayed => exact h.congr rfl rfl rfl
      | queued => exact h.congr rfl rfl rfl
      | @sent q _ _ _ _ hs _ _ hsend =>
          have h' : TimersHold (c.withQueue q) := h.congr rfl rfl rfl
          exact h'.sendAck_opened (by rw [withQueue_connectionState, hs]; rfl)
            (by rw [withQueue_connectionState, hs]; rfl) hsend
  | callRecv hc =>
      cases recvStep_of_ok hc with
      | refused => exact h
      | ended => exact h
      | early => exact h.congr rfl rfl rfl
      | waiting => exact h.congr rfl rfl rfl
      | read => exact h.congr rfl rfl rfl
      | full => exact h.congr rfl rfl rfl
      | @drained t cc ca rx _ hs =>
          have h' : TimersHold { c with rx := rx } := h.congr rfl rfl rfl
          refine h'.stateSet ?_ t .closed cc ca fun ht => h.closed ?_
          · change c.connectionState ≠ .timeWait
            rw [hs]
            exact fun hw => by cases hw
          · rw [hs, ht]
            rfl
  | callShutdown hc =>
      cases shutdownStep_of_ok hc with
      | refused => exact h
      | cleared => exact clear _
      | delayed => exact h.congr rfl rfl rfl
      | early hs _ hsend => exact h.early hs hsend
      | @active cc ca c' hs hcc _ _ hsend =>
          have hopen := h.stateSet (by rw [hs]; exact fun hw => by cases hw) .opened .opened cc true
            fun ht => by cases ht
          rw [stateSet_eq_entered _ (.inl (by decide))] at hopen
          have h' : TimersHold (c.entered (.established .opened .opened cc true)).marked :=
            hopen.congr rfl rfl rfl
          have hst : (c.entered (.established .opened .opened cc true)).marked.connectionState =
              .established .opened .opened cc true := by simp
          exact h'.sendAck_opened (by rw [hst]; rfl) (by rw [hst]; rfl) hsend
      | passive hs _ _ _ hsend =>
          have h' : TimersHold c.marked := h.congr rfl rfl rfl
          exact h'.sendAck_opened (by rw [withQueue_connectionState, hs]; rfl)
            (by rw [withQueue_connectionState, hs]; rfl) hsend
  | callClose hc =>
      cases closeStep_of_ok hc with
      | refused => exact h
      | cleared => exact clear _
      | delayed => exact h.congr rfl rfl rfl
      | early hs _ _ hsend => exact (h.early hs hsend).congr rfl rfl rfl
      | opened hs _ _ hsend =>
          have h' : TimersHold c.marked := h.congr rfl rfl rfl
          have h₁ := h'.sendAck_opened (by rw [withQueue_connectionState, hs]; rfl)
            (by rw [withQueue_connectionState, hs]; rfl) hsend
          refine h₁.closing (sendAck_isEstablished ?_ hsend) _
          rw [withQueue_connectionState, hs]
          rfl
      | ended hs => exact h.closing (by rw [hs]; rfl) _
  | callAbort hc =>
      cases abortStep_of_ok hc with
      | refused => exact h
      | cleared => exact clear _
      | reset => exact clear _
  | setOptions => exact h.congr rfl rfl rfl
  | onSegment hc => exact h.onSegment hwf hc
  | onTimeTick hc => exact h.onTimeTick hc

end TimersHold

variable [UserTime Time] {c : Connection Addr Time}

theorem Initial.timersHold (h : Initial c) : TimersHold c := by
  rcases h with ⟨remote, userData, rfl⟩ | ⟨l, addr, userData, h⟩
  · exact .of_idle rfl rfl rfl
  · rw [acceptor_eq] at h
    obtain rfl := Except.ok.inj h
    exact .of_idle rfl rfl rfl

theorem Reachable.timersHold (h : Reachable c) : TimersHold c := by
  refine Transition.ReachableUnder.invariant (P := TimersHold) ?_ ?_ h
  · exact fun _ hinit => Initial.timersHold hinit
  · rintro c op c' hreach hold - ⟨out, hs⟩
    exact hold.step (Reachable.wellFormed hreach) hs

/-- The timers fit the state after every run, so that no tick finds a timer the
state has no use for. -/
theorem timers_fit (h : Reachable c) :
    (c.tx.reTx ≠ [] → c.timers.reTx.isSome = true) ∧
    (c.timers.timewait.isSome = true ↔ c.connectionState = .timeWait) ∧
    (c.connectionState = .timeWait → c.tx.reTx = [] ∧ c.timers.reTx = none) ∧
    (c.connectionState = .closed ∨ c.connectionState = .reset → c.timers = .default) ∧
    ∀ time p, c.onTimeTick time = .error p → p = .overflow := by
  have hold := Reachable.timersHold h
  refine ⟨hold.armed, hold.timewait, fun hw => ⟨hold.closed (by rw [hw]; rfl), hold.waiting hw⟩,
    ?_, fun time p => hold.onTimeTick_error⟩
  rintro (hst | hst) <;> exact hold.idle (by rw [hst]; rfl)

/-- TimeWait, entered by the read after the FIN of the peer. -/
theorem timers_fit_timeWait : ∃ c : Connection Unit Nat,
    c.connectionState = .timeWait ∧ c.timers.timewait.isSome = true ∧ c.tx.reTx = [] ∧
    c.timers.reTx = none ∧ ∀ time p, c.onTimeTick time = .error p → p = .overflow := by
  obtain ⟨c, hreach, hst⟩ : ∃ c : Connection Unit Nat,
      Reachable c ∧ c.connectionState = .timeWait :=
    Transition.exists_reachableUnder step_of_next (initial_listening () .default zeroUser)
      [.onSegment ⟨100#32, 0#32, 1000#16, .syn, []⟩,
       .onSegment ⟨101#32, 1#32, 1000#16, .ack, []⟩, .callClose,
       .onSegment ⟨101#32, 2#32, 1000#16, .ack, []⟩,
       .onSegment ⟨101#32, 2#32, 1000#16, .fin ||| .ack, []⟩, .callRecv 1] (by decide)
  obtain ⟨-, htimewait, hwait, -, htick⟩ := timers_fit hreach
  exact ⟨c, hst, htimewait.mpr hst, (hwait hst).1, (hwait hst).2, htick⟩

end Connection

end TcpState
