import TcpState.Connection.FinWithData
import TcpState.Connection.Quarantine
import TcpState.Network.Opening
import TcpState.Network.Windows

/-!
# The moves that close a connection from both sides

With nothing left to send or to read, each step of a close that both
applications call does what it is for: the call sends a FIN, the peer's FIN is
stored and acknowledged, the acknowledgement of our FIN closes the write side,
the read at the end of the stream leads to TimeWait, and the timer closes the
connection.
-/

namespace TcpState

namespace Connection

variable {Addr Time : Type} {c c₀ c' : Connection Addr Time} {seg : SegmentMeta}

/-- Open, with everything acknowledged, sent and read. -/
structure AtRest (c : Connection Addr Time) : Prop where
  state : c.connectionState = .fullyOpen
  acked : c.tx.unack = c.tx.next
  flushed : c.tx.tx.bytes = []
  reTx : c.tx.reTx = []
  unread : c.rx.bytes = []
  unmarked : c.rx.buffer.fin = false

/-- The FIN of a connection at rest. -/
def finSegment (c : Connection Addr Time) : SegmentMeta where
  seqn := c.tx.next
  ackn := c.rx.ackd
  window := c.rx.currWindow
  flags := .fin ||| .ack
  data := []

/-- The acknowledgement of the peer's FIN, behind our own. -/
def lastAck (c : Connection Addr Time) : SegmentMeta where
  seqn := c.tx.next + 1#32
  ackn := c.rx.ackd + 1#32
  window := 0#16
  flags := .ack
  data := []

/-- The close has been called and the FIN is out. -/
structure FinOut (c₀ c : Connection Addr Time) : Prop where
  state : c.connectionState = .established .fin .opened true true
  rx : c.rx = c₀.rx
  unack : c.tx.unack = c₀.tx.next
  next : c.tx.next = c₀.tx.next + 1#32
  bytes : c.tx.tx.bytes = []
  reTx : c.tx.reTx = [c₀.finSegment]
  sent : c₀.finSegment ∈ c.userData.sent

/-- The peer's FIN has arrived too, and is acknowledged. -/
structure FinBoth (c₀ c : Connection Addr Time) : Prop where
  state : c.connectionState = .established .fin .fin true true
  ackd : c.rx.ackd = c₀.rx.ackd + 1#32
  unread : c.rx.bytes = []
  marked : c.rx.buffer.fin = true
  unack : c.tx.unack = c₀.tx.next
  next : c.tx.next = c₀.tx.next + 1#32
  bytes : c.tx.tx.bytes = []
  reTx : c.tx.reTx = [c₀.finSegment]
  sent : c₀.lastAck ∈ c.userData.sent

/-- Our FIN is acknowledged, and the end of the stream is still to be read. -/
structure FinDone (c : Connection Addr Time) : Prop where
  state : c.connectionState = .established .closed .fin true true
  unread : c.rx.bytes = []
  marked : c.rx.buffer.fin = true

theorem finSegment_flags (c : Connection Addr Time) : c.finSegment.hasRst = false ∧
    c.finSegment.hasSyn = false ∧ c.finSegment.hasFin = true ∧ c.finSegment.hasAck = true := by
  simp only [SegmentMeta.hasRst, SegmentMeta.hasSyn, SegmentMeta.hasFin, SegmentMeta.hasAck,
    finSegment]
  decide

theorem finSegment_seqSize (c : Connection Addr Time) : c.finSegment.seqSize = 1#32 := by
  rw [SegmentMeta.seqSize_eq, c.finSegment_flags.2.1, c.finSegment_flags.2.2.1]
  rfl

theorem lastAck_flags (c : Connection Addr Time) : c.lastAck.hasRst = false ∧
    c.lastAck.hasSyn = false ∧ c.lastAck.hasFin = false ∧ c.lastAck.hasAck = true := by
  simp only [SegmentMeta.hasRst, SegmentMeta.hasSyn, SegmentMeta.hasFin, SegmentMeta.hasAck,
    lastAck]
  decide

variable [UserTime Time]

section Stores

omit [UserTime Time] in
theorem windowed_opened (h : c.connectionState ≠ .synReceived) (seg : SegmentMeta) :
    (c.windowed seg).opened = c.windowed seg := by
  rw [opened, if_neg]
  exact h

/-- What storing a segment in an open or half-closed state goes through. -/
theorem Stores.steps (hs : Peered c) (hstores : c.Stores seg) (hc : c.onSegment seg = .ok c') :
    ∃ c₁ c₂, (c.windowed seg).Takes seg c₁ ∧ c₁.onFinAcked seg.ackn = .ok c₂ ∧
      (seg.seqn ≠ c₂.rx.ackd ∨ ∃ c₃ rx, c₂.rx.write seg = .ok rx ∧
        { c₂ with rx := rx }.sendAck = .ok c₃ ∧
        (if seg.hasFin then c₃.onFin (c.tx.isNonOrderedAck seg.ackn) else .ok c₃) = .ok c') := by
  rw [onSegment_of_peered hs] at hc
  cases synchronizedStep_iff.mp hc with
  | dropped hcheck | rejected hcheck =>
      exact absurd (hcheck.symm.trans hstores.check) Bool.false_ne_true
  | reset _ hrst => exact absurd (hstores.noRst.symm.trans hrst) Bool.false_ne_true
  | syn _ _ hsyn => exact absurd (hstores.noSyn.symm.trans hsyn) Bool.false_ne_true
  | accepted _ _ _ hacc =>
      cases acceptedStep_of_ok hacc with
      | unacknowledged hack => exact absurd (hack.symm.trans hstores.ack) Bool.false_ne_true
      | invalid _ hrange => exact absurd (hrange.symm.trans hstores.range) Bool.false_ne_true
      | discarded _ _ h₁ h₂ hseq => exact ⟨_, _, h₁, h₂, .inl hseq⟩
      | stored _ _ h₁ h₂ _ hrx h₃ hfin => exact ⟨_, _, h₁, h₂, .inr ⟨_, _, hrx, h₃, hfin⟩⟩

/-- A bare acknowledgement of everything brings the window of the peer. -/
theorem AtRest.updates (h : AtRest c) (hreach : Reachable c) (hseqn : seg.seqn = c.rx.ackd)
    (hackn : seg.ackn = c.tx.next) (hdata : seg.data = []) (hflags : seg.hasRst = false ∧
      seg.hasSyn = false ∧ seg.hasFin = false ∧ seg.hasAck = true)
    (hwindow : seg.window ≠ 0#16) :
    ∃ c', c.onSegment seg = .ok c' ∧ AtRest c' ∧ c'.tx.next = c.tx.next ∧ c'.rx = c.rx ∧
      c'.tx.window ≠ 0#16 ∧ Resumes c c' := by
  obtain ⟨hrst, hsyn, hfin, hack⟩ := hflags
  have hs : c.Peered := .inl (by rw [h.state]; rfl)
  have hwf := hreach.wellFormed
  have hsize : seg.seqSize = 0#32 := SegmentMeta.seqSize_of_empty hsyn hfin hdata
  have hsettled : c.tx.unack = seg.ackn := h.acked.trans hackn.symm
  have hstores : c.Stores seg := by
    refine ⟨check_of_inOrder hwf (hwf.currWindow_of_empty h.unread h.unmarked) hseqn ?_,
      hrst, hsyn, hack, ?_, hseqn⟩
    · rw [hsize]
      exact Nat.zero_le _
    · rw [hackn, SeqN.inRangeInclusive_iff]
  have hpanics : ¬ c.ackPanics seg := by
    rintro (hbad | ⟨hbad, -⟩ | ⟨hbad, -⟩ | ⟨-, -, hbad | hbad⟩)
    · exact hbad.1 hsettled
    · have htx := hbad.1
      rw [h.state] at htx
      cases htx
    · cases h.state.symm.trans hbad.1
    · rw [storePanics, hfin] at hbad
      simp [hdata] at hbad
    · exact absurd (hfin.symm.trans hbad.1) (by decide)
  obtain ⟨c', hc⟩ := hwf.onSegment_of_stores hs hstores hpanics
  refine ⟨c', hc, ?_⟩
  have hunmarked := hreach.queue_unmarked h.state
  have hresumes : Resumes c c' := by
    have hevent := eventStep hwf hreach.waits (step_onSegment.mpr ⟨hc, rfl⟩)
    cases hevent with
    | resumed hr => exact hr
  obtain ⟨c₁, c₂, h₁, h₂, hstored⟩ := hstores.steps hs hc
  have hopened := windowed_opened (c := c) (by rw [h.state]; decide) seg
  cases h₁.acknowledged with
  | new hnew => exact absurd hsettled hnew
  | repeated =>
      rw [hopened] at h₂
      rcases onFinAcked_ok_iff.mp h₂ with ⟨_, _, _, hbad, -⟩ | ⟨-, rfl⟩
      · rw [windowed_connectionState, h.state] at hbad
        cases hbad
      rcases hstored with hbad | ⟨c₃, rx, hrx, h₃, hend⟩
      · exact absurd hseqn hbad
      rw [write_empty hdata hsyn hfin] at hrx
      obtain rfl := Except.ok.inj hrx
      rw [hfin, if_neg Bool.false_ne_true] at hend
      obtain rfl := Except.ok.inj hend
      have hnofin : (c.windowed seg).sendsFin = false := by
        rw [sendsFin, show (c.windowed seg).tx.tx.fin = false from hunmarked, Bool.and_false,
          Bool.false_and]
      have ha : AcksOnly (c.windowed seg) c₃ := sendAck_idle h.flushed hnofin h₃
      refine ⟨⟨ha.state.trans h.state, ?_, ha.bytes, ha.reTx.trans h.reTx, ?_, ?_⟩, ha.next, ha.rx,
        ?_, hresumes⟩
      · rw [ha.unack, ha.next]
        exact h.acked
      · rw [ha.rx]
        exact h.unread
      · rw [ha.rx]
        exact h.unmarked
      · rw [ha.window]
        exact fun hzero => hwindow (shown_of_closed hwf.congestion hzero)

end Stores

section Close

/-- The call sends the FIN when the window is open. -/
theorem AtRest.close (h : AtRest c) (hwindow : c.tx.window ≠ 0#16) (hno : c.noSenders)
    (hcookie : c.HasCookie) : ∃ c' r, c.callClose = .ok (c', r) ∧ FinOut c c' := by
  have hspace := spaceAvailable_ne_zero h.acked hwindow
  have hfin : c.marked.sendsFin = true := (marked_sendsFin_iff h.state h.flushed).mpr hspace
  obtain ⟨c₁, hsend⟩ := queued_sends h.state c.tx.tx.markFin
  have ha := sendAck_spec hsend
  have hst : c₁.connectionState = .established .fin .opened false false := by
    rw [ha.state, if_pos hfin, withQueue_connectionState, h.state]
    rfl
  have hdata : c.marked.outData = [] := by
    rw [outData, show c.marked.tx.tx.bytes = [] from h.flushed, List.take_nil]
  have hout : c.marked.outSegment = c.finSegment := by
    rw [outSegment, hfin, hdata]
    rfl
  have hsize := c.finSegment_seqSize
  have hne : c.finSegment.seqSize ≠ 0#32 := by
    rw [hsize]
    decide
  obtain ⟨c', r, hfinish⟩ : ∃ c' r, c₁.finishClose true = .ok (c', r) := by
    obtain ⟨⟨c', r⟩, hfinish⟩ := (finishClose_succeeds_iff (c := c₁) true).mpr <| by
      rw [hst]
      exact ⟨⟨Nat.le_refl _, Nat.le_refl _, by decide, by decide, fun _ => by decide⟩,
        .inr ((Resumes.sendAck hsend).hasCookie_iff.mpr hcookie)⟩
    exact ⟨c', r, hfinish⟩
  have hclosing : c' = (c₁.entered (.established .fin .opened true true)).suspend .bothClosed := by
    obtain ⟨-, rfl, -⟩ := finishClose_of_ok hfinish
    rw [closing, hst]
    rfl
  refine ⟨c', r, ?_, ?_⟩
  · have hidle := outputDone_iff.mp ⟨h.flushed, hno⟩
    unfold callClose
    split
    case h_7 hs =>
      obtain ⟨rfl, rfl, rfl, rfl⟩ := ConnectionState.established.inj (hs.symm.trans h.state)
      dsimp only
      rw [if_neg hidle]
      change (c.marked.sendAck >>= fun c => c.finishClose true) = _
      rw [hsend, Fallible.ok_bind, hfinish]
    all_goals
      rename_i hs
      cases hs.symm.trans h.state
  · subst hclosing
    constructor
    · exact entered_connectionState _ _
    · exact (entered_rx _ _).trans ha.rx
    · exact (congrArg TxBuffer.unack (entered_tx _ _)).trans (ha.unack.trans h.acked)
    · refine (congrArg TxBuffer.next (entered_tx _ _)).trans (ha.next.trans ?_)
      rw [hout, hsize]
      rfl
    · refine (congrArg (·.tx.bytes) (entered_tx _ _)).trans (ha.bytes.trans ?_)
      rw [show c.marked.tx.tx.bytes = [] from h.flushed, List.drop_nil]
    · refine (congrArg TxBuffer.reTx (entered_tx _ _)).trans (ha.reTx.trans ?_)
      rw [hout, if_neg hne, show c.marked.tx.reTx = [] from h.reTx, List.nil_append]
    · have hsent : ((c₁.entered (.established .fin .opened true true)).suspend
          .bothClosed).userData.sent = c₁.userData.sent := entered_sent _ _
      rw [hsent, ha.sent, hout, if_neg fun hskip : c.marked.skipsRepeat => hne (hout ▸ hskip.1)]
      exact List.mem_append_right _ (List.mem_singleton_self _)

end Close

section Segments

/-- The FIN of the peer is stored and acknowledged. -/
theorem FinOut.hears (h : FinOut c₀ c) (hrest : AtRest c₀) (hreach : Reachable c)
    (hseqn : seg.seqn = c₀.rx.ackd) (hackn : seg.ackn = c₀.tx.next) (hdata : seg.data = [])
    (hflags : seg.hasRst = false ∧ seg.hasSyn = false ∧ seg.hasFin = true ∧ seg.hasAck = true) :
    ∃ c', c.onSegment seg = .ok c' ∧ FinBoth c₀ c' := by
  obtain ⟨hrst, hsyn, hfin, hack⟩ := hflags
  have hs : c.Peered := .inl (by rw [h.state]; rfl)
  have hwf := hreach.wellFormed
  have hsize : seg.seqSize = 1#32 := by
    rw [SegmentMeta.seqSize_eq, hdata, hsyn, hfin]
    rfl
  have hne : seg.ackn ≠ c.tx.next := by
    rw [hackn, h.next]
    exact fun heq => absurd (BitVec.self_eq_add_right.mp heq) (by decide)
  have hwindow := hwf.currWindow_of_empty (by rw [h.rx]; exact hrest.unread)
    (by rw [h.rx]; exact hrest.unmarked)
  have hstores : c.Stores seg := by
    refine ⟨check_of_inOrder hwf hwindow (by rw [hseqn, h.rx]) ?_, hrst, hsyn, hack, ?_,
      by rw [hseqn, h.rx]⟩
    · rw [hsize]
      decide
    · rw [hackn, ← h.unack, SeqN.inRangeInclusive_iff, Circular.span_self]
      exact Nat.zero_le _
  have hpanics : ¬ c.ackPanics seg := by
    rintro (hbad | ⟨hbad, -⟩ | ⟨hbad, -⟩ | ⟨-, -, hbad | hbad⟩)
    · exact hbad.1 (h.unack.trans hackn.symm)
    · exact hne hbad.2
    · exact hne hbad.2
    · rw [storePanics, h.rx, hrest.unmarked] at hbad
      simp [hdata] at hbad
    · have hpending := hbad.2.1
      rw [h.state] at hpending
      cases hpending
  obtain ⟨c', hc⟩ := hwf.onSegment_of_stores hs hstores hpanics
  refine ⟨c', hc, ?_⟩
  obtain ⟨c₁, c₂, h₁, h₂, hstored⟩ := hstores.steps hs hc
  have hopened := windowed_opened (c := c) (by rw [h.state]; decide) seg
  cases h₁.acknowledged with
  | new hnew => exact absurd (h.unack.trans hackn.symm) hnew
  | repeated =>
      rw [hopened] at h₂
      rcases onFinAcked_ok_iff.mp h₂ with ⟨_, _, _, -, hbad, -⟩ | ⟨-, rfl⟩
      · exact absurd hbad hne
      rcases hstored with hbad | ⟨c₃, rx, hrx, h₃, hend⟩
      · exact absurd (by rw [hseqn, ← h.rx]; rfl) hbad
      obtain ⟨hbytes, hmark, hackd, -⟩ := RxBuffer.write_spec hrx
      rw [show (c.windowed seg).rx = c₀.rx from h.rx] at hbytes hmark hackd
      rw [hrest.unread, hdata] at hbytes
      rw [hfin, Bool.or_true] at hmark
      rw [hsize] at hackd
      obtain ⟨seqn, window, hnoted⟩ := ackNoted_of_reachable hreach hs
      generalize hd : ({ c.windowed seg with rx := rx } : Connection Addr Time) = d at h₃
      have hstate : d.connectionState = .established .fin .opened true true := by
        rw [← hd]
        exact h.state
      have ha := sendAck_idle (by rw [← hd]; exact h.bytes)
        (sendsFin_of_wroteFin (by rw [hstate]; rfl)) h₃
      have hclosed : rx.currWindow = 0#16 := by
        rw [RxBuffer.currWindow, if_pos hmark]
      have hbare : d.bareSegment d.rx.ackd .ack = c₀.lastAck := by
        rw [← hd, bareSegment, lastAck]
        change (⟨c.tx.next, rx.ackd, rx.currWindow, .ack, []⟩ : SegmentMeta) = _
        rw [h.next, hackd, hclosed]
      have hfresh : ¬ d.skipsRepeat := by
        rintro ⟨-, hlast⟩
        rw [← hd] at hlast
        change some (c.tx.next, rx.ackd, rx.currWindow) = c.tx.lastSent at hlast
        rw [hnoted, h.rx, hackd] at hlast
        have heq := (Prod.mk.inj (Prod.mk.inj (Option.some.inj hlast)).2).1
        exact absurd (BitVec.self_eq_add_right.mp heq.symm) (by decide)
      rw [hfin, if_pos rfl] at hend
      unfold onFin at hend
      rw [ha.state, hstate] at hend
      obtain ⟨-, -, rfl⟩ := setState_ok_iff.mp hend
      have hentered (d : Connection Addr Time) :
          d.stateSet (.established .fin .fin true true) =
            d.entered (.established .fin .fin true true) := rfl
      rw [hentered]
      have htx : d.tx = (c.windowed seg).tx := by rw [← hd]
      have hrx₃ : c₃.rx = rx := by
        rw [ha.rx, ← hd]
      constructor
      · exact entered_connectionState _ _
      · rw [entered_rx, triggerEvent_rx, hrx₃, hackd]
      · rw [entered_rx, triggerEvent_rx, hrx₃, hbytes]
        rfl
      · rw [entered_rx, triggerEvent_rx, hrx₃, hmark]
      · rw [entered_tx, triggerEvent_tx, ha.unack, htx]
        exact h.unack
      · rw [entered_tx, triggerEvent_tx, ha.next, htx]
        exact h.next
      · rw [entered_tx, triggerEvent_tx, ha.bytes]
      · rw [entered_tx, triggerEvent_tx, ha.reTx, htx]
        exact h.reTx
      · rw [entered_sent, triggerEvent_sent, ha.sent, if_neg hfresh, hbare]
        exact List.mem_append_right _ (List.mem_singleton_self _)

/-- The acknowledgement of our FIN closes the write side. -/
theorem FinBoth.hears (h : FinBoth c₀ c) (hreach : Reachable c)
    (hseqn : seg.seqn = c₀.rx.ackd + 1#32) (hackn : seg.ackn = c₀.tx.next + 1#32)
    (hdata : seg.data = []) (hflags : seg.hasRst = false ∧ seg.hasSyn = false ∧
      seg.hasFin = false ∧ seg.hasAck = true) :
    ∃ c', c.onSegment seg = .ok c' ∧ FinDone c' := by
  obtain ⟨hrst, hsyn, hfin, hack⟩ := hflags
  have hs : c.Peered := .inl (by rw [h.state]; rfl)
  have hwf := hreach.wellFormed
  have hsize : seg.seqSize = 0#32 := SegmentMeta.seqSize_of_empty hsyn hfin hdata
  have hnext : seg.ackn = c.tx.next := hackn.trans h.next.symm
  have hne : c.tx.unack ≠ seg.ackn := by
    rw [hackn, h.unack]
    exact fun heq => absurd (BitVec.self_eq_add_right.mp heq) (by decide)
  have hclosed : c.rx.currWindow = 0#16 := by
    rw [RxBuffer.currWindow, if_pos h.marked]
  have hinOrder : seg.seqn = c.rx.ackd := hseqn.trans h.ackd.symm
  have hstores : c.Stores seg := by
    refine ⟨?_, hrst, hsyn, hack, ?_, hinOrder⟩
    · rw [checkSegmentSeqOk_iff, if_pos hclosed]
      exact ⟨hsize, hinOrder⟩
    · rw [hnext, SeqN.inRangeInclusive_iff]
  have hleft : c.unackedAfter seg = [] := by
    rw [unackedAfter, if_neg hne, h.reTx, List.dropWhile_cons_of_pos, List.dropWhile_nil]
    rw [SegmentMeta.seqnAfter, finSegment_seqSize, hackn, SeqN.lte_iff]
    change Circular.span (c₀.tx.next + 1#32) _ < _
    rw [Circular.span_self]
    decide
  have hpanics : ¬ c.ackPanics seg := by
    rintro (hbad | ⟨-, hbad⟩ | ⟨hbad, -⟩ | ⟨-, -, hbad | hbad⟩)
    · have hover := hbad.2
      have hbound := c.congestionWindow.isLt
      rw [hdata, List.length_nil] at hover
      omega
    · exact hbad hleft
    · cases h.state.symm.trans hbad.1
    · rw [storePanics, hfin] at hbad
      simp [hdata] at hbad
    · exact absurd (hfin.symm.trans hbad.1) (by decide)
  obtain ⟨c', hc⟩ := hwf.onSegment_of_stores hs hstores hpanics
  refine ⟨c', hc, ?_⟩
  obtain ⟨c₁, c₂, h₁, h₂, hstored⟩ := hstores.steps hs hc
  obtain ⟨hst₁, hrx₁, hqueue₁, hnext₁, -⟩ := h₁.acknowledged.frame
  have hopened := windowed_opened (c := c) (by rw [h.state]; decide) seg
  rw [hopened, windowed_connectionState, h.state] at hst₁
  rcases onFinAcked_ok_iff.mp h₂ with ⟨r, cc, ca, hst, -, -, -, rfl⟩ | ⟨hbad, -⟩
  · obtain ⟨-, rfl, rfl, rfl⟩ := ConnectionState.established.inj (hst₁.symm.trans hst)
    have hentered (d : Connection Addr Time) :
        d.stateSet (.established .closed .fin true true) =
          d.entered (.established .closed .fin true true) := rfl
    rw [hentered] at hstored
    have hrx₂ : (c₁.entered (.established .closed .fin true true)).rx = c.rx :=
      (entered_rx _ _).trans hrx₁
    rcases hstored with hbad | ⟨c₃, rx, hrx, h₃, hend⟩
    · exact absurd (by rw [hrx₂, hinOrder]) hbad
    rw [hrx₂, write_empty hdata hsyn hfin] at hrx
    obtain rfl := Except.ok.inj hrx
    rw [hfin, if_neg Bool.false_ne_true] at hend
    obtain rfl := Except.ok.inj hend
    have ha := sendAck_spec h₃
    have hstate : c₃.connectionState = .established .closed .fin true true := by
      rw [ha.state, if_neg]
      · exact entered_connectionState _ _
      · rw [sendsFin_of_wroteFin (by rw [entered_connectionState]; rfl)]
        exact Bool.false_ne_true
    exact ⟨hstate, by rw [ha.rx]; exact h.unread, by rw [ha.rx]; exact h.marked⟩
  · refine absurd (hnext.trans hnext₁.symm) (hbad ?_)
    rw [hst₁]
    rfl

end Segments

section End

/-- The read at the end of the stream leads to TimeWait. -/
theorem FinDone.read (h : FinDone c) (hreach : Reachable c) :
    ∃ c', c.callRecv 1 = .ok (c', .ok []) ∧ c'.connectionState = .timeWait ∧
      ∃ deadline, c'.timers.timewait = some deadline := by
  have hwf := hreach.wellFormed
  obtain ⟨rx, data, hread⟩ := RxBuffer.readBytes_succeeds
    (hwf.readable (by rw [h.state]; rfl)) Nat.one_ne_zero fun _ => h.marked
  obtain ⟨hdata, -⟩ := RxBuffer.readBytes_spec hread
  rw [h.unread, List.take_nil] at hdata
  subst hdata
  have hv : c.connectionState.ValidTransition (.established .closed .closed true true) := by
    rw [h.state]
    exact ⟨Nat.le_refl _, by decide, Bool.le_refl _, Bool.le_refl _, fun _ => by decide⟩
  refine ⟨({ c with rx := rx } : Connection Addr Time).stateSet
    (.established .closed .closed true true), ?_, rfl, _, rfl⟩
  unfold callRecv
  split
  case h_7 hs =>
    obtain ⟨rfl, rfl, rfl, rfl⟩ := ConnectionState.established.inj (hs.symm.trans h.state)
    dsimp only
    rw [hread, Fallible.ok_bind]
    dsimp only
    rw [List.length_nil, if_pos Nat.one_pos,
      setState_eq_ok (c := { c with rx := rx }) hv (by decide)]
    rfl
  all_goals
    rename_i hs
    cases hs.symm.trans h.state

/-- A tick at the deadline closes the connection. -/
theorem closes_timeWait (hreach : Reachable c) (hst : c.connectionState = .timeWait)
    {deadline : Time} (hd : c.timers.timewait = some deadline) :
    ∃ c', c.onTimeTick deadline = .ok c' ∧ c'.connectionState = .closed := by
  have htick := onTimeTick_timeWait hreach.timersHold hst hd deadline
  rw [if_pos (le_refl _)] at htick
  exact ⟨_, htick, clear_connectionState _⟩

end End

end Connection

end TcpState
