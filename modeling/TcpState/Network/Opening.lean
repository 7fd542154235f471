import TcpState.Connection.Acceptance
import TcpState.Connection.Congestion
import TcpState.Connection.Diagram
import TcpState.Connection.Handshake
import TcpState.Connection.Idling
import TcpState.Network.Moves

/-!
# The three moves that open a connection

Each segment of the handshake does what it is for: a SYN is answered, the reply
to it opens the client, and the first acknowledgement opens the server. The
congestion window is still at its initial value then, so nothing overflows.
-/

namespace TcpState

namespace ConnectionState

/-- A segment without RST, SYN and FIN takes an open connection nowhere unless a
FIN of its own is waiting. -/
theorem Path.of_fullyOpen {Time : Type} {seg : SegmentMeta} {s : ConnectionState}
    (h : Path false (.onSegment seg : Op Time) .fullyOpen s) (hplain : seg.Plain)
    (hfin : seg.hasFin = false) : s = .fullyOpen := by
  rcases h.cases_head with heq | ⟨_, harrow, -⟩
  · exact heq.symm
  · cases harrow with
    | finSent hop => rcases hop with hop | hop | ⟨hop, -⟩ <;> cases hop
    | fin _ hbad => exact absurd (hfin.symm.trans hbad) (by decide)
    | rst hrst => exact absurd (hplain.1.symm.trans hrst) (by decide)
    | badSyn _ hsyn => exact absurd (hplain.2.symm.trans hsyn) (by decide)
    | cancel hop => rcases hop with hop | hop <;> cases hop

end ConnectionState

namespace Connection

variable {Addr Time : Type} {c c' : Connection Addr Time} {seg : SegmentMeta} {op : Op Time}
  {out : Output}

/-- A connection that has been open stays so until it is cleared. -/
theorem Moves.synced_of_live (h : Moves c op c') (hs : c.connectionState.synced = true)
    (hlive : c'.connectionState.idle = false) : c'.connectionState.synced = true := by
  cases h with
  | same heq => rw [heq, hs]
  | opened _ hs' => exact hs'
  | cleared hidle => exact absurd (hlive.symm.trans hidle) (by decide)
  | answered _ hst => rw [hst] at hs; cases hs

/-- With everything acknowledged an open window has room. -/
theorem spaceAvailable_ne_zero (hsettled : c.tx.unack = c.tx.next) (hfree : c.tx.window ≠ 0#16) :
    c.tx.spaceAvailable ≠ 0#32 := by
  rw [spaceAvailable_of_settled hsettled]
  intro hzero
  have hnat := congrArg BitVec.toNat hzero
  rw [BitVec.toNat_setWidth, Nat.mod_eq_of_lt (Nat.lt_trans c.tx.window.isLt (by decide))] at hnat
  exact hfree (BitVec.eq_of_toNat_eq hnat)

/-- An empty buffer without the FIN offers the whole window. -/
theorem WellFormed.currWindow_of_empty (hwf : WellFormed c) (hempty : c.rx.bytes = [])
    (hmark : c.rx.buffer.fin = false) : c.rx.currWindow ≠ 0#16 := by
  intro hzero
  have hroom := c.rx.currWindow_toNat
  rw [hzero, hmark, hempty, hwf.rxWindow] at hroom
  exact absurd hroom (by decide)

/-- A segment next in order that takes no more than the full window passes the
acceptance test of an open window. -/
theorem check_of_inOrder (hwf : WellFormed c) (hopen : c.rx.currWindow ≠ 0#16)
    (hseqn : seg.seqn = c.rx.ackd) (hsize : seg.seqSize.toNat ≤ 4096) :
    c.checkSegmentSeqOk seg = true := by
  have hwindow : c.rx.window ≠ 0#16 := by
    rw [hwf.rxWindow]
    decide
  have hfull : c.rx.window.toNat = 4096 := by
    rw [hwf.rxWindow]
    rfl
  rw [checkSegmentSeqOk_iff, if_neg hopen, RxBuffer.inWindow_iff hwindow,
    RxBuffer.inWindow_iff hwindow, hseqn, Circular.span_self, hfull]
  refine ⟨by decide, or_iff_not_imp_left.mpr fun hne => ?_⟩
  have hpos : seg.seqSize.toNat ≠ 0 := fun hz => hne (BitVec.eq_of_toNat_eq hz)
  have hlast : seg.lastSeqn = c.rx.ackd + BitVec.ofNat 32 (seg.seqSize.toNat - 1) := by
    rw [SegmentMeta.lastSeqn, SegmentMeta.seqnAfter, hseqn, BitVec.sub_eq_add_neg,
      BitVec.add_assoc, ← BitVec.sub_eq_add_neg]
    congr 1
    apply BitVec.eq_of_toNat_eq
    have := seg.seqSize.isLt
    rw [BitVec.toNat_sub, BitVec.toNat_ofNat, BitVec.toNat_ofNat]
    omega
  rw [hlast, Circular.span_add_ofNat _ (by omega)]
  omega

/-- A segment that was stored is not acceptable again. -/
theorem check_of_stored (hwf : WellFormed c) (hsize : seg.seqSize ≠ 0#32)
    (hshort : seg.seqSize.toNat ≤ 2 ^ 31) (hstop : seg.seqnAfter = c.rx.ackd) :
    c.checkSegmentSeqOk seg = false := by
  have hwindow : c.rx.window ≠ 0#16 := by
    rw [hwf.rxWindow]
    decide
  have hfull : c.rx.window.toNat = 4096 := by
    rw [hwf.rxWindow]
    rfl
  have hpos : seg.seqSize.toNat ≠ 0 := fun hz => hsize (BitVec.eq_of_toNat_eq hz)
  have hback : Circular.span c.rx.ackd seg.seqn = 2 ^ 32 - seg.seqSize.toNat := by
    have hspan := Circular.span_add_back seg.seqn (Nat.pos_of_ne_zero hpos) seg.seqSize.isLt
    rw [BitVec.ofNat_toNat, BitVec.setWidth_eq, Nat.sub_zero, BitVec.add_zero] at hspan
    rw [← hstop]
    exact hspan
  rw [Bool.eq_false_iff, ne_eq, checkSegmentSeqOk_iff]
  split
  · exact fun h => hsize h.1
  · rintro ⟨hfirst, -⟩
    rw [RxBuffer.inWindow_iff hwindow, hback, hfull] at hfirst
    omega

variable [UserTime Time]

/-- The acknowledgement that updates the window of a connection in SynReceived
opens it. -/
theorem synced_of_updates (hst : c.connectionState = .synReceived) (hup : c.UpdatesWindow seg)
    (hc : c.onSegment seg = .ok c') : c'.connectionState.synced = true := by
  obtain ⟨hpeer, hcheck, hrst, hsyn, hack, hrange, -⟩ := hup
  rw [onSegment_of_peered hpeer] at hc
  cases synchronizedStep_iff.mp hc with
  | dropped hno | rejected hno => exact absurd (hno.symm.trans hcheck) (by decide)
  | reset _ hbad => exact absurd (hrst.symm.trans hbad) (by decide)
  | syn _ _ hbad => exact absurd (hsyn.symm.trans hbad) (by decide)
  | accepted _ _ _ hacc =>
      have hst' : (c.windowed seg).connectionState = .synReceived := hst
      exact ConnectionState.synced_of_isEstablished
        (onAccepted_isEstablished hst' (.inr ⟨hack, hrange⟩) hacc)

/-- An open connection has no FIN in its queue. -/
theorem Reachable.queue_unmarked (h : Reachable c) (hst : c.connectionState = .fullyOpen) :
    c.tx.tx.fin = false := by
  rw [Bool.eq_false_iff]
  intro hmark
  exact h.marksActive hmark (by rw [hst]; rfl) (by rw [hst]; rfl)

/-- Before a connection is open its congestion window has not grown. -/
theorem Reachable.congestion_early (h : Reachable c) (hs : c.connectionState.synced = false) :
    c.congestionWindow = initialWindowSize := by
  refine Transition.ReachableUnder.invariant
    (P := fun c => c.connectionState.synced = false → c.congestionWindow = initialWindowSize)
    (fun c hinit _ => ?_) (fun c op c' hreach ih _ hstep hs => ?_) h hs
  · rcases hinit with ⟨remote, userData, rfl⟩ | ⟨l, addr, userData, hl⟩
    · rfl
    · rw [acceptor_eq] at hl
      obtain rfl := Except.ok.inj hl
      rfl
  obtain ⟨out, hc⟩ := hstep
  have effect := (Reachable.wellFormed hreach).txEffect hc
  cases congestion_of_step hc with
  | finished _ _ _ hcw => exact hcw
  | kept _ hkept =>
      rcases hkept with ⟨hcw, hidle⟩ | ⟨-, hcw⟩
      · rw [hcw]
        refine ih (Bool.eq_false_iff.mpr fun hsync => ?_)
        have hlive : c'.connectionState.idle = false := by
          rw [Bool.eq_false_iff]
          intro hbad
          have hwas := ConnectionState.not_idle_of_synced hsync
          exact absurd (hwas.symm.trans (hidle hbad)) (by decide)
        by_cases hop : op = .callConnect
        · subst hop
          cases effect with
          | kept _ _ hstate =>
              rcases hstate with heq | ⟨-, hsync', -⟩
              · rw [heq, hsync] at hs
                cases hs
              · rw [hsync'] at hs
                cases hs
          | cleared _ hbad => exact absurd (hlive.symm.trans hbad) (by decide)
          | connecting hst => rcases hst with hst | hst <;> rw [hst] at hsync <;> cases hsync
          | marked hop => rcases hop with hop | hop <;> cases hop
        · have hsync' := (effect.moves hop).synced_of_live hsync hlive
          exact absurd (hs.symm.trans hsync') (by decide)
      · exact hcw
  | @updated seg hop hup _ hlive =>
      subst hop
      have hsync : c'.connectionState.synced = true := by
        rcases hup.1 with hsync | hst
        · exact (effect.moves nofun).synced_of_live hsync hlive
        · exact synced_of_updates hst hup (step_onSegment.mp hc).1
      exact absurd (hs.symm.trans hsync) (by decide)

/-- A SYN is answered. -/
theorem answers_syn (hst : c.connectionState = .listen) (hrst : seg.hasRst = false)
    (hack : seg.hasAck = false) (hsyn : seg.hasSyn = true) (hdata : seg.data = []) :
    ∃ c', c.onSegment seg = .ok c' ∧ c'.connectionState = .synReceived := by
  obtain ⟨c', hc⟩ : Fallible.Succeeds (c.onSegmentListen seg) :=
    (onSegmentListen_succeeds_iff hst).mpr fun hbad => hbad.2.2.2 hdata
  refine ⟨c', by rw [onSegment, hst]; exact hc, ?_⟩
  cases listened_of_ok hc with
  | ignored h =>
      rcases h with h | ⟨-, h⟩
      · exact absurd (hrst.symm.trans h) (by decide)
      · exact absurd (hsyn.symm.trans h) (by decide)
  | refused _ h => exact absurd (hack.symm.trans h) (by decide)
  | answered _ _ _ _ ha => exact ha.state

/-- The reply to our SYN opens the connection. -/
theorem opens_synAck (hwf : WellFormed c) (hst : c.connectionState = .synSent)
    (hrange : seg.ackn.inRangeInclusive c.tx.unack c.tx.next = true) (hrst : seg.hasRst = false)
    (hack : seg.hasAck = true) (hsyn : seg.hasSyn = true)
    (hackn : seg.ackn = c.tx.initSeqn + 1#32) :
    ∃ c', c.onSegment seg = .ok c' ∧ c'.connectionState = .fullyOpen := by
  have hsync : (c.synAcked seg).entered .fullyOpen |>.connectionState.synced := by
    rw [entered_connectionState]
    rfl
  obtain ⟨c', hc⟩ := (hwf.synAcked_opened hst seg).sendAck_succeeds hsync
  have hrst' : seg.flags.contains .rst = false := hrst
  have hack' : seg.flags.contains .ack = true := hack
  have hflags : seg.flags.contains (.syn ||| .ack) = true := by
    rw [SegmentFlags.contains_union, Bool.and_eq_true]
    exact ⟨hsyn, hack⟩
  have hopen : (c.synAcked seg).connectionState.ValidTransition .fullyOpen := by
    rw [show (c.synAcked seg).connectionState = _ from hst]
    trivial
  refine ⟨c', ?_, ?_⟩
  · rw [onSegment, hst]
    change c.onSegmentSynSent seg = .ok c'
    rw [onSegmentSynSent, if_neg (by rw [hack', hrange]; decide), if_neg (by rw [hrst']; decide),
      if_pos hflags]
    change (if (c.synAcked seg).tx.unack = (c.synAcked seg).tx.initSeqn + 1#32 then
        ((c.synAcked seg).setState .fullyOpen >>= fun c => c.sendAck)
      else return c.synAcked seg) = .ok c'
    have hunack : (c.synAcked seg).tx.unack = (c.synAcked seg).tx.initSeqn + 1#32 := hackn
    rw [if_pos hunack, setState_eq_ok hopen (by decide), stateSet_fullyOpen, Fallible.ok_bind]
    exact hc
  · have hmark : ((c.synAcked seg).entered .fullyOpen).tx.tx.fin = false := by
      rw [entered_tx]
      exact (hwf.early (by rw [hst]; rfl)).1
    rw [(sendAck_spec hc).state, if_neg, entered_connectionState]
    rw [sendsFin_iff]
    rintro ⟨-, hfin, -⟩
    exact absurd (hmark.symm.trans hfin) (by decide)

/-- A segment that can be stored is taken unless it is one of those that panic. -/
theorem WellFormed.onSegment_of_stores (hwf : WellFormed c) (hs : Peered c)
    (hstores : c.Stores seg) (hpanics : ¬ c.ackPanics seg) : ∃ c', c.onSegment seg = .ok c' := by
  obtain ⟨c', hc⟩ : Fallible.Succeeds (c.onSegmentSynchronized seg) := by
    rw [hwf.onSegmentSynchronized_succeeds_iff hs seg]
    simp [hstores.check, hstores.noRst, hstores.noSyn, hstores.ack, hstores.range, hpanics]
  exact ⟨c', by rw [onSegment_of_peered hs, hc]⟩

/-- The first acknowledgement opens a connection that has answered a SYN. -/
theorem Reachable.opens_ack (h : Reachable c) (hst : c.connectionState = .synReceived)
    (hstores : c.Stores seg) (hfin : seg.hasFin = false) (hlen : seg.data.length ≤ maxSegmentSize) :
    ∃ c', c.onSegment seg = .ok c' ∧ c'.connectionState = .fullyOpen := by
  have hs : c.Peered := .inr hst
  have hwf := h.wellFormed
  have hover : ¬ c.ackOverflows seg := by
    rintro ⟨-, hbad⟩
    rw [h.congestion_early (by rw [hst]; rfl), show initialWindowSize.toNat = 4096 from rfl] at hbad
    rw [maxSegmentSize] at hlen
    omega
  have hpanics : ¬ c.ackPanics seg := by
    rintro (hbad | ⟨⟨htx, -⟩, -⟩ | ⟨⟨hclosing, -⟩, -⟩ | ⟨-, -, hbad | ⟨hbad, -⟩⟩)
    · exact hover hbad
    · rw [hst] at htx
      cases htx
    · rw [hst] at hclosing
      cases hclosing
    · rcases hbad with ⟨hbad, -⟩ | ⟨hbad, -⟩
      · exact absurd ((hwf.early (by rw [hst]; rfl)).2.2.symm.trans hbad) (by decide)
      · exact absurd (hfin.symm.trans hbad) (by decide)
    · exact absurd (hfin.symm.trans hbad) (by decide)
  obtain ⟨c', hc₁⟩ := hwf.onSegment_of_stores hs hstores hpanics
  have hc := hc₁
  rw [onSegment_of_peered hs] at hc
  refine ⟨c', hc₁, ?_⟩
  have hest : c'.connectionState.isEstablished = true := by
    cases synchronizedStep_iff.mp hc with
    | dropped hno | rejected hno => exact absurd (hno.symm.trans hstores.check) (by decide)
    | reset _ hbad => exact absurd (hstores.noRst.symm.trans hbad) (by decide)
    | syn _ _ hbad => exact absurd (hstores.noSyn.symm.trans hbad) (by decide)
    | accepted _ _ _ hacc =>
        have hst' : (c.windowed seg).connectionState = .synReceived := hst
        exact onAccepted_isEstablished hst' (.inr ⟨hstores.ack, hstores.range⟩) hacc
  have hwaits : c.finWaits = false := by
    rw [finWaits, (hwf.early (by rw [hst]; rfl)).1, Bool.false_and]
  have hpath := path_onSegment hwf h.marksActive hc₁
  rw [hwaits, hst] at hpath
  -- The acknowledgement is the one arrow from SynReceived to an open state.
  rcases hpath.cases_head with heq | ⟨_, harrow, hrest⟩
  · rw [← heq] at hest
    cases hest
  · cases harrow with
    | ack hplain => exact ConnectionState.Path.of_fullyOpen hrest hplain hfin
    | bareFin hbare => exact absurd (hstores.ack.symm.trans hbare.2.2.1) (by decide)
    | relisten hrst => exact absurd (hstores.noRst.symm.trans hrst) (by decide)
    | cancel hop => rcases hop with hop | hop <;> cases hop
    | badSyn _ hsyn => exact absurd (hstores.noSyn.symm.trans hsyn) (by decide)

end Connection

end TcpState
