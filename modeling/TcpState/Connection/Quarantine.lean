import TcpState.Connection.Answers
import TcpState.Connection.Resets
import TcpState.Connection.TimersHold

/-!
# How long TimeWait lasts

TimeWait is entered with a deadline, two segment lifetimes after a reading of
the clock. Until a tick reaches the deadline only an abort ends the wait: every
segment is dropped or answered with one and the same acknowledgement, and
nothing moves the deadline.
-/

namespace TcpState

namespace Connection

open ConnectionState Fallible

variable {Addr Time : Type}

section Wait

/-- The connection still waits as it did before, and has put nothing but copies
of one acknowledgement on the wire since. -/
structure Lingers (c c' : Connection Addr Time) : Prop where
  state : c'.connectionState = .timeWait
  timers : c'.timers = c.timers
  rx : c'.rx = c.rx
  next : c'.tx.next = c.tx.next
  sent : ∃ n, c'.userData.sent =
    c.userData.sent ++ List.replicate n (c.bareSegment c.rx.ackd .ack)

variable {c c₁ c' : Connection Addr Time} {seg : SegmentMeta}

namespace Lingers

theorem of_eq (hstate : c'.connectionState = .timeWait) (htimers : c'.timers = c.timers)
    (hrx : c'.rx = c.rx) (hnext : c'.tx.next = c.tx.next)
    (hsent : c'.userData.sent = c.userData.sent) : Lingers c c' where
  state := hstate
  timers := htimers
  rx := hrx
  next := hnext
  sent := ⟨0, by rw [hsent, List.replicate_zero, List.append_nil]⟩

theorem refl (hst : c.connectionState = .timeWait) : Lingers c c := of_eq hst rfl rfl rfl rfl

theorem trans (h₁ : Lingers c c₁) (h₂ : Lingers c₁ c') : Lingers c c' where
  state := h₂.state
  timers := h₂.timers.trans h₁.timers
  rx := h₂.rx.trans h₁.rx
  next := h₂.next.trans h₁.next
  sent := by
    obtain ⟨n, hn⟩ := h₁.sent
    obtain ⟨m, hm⟩ := h₂.sent
    have hsame : c₁.bareSegment c₁.rx.ackd .ack = c.bareSegment c.rx.ackd .ack := by
      unfold bareSegment
      rw [h₁.rx, h₁.next]
    refine ⟨n + m, ?_⟩
    rw [hm, hn, hsame, List.append_assoc, List.replicate_append_replicate]

/-- One more copy of the acknowledgement. -/
theorem answered (hst : c.connectionState = .timeWait) :
    Lingers c (c.send (c.bareSegment c.rx.ackd .ack)) where
  state := hst
  timers := rfl
  rx := rfl
  next := rfl
  sent := ⟨1, send_sent c _⟩

end Lingers

/-- A segment of no size is empty, unless its length wraps around. -/
theorem empty_of_seqSize (hlen : seg.data.length + 2 < 2 ^ 32) (hsize : seg.seqSize = 0#32) :
    seg.data = [] ∧ seg.hasSyn = false ∧ seg.hasFin = false := by
  have htotal : seg.data.length + seg.hasSyn.toNat + seg.hasFin.toNat = 0 := by
    rw [SegmentMeta.seqSize_eq] at hsize
    have hmod := congrArg BitVec.toNat hsize
    have hsyn := Bool.toNat_le seg.hasSyn
    have hfin := Bool.toNat_le seg.hasFin
    rw [BitVec.toNat_ofNat, Nat.mod_eq_of_lt (by omega)] at hmod
    exact hmod
  refine ⟨List.length_eq_zero_iff.mp (by omega), ?_, ?_⟩
  · exact Bool.toNat_eq_zero.mp (by omega)
  · exact Bool.toNat_eq_zero.mp (by omega)

/-- In TimeWait only an empty segment at the acknowledged number is acceptable. -/
theorem WellFormed.empty_of_check (hwf : WellFormed c) (hst : c.connectionState = .timeWait)
    (hlen : seg.data.length + 2 < 2 ^ 32) (hcheck : c.checkSegmentSeqOk seg = true) :
    (seg.data = [] ∧ seg.hasSyn = false ∧ seg.hasFin = false) ∧ seg.seqn = c.rx.ackd := by
  have hmark : c.rx.buffer.fin = true := hwf.readClosed (by rw [hst]; rfl)
  have hclosed : c.rx.currWindow = 0#16 := by
    rw [RxBuffer.currWindow, if_pos hmark]
  rw [checkSegmentSeqOk_iff, if_pos hclosed] at hcheck
  exact ⟨empty_of_seqSize hlen hcheck.1, hcheck.2⟩

theorem sendsFin_of_wroteFin (h : c.connectionState.wroteFin = true) : c.sendsFin = false := by
  rw [sendsFin, h]
  exact Bool.and_false _

variable [UserTime Time]

/-- A `send_ack` with nothing to send: an acknowledgement, unless it repeats the last one. -/
structure AcksOnly (c c' : Connection Addr Time) : Prop where
  state : c'.connectionState = c.connectionState
  timers : c'.timers = c.timers
  rx : c'.rx = c.rx
  bytes : c'.tx.tx.bytes = []
  unack : c'.tx.unack = c.tx.unack
  next : c'.tx.next = c.tx.next
  window : c'.tx.window = c.tx.window
  reTx : c'.tx.reTx = c.tx.reTx
  sent : c'.userData.sent = c.userData.sent ++
    if c.skipsRepeat then [] else [c.bareSegment c.rx.ackd .ack]

/-- Nothing is queued and no FIN is to be sent. -/
theorem sendAck_idle (hnil : c.tx.tx.bytes = []) (hfin : c.sendsFin = false)
    (hc : c.sendAck = .ok c') : AcksOnly c c' := by
  have a := sendAck_spec hc
  have hdata : c.outData = [] := by
    rw [outData, hnil, List.take_nil]
  have hzero : c.outSegment.seqSize = 0#32 := c.outSegment_seqSize_eq_zero.mpr ⟨hdata, hfin⟩
  have hbare : c.outSegment = c.bareSegment c.rx.ackd .ack := by
    unfold outSegment bareSegment
    rw [hfin, hdata]
    rfl
  constructor
  · rw [a.state, hfin, if_neg Bool.false_ne_true]
  · obtain ⟨htimewait, husertime, hre⟩ := sendAck_timers hc
    rw [if_pos hzero] at hre
    exact Timers.eq_of_fields hre htimewait husertime
  · exact a.rx
  · rw [a.bytes, hnil, List.drop_nil]
  · exact a.unack
  · rw [a.next, hzero, BitVec.add_zero]
  · exact a.window
  · rw [a.reTx, if_pos hzero, List.append_nil]
  · rw [a.sent, hbare]

/-- In TimeWait `send_ack` acknowledges, or repeats nothing. -/
theorem Lingers.sendAck (hst : c.connectionState = .timeWait) (hnil : c.tx.tx.bytes = [])
    (hc : c.sendAck = .ok c') : Lingers c c' := by
  have a := sendAck_idle hnil (sendsFin_of_wroteFin (by rw [hst]; rfl)) hc
  refine ⟨a.state.trans hst, a.timers, a.rx, a.next, ?_⟩
  rw [a.sent]
  split
  · exact ⟨0, rfl⟩
  · exact ⟨1, rfl⟩

/-- In TimeWait nothing waits for an acknowledgement any more. -/
theorem Lingers.takes (hold : TimersHold c) (hst : c.connectionState = .timeWait)
    (hc : c.Takes seg c') : Lingers c c' ∧ c'.tx.tx = c.tx.tx := by
  obtain ⟨hstate, hrx, hqueue, hnext, -, -, -, hsent⟩ := hc.acknowledged.frame
  have hopened : c.opened = c := by
    rw [opened, if_neg (by rw [hst]; decide)]
  refine ⟨of_eq (by rw [hstate, hopened, hst]) ?_ hrx hnext hsent, hqueue⟩
  unfold Takes at hc
  rw [hopened] at hc
  split at hc
  · have hnil : c'.tx.reTx = [] := by
      rw [(onNewAck_spec hc).tx, hold.closed (by rw [hst]; rfl), List.dropWhile_nil]
    obtain ⟨htimewait, husertime, hre⟩ := onNewAck_timers hc
    rw [if_pos hnil, ← hold.waiting hst] at hre
    exact Timers.eq_of_fields hre htimewait husertime
  · obtain rfl := Except.ok.inj hc
    rfl

omit [UserTime Time] in
/-- Storing an empty segment keeps the buffer. -/
theorem write_empty {rx : RxBuffer} (hdata : seg.data = []) (hsyn : seg.hasSyn = false)
    (hfin : seg.hasFin = false) : rx.write seg = .ok rx := by
  have hfin' : seg.flags.contains .fin = false := hfin
  rw [RxBuffer.write, SegmentMeta.seqSize_of_empty hsyn hfin hdata, BitVec.add_zero, hfin', hdata]
  rfl

theorem timeWait_of_onFinAcked {ackn : SeqN} (hst : c.connectionState = .timeWait)
    (hc : c.onFinAcked ackn = .ok c') : c' = c := by
  rcases onFinAcked_ok_iff.mp hc with ⟨r, cc, ca, hest, -⟩ | ⟨-, rfl⟩
  · rw [hst] at hest
    cases hest
  · rfl

/-- A segment in TimeWait. -/
theorem Lingers.onSegment (hwf : WellFormed c) (hold : TimersHold c)
    (hst : c.connectionState = .timeWait) (hlen : seg.data.length + 2 < 2 ^ 32)
    (hc : c.onSegment seg = .ok c') : Lingers c c' := by
  have hs : c.Peered := .inl (by rw [hst]; rfl)
  rw [onSegment_of_peered hs] at hc
  cases synchronizedStep_iff.mp hc with
  | dropped => exact .refl hst
  | rejected => exact .answered hst
  | reset _ _ hrst =>
      rw [onRst_timeWait (c := c.windowed seg) hst] at hrst
      cases hrst
  | syn hcheck _ hsyn =>
      exact absurd (hsyn.symm.trans (hwf.empty_of_check hst hlen hcheck).1.2.1) (by decide)
  | accepted hcheck _ _ hacc =>
      obtain ⟨⟨hdata, hsyn, hnofin⟩, hseq₀⟩ := hwf.empty_of_check hst hlen hcheck
      have hwindow : Lingers c (c.windowed seg) := .of_eq hst rfl rfl rfl rfl
      have hold₀ : TimersHold (c.windowed seg) := hold.congr rfl rfl rfl
      cases acceptedStep_of_ok hacc with
      | unacknowledged _ hfin =>
          rw [hnofin, if_neg Bool.false_ne_true] at hfin
          obtain rfl := Except.ok.inj hfin
          exact hwindow
      | invalid => exact hwindow
      | @discarded c₁ c₂ _ _ h₁ h₂ hseq =>
          obtain ⟨htaken, -⟩ := takes hold₀ hst h₁
          obtain rfl := timeWait_of_onFinAcked htaken.state h₂
          exact absurd (hseq₀.trans (congrArg RxBuffer.ackd htaken.rx.symm)) hseq
      | @stored c₁ c₂ c₃ _ rx _ _ h₁ h₂ hseq hrx h₃ hfin =>
          obtain ⟨htaken, hqueue⟩ := takes hold₀ hst h₁
          obtain rfl := timeWait_of_onFinAcked htaken.state h₂
          rw [hnofin, if_neg Bool.false_ne_true] at hfin
          obtain rfl := Except.ok.inj hfin
          have hkept : rx = c₂.rx := Except.ok.inj (hrx.symm.trans (write_empty hdata hsyn hnofin))
          have hstored : Lingers c₂ { c₂ with rx := rx } :=
            .of_eq htaken.state rfl hkept rfl rfl
          have hnil : c₂.tx.tx.bytes = [] := by
            rw [hqueue]
            exact hwf.marked (hwf.wroteFin (by rw [hst]; rfl))
          exact ((hwindow.trans htaken).trans hstored).trans (.sendAck htaken.state hnil h₃)

/-- A tick in TimeWait ends it at the deadline, and does nothing before. -/
theorem onTimeTick_timeWait (hold : TimersHold c) (hst : c.connectionState = .timeWait)
    {deadline : Time} (hd : c.timers.timewait = some deadline) (time : Time) :
    c.onTimeTick time = .ok (if deadline ≤ time then
      { c with timers := { c.timers with timewait := none } }.clear else c) := by
  have hre : expired c.timers.reTx time = false := by
    rw [hold.waiting hst]
    rfl
  have huser : c.timers.usertime = none := hold.usertime
  have hwait : expired c.timers.timewait time = decide (deadline ≤ time) := by
    rw [hd]
    rfl
  rw [onTimeTick, hre, if_neg Bool.false_ne_true, pure_bind, hwait]
  by_cases hle : deadline ≤ time
  · have hassert : (assert (c.connectionState = .timeWait) : Res Unit) = .ok () := by
      rw [assert, ensure, if_pos hst]
    rw [decide_eq_true hle, if_pos rfl, if_pos hle, onTimerTimewait, hassert]
    rfl
  · rw [decide_eq_false hle, if_neg Bool.false_ne_true, if_neg hle, pure_bind, huser]
    rfl

/-- What may happen before the deadline: no abort, no tick that reaches it, and
no segment whose length wraps around. -/
def BeforeDeadline (deadline : Time) (_ : Connection Addr Time) : Op Time → Prop
  | .callAbort => False
  | .onTimeTick time => ¬ deadline ≤ time
  | .onSegment seg => seg.data.length + 2 < 2 ^ 32
  | _ => True

/-- One operation before the deadline. -/
theorem Lingers.of_step {op : Op Time} {out : Output} (h : Reachable c)
    (hst : c.connectionState = .timeWait) {deadline : Time}
    (hd : c.timers.timewait = some deadline) (hallowed : c.BeforeDeadline deadline op)
    (hc : c.step op = .ok (c', out)) : Lingers c c' := by
  cases opStep_of_ok hc with
  | onSegment hc =>
      exact .onSegment (Reachable.wellFormed h) (Reachable.timersHold h) hst hallowed hc
  | onTimeTick hc =>
      rw [onTimeTick_timeWait (Reachable.timersHold h) hst hd _, if_neg hallowed] at hc
      obtain rfl := Except.ok.inj hc
      exact .refl hst
  | callAbort => exact hallowed.elim
  | setOptions => exact .of_eq hst rfl rfl rfl rfl
  | callConnect hc =>
      cases connectStep_of_ok hc with
      | refused => exact .refl hst
      | connecting hs => rcases hs with hs | hs <;> rw [hst] at hs <;> cases hs
  | callSend hc =>
      cases (sendStep_of_ok hc).2 with
      | refused => exact .refl hst
      | delayed hs | queued hs | sent hs =>
          rw [hst] at hs
          cases hs
  | callRecv hc =>
      cases recvStep_of_ok hc with
      | refused => exact .refl hst
      | ended hs | early hs | waiting hs | read hs | full hs | drained hs =>
          rw [hst] at hs
          cases hs
  | callShutdown hc =>
      cases shutdownStep_of_ok hc with
      | refused => exact .refl hst
      | cleared hs => rcases hs with hs | hs <;> rw [hst] at hs <;> cases hs
      | delayed hs | early hs | active hs | passive hs =>
          rw [hst] at hs
          cases hs
  | callClose hc =>
      cases closeStep_of_ok hc with
      | refused => exact .refl hst
      | cleared hs => rcases hs with hs | hs <;> rw [hst] at hs <;> cases hs
      | delayed hs | early hs | opened hs | ended hs =>
          rw [hst] at hs
          cases hs

end Wait

section Entry

variable [UserTime Time] {c c₁ c₂ c' : Connection Addr Time} {seg : SegmentMeta}

/-- The readings of the clock that are still to come are a rest of what they
were. -/
def ClockOnward (c c' : Connection Addr Time) : Prop :=
  ∃ k, c'.userData.clock = fun n => c.userData.clock (n + k)

/-- Two segment lifetimes after a reading of the clock. -/
def waitEnd (c : Connection Addr Time) (n : Nat) : Time :=
  UserTime.add (c.userData.clock n) (maxSegmentLifetime * 2)

/-- The TimeWait timer is armed. -/
def ArmsTimeWait (c c' : Connection Addr Time) : Prop :=
  ∃ n, c'.timers.timewait = some (c.waitEnd n)

omit [UserTime Time] in
theorem triggerEvent_clock (c : Connection Addr Time) (f : WaitUntil → Bool)
    (r : Except Error Unit) : (c.triggerEvent f r).userData.clock = c.userData.clock := by
  unfold triggerEvent
  generalize c.events.suspended.filter (fun p => f p.1) = ws
  induction ws generalizing c with
  | nil => rfl
  | cons w ws ih => exact ih { c with userData := c.userData.event w.2 r }

omit [UserTime Time] in
theorem clearReTxRange_clock (c : Connection Addr Time) (stop : SeqN) :
    (c.clearReTxRange stop).userData.clock = c.userData.clock := by
  simp only [clearReTxRange, triggerEvent_clock]

omit [UserTime Time] in
theorem entered_clock (c : Connection Addr Time) (s : ConnectionState) :
    (c.entered s).userData.clock = c.userData.clock := by
  cases s <;> simp only [entered] <;> repeat' split
  all_goals simp only [triggerEvent_clock]

theorem ArmsTimeWait.from_clock (h : ArmsTimeWait c₁ c') (hclock : ClockOnward c c₁) :
    ArmsTimeWait c c' := by
  obtain ⟨n, hn⟩ := h
  obtain ⟨k, hk⟩ := hclock
  exact ⟨n + k, by rw [hn, waitEnd, hk]; rfl⟩

/-- Only a reduction enters TimeWait. -/
theorem armsTimeWait_of_stateSet {t r : ChannelState} {cc ca : Bool}
    (hst : (c.stateSet (.established t r cc ca)).connectionState = .timeWait) :
    ArmsTimeWait c (c.stateSet (.established t r cc ca)) := by
  by_cases hreduced : t = .closed ∧ r = .closed ∧ cc = true
  · obtain ⟨rfl, rfl, rfl⟩ := hreduced
    cases ca with
    | true =>
        refine ⟨0, ?_⟩
        simp [stateSet, setTimerTimewait, UserData.now, entered_clock, waitEnd]
    | false => cases hst
  · have hentered : c.stateSet (.established t r cc ca) = c.entered (.established t r cc ca) := by
      apply stateSet_eq_entered
      cases t <;> cases r <;> cases cc <;> simp_all
    rw [hentered, entered_connectionState] at hst
    cases hst

omit [UserTime Time] in
theorem ClockOnward.refl (c : Connection Addr Time) : ClockOnward c c := ⟨0, rfl⟩

/-- An acknowledgement reads the clock at most once. -/
theorem clockOnward_of_takes (hc : c.Takes seg c') : ClockOnward c c' := by
  have hopened : c.opened.userData.clock = c.userData.clock := by
    unfold opened
    split
    · exact entered_clock c _
    · rfl
  unfold Takes at hc
  split at hc
  · simp only [onNewAck, Fallible.bind_ok_iff, Fallible.pure_ok_iff] at hc
    obtain ⟨w, -, rfl⟩ := hc
    rw [ClockOnward, triggerEvent_clock]
    generalize hacked : Connection.clearReTxRange _ seg.ackn = c₁
    have hclock : c₁.userData.clock = c.userData.clock := by
      rw [← hacked, clearReTxRange_clock, triggerEvent_clock]
      exact hopened
    split
    · exact ⟨0, hclock⟩
    · exact ⟨1, by rw [← hclock]; rfl⟩
  · obtain rfl := Except.ok.inj hc
    exact ⟨0, hopened⟩

/-- A close enters TimeWait only when our side is closed already. -/
theorem armsTimeWait_of_closing {ca : Bool}
    (hwait : (c.closing ca).connectionState = .timeWait) :
    ArmsTimeWait c (c.closing ca) ∧ c.connectionState.tx = .closed := by
  have hstate : (c.closing ca).connectionState = (c.stateSet (.established c.connectionState.tx
      c.connectionState.rx true ca)).connectionState := by
    rw [closing]
    split <;> rfl
  have htimers : (c.closing ca).timers = (c.stateSet (.established c.connectionState.tx
      c.connectionState.rx true ca)).timers := by
    rw [closing]
    split <;> rfl
  rw [hstate] at hwait
  constructor
  · obtain ⟨n, hn⟩ := armsTimeWait_of_stateSet hwait
    exact ⟨n, htimers.symm ▸ hn⟩
  · by_contra htx
    rw [stateSet_eq_entered c (.inl htx), entered_connectionState] at hwait
    cases hwait

/-- A FIN of the peer does not enter TimeWait. -/
theorem not_timeWait_of_onFin {isNew : Bool} (hst : c.connectionState ≠ .timeWait)
    (hc : (if seg.hasFin then c.onFin isNew else .ok c) = .ok c') :
    c'.connectionState ≠ .timeWait := by
  split at hc
  · unfold onFin at hc
    split at hc
    case h_1 | h_2 | h_3 =>
      obtain rfl := Fallible.pure_ok_iff.mp hc
      exact hst
    case h_4 hwait => exact absurd hwait hst
    case h_5 | h_6 =>
      obtain ⟨-, -, rfl⟩ := setState_ok_iff.mp hc
      rw [stateSet_eq_entered _ (.inr (.inl (by decide))), entered_connectionState]
      nofun
    case h_7 =>
      obtain rfl := Fallible.pure_ok_iff.mp hc
      exact hst
  · obtain rfl := Except.ok.inj hc
    exact hst

/-- The acknowledgement of our FIN enters TimeWait once the stream was read. -/
theorem armsTimeWait_of_finAcked {ackn : SeqN} (hst : c.connectionState ≠ .timeWait)
    (hc : c.onFinAcked ackn = .ok c') (hwait : c'.connectionState = .timeWait) :
    ArmsTimeWait c c' ∧ c.connectionState.readClosed = true := by
  rcases onFinAcked_ok_iff.mp hc with ⟨r, cc, ca, hest, -, -, -, rfl⟩ | ⟨-, rfl⟩
  · refine ⟨armsTimeWait_of_stateSet hwait, ?_⟩
    rw [hest]
    cases r with
    | closed => rfl
    | opened | fin =>
        rw [stateSet_eq_entered c (.inr (.inl (by decide))), entered_connectionState] at hwait
        cases hwait
  · exact absurd hwait hst

/-- The acknowledgement enters TimeWait, whatever is sent and read after it. -/
theorem armsTimeWait_of_onAccepted (hs : c.Peered) (hst : c.connectionState ≠ .timeWait)
    (hmark : c.connectionState.readClosed = true → c.rx.buffer.fin = true)
    (hc : c.onAccepted seg = .ok c') (hwait : c'.connectionState = .timeWait) :
    ArmsTimeWait c c' := by
  have htaken {c₁ : Connection Addr Time} (h₁ : c.Takes seg c₁) :
      c₁.connectionState ≠ .timeWait := by
    rw [h₁.acknowledged.frame.1, opened_connectionState]
    split
    · nofun
    · exact hst
  cases acceptedStep_of_ok hc with
  | unacknowledged _ hfin => exact absurd hwait (not_timeWait_of_onFin hst hfin)
  | invalid => exact absurd hwait hst
  | @discarded c₁ c₂ _ _ h₁ h₂ _ =>
      have hwait₂ : c₂.connectionState = .timeWait := by
        rw [← hwait]
        split <;> rfl
      obtain ⟨n, hn⟩ := (armsTimeWait_of_finAcked (htaken h₁) h₂ hwait₂).1.from_clock
        (clockOnward_of_takes h₁)
      refine ⟨n, ?_⟩
      split <;> exact hn
  | @stored c₁ c₂ c₃ _ rx _ _ h₁ h₂ _ hrx h₃ hfin =>
      by_cases hwait₂ : c₂.connectionState = .timeWait
      · obtain ⟨harms, hread⟩ := armsTimeWait_of_finAcked (htaken h₁) h₂ hwait₂
        obtain ⟨n, hn⟩ := harms.from_clock (clockOnward_of_takes h₁)
        have hread₀ : c.connectionState.readClosed = true := by
          rw [h₁.acknowledged.frame.1, opened_connectionState] at hread
          split at hread
          · cases hread
          · exact hread
        obtain ⟨hs₁, -, hrx₁⟩ := h₁.peered hs
        have hrx₂ : c₂.rx = c.rx := by
          rcases onFinAcked_peered hs₁ h₂ with ⟨-, -, hrx₂⟩ | ⟨-, rfl⟩
          · exact hrx₂.trans hrx₁
          · cases hwait₂
        -- Behind a FIN of the peer no other one is stored.
        have hnofin : seg.hasFin = false := by
          by_contra hfin₀
          have hopen := ((RxBuffer.write_succeeds_iff.mp ⟨rx, hrx⟩).1 (by simpa using hfin₀)).1
          rw [hrx₂, hmark hread₀] at hopen
          cases hopen
        rw [hnofin, if_neg Bool.false_ne_true] at hfin
        obtain rfl := Except.ok.inj hfin
        exact ⟨n, (sendAck_timers h₃).1.trans hn⟩
      · refine absurd hwait (not_timeWait_of_onFin ?_ hfin)
        rw [(sendAck_spec h₃).state]
        split
        · have hest := c₂.connectionState.withFin_isEstablished
          exact fun hst₃ => Bool.false_ne_true ((congrArg isEstablished hst₃).symm.trans hest)
        · exact hwait₂

/-- TimeWait is entered by reading the end of the stream, by a close, or by the
acknowledgement of our FIN. -/
theorem armsTimeWait_of_step {op : Op Time} {out : Output} (hwf : WellFormed c)
    (hst : c.connectionState ≠ .timeWait) (hc : c.step op = .ok (c', out))
    (hwait : c'.connectionState = .timeWait) : ArmsTimeWait c c' := by
  have hopen (hest : c'.connectionState.isEstablished = true) : ArmsTimeWait c c' := by
    rw [hwait] at hest
    cases hest
  cases opStep_of_ok hc with
  | callConnect hc =>
      cases connectStep_of_ok hc with
      | refused => exact absurd hwait hst
      | connecting _ hsyn =>
          rw [hsyn.state] at hwait
          cases hwait
  | callSend hc =>
      cases (sendStep_of_ok hc).2 with
      | refused | delayed | queued => exact absurd hwait hst
      | sent hs _ _ hsend =>
          refine hopen (sendAck_isEstablished ?_ hsend)
          rw [withQueue_connectionState, hs]
          rfl
  | callRecv hc =>
      cases recvStep_of_ok hc with
      | refused | ended | early | waiting | read | full => exact absurd hwait hst
      | drained => exact armsTimeWait_of_stateSet hwait
  | callShutdown hc =>
      cases shutdownStep_of_ok hc with
      | refused | delayed => exact absurd hwait hst
      | cleared => cases hwait
      | early => exact hopen (by rw [entered_connectionState]; rfl)
      | active hs _ _ _ hsend =>
          refine hopen (sendAck_isEstablished ?_ hsend)
          rw [withQueue_connectionState, entered_connectionState]
          rfl
      | passive hs _ _ _ hsend =>
          refine hopen (sendAck_isEstablished ?_ hsend)
          rw [withQueue_connectionState, hs]
          rfl
  | callClose hc =>
      cases closeStep_of_ok hc with
      | refused | delayed => exact absurd hwait hst
      | cleared => cases hwait
      | early =>
          refine hopen ?_
          change (entered _ _).connectionState.isEstablished = true
          rw [entered_connectionState]
          rfl
      | @opened rx cc ca c₁ _ hs _ _ hsend =>
          have htx := (armsTimeWait_of_closing hwait).2
          rw [(sendAck_spec hsend).state, withQueue_connectionState, hs] at htx
          split at htx <;> cases htx
      | ended => exact (armsTimeWait_of_closing hwait).1
  | callAbort hc =>
      cases abortStep_of_ok hc with
      | refused => exact absurd hwait hst
      | cleared | reset => cases hwait
  | setOptions => exact absurd hwait hst
  | onTimeTick hc =>
      cases tickStep_of_ok hc with
      | kept hstate => exact absurd (hstate.symm.trans hwait) hst
      | cleared => cases hwait
  | @onSegment seg _ hc =>
      unfold onSegment at hc
      split at hc
      case h_1 | h_2 =>
        simp only [Fallible.bind_ok_iff] at hc
        obtain ⟨resp, -, hc⟩ := hc
        split at hc
        all_goals
          obtain rfl := Fallible.pure_ok_iff.mp hc
          exact absurd hwait hst
      case h_3 =>
        cases listened_of_ok hc with
        | ignored | refused => exact absurd hwait hst
        | answered _ _ _ _ hsyn =>
            rw [hsyn.state] at hwait
            cases hwait
      case h_4 =>
        cases synSentStep_of_ok hc with
        | ignored | refused | waiting => exact absurd hwait hst
        | reset => cases hwait
        | opened _ _ _ _ _ hsend =>
            refine hopen (sendAck_isEstablished ?_ hsend)
            rw [entered_connectionState]
            rfl
      case h_5 hst₀ | h_6 hst₀ | h_7 hst₀ =>
        have hs : c.Peered := by simp [Peered, hst₀, ConnectionState.synced]
        cases synchronizedStep_iff.mp hc with
        | dropped | rejected => exact absurd hwait hst
        | reset _ _ hrst =>
            have hidle := (onRst_spec hrst).idle
            rw [hwait] at hidle
            cases hidle
        | syn _ _ _ hsyn =>
            have hidle := (onSyn_spec hsyn).idle
            rw [hwait] at hidle
            cases hidle
        | accepted _ _ _ hacc =>
            exact armsTimeWait_of_onAccepted (c := c.windowed seg) hs hst hwf.readClosed hacc hwait

/-- TimeWait is entered with the timer armed. Whatever the peer sends and the
application calls, short of an abort, the connection lingers until a tick
reaches the deadline, and that tick clears it. -/
theorem timeWait_lasts (h : Reachable c) (hst : c.connectionState ≠ .timeWait) {op : Op Time}
    {out : Output} (hc : c.step op = .ok (c', out)) (hwait : c'.connectionState = .timeWait) :
    ∃ n, c'.timers.timewait = some (c.waitEnd n) ∧
      ∀ d, Transition.ReachableUnder ((system Addr Time).startingAt c')
          (BeforeDeadline (c.waitEnd n)) d →
        Lingers c' d ∧ ∀ time, c.waitEnd n ≤ time →
          d.step (.onTimeTick time) = .ok (d.clear, .none) := by
  obtain ⟨n, hn⟩ := armsTimeWait_of_step (Reachable.wellFormed h) hst hc hwait
  refine ⟨n, hn, fun d run => ?_⟩
  have h' : Reachable c' := Transition.Reachable.step h ⟨out, hc⟩
  obtain ⟨hreach, hlingers⟩ : Reachable d ∧ Lingers c' d := by
    refine Transition.ReachableUnder.invariant (P := fun d => Reachable d ∧ Lingers c' d) ?_ ?_ run
    · rintro d rfl
      exact ⟨h', .refl hwait⟩
    · rintro d op e - ⟨hd, hlingers⟩ hallowed ⟨out, he⟩
      refine ⟨Transition.Reachable.step hd ⟨out, he⟩, hlingers.trans ?_⟩
      exact .of_step hd hlingers.state (hlingers.timers ▸ hn) hallowed he
  refine ⟨hlingers, fun time hle => ?_⟩
  have hd : d.timers.timewait = some (c.waitEnd n) := hlingers.timers ▸ hn
  have htick := onTimeTick_timeWait (Reachable.timersHold hreach) hlingers.state hd time
  rw [if_pos hle] at htick
  rw [step, htick]
  rfl

/-- TimeWait answers a repeated FIN and ends with a tick. -/
theorem timeWait_lasts_repeatedFin : ∃ (c d : Connection Unit Nat) (time : Nat),
    c.connectionState = .timeWait ∧ c.timers.timewait = some time ∧ Lingers c d ∧
      d.userData.sent.length = c.userData.sent.length + 1 ∧
      d.step (.onTimeTick time) = .ok (d.clear, .none) := by
  obtain ⟨c, hreach, hst, hlast⟩ : ∃ c : Connection Unit Nat, Reachable c ∧
      c.connectionState ≠ .timeWait ∧ ((c.next (.callRecv 1)).any fun c' =>
        decide (c'.connectionState = .timeWait) &&
          (c'.next (.onSegment ⟨101#32, 2#32, 1000#16, .fin ||| .ack, []⟩)).any fun d =>
            decide (d.userData.sent.length = c'.userData.sent.length + 1)) = true :=
    Transition.exists_reachableUnder step_of_next (initial_listening () .default zeroUser)
      [.onSegment ⟨100#32, 0#32, 1000#16, .syn, []⟩,
       .onSegment ⟨101#32, 1#32, 1000#16, .ack, []⟩, .callClose,
       .onSegment ⟨101#32, 2#32, 1000#16, .fin ||| .ack, []⟩] (by decide)
  obtain ⟨c', hnext, hall⟩ := (Option.any_eq_true _ _).mp hlast
  obtain ⟨hwait, hrepeat⟩ := Bool.and_eq_true_iff.mp hall
  obtain ⟨d, hnext', hsent⟩ := (Option.any_eq_true _ _).mp hrepeat
  obtain ⟨out, hc⟩ := step_of_next _ _ _ hnext
  obtain ⟨n, harmed, hlasts⟩ := timeWait_lasts hreach hst hc (of_decide_eq_true hwait)
  have hallowed : c'.BeforeDeadline (c.waitEnd n)
      (.onSegment ⟨101#32, 2#32, 1000#16, .fin ||| .ack, []⟩) :=
    show 0 + 2 < 2 ^ 32 by decide
  obtain ⟨hlingers, htick⟩ := hlasts d (.next (.start rfl) hallowed (step_of_next _ _ _ hnext'))
  exact ⟨c', d, c.waitEnd n, of_decide_eq_true hwait, harmed, hlingers, of_decide_eq_true hsent,
    htick _ le_rfl⟩

end Entry

end Connection

end TcpState
