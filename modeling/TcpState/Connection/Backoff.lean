import TcpState.Connection.Resets
import TcpState.Connection.TimersHold

/-!
# Retransmission back-off

The back-off counter doubles with every expiry that sends a segment again and
starts anew with an acknowledgement. A note kept along the run lists the
intervals the timer was re-armed with since then.
-/

namespace TcpState

namespace Connection

variable {Addr Time : Type}

/-- The counter, the timings and the oldest unacknowledged number. -/
def pace (c : Connection Addr Time) : Nat × Timings × SeqN := (c.expBackoff, c.timings, c.tx.unack)

/-- The counter and the timings of a connection without a peer. -/
structure Unpaced (c : Connection Addr Time) : Prop where
  idle : c.connectionState.idle = true
  expBackoff : c.expBackoff = 1
  timings : c.timings = .default

/-- The pace stays, and no peer is lost. -/
structure SamePace (c c' : Connection Addr Time) : Prop where
  pace : c'.pace = c.pace
  idle : c'.connectionState.idle = true → c.connectionState.idle = true

/-- A step that does not wait for anything anew: the pace is kept, or the
connection has been cleared. -/
def PaceKept (c c' : Connection Addr Time) : Prop := SamePace c c' ∨ c'.Unpaced

namespace SamePace

variable {c c₁ c' : Connection Addr Time}

theorem refl (c : Connection Addr Time) : SamePace c c := ⟨rfl, id⟩

theorem trans (h : SamePace c c₁) (h' : SamePace c₁ c') : SamePace c c' :=
  ⟨h'.pace.trans h.pace, h.idle ∘ h'.idle⟩

theorem of_eq (hstate : c'.connectionState = c.connectionState) (hpace : c'.pace = c.pace) :
    SamePace c c' := ⟨hpace, fun h => hstate ▸ h⟩

end SamePace

section Frame

variable (c : Connection Addr Time)

theorem unpaced_clear : c.clear.Unpaced := ⟨rfl, rfl, rfl⟩

theorem unpaced_reset : c.reset.Unpaced := ⟨rfl, rfl, rfl⟩

@[simp] theorem pace_triggerEvent (f : WaitUntil → Bool) (r : Except Error Unit) :
    (c.triggerEvent f r).pace = c.pace := rfl

@[simp] theorem pace_entered (state : ConnectionState) : (c.entered state).pace = c.pace := by
  cases state <;> simp only [entered] <;> repeat' split
  all_goals rfl

theorem samePace_entered {state : ConnectionState} (hidle : state.idle = false) :
    SamePace c (c.entered state) := by
  refine ⟨pace_entered c state, fun h => ?_⟩
  rw [entered_connectionState, hidle] at h
  cases h

theorem samePace_opened : SamePace c c.opened := by
  unfold opened
  split
  · exact samePace_entered c rfl
  · exact .refl c

theorem pace_drained (q : BlobQueue) : (c.drained q).pace = c.pace := by
  unfold drained
  split <;> rfl

theorem samePace_drained (q : BlobQueue) : SamePace c (c.drained q) :=
  .of_eq (drained_connectionState c q) (pace_drained c q)

theorem samePace_taken (q : BlobQueue) : SamePace c (c.taken q) := by
  unfold taken
  split
  · refine (samePace_drained c q).trans (samePace_entered _ ?_)
    cases c.connectionState <;> rfl
  · exact samePace_drained c q

theorem unpaced_clear_entered {state : ConnectionState} (hidle : state.idle = true) :
    (c.clear.entered state).Unpaced := by
  have hpace := pace_entered c.clear state
  exact ⟨by simpa using hidle, congrArg Prod.fst hpace, congrArg (·.2.1) hpace⟩

variable [UserTime Time]

theorem samePace_emit (seg : SegmentMeta) : SamePace c (c.emit seg) := by
  unfold emit
  dsimp only
  split
  · exact .refl c
  · split <;> exact .of_eq rfl (by simp [pace, setTimerReTx, send])

theorem paceKept_stateSet {state : ConnectionState} (hidle : state.idle = false) :
    PaceKept c (c.stateSet state) := by
  unfold stateSet
  split
  · have hclosed : SamePace c (c.entered (.established .closed .closed true true)) :=
      samePace_entered c rfl
    have hwait : SamePace (c.entered (.established .closed .closed true true))
        ((c.entered (.established .closed .closed true true)).entered .timeWait) :=
      samePace_entered _ rfl
    exact .inl ((hclosed.trans hwait).trans (.of_eq rfl rfl))
  · exact .inr (unpaced_clear _)
  · exact .inl (samePace_entered c hidle)

end Frame

variable {c c₁ c' : Connection Addr Time}

theorem PaceKept.refl (c : Connection Addr Time) : PaceKept c c := .inl (.refl c)

theorem PaceKept.of_eq (hstate : c'.connectionState = c.connectionState)
    (hpace : c'.pace = c.pace) : PaceKept c c' := .inl (.of_eq hstate hpace)

theorem SamePace.paceKept (h : SamePace c c₁) (h' : PaceKept c₁ c') : PaceKept c c' :=
  h'.imp_left h.trans

theorem PaceKept.send (h : PaceKept c c₁) (seg : SegmentMeta) : PaceKept c (c₁.send seg) :=
  h.imp (·.trans (.of_eq rfl rfl)) fun h => ⟨h.idle, h.expBackoff, h.timings⟩

variable [UserTime Time]

theorem samePace_sendAck (hc : c.sendAck = .ok c') : SamePace c c' := by
  obtain ⟨q, -, -, rfl⟩ := sendAck_eq hc
  exact (samePace_taken c q).trans (samePace_emit _ _)

theorem samePace_sendAck_withQueue {q : BlobQueue} (hc : (c.withQueue q).sendAck = .ok c') :
    SamePace c c' := by
  have hqueue : SamePace c (c.withQueue q) := .of_eq rfl rfl
  exact hqueue.trans (samePace_sendAck hc)

/-- A new acknowledgement resets the counter. -/
theorem pace_onNewAck {seg : SegmentMeta} (hc : c.onNewAck seg = .ok c') :
    c'.pace = (1, c.timings, seg.ackn) := by
  simp only [onNewAck, Fallible.bind_ok_iff, Fallible.pure_ok_iff] at hc
  obtain ⟨w, -, rfl⟩ := hc
  rw [pace_triggerEvent]
  split <;> rfl

theorem paceKept_onFinAcked {ackn : SeqN} (hc : c.onFinAcked ackn = .ok c') : PaceKept c c' := by
  rcases onFinAcked_ok_iff.mp hc with ⟨r, cc, ca, -, -, -, -, rfl⟩ | ⟨-, rfl⟩
  · exact paceKept_stateSet c rfl
  · exact .refl c'

theorem paceKept_onFin {isNew : Bool} (hc : c.onFin isNew = .ok c') : PaceKept c c' := by
  unfold Connection.onFin at hc
  split at hc
  case h_1 | h_2 | h_3 =>
    obtain rfl := Fallible.pure_ok_iff.mp hc
    exact .refl c
  case h_4 =>
    split at hc
    · obtain rfl := Fallible.pure_ok_iff.mp hc
      exact .of_eq rfl rfl
    · obtain rfl := Fallible.pure_ok_iff.mp hc
      exact .refl c
  case h_5 | h_6 =>
    obtain ⟨-, -, rfl⟩ := setState_ok_iff.mp hc
    have hwoken : SamePace c (c.triggerEvent WaitUntil.isRecv (.ok ())) := .of_eq rfl rfl
    exact hwoken.paceKept (paceKept_stateSet _ rfl)
  case h_7 =>
    obtain rfl := Fallible.pure_ok_iff.mp hc
    exact .of_eq rfl rfl

/-- The acknowledgement bookkeeping keeps the pace or starts it anew. -/
theorem Takes.pace {seg : SegmentMeta} (hc : c.Takes seg c') :
    SamePace c c' ∨ seg.ackn ≠ c.tx.unack ∧ c'.pace = (1, c.timings, seg.ackn) := by
  unfold Takes at hc
  split at hc
  · rename_i hne
    have htimings : c.opened.timings = c.timings := congrArg (·.2.1) (samePace_opened c).pace
    exact .inr ⟨Ne.symm hne, htimings ▸ pace_onNewAck hc⟩
  · obtain rfl := Except.ok.inj hc
    exact .inl (samePace_opened c)

omit [UserTime Time] in
/-- The pace after an acknowledgement and a step that waits for nothing anew. -/
theorem PaceKept.after_takes {ackn : SeqN} (h : PaceKept c₁ c')
    (hpace : SamePace c c₁ ∨ ackn ≠ c.tx.unack ∧ c₁.pace = (1, c.timings, ackn)) :
    PaceKept c c' ∨ ackn ≠ c.tx.unack ∧ c'.pace = (1, c.timings, ackn) := by
  rcases hpace with hpace | ⟨hne, hpace⟩
  · exact .inl (hpace.paceKept h)
  · exact h.elim (fun h => .inr ⟨hne, h.pace.trans hpace⟩) fun h => .inl (.inr h)

theorem pace_onAccepted (hs : c.Peered) {seg : SegmentMeta} (hc : c.onAccepted seg = .ok c') :
    PaceKept c c' ∨ seg.ackn ≠ c.tx.unack ∧ c'.pace = (1, c.timings, seg.ackn) := by
  cases acceptedStep_of_ok hc with
  | unacknowledged _ hfin =>
      split at hfin
      · exact .inl (paceKept_onFin hfin)
      · obtain rfl := Except.ok.inj hfin
        exact .inl (.refl c)
  | invalid => exact .inl (.refl c)
  | discarded _ _ h₁ h₂ =>
      refine PaceKept.after_takes ?_ h₁.pace
      split
      · exact (paceKept_onFinAcked h₂).send _
      · exact paceKept_onFinAcked h₂
  | @stored c₁ c₂ c₃ _ rx _ _ h₁ h₂ _ _ h₃ hfin =>
      refine PaceKept.after_takes ?_ h₁.pace
      have hstored : SamePace c₂ { c₂ with rx := rx } := .of_eq rfl rfl
      have hsent : SamePace c₂ c₃ := hstored.trans (samePace_sendAck h₃)
      rcases onFinAcked_peered (h₁.peered hs).1 h₂ with ⟨-, hs₂, -⟩ | ⟨-, rfl⟩
      · have hpace : SamePace c₁ c₃ := by
          rcases paceKept_onFinAcked h₂ with hkept | hcleared
          · exact hkept.trans hsent
          · exact absurd hs₂ (not_peered_of_idle hcleared.idle)
        split at hfin
        · exact hpace.paceKept (paceKept_onFin hfin)
        · obtain rfl := Except.ok.inj hfin
          exact .inl hpace
      · exact absurd h₃ (sendAck_closed rfl)

/-- The segment is the SYN-ACK that opens a connection in SynSent. -/
def OpensBy (c : Connection Addr Time) : Op Time → Prop
  | .onSegment seg => c.connectionState = .synSent ∧ seg.hasRst = false ∧ seg.hasSyn = true ∧
      seg.hasAck = true ∧ seg.ackn = c.tx.initSeqn + 1#32
  | _ => False

/-- The tick makes the retransmission timer expire with something to send again. -/
def Expires (c : Connection Addr Time) : Op Time → Prop
  | .onTimeTick time => expired c.timers.reTx time = true ∧ c.tx.reTx ≠ []
  | _ => False

instance (c : Connection Addr Time) : DecidablePred c.OpensBy
  | .onSegment seg => inferInstanceAs (Decidable (c.connectionState = .synSent ∧
      seg.hasRst = false ∧ seg.hasSyn = true ∧ seg.hasAck = true ∧
      seg.ackn = c.tx.initSeqn + 1#32))
  | .callConnect | .callSend _ | .callRecv _ | .callShutdown | .callClose | .callAbort
  | .setOptions _ | .onTimeTick _ => .isFalse id

instance (c : Connection Addr Time) : DecidablePred c.Expires
  | .onTimeTick time =>
      inferInstanceAs (Decidable (expired c.timers.reTx time = true ∧ c.tx.reTx ≠ []))
  | .callConnect | .callSend _ | .callRecv _ | .callShutdown | .callClose | .callAbort
  | .setOptions _ | .onSegment _ => .isFalse id

/-- The interval of an expiry: the timeout and the back-off. -/
def interval (c : Connection Addr Time) : Duration :=
  c.timings.rto + Duration.fromSecs c.expBackoff

/-- What an operation does to the pace. -/
inductive Pacing (c : Connection Addr Time) (op : Op Time) (c' : Connection Addr Time) : Prop
  | kept (hno : ¬ c.Expires op) (h : PaceKept c c')
  | started (hno : ¬ c.Expires op) (hidle : c.connectionState.idle = true)
      (hexp : c'.expBackoff = c.expBackoff) (htimings : c'.timings = c.timings)
  | renewed (hpeer : c.Peered) (hne : c'.tx.unack ≠ c.tx.unack) (hexp : c'.expBackoff = 1)
      (htimings : c'.timings = c.timings)
  | opened (hopens : c.OpensBy op) (hne : c'.tx.unack ≠ c.tx.unack)
      (hexp : c'.expBackoff = c.expBackoff) (htimings : c'.timings = c.timings)
  | expired (hexpires : c.Expires op) (hidle : c'.connectionState.idle = false)
      (h : c'.pace = (c.expBackoff * 2, c.timings, c.tx.unack))

theorem pacing_onSegment (hwf : WellFormed c) {seg : SegmentMeta} (hc : c.onSegment seg = .ok c') :
    Pacing c (.onSegment seg) c' := by
  have hno : ¬ c.Expires (.onSegment seg) := id
  have kept (h : PaceKept c c') : Pacing c (.onSegment seg) c' := .kept hno h
  have sync (hs : c.Peered) (hc : c.onSegmentSynchronized seg = .ok c') :
      Pacing c (.onSegment seg) c' := by
    cases synchronizedStep_iff.mp hc with
    | dropped => exact kept (.refl _)
    | rejected => exact kept (.of_eq rfl rfl)
    | reset _ _ hrst =>
        unfold Connection.onRst at hrst
        split at hrst
        · obtain ⟨-, -, rfl⟩ := setState_ok_iff.mp hrst
          refine kept (.inr ?_)
          rw [stateSet_listen]
          exact unpaced_clear_entered _ rfl
        · obtain ⟨-, -, rfl⟩ := setState_ok_iff.mp hrst
          refine kept (.inr ?_)
          rw [stateSet_reset]
          exact unpaced_clear_entered _ rfl
        · cases hrst
    | syn _ _ _ hsyn =>
        obtain ⟨-, -, rfl⟩ := setState_ok_iff.mp hsyn
        refine kept (.inr ?_)
        rw [stateSet_reset]
        exact unpaced_clear_entered _ rfl
    | accepted _ _ _ hacc =>
        rcases pace_onAccepted (c := c.windowed seg) hs hacc with h | ⟨hne, h⟩
        · have hwindow : SamePace c (c.windowed seg) := .of_eq rfl rfl
          exact kept (hwindow.paceKept h)
        · have hunack : c'.tx.unack = seg.ackn := congrArg (·.2.2) h
          exact .renewed hs (hunack ▸ hne) (congrArg Prod.fst h) (congrArg (·.2.1) h)
  unfold Connection.onSegment at hc
  split at hc
  case h_1 | h_2 =>
    simp only [Fallible.bind_ok_iff] at hc
    obtain ⟨resp, -, hc⟩ := hc
    cases resp with
    | none =>
        obtain rfl := Fallible.pure_ok_iff.mp hc
        exact kept (.refl _)
    | some resp =>
        obtain rfl := Fallible.pure_ok_iff.mp hc
        exact kept (.of_eq rfl rfl)
  case h_3 hst =>
    have hidle : c.connectionState.idle = true := by rw [hst]; rfl
    unfold Connection.onSegmentListen at hc
    split at hc
    · obtain rfl := Fallible.pure_ok_iff.mp hc
      exact kept (.refl _)
    split at hc
    · obtain rfl := Fallible.pure_ok_iff.mp hc
      exact kept (.of_eq rfl rfl)
    split at hc
    · obtain rfl := Fallible.pure_ok_iff.mp hc
      exact kept (.refl _)
    simp only [Fallible.bind_ok_iff, Fallible.pure_ok_iff, setState_ok_iff,
      stateSet_synReceived] at hc
    obtain ⟨_, -, c₁, ⟨-, -, rfl⟩, rfl⟩ := hc
    exact .started hno hidle (congrArg Prod.fst (pace_entered _ _))
      (congrArg (·.2.1) (pace_entered _ _))
  case h_4 hst =>
    have ho : c.connectionState.opening = true := by rw [hst]; rfl
    have hunack := (hwf.opening ho).1
    cases synSentStep_of_ok hc with
    | ignored => exact kept (.refl _)
    | refused => exact kept (.of_eq rfl rfl)
    | reset => exact kept (.inr (unpaced_reset c))
    | waiting hrange _ _ _ hne =>
        have hackn := ((hwf.inRange_opening_iff ho seg.ackn).mp hrange).resolve_right hne
        refine kept (.of_eq rfl ?_)
        change (c.expBackoff, c.timings, seg.ackn) = c.pace
        rw [hackn, ← hunack]
        rfl
    | opened hrange hrst hack hsyn heq hsend =>
        have hpace := (samePace_sendAck hsend).pace.trans (pace_entered _ _)
        have hunack' : c'.tx.unack = seg.ackn := congrArg (·.2.2) hpace
        refine .opened ⟨hst, hrst, hsyn, hack, heq⟩ ?_ (congrArg Prod.fst hpace)
          (congrArg (·.2.1) hpace)
        rw [hunack', heq, hunack]
        simp
  case h_5 hst | h_6 hst | h_7 hst =>
    exact sync (by simp [Peered, hst, ConnectionState.synced]) hc

theorem pacing_callConnect {r : Except Error Unit} (hc : c.callConnect = .ok (c', r)) :
    Pacing c .callConnect c' := by
  unfold Connection.callConnect at hc
  split at hc
  case h_1 hst | h_2 hst =>
    simp only [Fallible.bind_ok_iff, setState_ok_iff, continueAfter_ok_iff, stateSet_synSent] at hc
    obtain ⟨_, ⟨-, -, rfl⟩, -, rfl, -⟩ := hc
    exact .started id (by rw [hst]; rfl) (congrArg Prod.fst (pace_entered c _))
      (congrArg (·.2.1) (pace_entered c _))
  case h_3 =>
    obtain ⟨rfl, -⟩ := Prod.mk.inj (Fallible.pure_ok_iff.mp hc)
    exact .kept id (.refl c)

theorem paceKept_callSend {inputData : List UInt8} {r : Except Error Unit}
    (hc : c.callSend inputData = .ok (c', r)) : PaceKept c c' := by
  cases (sendStep_of_ok hc).2 with
  | refused => exact .refl c
  | delayed | queued => exact .of_eq rfl rfl
  | sent _ _ _ hsend => exact .inl (samePace_sendAck_withQueue hsend)

theorem paceKept_callRecv {bufferLen : Nat} {r : Except Error (List UInt8)}
    (hc : c.callRecv bufferLen = .ok (c', r)) : PaceKept c c' := by
  cases recvStep_of_ok hc with
  | refused | ended => exact .refl c
  | early | waiting | read | full => exact .of_eq rfl rfl
  | @drained t cc ca rx =>
      have hread : SamePace c { c with rx := rx } := .of_eq rfl rfl
      exact hread.paceKept (paceKept_stateSet _ rfl)

theorem paceKept_callShutdown {r : Except Error Unit} (hc : c.callShutdown = .ok (c', r)) :
    PaceKept c c' := by
  cases shutdownStep_of_ok hc with
  | refused => exact .refl c
  | cleared => exact .inr (unpaced_clear _)
  | delayed => exact .of_eq rfl rfl
  | early _ _ hsend =>
      exact .inl ((samePace_sendAck_withQueue hsend).trans (samePace_entered _ rfl))
  | active _ _ _ _ hsend =>
      exact .inl ((samePace_entered c rfl).trans (samePace_sendAck_withQueue hsend))
  | passive _ _ _ _ hsend => exact .inl (samePace_sendAck_withQueue hsend)

theorem paceKept_closing (c : Connection Addr Time) (closeActive : Bool) :
    PaceKept c (c.closing closeActive) := by
  unfold Connection.closing
  dsimp only
  split
  · exact paceKept_stateSet c rfl
  · exact (paceKept_stateSet c rfl).imp (·.trans (.of_eq rfl rfl))
      fun h => ⟨h.idle, h.expBackoff, h.timings⟩

theorem paceKept_callClose {r : Except Error Unit} (hc : c.callClose = .ok (c', r)) :
    PaceKept c c' := by
  cases closeStep_of_ok hc with
  | refused => exact .refl c
  | cleared => exact .inr (unpaced_clear _)
  | delayed => exact .of_eq rfl rfl
  | early _ _ _ hsend =>
      have hsent := samePace_sendAck_withQueue hsend
      exact .inl (hsent.trans ((samePace_entered _ rfl).trans (.of_eq rfl rfl)))
  | opened _ _ _ hsend =>
      exact (samePace_sendAck_withQueue hsend).paceKept (paceKept_closing _ _)
  | ended => exact paceKept_closing c _

/-- The connection after its oldest segment has been sent again. -/
def rearmed (c : Connection Addr Time) : Connection Addr Time :=
  match c.tx.reTx with
  | [] => c
  | seg :: _ =>
      ({ c with timers := { c.timers with reTx := none },
                expBackoff := c.expBackoff * 2 }.send seg).setTimerReTx
        (c.timings.rto + Duration.fromSecs (c.expBackoff * 2))

theorem rearmed_spec {time : Time} (hexp : c.Expires (.onTimeTick time)) :
    c.rearmed.pace = (c.expBackoff * 2, c.timings, c.tx.unack) ∧
      c.rearmed.connectionState = c.connectionState ∧
      c.rearmed.timers.reTx = some (UserTime.add (c.userData.clock 0) c.rearmed.interval) ∧
      c.rearmed.timers.timewait = c.timers.timewait ∧
      c.rearmed.timers.usertime = c.timers.usertime := by
  unfold rearmed
  cases hre : c.tx.reTx with
  | nil => exact absurd hre hexp.2
  | cons seg rest => exact ⟨rfl, rfl, rfl, rfl, rfl⟩

omit [UserTime Time] in
theorem doubleBackoff_ok_iff {n m : Nat} :
    doubleBackoff n = .ok m ↔ n * 2 < 2 ^ 64 ∧ m = n * 2 := Fallible.ite_ok_iff

/-- The fired timer fails only on the two sums it computes. -/
theorem onTimerReTx_ok_iff (hold : TimersHold c) {time : Time}
    (hexp : c.Expires (.onTimeTick time)) :
    { c with timers := { c.timers with reTx := none } }.onTimerReTx = .ok c' ↔
      c.expBackoff * 2 < 2 ^ 64 ∧
        c.timings.rto + Duration.fromSecs (c.expBackoff * 2) < Duration.fromSecs (2 ^ 64) ∧
        c' = c.rearmed := by
  obtain ⟨hidle, hwait⟩ := hold.fires (TimersHold.ne_none_of_expired hexp.1)
  obtain ⟨seg, rest, hre⟩ := List.exists_cons_of_ne_nil hexp.2
  have hsums : (do
      let expBackoff ← doubleBackoff c.expBackoff
      let duration ← Duration.add c.timings.rto (Duration.fromSecs expBackoff)
      return ({ c with timers := { c.timers with reTx := none },
                       expBackoff := expBackoff }.send seg).setTimerReTx duration) = .ok c' ↔
      c.expBackoff * 2 < 2 ^ 64 ∧
        c.timings.rto + Duration.fromSecs (c.expBackoff * 2) < Duration.fromSecs (2 ^ 64) ∧
        c' = c.rearmed := by
    simp only [Fallible.bind_ok_iff, doubleBackoff_ok_iff, Duration.add_ok_iff,
      Fallible.pure_ok_iff, rearmed, hre]
    constructor
    · rintro ⟨_, ⟨hlt, rfl⟩, _, ⟨hsum, rfl⟩, rfl⟩
      exact ⟨hlt, hsum, rfl⟩
    · rintro ⟨hlt, hsum, rfl⟩
      exact ⟨_, ⟨hlt, rfl⟩, _, ⟨hsum, rfl⟩, rfl⟩
  rw [← hsums]
  unfold Connection.onTimerReTx
  cases hst : c.connectionState with
  | closed => rw [hst] at hidle; cases hidle
  | reset => rw [hst] at hidle; cases hidle
  | timeWait => exact absurd hst hwait
  | listen | synSent | synReceived | established => simp only [hre]; rfl

theorem onTimeTick_expires_iff (hold : TimersHold c) {time : Time}
    (hexp : c.Expires (.onTimeTick time)) : c.onTimeTick time = .ok c' ↔
      c.expBackoff * 2 < 2 ^ 64 ∧
        c.timings.rto + Duration.fromSecs (c.expBackoff * 2) < Duration.fromSecs (2 ^ 64) ∧
        c' = c.rearmed := by
  obtain ⟨hidle, hwait⟩ := hold.fires (TimersHold.ne_none_of_expired hexp.1)
  obtain ⟨-, -, -, htimewait, husertime⟩ := rearmed_spec hexp
  -- Neither of the other two timers is armed.
  have hquiet : expired c.rearmed.timers.timewait time = false ∧
      expired c.rearmed.timers.usertime time = false := by
    rw [htimewait, husertime, hold.timewait_none hwait, hold.usertime]
    exact ⟨rfl, rfl⟩
  simp only [Connection.onTimeTick, hexp.1, if_true, Fallible.bind_ok_iff,
    onTimerReTx_ok_iff hold hexp]
  constructor
  · rintro ⟨_, ⟨hlt, hsum, rfl⟩, _, h₂, h₃⟩
    rw [hquiet.1, if_neg Bool.false_ne_true] at h₂
    obtain rfl := Fallible.pure_ok_iff.mp h₂
    rw [hquiet.2, if_neg Bool.false_ne_true] at h₃
    exact ⟨hlt, hsum, (Fallible.pure_ok_iff.mp h₃).symm⟩
  · rintro ⟨hlt, hsum, rfl⟩
    refine ⟨_, ⟨hlt, hsum, rfl⟩, c.rearmed, ?_, ?_⟩
    · rw [hquiet.1, if_neg Bool.false_ne_true]
      rfl
    · rw [hquiet.2, if_neg Bool.false_ne_true]
      rfl

/-- Any other tick returns. -/
theorem onTimeTick_rests (hold : TimersHold c) {time : Time}
    (hno : ¬ c.Expires (.onTimeTick time)) : ∃ c', c.onTimeTick time = .ok c' ∧ PaceKept c c' := by
  obtain ⟨c₁, h₁, hpace, hold₁⟩ : ∃ c₁, (if expired c.timers.reTx time then
      { c with timers := { c.timers with reTx := none } }.onTimerReTx else pure c) = .ok c₁ ∧
        SamePace c c₁ ∧ TimersHold c₁ := by
    by_cases hexp : expired c.timers.reTx time = true
    · obtain ⟨hidle, hwait⟩ := hold.fires (TimersHold.ne_none_of_expired hexp)
      have hre : c.tx.reTx = [] := by
        by_contra hre
        exact hno ⟨hexp, hre⟩
      have hfires : { c with timers := { c.timers with reTx := none } }.onTimerReTx =
          .ok { c with timers := { c.timers with reTx := none } } := by
        unfold Connection.onTimerReTx
        cases hst : c.connectionState with
        | closed => rw [hst] at hidle; cases hidle
        | reset => rw [hst] at hidle; cases hidle
        | timeWait => exact absurd hst hwait
        | listen | synSent | synReceived | established => simp only [hre]; rfl
      refine ⟨{ c with timers := { c.timers with reTx := none } }, ?_, .of_eq rfl rfl, ?_⟩
      · rw [if_pos hexp, hfires]
      · exact hold.onTimerReTx (TimersHold.ne_none_of_expired hexp) hfires
    · exact ⟨c, if_neg hexp, .refl c, hold⟩
  have husertime : expired c₁.timers.usertime time = false := by
    rw [hold₁.usertime]
    rfl
  simp only [Connection.onTimeTick, h₁, Fallible.ok_bind]
  by_cases hwaits : expired c₁.timers.timewait time = true
  · have hst : c₁.connectionState = .timeWait := hold₁.timewait.mp
      (Option.isSome_iff_ne_none.mpr (TimersHold.ne_none_of_expired hwaits))
    refine ⟨Connection.clear { c₁ with timers := { c₁.timers with timewait := none } }, ?_,
      .inr (unpaced_clear _)⟩
    rw [if_pos hwaits]
    simp only [onTimerTimewait, assert, Fallible.ensure, hst, if_true, Fallible.ok_bind]
    rfl
  · refine ⟨c₁, ?_, .inl hpace⟩
    rw [if_neg hwaits]
    simp only [pure, Except.pure, Fallible.ok_bind, husertime, Bool.false_eq_true, if_false]

theorem pacing_onTimeTick (hold : TimersHold c) {time : Time} (hc : c.onTimeTick time = .ok c') :
    Pacing c (.onTimeTick time) c' := by
  by_cases hexp : c.Expires (.onTimeTick time)
  · obtain ⟨-, -, rfl⟩ := (onTimeTick_expires_iff hold hexp).mp hc
    obtain ⟨hpace, hstate, -⟩ := rearmed_spec hexp
    refine .expired hexp ?_ hpace
    rw [hstate]
    exact (hold.fires (TimersHold.ne_none_of_expired hexp.1)).1
  · obtain ⟨_, hc', hkept⟩ := onTimeTick_rests hold hexp
    obtain rfl := Except.ok.inj (hc.symm.trans hc')
    exact .kept hexp hkept

theorem pacing (hwf : WellFormed c) (hold : TimersHold c) {op : Op Time} {out : Output}
    (hc : c.step op = .ok (c', out)) : Pacing c op c' := by
  cases opStep_of_ok hc with
  | callConnect hc => exact pacing_callConnect hc
  | callSend hc => exact .kept id (paceKept_callSend hc)
  | callRecv hc => exact .kept id (paceKept_callRecv hc)
  | callShutdown hc => exact .kept id (paceKept_callShutdown hc)
  | callClose hc => exact .kept id (paceKept_callClose hc)
  | callAbort hc =>
      refine .kept id ?_
      cases abortStep_of_ok hc with
      | refused => exact .refl c
      | cleared | reset => exact .inr (unpaced_clear _)
  | setOptions => exact .kept id (.of_eq rfl rfl)
  | onSegment hc => exact pacing_onSegment hwf hc
  | onTimeTick hc => exact pacing_onTimeTick hold hc

end Connection

namespace Backoff

open Connection

variable {Addr Time : Type} {c c' : Connection Addr Time} {n : List Duration}

/-- The interval of the expiry with the given number, from zero. -/
def nth (i : Nat) : Duration := Duration.second + Duration.fromSecs (2 ^ (i + 1))

theorem nth_mono {i j : Nat} (h : i ≤ j) : nth i ≤ nth j := by
  have hpow : 2 ^ (i + 1) ≤ 2 ^ (j + 1) := Nat.pow_le_pow_right (by decide) (by omega)
  exact Nat.add_le_add_left (Nat.mul_le_mul_right _ hpow) _

/-- The counter after the expiries noted. -/
structure Counts (c : Connection Addr Time) (n : List Duration) : Prop where
  timings : c.timings = .default
  expBackoff : c.expBackoff = 2 ^ n.length
  intervals : n = (List.range n.length).map nth
  idle : c.connectionState.idle = true → n = []

namespace Counts

theorem anew (hexp : c.expBackoff = 1) (htimings : c.timings = .default) : Counts c [] :=
  ⟨htimings, hexp, rfl, fun _ => rfl⟩

theorem expBackoff_eq_one_iff (h : Counts c n) : c.expBackoff = 1 ↔ n = [] := by
  rw [h.expBackoff]
  constructor
  · intro hpow
    by_contra hne
    have := Nat.one_lt_two_pow (List.length_pos_iff.mpr hne).ne'
    omega
  · rintro rfl
    rfl

theorem congr (h : Counts c n) (hp : SamePace c c') : Counts c' n where
  timings := (congrArg (·.2.1) hp.pace).trans h.timings
  expBackoff := (congrArg Prod.fst hp.pace).trans h.expBackoff
  intervals := h.intervals
  idle := h.idle ∘ hp.idle

/-- The interval of one more expiry. -/
theorem interval_eq (h : Counts c n) (htimings : c'.timings = c.timings)
    (hexp : c'.expBackoff = c.expBackoff * 2) : c'.interval = nth n.length := by
  rw [interval, htimings, h.timings, hexp, h.expBackoff, nth, Nat.pow_succ]
  rfl

theorem expired (h : Counts c n) (hidle : c'.connectionState.idle = false)
    (htimings : c'.timings = c.timings) (hexp : c'.expBackoff = c.expBackoff * 2) :
    Counts c' (n ++ [c'.interval]) where
  timings := htimings.trans h.timings
  expBackoff := by
    rw [hexp, h.expBackoff, List.length_append, List.length_singleton, Nat.pow_succ]
  intervals := by
    rw [h.interval_eq htimings hexp, List.length_append, List.length_singleton, List.range_succ,
      List.map_append, ← h.intervals]
    rfl
  idle := fun h => absurd (hidle.symm.trans h) Bool.false_ne_true

/-- The intervals grow from one expiry to the next. -/
theorem pairwise (h : Counts c n) : n.Pairwise (· ≤ ·) := by
  rw [h.intervals, List.pairwise_map]
  exact List.pairwise_lt_range.imp fun hlt => nth_mono (Nat.le_of_lt hlt)

theorem le_nth (h : Counts c n) {d : Duration} (hd : d ∈ n) : d ≤ nth n.length := by
  rw [h.intervals, List.mem_map] at hd
  obtain ⟨i, hi, rfl⟩ := hd
  exact nth_mono (Nat.le_of_lt (List.mem_range.mp hi))

end Counts

variable [UserTime Time]

/-- The intervals the expiries of the retransmission timer have re-armed it
with since the last new acknowledgement, oldest first. -/
def watch (Addr Time : Type) [UserTime Time] : Watch Addr Time (List Duration) where
  start := []
  note intervals c op _ c' :=
    if c'.connectionState.idle = true ∨ c'.tx.unack ≠ c.tx.unack then []
    else if c.Expires op then intervals ++ [c'.interval] else intervals

/-- The timer expires at most 63 times in a row, and a SYN that was sent again
is not acknowledged in SynSent. -/
def Patient (s : Connection Addr Time × List Duration) (op : Op Time) : Prop :=
  (s.1.Expires op → s.2.length < 63) ∧ (s.1.OpensBy op → s.2 = [])

instance (s : Connection Addr Time × List Duration) (op : Op Time) : Decidable (Patient s op) := by
  unfold Patient
  infer_instance

/-- Each operation keeps the note and the counter together, unless it opens a
connection whose SYN was sent again. -/
theorem Counts.step (h : Counts c n) {op : Op Time} {out : Output}
    (hopens : c.OpensBy op → n = []) (hp : Pacing c op c') :
    Counts c' ((watch Addr Time).note n c op out c') := by
  -- the counter starts anew, or it stands at its initial value with nothing noted
  have anew (hexp : c'.expBackoff = 1) (htimings : c'.timings = .default)
      (hno : ¬ c.Expires op) (hn : n = []) : Counts c' ((watch Addr Time).note n c op out c') := by
    simp only [watch, if_neg hno, hn, ite_self]
    exact .anew hexp htimings
  unfold watch
  dsimp only
  cases hp with
  | kept hno hkept =>
      rw [if_neg hno]
      split
      · rename_i hreset
        rcases hkept with hpace | hcleared
        · have hunack : c'.tx.unack = c.tx.unack := congrArg (·.2.2) hpace.pace
          have hn := h.idle (hpace.idle (hreset.resolve_right (not_not.mpr hunack)))
          exact hn ▸ h.congr hpace
        · exact .anew hcleared.expBackoff hcleared.timings
      · rename_i hreset
        rcases hkept with hpace | hcleared
        · exact h.congr hpace
        · exact absurd (.inl hcleared.idle) hreset
  | started hno hidle hexp htimings =>
      have hn := h.idle hidle
      exact anew (hexp.trans (h.expBackoff_eq_one_iff.mpr hn)) (htimings.trans h.timings) hno hn
  | renewed _ hne hexp htimings =>
      rw [if_pos (.inr hne)]
      exact .anew hexp (htimings.trans h.timings)
  | opened hopens' hne hexp htimings =>
      rw [if_pos (.inr hne)]
      exact .anew (hexp.trans (h.expBackoff_eq_one_iff.mpr (hopens hopens')))
        (htimings.trans h.timings)
  | expired hexpires hidle hpace =>
      have hunack : c'.tx.unack = c.tx.unack := congrArg (·.2.2) hpace
      rw [if_neg (by simp [hidle, hunack]), if_pos hexpires]
      exact h.expired hidle (congrArg (·.2.1) hpace) (congrArg Prod.fst hpace)

theorem Initial.counts (h : Initial c) : Counts c [] := by
  rcases h with ⟨remote, userData, rfl⟩ | ⟨l, addr, userData, h⟩
  · exact .anew rfl rfl
  · rw [acceptor_eq] at h
    obtain rfl := Except.ok.inj h
    exact .anew rfl rfl

theorem counts_of_patient
    (h : Transition.ReachableUnder (watch Addr Time).system Patient (c, n)) : Counts c n := by
  refine Transition.ReachableUnder.invariant (P := fun s => Counts s.1 s.2) ?_ ?_ h
  · rintro ⟨c, n⟩ ⟨hinit, rfl⟩
    exact Initial.counts hinit
  · rintro ⟨c, n⟩ op s' hreach hcounts hpatient ⟨c', out, hc, rfl⟩
    have hrun := Watch.conn_of_reachable hreach
    have hpacing := pacing (Reachable.wellFormed hrun) (Reachable.timersHold hrun) hc
    have hnext : Counts c' ((watch Addr Time).note n c op out c') :=
      hcounts.step hpatient.2 hpacing
    exact hnext

/-- In a run without 64 expiries in a row and without the SYN-ACK of a SYN that
was sent again, the intervals grow. The next expiry succeeds unless it is the
64th, its interval is no shorter than those before it, and a new acknowledgement
resets the counter unless it is such a SYN-ACK. The clock's `add` is taken to
return, which that of `std::time::Instant` does not at the 63rd expiry. -/
theorem intervals_grow (h : Transition.ReachableUnder (watch Addr Time).system Patient (c, n)) :
    n.Pairwise (· ≤ ·) ∧ c.expBackoff = 2 ^ n.length ∧
    (∀ time, c.Expires (.onTimeTick time) →
      ((∃ c', c.onTimeTick time = .ok c') ↔ n.length < 63) ∧
      ∀ c', c.onTimeTick time = .ok c' → (∀ d ∈ n, d ≤ c'.interval) ∧
        c'.timers.reTx = some (UserTime.add (c.userData.clock 0) c'.interval)) ∧
    ∀ seg c', c.onSegment seg = .ok c' → c'.connectionState.idle = false →
      c'.tx.unack ≠ c.tx.unack →
        (c'.expBackoff = 1 ↔ (c.OpensBy (.onSegment seg) → n = [])) := by
  have hcounts := counts_of_patient h
  have hrun : Connection.Reachable c := Watch.conn_of_reachable h.reachable
  have hold := Reachable.timersHold hrun
  refine ⟨hcounts.pairwise, hcounts.expBackoff, fun time hexp => ⟨?_, fun c' hc => ?_⟩, ?_⟩
  · simp only [onTimeTick_expires_iff hold hexp, exists_and_left, exists_eq, and_true,
      hcounts.expBackoff, ← Nat.pow_succ, hcounts.timings]
    rw [Nat.pow_lt_pow_iff_right (by decide)]
    refine ⟨fun hlt => by omega, fun hlt => ⟨by omega, ?_⟩⟩
    have hpow : 2 ^ (n.length + 1) ≤ 2 ^ 63 := Nat.pow_le_pow_right (by decide) (by omega)
    have hsum : (1 : Nat) * 1000000000 + 2 ^ (n.length + 1) * 1000000000 <
        2 ^ 64 * 1000000000 := by omega
    exact hsum
  · obtain ⟨-, -, rfl⟩ := (onTimeTick_expires_iff hold hexp).mp hc
    obtain ⟨hpace, -, htimer, -⟩ := rearmed_spec hexp
    refine ⟨fun d hd => ?_, htimer⟩
    rw [hcounts.interval_eq (congrArg (·.2.1) hpace) (congrArg Prod.fst hpace)]
    exact hcounts.le_nth hd
  · intro seg c' hc hidle hunack
    cases pacing_onSegment (Reachable.wellFormed hrun) hc with
    | kept _ hkept =>
        rcases hkept with hpace | hcleared
        · exact absurd (congrArg (·.2.2) hpace.pace) hunack
        · exact absurd (hidle.symm.trans hcleared.idle) Bool.false_ne_true
    | started _ hfrom hexp =>
        have hn := hcounts.idle hfrom
        rw [hexp, hcounts.expBackoff_eq_one_iff]
        exact ⟨fun hn _ => hn, fun _ => hn⟩
    | renewed hpeer _ hexp =>
        refine ⟨fun _ hopens => ?_, fun _ => hexp⟩
        rcases hpeer with hst | hst <;> rw [hopens.1] at hst <;> cases hst
    | opened hopens _ hexp =>
        rw [hexp, hcounts.expBackoff_eq_one_iff]
        exact ⟨fun hn _ => hn, fun hn => hn hopens⟩
    | expired hexpires => exact hexpires.elim

/-- The SYN has been sent again twice, after 3 and after 5 seconds. -/
theorem intervals_grow_two : ∃ (c : Connection Unit Nat) (n : List Duration),
    n = [3000000000, 5000000000] ∧ n.Pairwise (· ≤ ·) ∧ c.expBackoff = 2 ^ n.length := by
  obtain ⟨⟨c, n⟩, hreach, hn⟩ : ∃ s : Connection Unit Nat × List Duration,
      Transition.ReachableUnder (watch Unit Nat).system Patient s ∧
        s.2 = [3000000000, 5000000000] :=
    Transition.exists_reachableUnder (watch Unit Nat).step_of_next
      ((watch Unit Nat).init_start (initial_new () zeroUser))
      [.callConnect, .onTimeTick 1000000000, .onTimeTick 4000000000] (by decide)
  obtain ⟨hgrow, hexp, -⟩ := intervals_grow hreach
  exact ⟨c, n, hn, hgrow, hexp⟩

/-- The 64th expiry in a row overflows the counter. -/
theorem backoff_overflows : ¬ ∀ (c : Connection Unit Nat) (n : List Duration),
    (watch Unit Nat).Reachable c n → ∀ time, c.Expires (.onTimeTick time) →
      ∃ c', c.onTimeTick time = .ok c' := by
  intro hall
  obtain ⟨⟨c, n⟩, hreach, hexp, hfails⟩ : ∃ s : Connection Unit Nat × List Duration,
      Transition.Reachable (watch Unit Nat).system s ∧ s.1.Expires (.onTimeTick (10 ^ 40)) ∧
        ¬ Fallible.Succeeds (s.1.onTimeTick (10 ^ 40)) :=
    Transition.exists_reachableUnder (watch Unit Nat).step_of_next
      ((watch Unit Nat).init_start (initial_new () zeroUser))
      (.callConnect :: List.replicate 63 (.onTimeTick (10 ^ 40))) (by decide)
  exact hfails (hall c n hreach _ hexp)

end Backoff

end TcpState
