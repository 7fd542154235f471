import TcpState.Connection.Intake
import TcpState.Connection.Shift

/-!
# Invariance under wrap-around

Every operation that leaves a connection open does the same on the shifted
connection. Clearing a connection sets its numbers to zero, so a cleared one
is not followed.
-/

namespace TcpState

namespace Connection

open Fallible

variable {Addr Time : Type} [UserTime Time] (a b : BitVec 32) (c : Connection Addr Time)

theorem shift_callSend (inputData : List UInt8) :
    (c.shift a b).callSend inputData =
      (c.callSend inputData).map (Prod.map (shift a b) id) := by
  have hwait (c : Connection Addr Time) : (c.shift a b).continueAfter
      (.acknowledged ((c.shift a b).tx.next + BitVec.ofNat 32 inputData.length)) =
        ((c.continueAfter (.acknowledged (c.tx.next + BitVec.ofNat 32 inputData.length)) :
          Res (Connection Addr Time × Except Error Unit))).map (Prod.map (shift a b) id) := by
    rw [← shift_continueAfter, shift_tx, TxBuffer.shift_next, add_right_comm]
    rfl
  have hqueue (state : ConnectionState) (q : BlobQueue) :
      ({ c.shift a b with connectionState := state, tx := { (c.shift a b).tx with tx := q } } :
        Connection Addr Time) = ({ c with connectionState := state, tx := { c.tx with tx := q } } :
          Connection Addr Time).shift a b := rfl
  unfold callSend
  refine Fallible.bind_transport_right fun _ => ?_
  rw [shift_connectionState]
  cases c.connectionState with
  | listen | closed | reset | timeWait => rfl
  | synSent | synReceived =>
      refine Fallible.bind_transport_right fun q => ?_
      simp only [hqueue]
      exact hwait _
  | established t r cc ca =>
      refine Fallible.bind_transport_right fun _ => Fallible.bind_transport_right fun q => ?_
      have hspace : TxBuffer.unackHasSpace { (c.shift a b).tx with tx := q } =
          TxBuffer.unackHasSpace { c.tx with tx := q } :=
        TxBuffer.shift_unackHasSpace a b { c.tx with tx := q }
      simp only [hqueue]
      rw [hspace]
      by_cases hsends : TxBuffer.unackHasSpace { c.tx with tx := q } = true ∧
          (maxSegmentSize ≤ q.availableBytes ∨
            0 < q.availableBytes ∧ c.options.nagleDelay = Duration.zero)
      · rw [if_pos hsends]
        refine (if_pos hsends).trans ?_
        exact bind_transport (shift a b)
          (shift_sendAck a b _) fun _ => rfl
      · rw [if_neg hsends]
        exact if_neg hsends

/-- The connection has not been cleared. -/
def NotClosed (c : Connection Addr Time) : Prop := c.connectionState ≠ .closed

theorem carries_setState (state : ConnectionState) :
    Carries NotClosed (shift a b) (c.setState state) ((c.shift a b).setState state) := by
  by_cases hclears : state = .established .closed .closed true false
  · subst hclears
    intro c' h hopen
    obtain ⟨-, -, rfl⟩ := setState_ok_iff.mp h
    exact absurd rfl hopen
  · exact carries_of_eq_map (shift_setState a b c hclears)

omit [UserTime Time] in
theorem not_notClosed_iff : ¬ NotClosed c ↔ c.connectionState = .closed := not_not

theorem carries_callRecv (bufferLen : Nat) :
    Carries (fun p => NotClosed p.1) (Prod.map (shift a b) id) (c.callRecv bufferLen)
      ((c.shift a b).callRecv bufferLen) := by
  have hread := c.rx.shift_readBytes b bufferLen
  unfold callRecv
  rw [shift_connectionState]
  cases c.connectionState with
  | reset | closed | timeWait => exact carries_ok fun _ => rfl
  | listen | synSent | synReceived =>
      exact carries_of_eq_map (shift_retryAfter a b c .established)
  | established t r cc ca =>
      cases r with
      | closed => exact carries_ok fun _ => rfl
      | opened =>
          refine carries_ite Iff.rfl (fun _ => ?_) fun _ => ?_
          · exact carries_bind _ hread fun p => carries_ok fun _ => rfl
          · exact carries_of_eq_map (shift_retryAfter a b c (.recv _))
      | fin =>
          refine carries_bind _ hread fun p => ?_
          refine carries_ite Iff.rfl (fun _ => ?_) fun _ => carries_ok fun _ => rfl
          refine (carries_setState a b _ _).bind (fun c _ => carries_ok fun _ => rfl) ?_
          rintro c _ hno heq
          obtain rfl := Fallible.pure_ok_iff.mp heq
          exact hno

/-- Sending what is left once the end of the output is marked. -/
theorem shift_sendMarked (state : ConnectionState) :
    ({ c.shift a b with
        connectionState := state
        tx := { (c.shift a b).tx with tx := (c.shift a b).tx.tx.markFin } } :
        Connection Addr Time).sendAck =
      ({ c with connectionState := state, tx := { c.tx with tx := c.tx.tx.markFin } } :
        Connection Addr Time).sendAck.map (shift a b) :=
  shift_sendAck a b { c with connectionState := state, tx := { c.tx with tx := c.tx.tx.markFin } }

theorem carries_callShutdown :
    Carries (fun p => NotClosed p.1) (Prod.map (shift a b) id) c.callShutdown
      (c.shift a b).callShutdown := by
  have hsuspended := shift_anySuspended a b c (fun w => w.shift_isAcknowledged a)
  have hretry := shift_retryAfter (α := Unit) a b c .txQueueEmpty
  unfold callShutdown
  rw [shift_connectionState, hsuspended]
  cases c.connectionState with
  | reset | closed | timeWait => exact carries_ok fun _ => rfl
  | listen | synSent =>
      refine carries_of_lost fun p hp => ?_
      obtain rfl := pure_ok_iff.mp hp
      exact not_not_intro rfl
  | synReceived =>
      refine carries_ite Iff.rfl (fun _ => carries_of_eq_map hretry) fun _ => ?_
      refine carries_bind (shift a b) (shift_sendMarked a b c .synReceived) fun c => ?_
      exact carries_bind (shift a b) (shift_setState a b c (by simp)) fun c =>
        carries_ok fun _ => rfl
  | established t r cc ca =>
      cases t with
      | closed | fin => exact carries_ok fun _ => rfl
      | opened =>
          refine carries_ite Iff.rfl (fun _ => carries_of_eq_map hretry) fun _ => ?_
          refine carries_bind (shift a b) ?_ fun c => ?_
          · exact ite_transport Iff.rfl (fun _ => shift_setState a b _ (by simp)) fun _ => rfl
          · exact carries_bind (shift a b) (shift_sendMarked a b c c.connectionState) fun c =>
              carries_ok fun _ => rfl

theorem carries_finishClose (closeActive : Bool) :
    Carries (fun p => NotClosed p.1) (Prod.map (shift a b) id) (c.finishClose closeActive)
      ((c.shift a b).finishClose closeActive) := by
  unfold finishClose
  refine (carries_setState a b c _).bind (fun c _ => ?_) ?_
  · refine carries_ite Iff.rfl (fun _ => carries_ok fun _ => rfl) fun _ => ?_
    exact carries_of_eq_map (shift_continueAfter a b c .bothClosed)
  · rintro c ⟨c', r⟩ hclosed heq
    rw [not_notClosed_iff] at hclosed ⊢
    split at heq
    · obtain ⟨rfl, -⟩ := Prod.mk.inj (Fallible.pure_ok_iff.mp heq)
      exact hclosed
    · obtain ⟨-, rfl, -⟩ := continueAfter_ok_iff.mp heq
      exact hclosed

theorem carries_callClose :
    Carries (fun p => NotClosed p.1) (Prod.map (shift a b) id) c.callClose
      (c.shift a b).callClose := by
  have hsuspended := shift_anySuspended a b c (fun w => w.shift_isAcknowledged a)
  have hretry := shift_retryAfter (α := Unit) a b c .txQueueEmpty
  unfold callClose
  rw [shift_connectionState, hsuspended]
  cases c.connectionState with
  | reset | closed | timeWait => exact carries_ok fun _ => rfl
  | listen | synSent =>
      refine carries_of_lost fun p hp => ?_
      obtain rfl := pure_ok_iff.mp hp
      exact not_not_intro rfl
  | synReceived =>
      refine carries_ite Iff.rfl (fun _ => carries_of_eq_map hretry) fun _ => ?_
      refine carries_bind (shift a b) (shift_sendMarked a b c .synReceived) fun c => ?_
      refine carries_bind (shift a b) (shift_setState a b c (by simp)) fun c => ?_
      exact carries_of_eq_map (shift_continueAfter a b c .bothClosed)
  | established t r cc ca =>
      cases t with
      | closed | fin => exact carries_finishClose a b _ _
      | opened =>
          refine carries_ite Iff.rfl (fun _ => carries_of_eq_map hretry) fun _ => ?_
          refine carries_bind (shift a b)
            (shift_sendMarked a b c (.established .opened r cc ca)) fun c => ?_
          exact carries_finishClose a b c _

theorem carries_onFinAcked (ackn : SeqN) :
    Carries NotClosed (shift a b) (c.onFinAcked ackn) ((c.shift a b).onFinAcked (ackn + a)) := by
  have hqueue : debugAssert ((c.shift a b).tx.reTx = []) = debugAssert (c.tx.reTx = []) := by
    simp [debugAssert, ensure]
  unfold onFinAcked
  rw [shift_connectionState, hqueue]
  split
  · refine carries_ite (add_left_inj a) (fun _ => ?_) fun _ => carries_ok fun _ => rfl
    refine carries_bind_right fun _ => carries_bind_right fun _ => ?_
    exact carries_setState a b c _
  · exact carries_ok fun _ => rfl

theorem shift_storeData (seg : SegmentMeta) :
    (c.shift a b).storeData (seg.shift b a) =
      (c.storeData seg).map (Prod.map (shift a b) id) := by
  unfold storeData
  refine ite_transport (add_left_inj b) (fun _ => ?_) fun _ => ?_
  · refine bind_transport (RxBuffer.shift b) (c.rx.shift_write a b seg) fun rx => ?_
    exact bind_transport (shift a b) (shift_sendAck a b { c with rx := rx }) fun c => rfl
  · refine ite_transport ?_ (fun _ => ?_) fun _ => rfl
    · rw [SegmentMeta.shift_seqn, shift_rx, RxBuffer.shift_ackd, SeqN.lt_shift]
    · exact congrArg Except.ok (Prod.ext (shift_send a b c (c.bareSegment c.rx.ackd .ack)) rfl)

theorem storeData_closed {seg : SegmentMeta} {p : Connection Addr Time × Bool}
    (hst : c.connectionState = .closed) (h : c.storeData seg = .ok p) :
    p.1.connectionState = .closed := by
  unfold storeData at h
  split at h
  · simp only [bind_ok_iff] at h
    obtain ⟨rx, -, c', hc', -⟩ := h
    exact absurd hc' (sendAck_closed hst)
  · split at h
    all_goals
      obtain rfl := pure_ok_iff.mp h
      exact hst

theorem carries_onAck (seg : SegmentMeta) :
    Carries (fun p => NotClosed p.1) (Prod.map (shift a b) id) (c.onAck seg)
      ((c.shift a b).onAck (seg.shift b a)) := by
  unfold onAck
  refine carries_ite ?_ (fun _ => ?_) fun _ => carries_ok fun _ => rfl
  · rw [SegmentMeta.shift_ackn, shift_tx, TxBuffer.shift_unack, TxBuffer.shift_next,
      SeqN.inRangeInclusive_shift]
  · refine carries_bind (shift a b) ?_ fun c => ?_
    · exact ite_transport Iff.rfl (fun _ => shift_setState a b c (by decide)) fun _ => rfl
    refine carries_bind (shift a b) ?_ fun c => ?_
    · exact ite_transport (not_congr (add_left_inj a)) (fun _ => shift_onNewAck a b c seg)
        fun _ => rfl
    refine (carries_onFinAcked a b c _).bind
      (fun c _ => carries_of_eq_map (shift_storeData a b c seg)) ?_
    rintro c p hclosed heq
    rw [not_notClosed_iff] at hclosed ⊢
    exact storeData_closed c hclosed heq

theorem shift_onFin (isNonOrderedAck : Bool) :
    (c.shift a b).onFin isNonOrderedAck = (c.onFin isNonOrderedAck).map (shift a b) := by
  have hrecv := shift_triggerEvent a b c (fun w => w.shift_isRecv a) (.ok ())
  have hall := shift_triggerEvent a b c (f := fun _ => true) (g := fun _ => true)
    (fun _ => rfl) (.error .connectionClosing)
  unfold onFin
  rw [shift_connectionState, hrecv, hall]
  cases c.connectionState with
  | closed | listen | synSent | reset => rfl
  | timeWait =>
      refine ite_transport Iff.rfl (fun _ => ?_) fun _ => rfl
      exact congrArg Except.ok (shift_setTimerTimewait a b
        { c.triggerEvent (fun _ => true) (.error .connectionClosing) with timers := .default } _)
  | synReceived => exact shift_setState a b _ (by decide)
  | established t r cc ca => exact shift_setState a b _ (by simp)

theorem carries_onAccepted (seg : SegmentMeta) :
    Carries NotClosed (shift a b) (c.onAccepted seg)
      ((c.shift a b).onAccepted (seg.shift b a)) := by
  unfold onAccepted
  have hnew : (c.shift a b).tx.isNonOrderedAck (seg.shift b a).ackn =
      c.tx.isNonOrderedAck seg.ackn := TxBuffer.shift_isNonOrderedAck a b c.tx seg.ackn
  rw [hnew]
  have hack : Carries (fun p => NotClosed p.1) (Prod.map (shift a b) id)
      (if seg.flags.contains .ack then c.onAck seg else return (c, true))
      (if (seg.shift b a).flags.contains .ack then (c.shift a b).onAck (seg.shift b a)
        else return (c.shift a b, true)) :=
    carries_ite Iff.rfl (fun _ => carries_onAck a b c seg) fun _ => carries_ok fun _ => rfl
  refine hack.bind (fun p _ => ?_) ?_
  · exact carries_ite Iff.rfl (fun _ => carries_of_eq_map (shift_onFin a b p.1 _)) fun _ =>
      carries_ok fun _ => rfl
  · rintro ⟨c, proceed⟩ c' hclosed heq
    rw [not_notClosed_iff] at hclosed ⊢
    dsimp only at hclosed heq
    split at heq
    · rw [onFin, hclosed] at heq
      obtain rfl := pure_ok_iff.mp heq
      exact hclosed
    · obtain rfl := pure_ok_iff.mp heq
      exact hclosed

omit [UserTime Time] in
theorem Peered.notClosed (hs : Peered c) : NotClosed c := by
  intro hclosed
  have hidle := hs.not_idle
  rw [hclosed] at hidle
  cases hidle

theorem carries_onSegment (seg : SegmentMeta) (hs : Peered c) :
    Carries Peered (shift a b) (c.onSegment seg)
      ((c.shift a b).onSegment (seg.shift b a)) := by
  have hs' : Peered (c.shift a b) := hs
  rw [onSegment_of_peered hs, onSegment_of_peered hs']
  unfold onSegmentSynchronized
  rw [shift_checkSegmentSeqOk]
  refine carries_ite Iff.rfl (fun _ => ?_) fun _ => ?_
  · refine carries_ite Iff.rfl (fun _ => carries_ok fun _ => ?_) fun _ => carries_ok fun _ => rfl
    exact shift_send a b c (c.bareSegment c.rx.ackd .ack)
  refine carries_ite Iff.rfl (fun _ => carries_of_lost fun c' hrst => ?_) fun _ => ?_
  · exact not_peered_of_idle (onRst_spec hrst).idle
  refine carries_ite Iff.rfl (fun _ => carries_of_lost fun c' hsyn => ?_) fun _ => ?_
  · exact not_peered_of_idle (onSyn_spec hsyn).idle
  · exact (carries_onAccepted a b
      { c with tx := { c.tx with window := minU16 seg.window c.congestionWindow } } seg).mono
        fun c hs => hs.notClosed

theorem shift_onTimerReTx :
    (c.shift a b).onTimerReTx = c.onTimerReTx.map (shift a b) := by
  have hresent (state : ConnectionState) (expBackoff : Nat) (seg : SegmentMeta) (d : Duration) :
      (send { c.shift a b with connectionState := state, expBackoff := expBackoff }
          (seg.shift a b)).setTimerReTx d =
        shift a b ((send { c with connectionState := state, expBackoff := expBackoff }
          seg).setTimerReTx d) := by
    rw [← shift_setTimerReTx, ← shift_send]
    rfl
  unfold onTimerReTx
  rw [shift_connectionState, shift_tx, TxBuffer.shift_reTx]
  cases c.connectionState with
  | reset | timeWait | closed => rfl
  | listen | synSent | synReceived | established =>
      cases c.tx.reTx with
      | nil => rfl
      | cons seg reTx =>
          refine bind_transport_right fun expBackoff => bind_transport_right fun duration => ?_
          exact congrArg Except.ok (hresent _ expBackoff seg duration)

theorem carries_onTimeTick (time : Time) :
    Carries NotClosed (shift a b) (c.onTimeTick time) ((c.shift a b).onTimeTick time) := by
  unfold onTimeTick
  refine carries_bind (shift a b) ?_ fun c => ?_
  · exact ite_transport Iff.rfl (fun _ => shift_onTimerReTx a b
      { c with timers := { c.timers with reTx := none } }) fun _ => rfl
  have htimewait : Carries NotClosed (shift a b)
      (if expired c.timers.timewait time then
        onTimerTimewait { c with timers := { c.timers with timewait := none } } else return c)
      (if expired (c.shift a b).timers.timewait time then
        onTimerTimewait { c.shift a b with
          timers := { (c.shift a b).timers with timewait := none } }
      else return c.shift a b) := by
    refine carries_ite Iff.rfl (fun _ => carries_of_lost fun c' hc => ?_)
      fun _ => carries_ok fun _ => rfl
    simp only [onTimerTimewait, bind_ok_iff, pure_ok_iff] at hc
    obtain ⟨_, -, rfl⟩ := hc
    exact not_not_intro rfl
  refine htimewait.bind (fun c _ => ?_) ?_
  · refine carries_ite Iff.rfl (fun _ => carries_of_lost fun c' hc => ?_)
      fun _ => carries_ok fun _ => rfl
    obtain rfl := pure_ok_iff.mp hc
    exact not_not_intro rfl
  · rintro c c' hclosed heq
    rw [not_notClosed_iff] at hclosed ⊢
    split at heq
    · obtain rfl := pure_ok_iff.mp heq
      rfl
    · obtain rfl := pure_ok_iff.mp heq
      exact hclosed

theorem shift_callConnect (hs : Peered c) :
    (c.shift a b).callConnect = c.callConnect.map (Prod.map (shift a b) id) := by
  have hidle := hs.not_idle
  unfold callConnect
  rw [shift_connectionState]
  cases hst : c.connectionState with
  | closed | reset =>
      rw [hst] at hidle
      cases hidle
  | _ => rfl

omit [UserTime Time] in
theorem carries_callAbort :
    Carries (fun p => NotClosed p.1) (Prod.map (shift a b) id) c.callAbort
      (c.shift a b).callAbort := by
  unfold callAbort
  rw [shift_connectionState]
  cases c.connectionState with
  | reset | closed => exact carries_ok fun _ => rfl
  | _ =>
      refine carries_of_lost fun p hp => ?_
      obtain rfl := pure_ok_iff.mp hp
      exact not_not_intro rfl

omit [UserTime Time] in
/-- The operations that return a result besides the connection. -/
theorem carries_call {α β : Type} {x y : Res (Connection Addr Time × α)} (f : α → β)
    (h : Carries (fun p => NotClosed p.1) (Prod.map (shift a b) id) x y) :
    Carries (fun p => NotClosed p.1) (Prod.map (shift a b) id)
      (do let (c, r) ← x; return (c, f r)) (do let (c, r) ← y; return (c, f r)) := by
  refine h.bind (fun p _ => carries_ok fun _ => rfl) ?_
  rintro p _ hclosed heq
  obtain rfl := pure_ok_iff.mp heq
  exact hclosed

omit [UserTime Time] in
theorem carries_silent {x y : Res (Connection Addr Time)} {keep : Connection Addr Time → Prop}
    (h : Carries keep (shift a b) x y) :
    Carries (fun p => keep p.1) (Prod.map (shift a b) id)
      (do let c ← x; return (c, Output.none)) (do let c ← y; return (c, Output.none)) := by
  refine h.bind (fun c _ => carries_ok fun _ => rfl) ?_
  rintro c _ hlost heq
  obtain rfl := pure_ok_iff.mp heq
  exact hlost

theorem carries_step (hs : Peered c) (op : Op Time) :
    Carries (fun p => Peered p.1) (Prod.map (shift a b) id) (c.step op)
      ((c.shift a b).step (op.shift a b)) := by
  have hopen (p : Connection Addr Time × Output) (hp : Peered p.1) : NotClosed p.1 := hp.notClosed
  cases op with
  | callConnect =>
      exact (carries_call a b Output.call
        (carries_of_eq_map (shift_callConnect a b c hs))).mono hopen
  | callSend inputData =>
      exact (carries_call a b Output.call
        (carries_of_eq_map (shift_callSend a b c inputData))).mono hopen
  | callRecv bufferLen =>
      exact (carries_call a b Output.recv (carries_callRecv a b c bufferLen)).mono hopen
  | callShutdown => exact (carries_call a b Output.call (carries_callShutdown a b c)).mono hopen
  | callClose => exact (carries_call a b Output.call (carries_callClose a b c)).mono hopen
  | callAbort => exact (carries_call a b Output.call (carries_callAbort a b c)).mono hopen
  | setOptions options => exact carries_ok fun _ => rfl
  | onSegment seg => exact carries_silent a b (carries_onSegment a b c seg hs)
  | onTimeTick time => exact (carries_silent a b (carries_onTimeTick a b c time)).mono hopen

/-- A connection that stays open from operation to operation, with what each returns. -/
inductive OpenRun (c : Connection Addr Time) :
    List (Op Time × Output) → Connection Addr Time → Prop
  | start (hs : Peered c) : OpenRun c [] c
  | next {trace : List (Op Time × Output)} {c₁ c₂ : Connection Addr Time} {op : Op Time}
      {out : Output} (run : OpenRun c trace c₁) (hc : c₁.step op = .ok (c₂, out))
      (hs : Peered c₂) : OpenRun c (trace ++ [(op, out)]) c₂

variable {c}

theorem OpenRun.peered {trace : List (Op Time × Output)} {c' : Connection Addr Time}
    (run : OpenRun c trace c') : Peered c' := by
  cases run with
  | start hs => exact hs
  | next _ _ hs => exact hs

/-- A shifted run returns what the run returns. -/
theorem OpenRun.shift {trace : List (Op Time × Output)} {c' : Connection Addr Time}
    (run : OpenRun c trace c') :
    OpenRun (c.shift a b) (trace.map (Prod.map (Op.shift a b) id)) (c'.shift a b) := by
  induction run with
  | start hs => exact .start hs
  | next run hc hs ih =>
      rw [List.map_append]
      exact .next ih (carries_step a b _ run.peered _ _ hc hs) hs

variable (c)

/-- The behaviour does not depend on absolute sequence numbers: an operation on the
shifted connection, with a shifted segment, has the same result, leads to the same
states, resumes the same calls and sends the shifted segments. -/
theorem step_shift {c' : Connection Addr Time} {op : Op Time} {out : Output} (hs : Peered c)
    (h : c.step op = .ok (c', out)) (hs' : Peered c') :
    (c.shift a b).step (op.shift a b) = .ok (c'.shift a b, out) :=
  carries_step a b c hs op (c', out) h hs'

/-- Sending from the wrap of the local sequence space. -/
theorem step_shift_send : ∃ (c c' : Connection Unit Nat) (out : Output),
    c.tx.next = 1#32 ∧ c.step (.callSend [1, 2]) = .ok (c', out) ∧
      (c.shift 0xffffffff#32 7#32).tx.next = 0#32 ∧
      (c.shift 0xffffffff#32 7#32).step (.callSend [1, 2]) =
        .ok (c'.shift 0xffffffff#32 7#32, out) := by
  obtain ⟨c, -, hs, hnext, hsend⟩ : ∃ c : Connection Unit Nat, Reachable c ∧ Peered c ∧
      c.tx.next = 1#32 ∧
        (c.step (.callSend [1, 2])).toOption.any (fun p => decide (Peered p.1)) = true :=
    Transition.exists_reachableUnder step_of_next (initial_listening () .default zeroUser)
      [.onSegment ⟨100#32, 0#32, 1000#16, .syn, []⟩,
       .onSegment ⟨101#32, 1#32, 1000#16, .ack, []⟩] (by decide)
  cases hc : c.step (.callSend [1, 2]) with
  | error e =>
      rw [hc] at hsend
      cases hsend
  | ok p =>
      rw [hc] at hsend
      have hzero : (c.shift 0xffffffff#32 7#32).tx.next = 0#32 := by
        rw [shift_tx, TxBuffer.shift_next, hnext]
        rfl
      exact ⟨c, p.1, p.2, hnext, hc, hzero,
        step_shift 0xffffffff#32 7#32 c hs hc (of_decide_eq_true hsend)⟩

end Connection

end TcpState
