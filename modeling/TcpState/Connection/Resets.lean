import TcpState.Connection.CleanEnd
import TcpState.Connection.ToldStep

/-!
# Resets

An incoming RST ends a connection in a way that depends on its state: a
handshake on the accepting side goes back to Listen, a connecting or an open
connection moves to Reset, and in TimeWait the source has no branch for it. An
accepted SYN resets an open connection too.
-/

namespace TcpState

/-- The state an accepted RST should leave. -/
def ConnectionState.afterRst : ConnectionState → ConnectionState
  | .synReceived => .listen
  | .timeWait => .closed
  | _ => .reset

namespace Connection

variable {Addr Time : Type} [UserTime Time] {c c' : Connection Addr Time} {seg : SegmentMeta}

/-- The connection with every waiter told about the reset, and cleared. -/
def flushed (c : Connection Addr Time) : Connection Addr Time :=
  (c.triggerEvent (fun _ => true) (.error .connectionReset)).clear

omit [UserTime Time] in
@[simp] theorem flushed_sent (c : Connection Addr Time) :
    c.flushed.userData.sent = c.userData.sent := by
  rw [flushed, clear_sent, triggerEvent_sent]

omit [UserTime Time] in
theorem flushed_blank (c : Connection Addr Time) : Blank c.flushed := blank_clear _

section Rst

/-- The call returns, nothing is sent, and all that is left of the connection
is its new state. -/
def EndsByRst (c : Connection Addr Time) (seg : SegmentMeta) : Prop :=
  ∃ c', c.onSegment seg = .ok c' ∧ c'.userData.sent = c.userData.sent ∧
    c'.connectionState = c.connectionState.afterRst ∧
    Blank { c' with connectionState := .closed }

theorem onRst_synReceived (hst : c.connectionState = .synReceived) :
    c.onRst = .ok { c.clear with connectionState := .listen } := by
  rw [onRst, hst]
  rfl

theorem onRst_established (hst : c.connectionState.isEstablished = true) :
    c.onRst = .ok { c.flushed with connectionState := .reset } := by
  unfold onRst
  cases hs : c.connectionState with
  | established => rfl
  | _ => rw [hs] at hst; cases hst

theorem onRst_timeWait (hst : c.connectionState = .timeWait) : c.onRst = .error .unreachable := by
  rw [onRst, hst]

/-- An acceptable RST goes to its own branch. -/
theorem onSegment_acceptedRst (hs : c.Peered) (hcheck : c.checkSegmentSeqOk seg = true)
    (hrst : seg.hasRst = true) : c.onSegment seg = (c.windowed seg).onRst := by
  rw [onSegment_of_peered hs, onSegmentSynchronized]
  simp [hcheck, hrst, windowed]

/-- An acceptable RST ends every connection but one in TimeWait. -/
theorem endsByRst_iff (hs : c.Peered) (hcheck : c.checkSegmentSeqOk seg = true)
    (hrst : seg.hasRst = true) : c.EndsByRst seg ↔ c.connectionState ≠ .timeWait := by
  have hrun := onSegment_acceptedRst hs hcheck hrst
  constructor
  · rintro ⟨c', hc, -⟩ hst
    rw [hrun, onRst_timeWait (c := c.windowed seg) hst] at hc
    cases hc
  · intro hwait
    cases hst : c.connectionState with
    | synReceived =>
        refine ⟨_, hrun.trans (onRst_synReceived hst), ?_, ?_, blank_clear (c.windowed seg)⟩
        · exact clear_sent (c.windowed seg)
        · rw [hst]
          rfl
    | established t r cc ca =>
        have hest : (c.windowed seg).connectionState.isEstablished = true := by
          rw [windowed_connectionState, hst]
          rfl
        refine ⟨_, hrun.trans (onRst_established hest), ?_, ?_,
          flushed_blank (c.windowed seg)⟩
        · exact flushed_sent (c.windowed seg)
        · rw [hst]
          rfl
    | timeWait => exact absurd hst hwait
    | _ => rcases hs with hs | hs <;> rw [hst] at hs <;> cases hs

/-- A RST of the peer resets an open connection. -/
theorem endsByRst_established : ∃ c : Connection Unit Nat, Reachable c ∧
    c.connectionState = .fullyOpen ∧ c.EndsByRst ⟨101#32, 0#32, 0#16, .rst, []⟩ := by
  obtain ⟨c, hreach, hst, hpeer, hcheck⟩ : ∃ c : Connection Unit Nat, Reachable c ∧
      c.connectionState = .fullyOpen ∧ c.Peered ∧
        c.checkSegmentSeqOk ⟨101#32, 0#32, 0#16, .rst, []⟩ = true :=
    Transition.exists_reachableUnder step_of_next (initial_listening () .default zeroUser)
      [.onSegment ⟨100#32, 0#32, 1000#16, .syn, []⟩,
       .onSegment ⟨101#32, 1#32, 1000#16, .ack, []⟩] (by decide)
  refine ⟨c, hreach, hst, (endsByRst_iff hpeer hcheck (by decide)).mpr ?_⟩
  rw [hst]
  nofun

/-- A RST of the peer after the close handshake panics. -/
theorem rst_in_timeWait : ¬ ∀ c : Connection Unit Nat, Reachable c → c.Peered →
    ∀ seg : SegmentMeta, c.checkSegmentSeqOk seg = true → seg.hasRst = true →
      c.EndsByRst seg := by
  intro hall
  obtain ⟨c, hreach, hst, hcheck⟩ : ∃ c : Connection Unit Nat, Reachable c ∧
      c.connectionState = .timeWait ∧
        c.checkSegmentSeqOk ⟨102#32, 0#32, 0#16, .rst, []⟩ = true :=
    Transition.exists_reachableUnder step_of_next (initial_listening () .default zeroUser)
      [.onSegment ⟨100#32, 0#32, 1000#16, .syn, []⟩,
       .onSegment ⟨101#32, 1#32, 1000#16, .ack, []⟩, .callClose,
       .onSegment ⟨101#32, 2#32, 1000#16, .ack, []⟩,
       .onSegment ⟨101#32, 2#32, 1000#16, .fin ||| .ack, []⟩, .callRecv 1] (by decide)
  have hpeer : c.Peered := .inl (by rw [hst]; rfl)
  have hends := hall c hreach hpeer _ hcheck (by decide)
  exact (endsByRst_iff hpeer hcheck (by decide)).mp hends hst

end Rst

section Connecting

omit [UserTime Time] in
/-- During the handshake the first two numbers are acceptable. -/
theorem WellFormed.inRange_opening_iff (h : WellFormed c) (ho : c.connectionState.opening = true)
    (ackn : SeqN) : ackn.inRangeInclusive c.tx.unack c.tx.next = true ↔
      ackn = c.tx.initSeqn ∨ ackn = c.tx.initSeqn + 1#32 := by
  obtain ⟨hun, hnext⟩ := h.opening ho
  have hone : Circular.span c.tx.initSeqn (c.tx.initSeqn + 1#32) = 1 :=
    Circular.span_add_ofNat _ (by decide)
  rw [SeqN.inRangeInclusive_iff, hun, hnext, hone]
  constructor
  · intro hle
    have heq := Circular.add_ofNat_span c.tx.initSeqn ackn
    rcases Nat.le_one_iff_eq_zero_or_eq_one.mp hle with hspan | hspan
    · exact .inl (Circular.span_eq_zero_iff.mp hspan)
    · rw [hspan] at heq
      exact .inr heq.symm
  · rintro (rfl | rfl)
    · rw [Circular.span_self]
      exact Nat.zero_le _
    · exact hone.le

/-- A RST in SynSent is answered when its ACK is out of range, and resets the
connection otherwise. -/
theorem onSegment_rst_synSent (hst : c.connectionState = .synSent) (hrst : seg.hasRst = true) :
    c.onSegment seg =
      if seg.hasAck && !seg.ackn.inRangeInclusive c.tx.unack c.tx.next then
        .ok (c.send { seqn := seg.ackn, ackn := .zero, window := c.rx.currWindow,
                      flags := .rst, data := [] })
      else .ok c.reset := by
  unfold Connection.onSegment
  rw [hst]
  change c.onSegmentSynSent seg = _
  unfold onSegmentSynSent
  split <;> rfl

/-- Only a RST that acknowledges our SYN resets the connection, and any other
RST leaves it as it is. -/
def WithstandsRst (c : Connection Addr Time) (seg : SegmentMeta) : Prop :=
  ∃ c', c.onSegment seg = .ok c' ∧
    (c'.connectionState = .reset →
      seg.hasRst = true ∧ seg.hasAck = true ∧ seg.ackn = c.tx.initSeqn + 1#32) ∧
    (seg.hasRst = true → ¬ (seg.hasAck = true ∧ seg.ackn = c.tx.initSeqn + 1#32) →
      c'.connectionState = .synSent ∧ (c' = c ∨ ∃ s, c' = c.send s))

/-- Without RST a connecting connection is not reset. -/
theorem onSegment_not_reset (hst : c.connectionState = .synSent) (hrst : seg.hasRst = false)
    (hc : c.onSegment seg = .ok c') : c'.connectionState ≠ .reset := by
  unfold Connection.onSegment at hc
  rw [hst] at hc
  cases synSentStep_of_ok hc with
  | ignored | refused | waiting =>
      change c.connectionState ≠ .reset
      rw [hst]
      nofun
  | reset h => exact absurd (hrst.symm.trans h) Bool.false_ne_true
  | opened _ _ _ _ _ hsend =>
      rw [(sendAck_spec hsend).state, entered_connectionState]
      split <;> nofun

/-- A connecting connection withstands every segment but a RST without ACK, or
with an ACK for nothing. -/
theorem withstandsRst_iff (h : Reachable c) (hst : c.connectionState = .synSent) :
    c.WithstandsRst seg ↔
      ¬ (seg.hasRst = true ∧ (seg.hasAck = false ∨ seg.ackn = c.tx.initSeqn)) := by
  have hrange := h.wellFormed.inRange_opening_iff (by rw [hst]; rfl) seg.ackn
  have hne : c.tx.initSeqn ≠ c.tx.initSeqn + 1#32 := fun heq =>
    absurd (BitVec.self_eq_add_right.mp heq) (by decide)
  constructor
  · rintro ⟨c', hc, hreset, -⟩ ⟨hrst, hcase⟩
    have hstays : (seg.hasAck && !seg.ackn.inRangeInclusive c.tx.unack c.tx.next) = false := by
      rcases hcase with hack | hackn
      · rw [hack, Bool.false_and]
      · rw [hrange.mpr (.inl hackn), Bool.not_true, Bool.and_false]
    rw [onSegment_rst_synSent hst hrst, if_neg (Bool.eq_false_iff.mp hstays)] at hc
    obtain rfl := Except.ok.inj hc
    obtain ⟨-, hack, hackn⟩ := hreset rfl
    rcases hcase with hno | hinit
    · exact Bool.false_ne_true (hno.symm.trans hack)
    · exact hne (hinit.symm.trans hackn)
  · intro hcond
    cases hrst : seg.hasRst with
    | false =>
        obtain ⟨c', hc⟩ := (onSegment_succeeds_iff h seg).mpr (by
          unfold SegmentPanics
          rw [hst]
          exact not_false)
        refine ⟨c', hc, fun hreset => ?_,
          fun hno => absurd (hrst.symm.trans hno) Bool.false_ne_true⟩
        exact absurd hreset (onSegment_not_reset hst hrst hc)
    | true =>
        have hack : seg.hasAck = true := by
          cases hack : seg.hasAck with
          | false => exact absurd ⟨hrst, .inl hack⟩ hcond
          | true => rfl
        have hackn : seg.ackn ≠ c.tx.initSeqn := fun hackn => hcond ⟨hrst, .inr hackn⟩
        have hrun := onSegment_rst_synSent hst hrst
        split at hrun
        · refine ⟨_, hrun, fun hreset => ?_, fun _ _ => ⟨hst, .inr ⟨_, rfl⟩⟩⟩
          rw [send_connectionState, hst] at hreset
          cases hreset
        · rename_i hin
          rw [hack, Bool.true_and, Bool.not_eq_true', Bool.not_eq_false] at hin
          have hone := (hrange.mp hin).resolve_left hackn
          exact ⟨_, hrun, fun _ => ⟨hrst, hack, hone⟩, fun _ hno => absurd ⟨hack, hone⟩ hno⟩

/-- The refusal of our SYN resets the connection. -/
theorem withstandsRst_refused : ∃ c : Connection Unit Nat, Reachable c ∧
    c.connectionState = .synSent ∧ c.WithstandsRst ⟨0#32, 1#32, 0#16, .rst ||| .ack, []⟩ := by
  obtain ⟨c, hreach, hst, hackn⟩ : ∃ c : Connection Unit Nat, Reachable c ∧
      c.connectionState = .synSent ∧ c.tx.initSeqn = 0#32 :=
    Transition.exists_reachableUnder step_of_next (initial_new () zeroUser) [.callConnect]
      (by decide)
  refine ⟨c, hreach, hst, (withstandsRst_iff hreach hst).mpr ?_⟩
  rintro ⟨-, hack | hzero⟩
  · exact absurd hack (by decide)
  · rw [hackn] at hzero
    cases hzero

/-- A RST without any acknowledgement resets a connecting connection. -/
theorem blind_reset : ¬ ∀ c : Connection Unit Nat, Reachable c → c.connectionState = .synSent →
    ∀ seg : SegmentMeta, c.WithstandsRst seg := by
  intro hall
  obtain ⟨c, hreach, hst⟩ : ∃ c : Connection Unit Nat, Reachable c ∧
      c.connectionState = .synSent :=
    Transition.exists_reachableUnder step_of_next (initial_new () zeroUser) [.callConnect]
      (by decide)
  have hsafe := hall c hreach hst ⟨77#32, 0#32, 0#16, .rst, []⟩
  exact (withstandsRst_iff hreach hst).mp hsafe ⟨by decide, .inl (by decide)⟩

end Connecting

section Reported

/-- The calls of the application are answered with the reset, and change nothing. -/
structure RefusesCalls (c : Connection Addr Time) : Prop where
  send : ∀ inputData, inputData ≠ [] → c.callSend inputData = .ok (c, .error .connectionReset)
  recv : ∀ bufferLen, c.callRecv bufferLen = .ok (c, .error .connectionReset)
  shutdown : c.callShutdown = .ok (c, .error .connectionReset)
  close : c.callClose = .ok (c, .error .connectionReset)
  abort : c.callAbort = .ok (c, .error .connectionReset)

/-- Every waiter is told about the reset once, nothing stays suspended, and
later calls are refused until the connection is used again. -/
structure ResetReported (c c' : Connection Addr Time) : Prop where
  told : (c'.answers.drop c.answers.length).Perm
    (c.events.suspended.map fun p => (p.2, .error .connectionReset))
  none : c'.events.suspended = []
  later : ∀ c'', Transition.ReachableUnder ((system Addr Time).startingAt c')
    (fun _ op => op ≠ .callConnect) c'' → c''.RefusesCalls

theorem refusesCalls_of_reset (hst : c.connectionState = .reset) : c.RefusesCalls where
  send inputData hdata := by
    unfold callSend
    rw [hst]
    simp [assert, Fallible.ensure, hdata, pure, Except.pure]
  recv bufferLen := by
    unfold callRecv
    rw [hst]
    rfl
  shutdown := by
    unfold callShutdown
    rw [hst]
    rfl
  close := by
    unfold callClose
    rw [hst]
    rfl
  abort := by
    unfold callAbort
    rw [hst]
    rfl

/-- Without a timer a tick does nothing. -/
theorem onTimeTick_of_default (htimers : c.timers = .default) (time : Time) :
    c.onTimeTick time = .ok c := by
  simp [onTimeTick, htimers, Timers.default, expired, pure, Except.pure]

/-- Only a new connect leaves Reset. -/
theorem step_reset {op : Op Time} {out : Output} (hst : c.connectionState = .reset)
    (htimers : c.timers = .default) (hop : op ≠ .callConnect)
    (hc : c.step op = .ok (c', out)) : c'.connectionState = .reset ∧ c'.timers = .default := by
  have hrefuses := refusesCalls_of_reset hst
  have same {α : Type} {x : Res (Connection Addr Time × α)} {r r₁ : α}
      {c' : Connection Addr Time} (hx : x = .ok (c, r)) (hc : x = .ok (c', r₁)) :
      c'.connectionState = .reset ∧ c'.timers = .default := by
    obtain ⟨rfl, -⟩ := Prod.mk.inj (Except.ok.inj (hx.symm.trans hc))
    exact ⟨hst, htimers⟩
  cases opStep_of_ok hc with
  | callConnect => exact absurd rfl hop
  | @callSend inputData _ _ hc => exact same (hrefuses.send inputData (sendStep_of_ok hc).1) hc
  | @callRecv bufferLen _ _ hc => exact same (hrefuses.recv bufferLen) hc
  | callShutdown hc => exact same hrefuses.shutdown hc
  | callClose hc => exact same hrefuses.close hc
  | callAbort hc => exact same hrefuses.abort hc
  | setOptions => exact ⟨hst, htimers⟩
  | @onSegment seg _ hc =>
      unfold Connection.onSegment at hc
      rw [hst] at hc
      simp only [Fallible.bind_ok_iff] at hc
      obtain ⟨resp, -, hc⟩ := hc
      split at hc
      all_goals
        obtain rfl := Fallible.pure_ok_iff.mp hc
        exact ⟨hst, htimers⟩
  | @onTimeTick time _ hc =>
      rw [onTimeTick_of_default htimers] at hc
      obtain rfl := Except.ok.inj hc
      exact ⟨hst, htimers⟩

theorem refusesCalls_later (hst : c.connectionState = .reset) (htimers : c.timers = .default)
    (run : Transition.ReachableUnder ((system Addr Time).startingAt c)
      (fun _ op => op ≠ .callConnect) c') : c'.RefusesCalls := by
  have hreset : c'.connectionState = .reset ∧ c'.timers = .default := by
    refine Transition.ReachableUnder.invariant
      (P := fun c : Connection Addr Time => c.connectionState = .reset ∧ c.timers = .default)
      ?_ ?_ run
    · rintro c₀ rfl
      exact ⟨hst, htimers⟩
    · rintro c₀ op c₁ - ⟨hst₀, htimers₀⟩ hop ⟨out, hc⟩
      exact step_reset hst₀ htimers₀ hop hc
  exact refusesCalls_of_reset hreset.1

omit [UserTime Time] in
theorem triggerEvent_answers (c : Connection Addr Time) (r : Except Error Unit) :
    (c.triggerEvent (fun _ => true) r).answers =
      c.answers ++ c.events.suspended.map fun p => (p.2, r) := by
  have hall : (c.events.suspended.filter fun _ => true) = c.events.suspended :=
    List.filter_true _
  calc (c.triggerEvent (fun _ => true) r).answers
      = c.answers ++ (c.events.suspended.filter fun _ => true).map fun p => (p.2, r) :=
        UserData.answers_foldl_event c.userData _ r
    _ = c.answers ++ c.events.suspended.map fun p => (p.2, r) := by rw [hall]

omit [UserTime Time] in
theorem clear_answers (c : Connection Addr Time) : c.clear.answers =
    c.answers ++ c.events.suspended.map fun p => (p.2, .error .connectionClosing) :=
  triggerEvent_answers _ _

omit [UserTime Time] in
/-- Clearing tells nobody anything once everyone has been told about the reset. -/
theorem clear_told (c₀ : Connection Addr Time) {c₁ : Connection Addr Time}
    (hevents : c₁.events =
      (c₀.triggerEvent (fun _ => true) (.error .connectionReset)).events)
    (hanswers : c₁.answers =
      (c₀.triggerEvent (fun _ => true) (.error .connectionReset)).answers) :
    c₁.clear.answers =
      c₀.answers ++ c₀.events.suspended.map fun p => (p.2, .error .connectionReset) := by
  have hnone : c₁.events.suspended = [] := by
    rw [hevents, triggerEvent_suspended]
    simp
  calc c₁.clear.answers = c₁.answers := by
        rw [clear_answers, hnone, List.map_nil, List.append_nil]
    _ = _ := by rw [hanswers, triggerEvent_answers]

end Reported

section Waiter

/-- The call that connects waits for the answer. -/
def ConnectWaits (c : Connection Addr Time) : Prop :=
  c.connectionState = .synSent → ∃ k, (.established, k) ∈ c.events.suspended

omit [UserTime Time] in
theorem ConnectWaits.suspend (h : ConnectWaits c) (w : WaitUntil) :
    ConnectWaits (c.suspend w) := by
  intro hst
  obtain ⟨k, hk⟩ := h hst
  exact ⟨k, List.mem_append_left _ hk⟩

omit [UserTime Time] in
theorem ConnectWaits.of_left (hst : c.connectionState ≠ .synSent) : ConnectWaits c :=
  fun h => absurd h hst

omit [UserTime Time] in
/-- SynSent is entered by connecting only. -/
theorem synSent_entered {op : Op Time} {out : Output} (effect : RxEffect c op out c')
    (hst : c'.connectionState = .synSent) : c.connectionState = .synSent ∨
      op = .callConnect ∧ c.connectionState.idle = true := by
  have hpeer : ¬ c'.Peered := by
    rintro (hs | hs) <;> rw [hst] at hs <;> cases hs
  have hopen : c'.connectionState.isEstablished = false := by rw [hst]; rfl
  cases effect with
  | kept _ _ hstate =>
      rcases hstate with heq | ⟨-, hs, -⟩
      · exact .inl (heq.symm.trans hst)
      · exact absurd hs hpeer
  | cleared _ hidle =>
      rw [hst] at hidle
      cases hidle
  | connecting _ hidle => exact .inr ⟨rfl, hidle⟩
  | answered _ _ _ hstate =>
      rw [hst] at hstate
      cases hstate
  | synAcked hs => exact .inl hs
  | stored _ _ _ hs => exact absurd hs hpeer
  | finOnly _ _ _ _ _ _ _ _ _ hs => exact absurd hs hpeer
  | waiting => exact .inl hst
  | ended => exact .inl hst
  | read _ _ _ hstate => exact .inl (hstate.symm.trans hst)
  | drained _ _ _ _ hstate =>
      rcases hstate with ⟨hs, -⟩ | ⟨hidle, -⟩
      · exact absurd hs hpeer
      · rw [hst] at hidle
        cases hidle

/-- A timer leaves the waiters alone or clears the connection. -/
theorem onTimeTick_events {time : Time} (hc : c.onTimeTick time = .ok c') :
    c'.connectionState = .closed ∨ c'.events = c.events := by
  have resent {c₀ c₁ : Connection Addr Time} (h : c₀.onTimerReTx = .ok c₁) :
      c₁.events = c₀.events := by
    unfold onTimerReTx at h
    split at h
    case h_1 | h_2 | h_3 | h_4 =>
      split at h
      · obtain rfl := Fallible.pure_ok_iff.mp h
        rfl
      · simp only [Fallible.bind_ok_iff, Fallible.pure_ok_iff] at h
        obtain ⟨_, -, _, -, rfl⟩ := h
        rfl
    case h_5 =>
      obtain rfl := Fallible.pure_ok_iff.mp h
      rfl
    case h_6 | h_7 => cases h
  simp only [Connection.onTimeTick, Fallible.bind_ok_iff] at hc
  obtain ⟨c₁, h₁, c₂, h₂, hc⟩ := hc
  have hfirst : c₁.events = c.events := by
    split at h₁
    · exact (resent h₁).trans rfl
    · obtain rfl := Fallible.pure_ok_iff.mp h₁
      rfl
  have hsecond : c₂.connectionState = .closed ∨ c₂.events = c.events := by
    split at h₂
    · simp only [onTimerTimewait, Fallible.bind_ok_iff, Fallible.pure_ok_iff] at h₂
      obtain ⟨_, -, rfl⟩ := h₂
      exact .inl rfl
    · obtain rfl := Fallible.pure_ok_iff.mp h₂
      exact .inr hfirst
  split at hc
  · obtain rfl := Fallible.pure_ok_iff.mp hc
    exact .inl rfl
  · obtain rfl := Fallible.pure_ok_iff.mp hc
    exact hsecond

theorem connectWaits_callConnect {r : Except Error Unit} (hc : c.callConnect = .ok (c', r))
    (hw : ConnectWaits c) : ConnectWaits c' := by
  unfold callConnect at hc
  split at hc
  case h_1 | h_2 =>
    simp only [Fallible.bind_ok_iff, continueAfter_ok_iff] at hc
    obtain ⟨c₁, -, -, rfl, -⟩ := hc
    exact fun _ => ⟨_, List.mem_append_right _ (List.mem_singleton_self _)⟩
  case h_3 =>
    obtain ⟨rfl, -⟩ := Prod.mk.inj (Fallible.pure_ok_iff.mp hc)
    exact hw

theorem connectWaits_onSegment (hst : c.connectionState = .synSent) (hw : ConnectWaits c)
    (hc : c.onSegment seg = .ok c') : ConnectWaits c' := by
  unfold Connection.onSegment at hc
  rw [hst] at hc
  cases synSentStep_of_ok hc with
  | ignored | refused => exact hw
  | reset => exact .of_left nofun
  | waiting =>
      intro _
      obtain ⟨k, hk⟩ := hw hst
      exact ⟨k, List.mem_filter.mpr ⟨hk, rfl⟩⟩
  | opened _ _ _ _ _ hsend =>
      apply ConnectWaits.of_left
      rw [(sendAck_spec hsend).state, entered_connectionState]
      split <;> nofun

theorem ConnectWaits.step {op : Op Time} {out : Output} (hw : ConnectWaits c)
    (hwf : WellFormed c) (hc : c.step op = .ok (c', out)) : ConnectWaits c' := by
  intro hst'
  have hcalls (hop : op ≠ .callConnect) : c.connectionState = .synSent :=
    (synSent_entered (hwf.rxEffect hc) hst').resolve_right fun h => hop h.1
  have left {c₀ : Connection Addr Time} : ¬ c₀.clear.connectionState = .synSent :=
    fun h => by cases h
  cases opStep_of_ok hc with
  | callConnect hc => exact connectWaits_callConnect hc hw hst'
  | callSend hc =>
      have hst := hcalls (by simp)
      cases (sendStep_of_ok hc).2 with
      | refused => exact hw hst
      | @delayed q => exact ConnectWaits.suspend (c := c.withQueue q) hw _ hst'
      | queued hs | sent hs =>
          rw [hst] at hs
          cases hs
  | callRecv hc =>
      have hst := hcalls (by simp)
      cases recvStep_of_ok hc with
      | refused => exact hw hst
      | early => exact hw.suspend _ hst'
      | ended hs | waiting hs | read hs | full hs | drained hs =>
          rw [hst] at hs
          cases hs
  | callShutdown hc =>
      rw [callShutdown, hcalls (by simp)] at hc
      obtain ⟨rfl, -⟩ := Prod.mk.inj (Fallible.pure_ok_iff.mp hc)
      exact absurd hst' left
  | callClose hc =>
      rw [callClose, hcalls (by simp)] at hc
      obtain ⟨rfl, -⟩ := Prod.mk.inj (Fallible.pure_ok_iff.mp hc)
      exact absurd hst' left
  | callAbort hc =>
      rw [callAbort, hcalls (by simp)] at hc
      obtain ⟨rfl, -⟩ := Prod.mk.inj (Fallible.pure_ok_iff.mp hc)
      exact absurd hst' left
  | setOptions => exact hw hst'
  | onSegment hc => exact connectWaits_onSegment (hcalls (by simp)) hw hc hst'
  | onTimeTick hc =>
      rcases onTimeTick_events hc with hclosed | hevents
      · rw [hst'] at hclosed
        cases hclosed
      · rw [hevents]
        exact hw (hcalls (by simp))

/-- A connecting connection has a suspended caller. -/
theorem Reachable.connectWaits (h : Reachable c) : ConnectWaits c := by
  refine Transition.ReachableUnder.invariant (P := ConnectWaits) ?_ ?_ h
  · intro c hinit
    apply ConnectWaits.of_left
    intro hst
    have hidle := hinit.fresh.2.2
    rw [hst] at hidle
    cases hidle
  · rintro c op c' hreach hw - ⟨out, hc⟩
    exact hw.step (Reachable.wellFormed hreach) hc

end Waiter

section Incoming

/-- An accepted segment without RST and SYN does not lead to Reset. -/
theorem onAccepted_not_reset (hs : c.Peered) (hc : c.onAccepted seg = .ok c') :
    c'.connectionState ≠ .reset := by
  have notReset {c : Connection Addr Time} (hs : c.Peered) : c.connectionState ≠ .reset := by
    intro hst
    have hidle := hs.not_idle
    rw [hst] at hidle
    cases hidle
  have finished {c₀ c₁ : Connection Addr Time} {isNew : Bool} (hs₀ : c₀.Peered)
      (hfin : (if seg.hasFin then c₀.onFin isNew else .ok c₀) = .ok c₁) :
      c₁.connectionState ≠ .reset := by
    split at hfin
    · exact notReset (onFin_rx hs₀ hfin).1
    · obtain rfl := Except.ok.inj hfin
      exact notReset hs₀
  cases acceptedStep_of_ok hc with
  | unacknowledged _ hfin => exact finished hs hfin
  | invalid => exact notReset hs
  | @discarded c₁ c₂ _ _ h₁ h₂ =>
      have hstate : c₂.connectionState ≠ .reset := by
        rcases onFinAcked_peered (h₁.peered hs).1 h₂ with ⟨-, hs₂, -⟩ | ⟨-, rfl⟩
        · exact notReset hs₂
        · nofun
      split
      · exact hstate
      · exact hstate
  | stored _ _ h₁ h₂ _ _ h₃ hfin =>
      rcases onFinAcked_peered (h₁.peered hs).1 h₂ with ⟨-, hs₂, -⟩ | ⟨-, rfl⟩
      · exact finished (AckSent.rxState (sendAck_spec h₃) hs₂).1 hfin
      · exact absurd h₃ (sendAck_closed rfl)

/-- What is left of an open connection that a segment moves to Reset. -/
theorem flushed_of_established (hst : c.connectionState.isEstablished = true)
    (hc : c.onSegment seg = .ok c') (hreset : c'.connectionState = .reset) :
    c'.answers = c.answers ++ c.events.suspended.map (fun p => (p.2, .error .connectionReset)) ∧
      c'.events.suspended = [] ∧ c'.timers = .default := by
  have hs : c.Peered := by
    cases hs : c.connectionState with
    | established => exact .inl (by rw [hs]; rfl)
    | _ => rw [hs] at hst; cases hst
  have hopen : c.connectionState ≠ .reset := by
    intro heq
    rw [heq] at hst
    cases hst
  rw [onSegment_of_peered hs] at hc
  cases synchronizedStep_iff.mp hc with
  | dropped => exact absurd hreset hopen
  | rejected => exact absurd hreset hopen
  | reset _ _ hrst =>
      rw [onRst_established (c := c.windowed seg) hst] at hrst
      obtain rfl := Except.ok.inj hrst
      refine ⟨?_, clear_suspended _, rfl⟩
      exact clear_told (c.windowed seg) rfl rfl
  | syn _ _ _ hsyn =>
      obtain ⟨-, -, rfl⟩ := setState_ok_iff.mp hsyn
      refine ⟨?_, ?_, rfl⟩
      · change (Connection.clear _).answers = _
        refine clear_told (c.windowed seg) rfl ?_
        exact UserData.answers_send _ _ _
      · rw [stateSet_reset, entered_suspended, clear_suspended]
        rfl
  | accepted _ _ _ hacc =>
      have hs' : (c.windowed seg).Peered := hs
      exact absurd hreset (onAccepted_not_reset hs' hacc)

/-- A connecting connection moves to Reset without telling its waiters so. -/
theorem reset_of_synSent (hst : c.connectionState = .synSent) (hc : c.onSegment seg = .ok c')
    (hreset : c'.connectionState = .reset) : c' = c.reset := by
  have hopen : c.connectionState ≠ .reset := by
    rw [hst]
    nofun
  cases hrst : seg.hasRst with
  | false => exact absurd hreset (onSegment_not_reset hst hrst hc)
  | true =>
      rw [onSegment_rst_synSent hst hrst] at hc
      split at hc
      · obtain rfl := Except.ok.inj hc
        exact absurd hreset hopen
      · exact (Except.ok.inj hc).symm

/-- A reset by the peer is reported as such exactly on an open connection. -/
theorem resetReported_iff (h : Reachable c)
    (hst : c.connectionState = .synSent ∨ c.connectionState.isEstablished = true)
    (hc : c.onSegment seg = .ok c') (hreset : c'.connectionState = .reset) :
    ResetReported c c' ↔ c.connectionState.isEstablished = true := by
  constructor
  · intro hreported
    by_contra hest
    have hsyn := hst.resolve_right hest
    obtain rfl := reset_of_synSent hsyn hc hreset
    obtain ⟨k, hk⟩ := h.connectWaits hsyn
    have htold := hreported.told
    rw [show c.reset.answers = c.clear.answers from rfl, clear_answers, List.drop_left] at htold
    have hmem := htold.subset (List.mem_map_of_mem hk)
    obtain ⟨p, -, heq⟩ := List.mem_map.mp hmem
    cases (Prod.mk.inj heq).2
  · intro hest
    obtain ⟨hanswers, hnone, htimers⟩ := flushed_of_established hest hc hreset
    refine ⟨?_, hnone, fun c'' run => refusesCalls_later hreset htimers run⟩
    rw [hanswers, List.drop_left]

/-- Two waiters are told about the RST of the peer. -/
theorem resetReported_two : ∃ c c' : Connection Unit Nat, Reachable c ∧
    c.events.suspended.length = 2 ∧ ResetReported c c' := by
  obtain ⟨c, hreach, ⟨hest, hlen⟩, hnext⟩ : ∃ c : Connection Unit Nat, Reachable c ∧
      (c.connectionState.isEstablished = true ∧ c.events.suspended.length = 2) ∧
      (c.onSegment ⟨101#32, 0#32, 0#16, .rst, []⟩).toOption.any
        (fun c' => decide (c'.connectionState = .reset)) = true :=
    Transition.exists_reachableUnder step_of_next (initial_listening () .default zeroUser)
      [.onSegment ⟨100#32, 0#32, 1000#16, .syn, []⟩,
       .onSegment ⟨101#32, 1#32, 1000#16, .ack, []⟩, .callRecv 1, .callClose] (by decide)
  obtain ⟨c', hc, hreset⟩ := Fallible.exists_of_toOption_any hnext
  exact ⟨c, c', hreach, hlen,
    (resetReported_iff hreach (.inr hest) hc (of_decide_eq_true hreset)).mpr hest⟩

/-- The caller of a refused connect is told about a close. -/
theorem refused_connect_misreported : ¬ ∀ c : Connection Unit Nat, Reachable c →
    c.connectionState = .synSent ∨ c.connectionState.isEstablished = true →
    ∀ (seg : SegmentMeta) (c' : Connection Unit Nat), c.onSegment seg = .ok c' →
      c'.connectionState = .reset → ResetReported c c' := by
  intro hall
  obtain ⟨c, hreach, hst, hnext⟩ : ∃ c : Connection Unit Nat, Reachable c ∧
      c.connectionState = .synSent ∧
      (c.onSegment ⟨0#32, 1#32, 0#16, .rst ||| .ack, []⟩).toOption.any
        (fun c' => decide (c'.connectionState = .reset)) = true :=
    Transition.exists_reachableUnder step_of_next (initial_new () zeroUser) [.callConnect]
      (by decide)
  obtain ⟨c', hc, hreset⟩ := Fallible.exists_of_toOption_any hnext
  have hreset := of_decide_eq_true hreset
  have hest := (resetReported_iff hreach (.inl hst) hc hreset).mp
    (hall c hreach (.inl hst) _ c' hc hreset)
  rw [hst] at hest
  cases hest

end Incoming

end Connection

end TcpState
