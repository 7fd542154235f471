import TcpState.Connection.CloseCalled
import TcpState.Connection.Intake
import TcpState.Connection.ToldStep

/-!
# The completion of a close

A call of `call_close` waits for both directions to be closed. Its waiter
stays as long as the connection is open, is failed with the connection, or is
resumed by the close reduction.
-/

namespace TcpState

namespace Connection

open ConnectionState

variable {Addr Time : Type}

section Waiters

/-- The calls of `call_close` that wait go on waiting. -/
def KeepsClosers (c c' : Connection Addr Time) : Prop :=
  ∀ k, (.bothClosed, k) ∈ c.events.suspended → (.bothClosed, k) ∈ c'.events.suspended

/-- Every call that is told a result is told an error. -/
def FailsWaiters (c c' : Connection Addr Time) : Prop :=
  ∃ log : List (Cookie × Except Error Unit), c'.answers = c.answers ++ log ∧
    ∀ t ∈ log, t.2 ≠ .ok ()

variable {c c₁ c' : Connection Addr Time}

namespace FailsWaiters

theorem of_eq (h : c'.answers = c.answers) : FailsWaiters c c' :=
  ⟨[], by rw [h, List.append_nil], nofun⟩

theorem trans (h₁ : FailsWaiters c c₁) (h₂ : FailsWaiters c₁ c') : FailsWaiters c c' := by
  obtain ⟨log₁, hlog₁, herr₁⟩ := h₁
  obtain ⟨log₂, hlog₂, herr₂⟩ := h₂
  refine ⟨log₁ ++ log₂, by rw [hlog₂, hlog₁, List.append_assoc], fun t ht => ?_⟩
  rcases List.mem_append.mp ht with ht | ht
  · exact herr₁ t ht
  · exact herr₂ t ht

theorem fail (c : Connection Addr Time) (f : WaitUntil → Bool) (e : Error) :
    FailsWaiters c (c.triggerEvent f (.error e)) := by
  refine ⟨_, UserData.answers_foldl_event c.userData _ (.error e), fun t ht => ?_⟩
  obtain ⟨p, -, rfl⟩ := List.mem_map.mp ht
  exact nofun

theorem send (c : Connection Addr Time) (seg : SegmentMeta) : FailsWaiters c (c.send seg) :=
  of_eq (UserData.answers_send _ _ _)

theorem clear (c : Connection Addr Time) : FailsWaiters c c.clear := by
  have hanew : FailsWaiters c { c with
      connectionState := .closed, dupAckCount := 0#8, congestionWindow := initialWindowSize,
      expBackoff := 1, rx := .default, tx := .default, timings := .default,
      timers := .default } := of_eq rfl
  exact hanew.trans (fail _ _ _)

/-- Reset is entered without resuming anybody. -/
theorem entered_reset (c : Connection Addr Time) : FailsWaiters c (c.entered .reset) := of_eq rfl

theorem not_ok (h : FailsWaiters c c') (k : Cookie) :
    (k, .ok ()) ∉ c'.answers.drop c.answers.length := by
  obtain ⟨log, hlog, herr⟩ := h
  rw [hlog, List.drop_left]
  exact fun hk => herr _ hk rfl

end FailsWaiters

namespace KeepsClosers

theorem of_eq (h : c'.events = c.events) : KeepsClosers c c' := fun _ hk => h ▸ hk

theorem refl (c : Connection Addr Time) : KeepsClosers c c := fun _ hk => hk

theorem trans (h₁ : KeepsClosers c c₁) (h₂ : KeepsClosers c₁ c') : KeepsClosers c c' :=
  fun k hk => h₂ k (h₁ k hk)

/-- Only the events before the step matter. -/
theorem from_eq (h : KeepsClosers c₁ c') (hevents : c₁.events = c.events) : KeepsClosers c c' :=
  (of_eq hevents).trans h

theorem triggerEvent (c : Connection Addr Time) {f : WaitUntil → Bool} (r : Except Error Unit)
    (hf : f .bothClosed = false) : KeepsClosers c (c.triggerEvent f r) := by
  intro k hk
  rw [triggerEvent_suspended, List.mem_filter]
  exact ⟨hk, by rw [hf]; rfl⟩

theorem suspend (c : Connection Addr Time) (w : WaitUntil) : KeepsClosers c (c.suspend w) :=
  fun _ hk => List.mem_append_left _ hk

theorem entered (c : Connection Addr Time) {state : ConnectionState}
    (hstate : state.releases .bothClosed = false) : KeepsClosers c (c.entered state) := by
  intro k hk
  rw [entered_suspended, List.mem_filter]
  exact ⟨hk, by rw [hstate]; rfl⟩

theorem opened (c : Connection Addr Time) : KeepsClosers c c.opened := by
  unfold Connection.opened
  split
  · exact entered c rfl
  · exact refl c

theorem taken (c : Connection Addr Time) (q : BlobQueue) : KeepsClosers c (c.taken q) := by
  have hqueue : KeepsClosers c (c.withQueue q) := of_eq rfl
  have hdrained : KeepsClosers c (c.drained q) := by
    unfold Connection.drained
    split
    · exact hqueue.trans (triggerEvent _ _ rfl)
    · exact hqueue
  unfold Connection.taken
  split
  · refine hdrained.trans (entered _ ?_)
    cases c.connectionState with
    | established t r cc ca => cases r <;> rfl
    | _ => rfl
  · exact hdrained

theorem clearReTxRange (c : Connection Addr Time) (stop : SeqN) :
    KeepsClosers c (c.clearReTxRange stop) :=
  fun _ hk => List.mem_filter.mpr ⟨hk, rfl⟩

variable [UserTime Time]

theorem emit (c : Connection Addr Time) (seg : SegmentMeta) : KeepsClosers c (c.emit seg) := by
  unfold Connection.emit
  dsimp only
  repeat' split
  all_goals exact of_eq rfl

theorem sendAck (hc : c.sendAck = .ok c') : KeepsClosers c c' := by
  obtain ⟨q, -, -, rfl⟩ := sendAck_eq hc
  exact (taken c q).trans (emit _ _)

theorem onNewAck {seg : SegmentMeta} (hc : c.onNewAck seg = .ok c') : KeepsClosers c c' := by
  simp only [Connection.onNewAck, Fallible.bind_ok_iff, Fallible.pure_ok_iff] at hc
  obtain ⟨w, -, rfl⟩ := hc
  refine .trans ?_ (triggerEvent _ _ rfl)
  generalize hacked : Connection.clearReTxRange _ seg.ackn = c₁
  have h : KeepsClosers c c₁ := by
    rw [← hacked]
    refine .trans ?_ (clearReTxRange _ _)
    exact from_eq (triggerEvent _ _ rfl) rfl
  split
  · exact h.trans (of_eq rfl)
  · exact h.trans (of_eq rfl)

theorem takes {seg : SegmentMeta} (hc : c.Takes seg c') : KeepsClosers c c' := by
  unfold Takes at hc
  split at hc
  · exact (opened c).trans (onNewAck hc)
  · obtain rfl := Except.ok.inj hc
    exact opened c

/-- The FIN of the peer closes its direction only when it has been read. -/
theorem onFin {isNew : Bool} (hest : c.connectionState.isEstablished = true)
    (hc : c.onFin isNew = .ok c') : KeepsClosers c c' := by
  obtain ⟨t, r, cc, ca, hst⟩ := isEstablished_iff.mp hest
  unfold Connection.onFin at hc
  rw [hst] at hc
  obtain ⟨-, -, rfl⟩ := setState_ok_iff.mp hc
  rw [stateSet_eq_entered _ (.inr (.inl (by decide)))]
  refine (triggerEvent c _ rfl).trans (entered _ ?_)
  cases t <;> rfl

/-- A close that goes on waiting keeps the earlier ones waiting. -/
theorem closing {ca : Bool}
    (h : ¬ (c.connectionState.tx = .closed ∧ c.connectionState.rx = .closed)) :
    KeepsClosers c (c.closing ca) := by
  unfold Connection.closing
  dsimp only
  rw [if_neg h]
  refine .trans ?_ (suspend _ _)
  have hopen : c.connectionState.tx ≠ .closed ∨ c.connectionState.rx ≠ .closed := by
    by_contra hboth
    exact h (by tauto)
  rw [stateSet_eq_entered c (by tauto)]
  refine entered c ?_
  cases ht : c.connectionState.tx <;> cases hr : c.connectionState.rx <;>
    first | rfl | exact absurd ⟨ht, hr⟩ h

end KeepsClosers

end Waiters

section Ends

variable [UserTime Time]

/-- What an operation does to the calls that wait for a close, once the close
has been recorded: they go on waiting, the reduction completes them, or they
fail with every other call. -/
inductive ClosersStep (c : Connection Addr Time) (closeActive : Bool) :
    Connection Addr Time → Prop
  | kept {c' : Connection Addr Time} (h : KeepsClosers c c') : ClosersStep c closeActive c'
  | completed {c' : Connection Addr Time}
      (hstate : c'.connectionState = if closeActive then .timeWait else .closed) :
      ClosersStep c closeActive c'
  | failed {c' : Connection Addr Time} (h : FailsWaiters c c') : ClosersStep c closeActive c'

variable {c c₁ c₂ c' : Connection Addr Time} {t r : ChannelState} {ca : Bool}
  {seg : SegmentMeta}

omit [UserTime Time] in
theorem reduced_both (ca : Bool) :
    (ConnectionState.established .closed .closed true ca).reduced =
      if ca then .timeWait else .closed := by
  cases ca <;> rfl

/-- The acknowledgement of our FIN completes the close if everything of the
peer has been read. -/
theorem onFinAcked_closers {ackn : SeqN} (hst : c.connectionState = .established t r true ca)
    (hc : c.onFinAcked ackn = .ok c') :
    c'.connectionState.isEstablished = true ∧ KeepsClosers c c' ∨
      c'.connectionState = if ca then .timeWait else .closed := by
  rcases onFinAcked_ok_iff.mp hc with ⟨r', cc', ca', hst', -, -, -, rfl⟩ | ⟨-, rfl⟩
  · obtain ⟨-, rfl, rfl, rfl⟩ := established.inj (hst.symm.trans hst')
    by_cases hr : r = .closed
    · right
      rw [stateSet_connectionState, hr, reduced_both]
    · left
      rw [stateSet_eq_entered c (.inr (.inl hr))]
      refine ⟨by rw [entered_connectionState]; rfl, .entered c ?_⟩
      cases r with
      | closed => exact absurd rfl hr
      | _ => rfl
  · exact .inl ⟨by rw [hst]; rfl, .refl _⟩

theorem onAccepted_closers (hst : c.connectionState = .established t r true ca)
    (hc : c.onAccepted seg = .ok c') : ClosersStep c ca c' := by
  have hest : c.connectionState.isEstablished = true := by rw [hst]; rfl
  have fin {c₀ c' : Connection Addr Time} {isNew : Bool}
      (hest : c₀.connectionState.isEstablished = true)
      (hc : (if seg.hasFin then c₀.onFin isNew else .ok c₀) = .ok c') : KeepsClosers c₀ c' := by
    split at hc
    · exact .onFin hest hc
    · obtain rfl := Except.ok.inj hc
      exact .refl c₀
  have taken {c₁ : Connection Addr Time} (h₁ : c.Takes seg c₁) :
      c₁.connectionState = .established t r true ca := by
    rw [h₁.acknowledged.frame.1, opened_connectionState, if_neg (by rw [hst]; nofun), hst]
  cases acceptedStep_of_ok hc with
  | unacknowledged _ hfin => exact .kept (fin hest hfin)
  | invalid => exact .kept (.refl c)
  | @discarded c₁ c₂ _ _ h₁ h₂ =>
      rcases onFinAcked_closers (taken h₁) h₂ with ⟨-, hkept⟩ | hdone
      · refine .kept (((KeepsClosers.takes h₁).trans hkept).trans ?_)
        split <;> exact .of_eq rfl
      · refine .completed ?_
        split <;> exact hdone
  | @stored c₁ c₂ c₃ _ rx _ _ h₁ h₂ _ _ h₃ hfin =>
      rcases onFinAcked_closers (taken h₁) h₂ with ⟨hest₂, hkept⟩ | hdone
      · have hest₃ := sendAck_isEstablished (c := { c₂ with rx := rx }) hest₂ h₃
        have hsent : KeepsClosers c₂ c₃ := .from_eq (.sendAck h₃) rfl
        exact .kept ((((KeepsClosers.takes h₁).trans hkept).trans hsent).trans (fin hest₃ hfin))
      · cases ca with
        | true =>
            exact .completed
              (timeWait_of_onFin (timeWait_of_sendAck (c := { c₂ with rx := rx }) hdone h₃) hfin)
        | false => exact absurd h₃ (sendAck_closed hdone)

theorem onSegment_closers (hst : c.connectionState = .established t r true ca)
    (hc : c.onSegment seg = .ok c') : ClosersStep c ca c' := by
  have hwindow : KeepsClosers c (c.windowed seg) := .of_eq rfl
  unfold Connection.onSegment at hc
  rw [hst] at hc
  cases synchronizedStep_iff.mp hc with
  | dropped => exact .kept (.refl c)
  | rejected => exact .kept (.of_eq rfl)
  | reset _ _ hrst =>
      unfold onRst at hrst
      rw [windowed_connectionState, hst] at hrst
      obtain ⟨-, -, rfl⟩ := setState_ok_iff.mp hrst
      have hwindow : FailsWaiters c (c.windowed seg) := .of_eq rfl
      rw [stateSet_reset]
      exact .failed (((hwindow.trans (.fail _ _ _)).trans (.clear _)).trans (.entered_reset _))
  | syn _ _ _ hsyn =>
      obtain ⟨-, -, rfl⟩ := setState_ok_iff.mp hsyn
      have hwindow : FailsWaiters c (c.windowed seg) := .of_eq rfl
      rw [stateSet_reset]
      exact .failed ((((hwindow.trans (.fail _ _ _)).trans (.send _ _)).trans (.clear _)).trans
        (.entered_reset _))
  | accepted _ _ _ hacc =>
      cases onAccepted_closers (c := c.windowed seg) hst hacc with
      | kept h => exact .kept (hwindow.trans h)
      | completed h => exact .completed h
      | failed h => exact .failed (FailsWaiters.trans (.of_eq rfl) h)

theorem onTimeTick_closers {time : Time} (hest : c.connectionState.isEstablished = true)
    (hc : c.onTimeTick time = .ok c') : KeepsClosers c c' ∨ FailsWaiters c c' := by
  have resent {c₀ c₁ : Connection Addr Time} (hc : c₀.onTimerReTx = .ok c₁) :
      c₁.events = c₀.events ∧ c₁.answers = c₀.answers ∧
        c₁.connectionState = c₀.connectionState := by
    unfold onTimerReTx at hc
    split at hc
    case h_1 | h_2 | h_3 | h_4 =>
      split at hc
      · obtain rfl := Fallible.pure_ok_iff.mp hc
        exact ⟨rfl, rfl, rfl⟩
      · simp only [Fallible.bind_ok_iff, Fallible.pure_ok_iff] at hc
        obtain ⟨_, -, _, -, rfl⟩ := hc
        refine ⟨rfl, ?_, rfl⟩
        simp [Connection.answers, Connection.send, Connection.setTimerReTx]
    case h_5 =>
      obtain rfl := Fallible.pure_ok_iff.mp hc
      exact ⟨rfl, rfl, rfl⟩
    case h_6 | h_7 => cases hc
  simp only [onTimeTick, Fallible.bind_ok_iff] at hc
  obtain ⟨c₁, h₁, c₂, h₂, hc⟩ := hc
  have hsame : c₁.events = c.events ∧ c₁.answers = c.answers ∧
      c₁.connectionState = c.connectionState := by
    split at h₁
    · have hsame := resent h₁
      exact hsame
    · obtain rfl := Fallible.pure_ok_iff.mp h₁
      exact ⟨rfl, rfl, rfl⟩
  obtain ⟨hevents, hanswers, hstate⟩ := hsame
  split at h₂
  · simp only [onTimerTimewait, assert, Fallible.bind_ok_iff, Fallible.ensure_eq_ok] at h₂
    obtain ⟨_, hwait, -⟩ := h₂
    rw [← hstate] at hest
    change c₁.connectionState = .timeWait at hwait
    rw [hwait] at hest
    cases hest
  · obtain rfl := Fallible.pure_ok_iff.mp h₂
    split at hc
    · obtain rfl := Fallible.pure_ok_iff.mp hc
      right
      unfold onTimerUsertime
      have hoff : FailsWaiters c { c₁ with timers := { c₁.timers with usertime := none } } :=
        .of_eq hanswers
      exact (hoff.trans (.fail _ _ _)).trans (.clear _)
    · obtain rfl := Fallible.pure_ok_iff.mp hc
      exact .inl (.of_eq hevents)

theorem callClose_closers (hs : c.connectionState.Settles)
    (hst : c.connectionState = .established t r true ca) {res : Except Error Unit}
    (hc : c.callClose = .ok (c', res)) : KeepsClosers c c' := by
  cases closeStep_of_ok hc with
  | refused => exact .refl c
  | cleared h => rcases h with h | h <;> rw [hst] at h <;> cases h
  | delayed => exact .suspend c _
  | early h => rw [hst] at h; cases h
  | @opened _ _ _ c₁ _ h _ _ hsend =>
      have hkept : KeepsClosers c c₁ := .from_eq (.sendAck hsend) rfl
      refine hkept.trans (.closing ?_)
      rintro ⟨htx, -⟩
      rw [(sendAck_spec hsend).state, withQueue_connectionState, h] at htx
      split at htx <;> cases htx
  | ended =>
      refine .closing ?_
      rw [hst]
      rintro ⟨rfl, rfl⟩
      exact hs ca hst

/-- One operation after the close has been recorded. -/
theorem closersStep (hs : c.connectionState.Settles)
    (hst : c.connectionState = .established t r true ca) {op : Op Time} {out : Output}
    (hc : c.step op = .ok (c', out)) : ClosersStep c ca c' := by
  cases opStep_of_ok hc with
  | callConnect hc =>
      cases connectStep_of_ok hc with
      | refused => exact .kept (.refl c)
      | connecting h => rcases h with h | h <;> rw [hst] at h <;> cases h
  | callSend hc =>
      cases (sendStep_of_ok hc).2 with
      | refused => exact .kept (.refl c)
      | delayed => exact .kept (.from_eq (.suspend _ _) rfl)
      | queued => exact .kept (.of_eq rfl)
      | sent _ _ _ hsend => exact .kept (.from_eq (.sendAck hsend) rfl)
  | callRecv hc =>
      cases recvStep_of_ok hc with
      | refused => exact .kept (.refl c)
      | ended => exact .kept (.refl c)
      | early => exact .kept (.suspend c _)
      | waiting => exact .kept (.suspend c _)
      | read => exact .kept (.of_eq rfl)
      | full => exact .kept (.of_eq rfl)
      | @drained t' _ _ rx _ h =>
          obtain ⟨rfl, -, rfl, rfl⟩ := established.inj (hst.symm.trans h)
          by_cases ht : t = .closed
          · refine .completed ?_
            rw [stateSet_connectionState, ht, reduced_both]
          · rw [stateSet_eq_entered _ (.inl ht)]
            refine .kept (.from_eq (.entered { c with rx := rx } ?_) rfl)
            cases t with
            | closed => exact absurd rfl ht
            | _ => rfl
  | callShutdown hc =>
      cases shutdownStep_of_ok hc with
      | refused => exact .kept (.refl c)
      | cleared h => rcases h with h | h <;> rw [hst] at h <;> cases h
      | delayed => exact .kept (.suspend c _)
      | early h => rw [hst] at h; cases h
      | active h hcc =>
          obtain ⟨-, -, rfl, -⟩ := established.inj (hst.symm.trans h)
          cases hcc
      | passive _ _ _ _ hsend => exact .kept (.from_eq (.sendAck hsend) rfl)
  | callClose hc => exact .kept (callClose_closers hs hst hc)
  | callAbort hc =>
      unfold callAbort at hc
      rw [hst] at hc
      obtain ⟨rfl, -⟩ := Prod.mk.inj (Fallible.pure_ok_iff.mp hc)
      exact .failed (((FailsWaiters.send c _).trans (.fail _ _ _)).trans (.clear _))
  | setOptions => exact .kept (.of_eq rfl)
  | onSegment hc => exact onSegment_closers hst hc
  | onTimeTick hc =>
      rcases onTimeTick_closers (by rw [hst]; rfl) hc with h | h
      · exact .kept h
      · exact .failed h

end Ends

section Attended

/-- The calls that wait for a close wait on an open connection that
`call_close` was called on. -/
def ClosersAttended (c : Connection Addr Time) : Prop :=
  ∀ k, (.bothClosed, k) ∈ c.events.suspended →
    ∃ t r ca, c.connectionState = .established t r true ca

variable {c c₀ c' : Connection Addr Time} {k : Cookie}

/-- Another kind of waiter is no call that waits for a close. -/
theorem closer_of_suspend {w : WaitUntil}
    (hk : (.bothClosed, k) ∈ (c.suspend w).events.suspended) (hw : w ≠ .bothClosed) :
    (.bothClosed, k) ∈ c.events.suspended := by
  rcases List.mem_append.mp hk with hk | hk
  · exact hk
  · exact absurd (Prod.mk.inj (List.mem_singleton.mp hk)).1.symm hw

theorem Resumes.closer (r : Resumes c c') (hk : (.bothClosed, k) ∈ c'.events.suspended) :
    (.bothClosed, k) ∈ c.events.suspended :=
  r.suspended.subset hk

variable [UserTime Time]

/-- Only `call_close` waits for a close. -/
theorem closer_of_step {op : Op Time} {out : Output} (hclose : op ≠ .callClose)
    (hc : c.step op = .ok (c', out)) (hk : (.bothClosed, k) ∈ c'.events.suspended) :
    (.bothClosed, k) ∈ c.events.suspended := by
  cases opStep_of_ok hc with
  | callClose => exact absurd rfl hclose
  | callConnect hc =>
      unfold callConnect at hc
      split at hc
      case h_1 | h_2 =>
        simp only [Fallible.bind_ok_iff, setState_ok_iff, continueAfter_ok_iff,
          stateSet_synSent] at hc
        obtain ⟨c₁, ⟨-, -, rfl⟩, -, rfl, rfl⟩ := hc
        have hwas : (.bothClosed, k) ∈ ((c.entered .synSent).suspend
            .established).events.suspended := hk
        exact (Resumes.entered c _).closer (closer_of_suspend hwas nofun)
      case h_3 =>
        obtain ⟨rfl, rfl⟩ := Prod.mk.inj (Fallible.pure_ok_iff.mp hc)
        exact hk
  | callSend hc =>
      cases (sendStep_of_ok hc).2 with
      | refused => exact hk
      | delayed => exact closer_of_suspend hk nofun
      | queued => exact hk
      | @sent q _ _ _ _ _ _ _ hsend =>
          exact (Resumes.sendAck (c := c.withQueue q) hsend).closer hk
  | callRecv hc =>
      cases recvStep_of_ok hc with
      | refused => exact hk
      | ended => exact hk
      | early => exact closer_of_suspend hk nofun
      | waiting => exact closer_of_suspend hk nofun
      | read => exact hk
      | full => exact hk
      | @drained _ _ _ rx => exact (Resumes.stateSet { c with rx := rx } _).closer hk
  | callShutdown hc =>
      cases shutdownStep_of_ok hc with
      | refused => exact hk
      | cleared => simp at hk
      | delayed => exact closer_of_suspend hk nofun
      | early _ _ hsend => exact ((resumes_marked hsend).trans (.entered _ _)).closer hk
      | active _ _ _ _ hsend =>
          exact ((Resumes.entered c _).trans (resumes_marked hsend)).closer hk
      | passive _ _ _ _ hsend => exact (resumes_marked hsend).closer hk
  | callAbort hc =>
      cases abortStep_of_ok hc with
      | refused => exact hk
      | cleared => simp at hk
      | reset => simp at hk
  | setOptions => exact hk
  | onSegment hc => exact (Resumes.onSegment hc).closer hk
  | onTimeTick hc => exact (Resumes.onTimeTick hc).closer hk

omit [UserTime Time] in
/-- A connection that closes and has suspended calls is open. -/
theorem Waits.open_of_closes (hw : Waits c) (hcloses : c.connectionState.closes = true)
    (hk : (.bothClosed, k) ∈ c.events.suspended) :
    ∃ t r ca, c.connectionState = .established t r true ca := by
  cases hst : c.connectionState with
  | established t r cc ca =>
      rw [hst] at hcloses
      obtain rfl : cc = true := hcloses
      exact ⟨t, r, ca, rfl⟩
  | timeWait =>
      rw [hw.settled (by rw [hst]; rfl)] at hk
      cases hk
  | _ => rw [hst] at hcloses; cases hcloses

omit [UserTime Time] in
theorem Waits.not_gone (hw : Waits c) (hk : (.bothClosed, k) ∈ c.events.suspended) :
    c.connectionState.gone = false := by
  by_contra hgone
  have hsettled : c.connectionState.settled = true := by
    cases hst : c.connectionState <;> first | rfl | rw [hst] at hgone; exact absurd rfl hgone
  rw [hw.settled hsettled] at hk
  cases hk

theorem ClosersAttended.step (h : ClosersAttended c) (hw' : Waits c') {op : Op Time}
    {out : Output} (hc : c.step op = .ok (c', out)) : ClosersAttended c' := by
  intro k hk
  have hgone := hw'.not_gone hk
  by_cases hclose : op = .callClose
  · subst hclose
    cases opStep_of_ok hc with
    | callClose hc =>
        rcases (callClose_closes hc).2 with (rfl | rfl) | hgone' | ⟨hcloses, -⟩
        · exact h k hk
        · exact h k (closer_of_suspend hk nofun)
        · exact absurd (hgone.symm.trans hgone') Bool.false_ne_true
        · exact hw'.open_of_closes hcloses hk
  · obtain ⟨t, r, ca, hst⟩ := h k (closer_of_step hclose hc hk)
    have hcloses : c.connectionState.closes = true := by rw [hst]; rfl
    by_cases hconnect : op = .callConnect
    · subst hconnect
      cases opStep_of_ok hc with
      | callConnect hc =>
          cases connectStep_of_ok hc with
          | refused => exact ⟨t, r, ca, hst⟩
          | connecting hs => rcases hs with hs | hs <;> rw [hst] at hs <;> cases hs
    rcases (keepsClose_step hconnect hclose hc).closes with hgone' | heq
    · exact absurd (hgone.symm.trans hgone') Bool.false_ne_true
    · exact hw'.open_of_closes (heq.trans hcloses) hk

theorem closersAttended (h : Reachable c) : ClosersAttended c := by
  refine Transition.ReachableUnder.invariant (P := ClosersAttended) ?_ ?_ h
  · intro c hinit k hk
    rw [hinit.fresh.2.1] at hk
    cases hk
  · rintro c op c' hreach hp - ⟨out, hc⟩
    exact hp.step (Reachable.waits (Reachable.next hreach hc)) hc

/-- Once the read side is closed, everything has been read. -/
theorem bytes_of_readClosed (h : Reachable c) (hread : c.connectionState.readClosed = true) :
    c.rx.bytes = [] := by
  have hpeered {c : Connection Addr Time} (hread : c.connectionState.readClosed = true) :
      c.Peered ∧ c.connectionState.rx = .closed := by
    cases hst : c.connectionState with
    | established t r cc ca =>
        rw [hst] at hread
        cases r with
        | closed => exact ⟨.inl (by rw [hst]; rfl), rfl⟩
        | _ => cases hread
    | timeWait => exact ⟨.inl (by rw [hst]; rfl), rfl⟩
    | _ => rw [hst] at hread; cases hread
  refine rxInvariant (P := fun c : Connection Addr Time =>
    c.connectionState.readClosed = true → c.rx.bytes = []) ?_ ?_ h hread
  · intro c hinit _
    rw [hinit.fresh.1]
    rfl
  · intro c op out c' hwf hp _ effect hread
    obtain ⟨hs', hrx'⟩ := hpeered hread
    cases effect with
    | kept _ hrx hstate =>
        rw [hrx]
        rcases hstate with heq | ⟨hs, -, heq⟩
        · exact hp (heq ▸ hread)
        · exact hp (readClosed_of_rx hs (heq.symm.trans hrx'))
    | cleared _ _ hrx => rw [hrx]; rfl
    | connecting _ _ hstate => rw [hstate] at hread; cases hread
    | answered _ _ _ hstate => rw [hstate] at hread; cases hread
    | synAcked hst _ _ _ _ hstate =>
        rcases hstate with ⟨hst', -⟩ | ⟨-, hopen⟩
        · rw [hst'] at hread
          cases hread
        · rw [hopen] at hrx'
          cases hrx'
    | @stored seg _ hs _ hwrite _ hstate =>
        rw [hstate] at hrx'
        split at hrx'
        · cases hrx'
        · have hclosed := readClosed_of_rx hs hrx'
          have hdata := (RxBuffer.write_succeeds_iff.mp ⟨_, hwrite⟩).2.resolve_right
            (by rw [hwf.readClosed hclosed]; decide)
          rw [(RxBuffer.write_spec hwrite).1, hdata, List.append_nil]
          exact hp hclosed
    | finOnly _ _ _ _ _ _ _ _ _ _ hstate => rw [hstate] at hrx'; cases hrx'
    | waiting => exact hp hread
    | ended => exact hp hread
    | read hest hread' _ hstate hrx =>
        have hbytes := (RxBuffer.readBytes_spec hread').2.1
        rw [hrx, hbytes, hp (hstate ▸ hread), List.drop_nil]
    | drained _ _ hread' hlen hstate =>
        obtain ⟨hdata, hbytes, -⟩ := RxBuffer.readBytes_spec hread'
        rcases hstate with ⟨-, -, hrx⟩ | ⟨-, hrx⟩
        · rw [hdata, List.length_take] at hlen
          rw [hrx, hbytes, List.drop_eq_nil_iff]
          omega
        · rw [hrx]
          rfl

end Attended

end Connection

/-- A call of `call_close` that was not refused and need not be retried. -/
def Op.closesWith {Time : Type} : Op Time → Output → Bool
  | .callClose, out => out.granted
  | _, _ => false

/-- The close of a connection: whether `call_close` has been accepted since it
was last cleared, and what was received and read. -/
structure CloseNote where
  called : Bool
  record : Option Record

namespace CloseNote

open Connection

variable {Addr Time : Type}

/-- The note of one operation. -/
def next (n : CloseNote) (c : Connection Addr Time) (op : Op Time) (out : Output)
    (c' : Connection Addr Time) : CloseNote where
  called := !c'.connectionState.gone && (n.called || op.closesWith out)
  record := (Recorded.after ⟨c, n.record⟩ op out c').record

/-- The runs of one connection with the note of its close. -/
def watch (Addr Time : Type) : Watch Addr Time CloseNote where
  start := ⟨false, none⟩
  note := next

variable [UserTime Time] {c : Connection Addr Time} {n : CloseNote}

/-- The record of the note is the record of the run. -/
theorem recorded (h : (watch Addr Time).Reachable c n) : Recorded.Reachable ⟨c, n.record⟩ := by
  refine Transition.ReachableUnder.invariant
    (P := fun s : Connection Addr Time × CloseNote => Recorded.Reachable ⟨s.1, s.2.record⟩)
    ?_ ?_ h
  · rintro ⟨c, n⟩ ⟨hinit, rfl⟩
    exact .init ⟨hinit, rfl⟩
  · rintro ⟨c, n⟩ op s' - hp - ⟨c', out, hc, rfl⟩
    exact hp.step ⟨c', out, hc, rfl⟩

/-- A recorded close has been called. -/
theorem called_of_closes (h : (watch Addr Time).Reachable c n)
    (hcloses : c.connectionState.closes = true) : n.called = true := by
  refine Watch.Reachable.invariant
    (P := fun c n => c.connectionState.closes = true → n.called = true) ?_ ?_ h hcloses
  · intro c hinit hcloses
    have hidle := ConnectionState.not_idle_of_closes hcloses
    exact absurd (hidle.symm.trans hinit.fresh.2.2) Bool.false_ne_true
  · intro c n op out c' _ hp hc hcloses
    have hgone := ConnectionState.not_gone_of_closes hcloses
    change (!c'.connectionState.gone && (n.called || op.closesWith out)) = true
    rw [hgone, Bool.not_false, Bool.true_and, Bool.or_eq_true]
    rcases closes_of_step hc hcloses with hwas | ⟨rfl, hgranted⟩
    · exact .inl (hp hwas)
    · exact .inr hgranted

/-- A close completes once both directions are closed: no open connection is
left with both closed after the close, a call that waits for it is resumed in
the operation that ends in TimeWait or Closed, as `close_active` says, and
TimeWait is behind the close, the FIN of the peer and the last read. -/
theorem close_completes (h : (watch Addr Time).Reachable c n) :
    (∀ closeActive, c.connectionState ≠ .established .closed .closed true closeActive) ∧
    (∀ op out c', c.step op = .ok (c', out) → ∀ k, (.bothClosed, k) ∈ c.events.suspended →
      (k, .ok ()) ∈ c'.answers.drop c.answers.length →
        c.connectionState.closeActive = .ok true ∧ c'.connectionState = .timeWait ∨
          c.connectionState.closeActive = .ok false ∧ c'.connectionState = .closed) ∧
    (c.connectionState = .timeWait →
      n.called = true ∧ ∃ r ∈ n.record, r.ended = true ∧ r.read = r.data) := by
  have hreach := Watch.Reachable.conn h
  have hsettles := Connection.Reachable.settles hreach
  refine ⟨hsettles, fun op out c' hc k hk hok => ?_, fun hwait => ?_⟩
  · obtain ⟨t, r, ca, hst⟩ := closersAttended hreach k hk
    cases closersStep hsettles hst hc with
    | kept hkept =>
        have hleft := (toldStep hc).left (Connection.Reachable.cookies hreach) hok
        exact absurd (List.mem_map_of_mem (hkept k hk)) hleft
    | completed hstate =>
        rw [hst]
        cases ca with
        | true => exact .inl ⟨rfl, hstate⟩
        | false => exact .inr ⟨rfl, hstate⟩
    | failed hfails => exact absurd hok (hfails.not_ok k)
  · have hrecorded := recorded h
    have hpeered : c.Peered := .inl (by rw [hwait]; rfl)
    have hread : c.connectionState.readClosed = true := by rw [hwait]; rfl
    obtain ⟨r, hr⟩ := Option.isSome_iff_exists.mp (hrecorded.holds.peered hpeered)
    have horder : r.InOrder c.rx := hrecorded.holds.inOrder r hr
    refine ⟨called_of_closes h (by rw [hwait]; rfl), r, hr, ?_, ?_⟩
    · exact horder.ended.trans ((Connection.Reachable.wellFormed hreach).readClosed hread)
    · have hbytes := horder.bytes
      rw [bytes_of_readClosed hreach hread, List.append_nil] at hbytes
      exact hbytes

/-- An active close: the FIN of the peer acknowledges ours, and the last read
completes the close. -/
theorem close_completes_active : ∃ (c : Connection Unit Nat) (n : CloseNote),
    c.connectionState = .timeWait ∧
    (∀ closeActive, c.connectionState ≠ .established .closed .closed true closeActive) ∧
    (∀ op out c', c.step op = .ok (c', out) → ∀ k, (.bothClosed, k) ∈ c.events.suspended →
      (k, .ok ()) ∈ c'.answers.drop c.answers.length →
        c.connectionState.closeActive = .ok true ∧ c'.connectionState = .timeWait ∨
          c.connectionState.closeActive = .ok false ∧ c'.connectionState = .closed) ∧
    (c.connectionState = .timeWait →
      n.called = true ∧ ∃ r ∈ n.record, r.ended = true ∧ r.read = r.data) := by
  obtain ⟨⟨c, n⟩, hreach, hwait⟩ : ∃ s : Connection Unit Nat × CloseNote,
      (watch Unit Nat).Reachable s.1 s.2 ∧ s.1.connectionState = .timeWait :=
    Transition.exists_reachableUnder (watch Unit Nat).step_of_next
      ((watch Unit Nat).init_start (initial_listening () .default zeroUser))
      [.onSegment ⟨100#32, 0#32, 1000#16, .syn, []⟩,
       .onSegment ⟨101#32, 1#32, 1000#16, .ack, []⟩, .callClose,
       .onSegment ⟨101#32, 2#32, 1000#16, .fin ||| .ack, []⟩, .callRecv 1] (by decide)
  exact ⟨c, n, hwait, close_completes hreach⟩

end CloseNote

end TcpState
