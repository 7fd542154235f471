import TcpState.Connection.Exact
import TcpState.Connection.CallsPreserved

/-!
# Suspended and resumed calls

A step first resumes some of the suspended calls and then suspends at most one,
with a cookie never used before. What a step resumes is what leaves the
suspended set.
-/

namespace TcpState

/-- The cookie a callback resumes, if it does. -/
def Callback.cookie {Addr Time : Type} : Callback Addr Time → Option Cookie
  | .event cookie _ => some cookie
  | _ => none

/-- The cookie an error carries. -/
def Error.cookie : Error → Option Cookie
  | .retryAfter cookie | .continueAfter cookie => some cookie
  | _ => none

/-- The cookie an operation returns. -/
def Output.cookie : Output → Option Cookie
  | .call (.error e) | .recv (.error e) => e.cookie
  | _ => Option.none

namespace UserData

variable {Addr Time : Type}

/-- The cookies resumed so far, oldest first. -/
def resumed (u : UserData Addr Time) : List Cookie := u.calls.filterMap Callback.cookie

@[simp] theorem resumed_newSeqn (u : UserData Addr Time) : u.newSeqn.2.resumed = u.resumed := rfl

@[simp] theorem resumed_now (u : UserData Addr Time) : u.now.2.resumed = u.resumed := rfl

@[simp] theorem resumed_send (u : UserData Addr Time) (dst : Addr) (seg : SegmentMeta) :
    (u.send dst seg).resumed = u.resumed := by
  simp [resumed, send, Callback.cookie]

@[simp] theorem resumed_event (u : UserData Addr Time) (cookie : Cookie)
    (result : Except Error Unit) : (u.event cookie result).resumed = u.resumed ++ [cookie] := by
  simp [resumed, event, Callback.cookie]

@[simp] theorem resumed_addTimeout (u : UserData Addr Time) (instant : Time) :
    (u.addTimeout instant).resumed = u.resumed := by
  simp [resumed, addTimeout, Callback.cookie]

theorem resumed_foldl_event (u : UserData Addr Time) (ws : List (WaitUntil × Cookie))
    (r : Except Error Unit) :
    (ws.foldl (fun u p => u.event p.2 r) u).resumed = u.resumed ++ ws.map Prod.snd := by
  induction ws generalizing u with
  | nil => simp
  | cons w ws ih => simp [ih]

end UserData

namespace Connection

variable {Addr Time : Type}

/-- The cookies of the suspended calls. -/
def pending (c : Connection Addr Time) : List Cookie := c.events.suspended.map Prod.snd

/-- The cookies resumed so far. -/
abbrev resumed (c : Connection Addr Time) : List Cookie := c.userData.resumed

/-- Nothing is suspended, and what leaves the suspended set is resumed. -/
structure Resumes (c c' : Connection Addr Time) : Prop where
  counter : c'.events.nextCookie = c.events.nextCookie
  suspended : c'.events.suspended.Sublist c.events.suspended
  resumed : ∃ new, c'.resumed = c.resumed ++ new ∧ (new ++ c'.pending).Perm c.pending

namespace Resumes

variable {c c₁ c' : Connection Addr Time}

theorem of_eq (hevents : c'.events = c.events) (hresumed : c'.resumed = c.resumed) :
    Resumes c c' where
  counter := by rw [hevents]
  suspended := by rw [hevents]
  resumed := ⟨[], by rw [hresumed, List.append_nil], by rw [pending, hevents]; exact .refl _⟩

theorem refl (c : Connection Addr Time) : Resumes c c := of_eq rfl rfl

theorem trans (h₁ : Resumes c c₁) (h₂ : Resumes c₁ c') : Resumes c c' := by
  obtain ⟨new₁, hres₁, hperm₁⟩ := h₁.resumed
  obtain ⟨new₂, hres₂, hperm₂⟩ := h₂.resumed
  refine ⟨h₂.counter.trans h₁.counter, h₂.suspended.trans h₁.suspended, new₁ ++ new₂, ?_, ?_⟩
  · rw [hres₂, hres₁, List.append_assoc]
  · rw [List.append_assoc]
    exact (hperm₂.append_left new₁).trans hperm₁

/-- Only the events and the callbacks before the step matter. -/
theorem from_eq (h : Resumes c₁ c') (hevents : c₁.events = c.events)
    (hresumed : c₁.resumed = c.resumed) : Resumes c c' :=
  (of_eq hevents hresumed).trans h

theorem nil (h : Resumes c c') (hnil : c.events.suspended = []) : c'.events.suspended = [] :=
  List.sublist_nil.mp (hnil ▸ h.suspended)

theorem triggerEvent (c : Connection Addr Time) (f : WaitUntil → Bool) (r : Except Error Unit) :
    Resumes c (c.triggerEvent f r) where
  counter := rfl
  suspended := List.filter_sublist
  resumed := by
    refine ⟨(c.events.suspended.filter fun p : WaitUntil × Cookie => f p.1).map Prod.snd,
      UserData.resumed_foldl_event c.userData _ r, ?_⟩
    rw [pending, triggerEvent_suspended, ← List.map_append]
    exact (List.filter_append_perm (fun p => f p.1) c.events.suspended).map _

theorem send (c : Connection Addr Time) (seg : SegmentMeta) : Resumes c (c.send seg) :=
  of_eq rfl (UserData.resumed_send _ _ _)

theorem clear (c : Connection Addr Time) : Resumes c c.clear :=
  from_eq (triggerEvent _ _ _) rfl rfl

theorem clearReTxRange (c : Connection Addr Time) (stop : SeqN) :
    Resumes c (c.clearReTxRange stop) := by
  have heq : ∃ f tx, c.clearReTxRange stop = { c.triggerEvent f (.ok ()) with tx := tx } :=
    ⟨_, _, rfl⟩
  obtain ⟨f, tx, heq⟩ := heq
  rw [heq]
  exact (triggerEvent c f _).trans (of_eq rfl rfl)

theorem entered (c : Connection Addr Time) (state : ConnectionState) :
    Resumes c (c.entered state) := by
  have step {c' : Connection Addr Time} (h : Resumes c c') (p : Prop) [Decidable p]
      (f : WaitUntil → Bool) : Resumes c (if p then c'.triggerEvent f (.ok ()) else c') := by
    split
    · exact h.trans (triggerEvent _ _ _)
    · exact h
  have hstate : Resumes c { c with connectionState := state } := of_eq rfl rfl
  have hqueue := step hstate (state.readClosed = true) (· == .txQueueEmpty)
  unfold Connection.entered
  cases state with
  | established t r cc ca =>
      exact step (step (step (hqueue.trans (triggerEvent _ _ _)) _ _) _ _) _ _
  | _ => exact hqueue

theorem opened (c : Connection Addr Time) : Resumes c c.opened := by
  unfold Connection.opened
  split
  · exact entered c _
  · exact refl c

theorem drained (c : Connection Addr Time) (q : BlobQueue) : Resumes c (c.drained q) := by
  have hqueue : Resumes c (c.withQueue q) := of_eq rfl rfl
  unfold Connection.drained
  split
  · exact hqueue.trans (triggerEvent _ _ _)
  · exact hqueue

theorem taken (c : Connection Addr Time) (q : BlobQueue) : Resumes c (c.taken q) := by
  unfold Connection.taken
  split
  · exact (drained c q).trans (entered _ _)
  · exact drained c q

variable [UserTime Time]

theorem setTimerReTx (c : Connection Addr Time) (d : Duration) : Resumes c (c.setTimerReTx d) :=
  of_eq rfl (UserData.resumed_addTimeout _ _)

theorem setTimerTimewait (c : Connection Addr Time) (d : Duration) :
    Resumes c (c.setTimerTimewait d) :=
  of_eq rfl (UserData.resumed_addTimeout _ _)

theorem stateSet (c : Connection Addr Time) (state : ConnectionState) :
    Resumes c (c.stateSet state) := by
  unfold Connection.stateSet
  split
  · have hover := (entered c (.established .closed .closed true true)).trans (entered _ .timeWait)
    exact hover.trans (from_eq (setTimerTimewait _ _) rfl rfl)
  · exact (entered c _).trans (clear _)
  · exact entered c _

theorem emit (c : Connection Addr Time) (seg : SegmentMeta) : Resumes c (c.emit seg) := by
  unfold Connection.emit
  dsimp only
  split
  · exact refl c
  · have hsent : Resumes c ({ c with tx := c.tx.onSend seg }.send seg) :=
      from_eq (send _ _) rfl rfl
    split
    · exact hsent.trans (setTimerReTx _ _)
    · exact hsent

theorem sendAck (hc : c.sendAck = .ok c') : Resumes c c' := by
  obtain ⟨q, -, -, rfl⟩ := sendAck_eq hc
  exact (taken c q).trans (emit _ _)

theorem onNewAck {seg : SegmentMeta} (hc : c.onNewAck seg = .ok c') : Resumes c c' := by
  simp only [Connection.onNewAck, Fallible.bind_ok_iff, Fallible.pure_ok_iff] at hc
  obtain ⟨w, -, rfl⟩ := hc
  refine .trans ?_ (triggerEvent _ _ _)
  generalize hacked : Connection.clearReTxRange _ seg.ackn = c₁
  have h : Resumes c c₁ := by
    rw [← hacked]
    refine .trans ?_ (clearReTxRange _ _)
    exact from_eq (triggerEvent _ _ _) rfl rfl
  split
  · exact h.trans (of_eq rfl rfl)
  · exact h.trans (from_eq (setTimerReTx _ _) rfl rfl)

theorem takes {seg : SegmentMeta} (hc : c.Takes seg c') : Resumes c c' := by
  unfold Takes at hc
  split at hc
  · exact (opened c).trans (onNewAck hc)
  · obtain rfl := Except.ok.inj hc
    exact opened c

theorem onFinAcked {ackn : SeqN} (hc : c.onFinAcked ackn = .ok c') : Resumes c c' := by
  rcases onFinAcked_ok_iff.mp hc with ⟨r, cc, ca, -, -, -, -, rfl⟩ | ⟨-, rfl⟩
  · exact stateSet c _
  · exact refl _

theorem onFin {isNew : Bool} (hc : c.onFin isNew = .ok c') : Resumes c c' := by
  unfold Connection.onFin at hc
  split at hc
  case h_1 | h_2 | h_3 =>
    obtain rfl := Fallible.pure_ok_iff.mp hc
    exact refl c
  case h_4 =>
    split at hc
    · obtain rfl := Fallible.pure_ok_iff.mp hc
      exact (triggerEvent c (fun _ => true) (.error .connectionClosing)).trans
        (from_eq (setTimerTimewait _ _) rfl rfl)
    · obtain rfl := Fallible.pure_ok_iff.mp hc
      exact refl c
  case h_5 | h_6 =>
    obtain ⟨-, -, rfl⟩ := setState_ok_iff.mp hc
    exact (triggerEvent c _ _).trans (stateSet _ _)
  case h_7 =>
    obtain rfl := Fallible.pure_ok_iff.mp hc
    exact triggerEvent c _ _

theorem onAccepted {seg : SegmentMeta} (hc : c.onAccepted seg = .ok c') : Resumes c c' := by
  cases acceptedStep_of_ok hc with
  | unacknowledged _ hfin =>
      split at hfin
      · exact onFin hfin
      · obtain rfl := Except.ok.inj hfin
        exact refl c
  | invalid => exact refl c
  | discarded _ _ h₁ h₂ =>
      have h := (takes h₁).trans (onFinAcked h₂)
      split
      · exact h.trans (send _ _)
      · exact h
  | @stored c₁ c₂ c₃ _ rx _ _ h₁ h₂ _ _ h₃ hfin =>
      have h := (((takes h₁).trans (onFinAcked h₂)).trans
        (@of_eq _ _ c₂ { c₂ with rx := rx } rfl rfl)).trans (sendAck h₃)
      split at hfin
      · exact h.trans (onFin hfin)
      · obtain rfl := Except.ok.inj hfin
        exact h

omit [UserTime Time] in
theorem synAcked (c : Connection Addr Time) (seg : SegmentMeta) : Resumes c (c.synAcked seg) := by
  unfold Connection.synAcked
  generalize hacked : Connection.clearReTxRange _ seg.ackn = c₁
  have h : Resumes c c₁ := by
    rw [← hacked]
    exact from_eq (clearReTxRange _ _) rfl rfl
  exact h.trans (of_eq rfl rfl)

theorem onSegmentListen {seg : SegmentMeta} (hc : c.onSegmentListen seg = .ok c') :
    Resumes c c' := by
  unfold Connection.onSegmentListen at hc
  split at hc
  · obtain rfl := Fallible.pure_ok_iff.mp hc
    exact refl c
  split at hc
  · obtain rfl := Fallible.pure_ok_iff.mp hc
    exact send c _
  split at hc
  · obtain rfl := Fallible.pure_ok_iff.mp hc
    exact refl c
  simp only [Fallible.bind_ok_iff, Fallible.pure_ok_iff, setState_ok_iff, stateSet_synReceived]
    at hc
  obtain ⟨_, -, c₁, ⟨-, -, hc₁⟩, rfl⟩ := hc
  have h : Resumes c c₁ := by
    rw [hc₁]
    exact from_eq (entered _ _) rfl rfl
  exact h.trans (of_eq rfl (by
    simp [Connection.resumed, Connection.send, Connection.setTimerReTx]))

theorem onSegmentSynSent {seg : SegmentMeta} (hc : c.onSegmentSynSent seg = .ok c') :
    Resumes c c' := by
  cases synSentStep_of_ok hc with
  | ignored => exact refl c
  | refused => exact send c _
  | reset => exact (clear c).trans (of_eq rfl rfl)
  | waiting => exact synAcked c seg
  | opened _ _ _ _ _ hsend => exact ((synAcked c seg).trans (entered _ _)).trans (sendAck hsend)

theorem onSegment {seg : SegmentMeta} (hc : c.onSegment seg = .ok c') : Resumes c c' := by
  have sync (hc : c.onSegmentSynchronized seg = .ok c') : Resumes c c' := by
    have hwindow : Resumes c (c.windowed seg) := of_eq rfl rfl
    cases synchronizedStep_iff.mp hc with
    | dropped => exact refl c
    | rejected => exact send c _
    | reset _ _ hrst =>
        unfold Connection.onRst at hrst
        split at hrst
        · obtain ⟨-, -, rfl⟩ := setState_ok_iff.mp hrst
          exact (hwindow.trans (clear _)).trans (stateSet _ _)
        · obtain ⟨-, -, rfl⟩ := setState_ok_iff.mp hrst
          exact ((hwindow.trans (triggerEvent _ _ _)).trans (clear _)).trans (stateSet _ _)
        · cases hrst
    | syn _ _ _ hsyn =>
        obtain ⟨-, -, rfl⟩ := setState_ok_iff.mp hsyn
        exact (((hwindow.trans (triggerEvent _ _ _)).trans (send _ _)).trans (clear _)).trans
          (stateSet _ _)
    | accepted _ _ _ hacc => exact hwindow.trans (onAccepted hacc)
  unfold Connection.onSegment at hc
  split at hc
  case h_1 | h_2 =>
    simp only [Fallible.bind_ok_iff] at hc
    obtain ⟨resp, -, hc⟩ := hc
    cases resp with
    | none =>
        obtain rfl := Fallible.pure_ok_iff.mp hc
        exact refl c
    | some resp =>
        obtain rfl := Fallible.pure_ok_iff.mp hc
        exact send c _
  case h_3 => exact onSegmentListen hc
  case h_4 => exact onSegmentSynSent hc
  case h_5 | h_6 | h_7 => exact sync hc

theorem onTimerReTx (hc : c.onTimerReTx = .ok c') : Resumes c c' := by
  unfold Connection.onTimerReTx at hc
  split at hc
  case h_1 | h_2 | h_3 | h_4 =>
    split at hc
    · obtain rfl := Fallible.pure_ok_iff.mp hc
      exact refl c
    · simp only [Fallible.bind_ok_iff, Fallible.pure_ok_iff] at hc
      obtain ⟨_, -, _, -, rfl⟩ := hc
      refine .trans ?_ (setTimerReTx _ _)
      exact from_eq (send _ _) rfl rfl
  case h_5 =>
    obtain rfl := Fallible.pure_ok_iff.mp hc
    exact refl c
  case h_6 | h_7 => cases hc

theorem onTimeTick {time : Time} (hc : c.onTimeTick time = .ok c') : Resumes c c' := by
  simp only [Connection.onTimeTick, Fallible.bind_ok_iff] at hc
  obtain ⟨c₁, h₁, c₂, h₂, hc⟩ := hc
  have hresume₁ : Resumes c c₁ := by
    split at h₁
    · exact from_eq (onTimerReTx h₁) rfl rfl
    · obtain rfl := Fallible.pure_ok_iff.mp h₁
      exact refl c
  have hresume₂ : Resumes c₁ c₂ := by
    split at h₂
    · simp only [onTimerTimewait, Fallible.bind_ok_iff, Fallible.pure_ok_iff] at h₂
      obtain ⟨_, -, rfl⟩ := h₂
      exact from_eq (clear _) rfl rfl
    · obtain rfl := Fallible.pure_ok_iff.mp h₂
      exact refl c₁
  have h := hresume₁.trans hresume₂
  split at hc
  · obtain rfl := Fallible.pure_ok_iff.mp hc
    refine h.trans (.trans ?_ (clear _))
    exact from_eq (triggerEvent _ _ _) rfl rfl
  · obtain rfl := Fallible.pure_ok_iff.mp hc
    exact h

end Resumes

end Connection

end TcpState
