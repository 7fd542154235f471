import TcpState.Connection.CloseCalled
import TcpState.Connection.TimersHold

/-!
# The arrows between connection states

`Arrow` lists every move between two connection states with the operation that
makes it. One operation follows a path of arrows: a segment may acknowledge our
FIN, bring the FIN of the peer and end the connection at once. The states a
connection can be found in between two operations are listed as well.
-/

namespace TcpState

/-- A segment that is looked at beyond its RST and SYN. -/
def SegmentMeta.Plain (seg : SegmentMeta) : Prop := seg.hasRst = false ∧ seg.hasSyn = false

namespace ConnectionState

/-- The moves between two states, each with the operation that makes it. A FIN
may wait for room before the operation. -/
inductive Arrow {Time : Type} (waits : Bool) :
    Op Time → ConnectionState → ConnectionState → Prop
  | connect {s : ConnectionState} (hs : s = .closed ∨ s = .reset) :
      Arrow waits .callConnect s .synSent
  | syn {seg : SegmentMeta} (hrst : seg.hasRst = false) (hack : seg.hasAck = false)
      (hsyn : seg.hasSyn = true) : Arrow waits (.onSegment seg) .listen .synReceived
  | synAck {seg : SegmentMeta} (hrst : seg.hasRst = false) (hack : seg.hasAck = true)
      (hsyn : seg.hasSyn = true) : Arrow waits (.onSegment seg) .synSent .fullyOpen
  | ack {seg : SegmentMeta} (hplain : seg.Plain) (hack : seg.hasAck = true) :
      Arrow waits (.onSegment seg) .synReceived .fullyOpen
  /-- A FIN without an acknowledgement opens a connection. -/
  | bareFin {seg : SegmentMeta} (hfin : Connection.BareFin seg) :
      Arrow waits (.onSegment seg) .synReceived (.established .opened .fin false false)
  /-- The write side may be closed before the handshake is over. -/
  | earlyShutdown : Arrow waits .callShutdown .synReceived (.established .fin .opened false true)
  | earlyClose : Arrow waits .callClose .synReceived (.established .fin .opened true true)
  | closeActive {cc ca : Bool} : Arrow waits .callShutdown (.established .opened .opened cc ca)
      (.established .opened .opened cc true)
  | closeCalled {t r : ChannelState} {cc ca : Bool} :
      Arrow waits .callClose (.established t r cc ca)
        (.established t r true (ca || decide (r = .opened)))
  /-- A segment makes us send a FIN only if it was waiting for room. -/
  | finSent {op : Op Time} {r : ChannelState} {cc ca : Bool}
      (hop : op = .callShutdown ∨ op = .callClose ∨
        waits = true ∧ ∃ seg, op = .onSegment seg ∧ seg.Plain ∧ (r = .opened → ca = true)) :
      Arrow waits op (.established .opened r cc ca) (.established .fin r cc ca)
  | finAcked {seg : SegmentMeta} {r : ChannelState} {cc ca : Bool} (hplain : seg.Plain)
      (hack : seg.hasAck = true) : Arrow waits (.onSegment seg) (.established .fin r cc ca)
        (.established .closed r cc ca)
  | fin {seg : SegmentMeta} {t r : ChannelState} {cc ca : Bool} (hplain : seg.Plain)
      (hfin : seg.hasFin = true) (hr : r ≠ .closed) : Arrow waits (.onSegment seg)
        (.established t r cc ca) (.established t .fin cc ca)
  | readEnd {bufferLen : Nat} {t : ChannelState} {cc ca : Bool} :
      Arrow waits (.callRecv bufferLen) (.established t .fin cc ca) (.established t .closed cc ca)
  | wait {op : Op Time} : Arrow waits op (.established .closed .closed true true) .timeWait
  | finish {op : Op Time} : Arrow waits op (.established .closed .closed true false) .closed
  | cancel {op : Op Time} {s : ConnectionState} (hop : op = .callShutdown ∨ op = .callClose)
      (hs : s = .listen ∨ s = .synSent) : Arrow waits op s .closed
  | abort {s : ConnectionState} : Arrow waits .callAbort s .closed
  | timeout {time : Time} : Arrow waits (.onTimeTick time) .timeWait .closed
  | refused {seg : SegmentMeta} (hrst : seg.hasRst = true) :
      Arrow waits (.onSegment seg) .synSent .reset
  | relisten {seg : SegmentMeta} (hrst : seg.hasRst = true) :
      Arrow waits (.onSegment seg) .synReceived .listen
  | rst {seg : SegmentMeta} {t r : ChannelState} {cc ca : Bool} (hrst : seg.hasRst = true) :
      Arrow waits (.onSegment seg) (.established t r cc ca) .reset
  | badSyn {seg : SegmentMeta} {s : ConnectionState} (hrst : seg.hasRst = false)
      (hsyn : seg.hasSyn = true) (hs : s.synced = true ∨ s = .synReceived) :
      Arrow waits (.onSegment seg) s .reset

/-- The arrows one operation follows. -/
abbrev Path {Time : Type} (waits : Bool) (op : Op Time) :
    ConnectionState → ConnectionState → Prop :=
  Relation.ReflTransGen (Arrow waits op)

variable {Time : Type} {waits : Bool} {op : Op Time} {s s' : ConnectionState}

/-- A state that is reduced follows one more arrow. -/
theorem Path.reduced (h : Path waits op s s') : Path waits op s s'.reduced := by
  unfold ConnectionState.reduced
  split
  · exact h.tail .wait
  · exact h.tail .finish
  · exact h

/-- Only an incoming segment resets a connection. -/
theorem Path.into_reset (h : Path waits op s .reset) (hs : s ≠ .reset) :
    ∃ seg, op = .onSegment seg := by
  rcases h.cases_tail with heq | ⟨_, -, harrow⟩
  · exact absurd heq.symm hs
  · cases harrow <;> exact ⟨_, rfl⟩

end ConnectionState

namespace Connection

open ConnectionState

variable {Addr Time : Type} {c c₁ c' : Connection Addr Time} {op : Op Time} {out : Output}
  {seg : SegmentMeta} {waits : Bool}

/-- A FIN waits for room in the send window. -/
def finWaits (c : Connection Addr Time) : Bool :=
  c.tx.tx.fin && !c.connectionState.wroteFin

/-- A FIN that waits for room while the peer may still send was put there by a
call that takes the active part. -/
def MarksActive (c : Connection Addr Time) : Prop :=
  c.tx.tx.fin = true → c.connectionState.passive = true → c.connectionState.rx ≠ .opened

theorem MarksActive.of_unmarked (hfin : c.tx.tx.fin = false) : MarksActive c :=
  fun h => absurd (h.symm.trans hfin) (by decide)

theorem MarksActive.follows {heard : Prop} (h : MarksActive c) (hfin : c'.tx.tx.fin = c.tx.tx.fin)
    (hf : Follows heard c.connectionState c'.connectionState) : MarksActive c' := by
  intro hmark hpassive
  obtain ⟨hwas, hkept, -⟩ := hf hpassive
  exact hkept (h (hfin.symm.trans hmark) hwas)

section Pieces

variable [UserTime Time]

/-- The first FIN of `send_ack` is the one step it may take. -/
theorem path_sendAck (hs : c.connectionState.synced = true) (h : c.sendAck = .ok c')
    (hop : op = .callShutdown ∨ op = .callClose ∨
      ∃ seg, op = .onSegment seg ∧ seg.Plain ∧ MarksActive c ∧ waits = c.finWaits) :
    Path waits op c.connectionState c'.connectionState := by
  rw [(sendAck_spec h).state]
  split
  · rename_i hsends
    obtain ⟨-, hfin, hwrote⟩ := sendsFin_iff.mp hsends
    have hwaits : c.finWaits = true := by rw [finWaits, hfin, hwrote]; rfl
    cases hst : c.connectionState with
    | established t r cc ca =>
        rw [hst] at hwrote
        cases t with
        | fin | closed => cases hwrote
        | opened =>
            refine .single (.finSent (hop.imp_right (Or.imp_right ?_)))
            rintro ⟨seg, rfl, hplain, hmarks, rfl⟩
            refine ⟨hwaits, seg, rfl, hplain, ?_⟩
            rintro rfl
            by_contra hca
            refine hmarks hfin ?_ (by rw [hst]; rfl)
            rw [hst, Bool.eq_false_iff.mpr hca]
            rfl
    | timeWait => rw [hst] at hwrote; cases hwrote
    | listen | synSent | synReceived | reset | closed => rw [hst] at hs; cases hs
  · exact .refl

theorem path_onFin (hplain : seg.Plain) (hfin : seg.hasFin = true)
    (hack : c.connectionState = .synReceived → seg.hasAck = false) {isNew : Bool}
    (h : c.onFin isNew = .ok c') : Path waits (.onSegment seg : Op Time) c.connectionState
      c'.connectionState := by
  unfold onFin at h
  split at h
  case h_1 | h_2 | h_3 =>
    obtain rfl := Fallible.pure_ok_iff.mp h
    exact .refl
  case h_4 =>
    split at h
    all_goals
      obtain rfl := Fallible.pure_ok_iff.mp h
      exact .refl
  case h_5 hst =>
    obtain ⟨-, -, rfl⟩ := setState_ok_iff.mp h
    rw [stateSet_connectionState, hst]
    exact .single (.bareFin ⟨hplain.1, hplain.2, hack hst, hfin⟩)
  case h_6 t r cc ca hst =>
    obtain ⟨hv, -, rfl⟩ := setState_ok_iff.mp h
    rw [stateSet_connectionState, hst]
    refine Path.reduced (.single (.fin hplain hfin ?_))
    rintro rfl
    rw [triggerEvent_connectionState, hst] at hv
    exact absurd hv.2.1 (by decide)
  case h_7 =>
    obtain rfl := Fallible.pure_ok_iff.mp h
    exact .refl

theorem path_onFinAcked (hplain : seg.Plain) (hack : seg.hasAck = true) {ackn : SeqN}
    (h : c.onFinAcked ackn = .ok c') : Path waits (.onSegment seg : Op Time) c.connectionState
      c'.connectionState := by
  rcases onFinAcked_ok_iff.mp h with ⟨r, cc, ca, hst, -, -, -, rfl⟩ | ⟨-, rfl⟩
  · rw [stateSet_connectionState, hst]
    exact Path.reduced (.single (.finAcked hplain hack))
  · exact .refl

theorem Takes.path (hplain : seg.Plain) (hack : seg.hasAck = true) (h : c.Takes seg c₁) :
    Path waits (.onSegment seg : Op Time) c.connectionState c₁.connectionState := by
  rw [h.acknowledged.frame.1, opened_connectionState]
  split
  · rename_i hst
    rw [hst]
    exact .single (.ack hplain hack)
  · exact .refl

theorem Takes.synced (hs : c.Peered) (h : c.Takes seg c₁) :
    c₁.connectionState.synced = true := by
  rw [h.acknowledged.frame.1, opened_connectionState]
  split
  · rfl
  · rename_i hst
    exact hs.resolve_right hst

theorem path_fin (hplain : seg.Plain) (hack : c.connectionState = .synReceived → seg.hasAck = false)
    {isNew : Bool} (h : (if seg.hasFin then c.onFin isNew else .ok c) = .ok c') :
    Path waits (.onSegment seg : Op Time) c.connectionState c'.connectionState := by
  split at h
  · rename_i hfin
    exact path_onFin hplain hfin hack h
  · obtain rfl := Except.ok.inj h
    exact .refl

theorem path_onAccepted (hs : c.Peered) (hmarks : MarksActive c) (hplain : seg.Plain)
    (h : c.onAccepted seg = .ok c') :
    Path c.finWaits (.onSegment seg : Op Time) c.connectionState c'.connectionState := by
  cases acceptedStep_of_ok h with
  | unacknowledged hack hfin => exact path_fin hplain (fun _ => hack) hfin
  | invalid => exact .refl
  | discarded hack _ h₁ h₂ =>
      have hpath : Path c.finWaits (.onSegment seg : Op Time) _ _ :=
        (h₁.path hplain hack).trans (path_onFinAcked hplain hack h₂)
      split <;> exact hpath
  | @stored c₁ c₂ c₃ _ rx hack _ h₁ h₂ _ _ h₃ hfin =>
      have hpath : Path c.finWaits (.onSegment seg : Op Time) _ _ :=
        (h₁.path hplain hack).trans (path_onFinAcked hplain hack h₂)
      have hsync := h₁.synced hs
      rcases onFinAcked_tx hsync h₂ with ⟨htx, -, hsync₂, hwrote, -⟩ | ⟨c₀, rfl, -⟩
      · have hfollows : Follows True c.connectionState c₂.connectionState :=
          h₁.follows.trans (follows_onFinAcked h₂)
        have hqueue : c₂.tx.tx = c.tx.tx := by rw [htx, h₁.acknowledged.frame.2.2.1]
        have hmarks₂ : MarksActive { c₂ with rx := rx } := hmarks.follows (by rw [hqueue]) hfollows
        have hwaits : c.finWaits = finWaits { c₂ with rx := rx } := by
          have hopened : c.opened.connectionState.wroteFin = c.connectionState.wroteFin := by
            rw [opened_connectionState]
            split <;> simp_all [ConnectionState.wroteFin, ConnectionState.fullyOpen]
          unfold finWaits
          rw [hqueue, hwrote, h₁.acknowledged.frame.1, hopened]
        have hsync₂' : { c₂ with rx := rx }.connectionState.synced = true := hsync₂
        have hsend : Path c.finWaits (.onSegment seg : Op Time) _ _ :=
          path_sendAck hsync₂' h₃ (.inr (.inr ⟨seg, rfl, hplain, hmarks₂, hwaits⟩))
        refine (hpath.trans hsend).trans (path_fin hplain (fun hst => ?_) hfin)
        have hsync₃ := ((sendAck_spec h₃).txState hsync₂).1
        rw [hst] at hsync₃
        cases hsync₃
      · exact absurd h₃ (sendAck_closed rfl)

theorem path_onSegment (hwf : WellFormed c) (hmarks : MarksActive c)
    (h : c.onSegment seg = .ok c') :
    Path c.finWaits (.onSegment seg : Op Time) c.connectionState c'.connectionState := by
  unfold Connection.onSegment at h
  split at h
  case h_1 | h_2 =>
    simp only [Fallible.bind_ok_iff] at h
    obtain ⟨resp, -, h⟩ := h
    split at h
    all_goals
      obtain rfl := Fallible.pure_ok_iff.mp h
      exact .refl
  case h_3 hst =>
    cases listened_of_ok h with
    | ignored | refused => exact .refl
    | answered hrst hack hsyn _ hc =>
        rw [hst, hc.state]
        exact .single (.syn hrst hack hsyn)
  case h_4 hst =>
    cases synSentStep_of_ok h with
    | ignored | refused | waiting => exact .refl
    | reset hrst =>
        rw [hst]
        exact .single (.refused hrst)
    | opened _ hrst hack hsyn _ hsend =>
        have hfin : c.tx.tx.fin = false := (hwf.early (by rw [hst]; rfl)).1
        have hopen : ((c.synAcked seg).entered .fullyOpen).tx.tx.fin = false := by
          rw [entered_tx]
          exact hfin
        have hfirst : Path c.finWaits (.onSegment seg : Op Time) c.connectionState
            ((c.synAcked seg).entered .fullyOpen).connectionState := by
          rw [hst, entered_connectionState]
          exact .single (.synAck hrst hack hsyn)
        have hstate := (sendAck_spec hsend).state
        rw [if_neg] at hstate
        · rw [hstate]
          exact hfirst
        · intro hsends
          exact absurd ((sendsFin_iff.mp hsends).2.1.symm.trans hopen) (by decide)
  case h_5 hst | h_6 hst | h_7 hst =>
    have hs : c.Peered := by simp [Peered, hst, ConnectionState.synced]
    cases synchronizedStep_iff.mp h with
    | dropped | rejected => exact .refl
    | reset _ hrst hc =>
        unfold onRst at hc
        split at hc
        · rename_i hst'
          obtain ⟨-, -, rfl⟩ := setState_ok_iff.mp hc
          rw [stateSet_connectionState, show c.connectionState = .synReceived from hst']
          exact .single (.relisten hrst)
        · rename_i t r cc ca hst'
          obtain ⟨-, -, rfl⟩ := setState_ok_iff.mp hc
          rw [stateSet_connectionState, show c.connectionState = .established t r cc ca from hst']
          exact .single (.rst hrst)
        · cases hc
    | syn _ hrst hsyn hc =>
        rcases (onSyn_spec hc).state with hreset | ⟨-, -, hnew⟩
        · rw [hreset]
          exact .single (.badSyn hrst hsyn hs)
        · cases hnew
    | accepted _ hrst hsyn hacc =>
        exact path_onAccepted (c := c.windowed seg) hs hmarks ⟨hrst, hsyn⟩ hacc

theorem onTimerReTx_connectionState (h : c.onTimerReTx = .ok c') :
    c'.connectionState = c.connectionState := by
  unfold onTimerReTx at h
  split at h
  case h_1 | h_2 | h_3 | h_4 =>
    split at h
    · obtain rfl := Fallible.pure_ok_iff.mp h
      rfl
    · simp only [Fallible.bind_ok_iff, Fallible.pure_ok_iff] at h
      obtain ⟨_, -, _, -, rfl⟩ := h
      rfl
  case h_5 =>
    obtain rfl := Fallible.pure_ok_iff.mp h
    rfl
  case h_6 | h_7 => cases h

/-- A tick may end TimeWait, and moves nothing else. -/
theorem path_onTimeTick (hold : TimersHold c) {time : Time} (h : c.onTimeTick time = .ok c') :
    Path c.finWaits (.onTimeTick time) c.connectionState c'.connectionState := by
  simp only [onTimeTick, Fallible.bind_ok_iff] at h
  obtain ⟨c₁, h₁, c₂, h₂, h⟩ := h
  have hold₁ := hold.onTimeTick_reTx h₁
  have hstate : c₁.connectionState = c.connectionState := by
    split at h₁
    · have hkept := onTimerReTx_connectionState h₁
      exact hkept
    · obtain rfl := Fallible.pure_ok_iff.mp h₁
      rfl
  rw [← hstate]
  -- Nothing arms the user timer.
  have last (hnone : c₂.timers.usertime = none) : c' = c₂ := by
    rw [hnone] at h
    exact (Fallible.pure_ok_iff.mp h).symm
  split at h₂
  · simp only [onTimerTimewait, assert, Fallible.bind_ok_iff, Fallible.ensure_eq_ok,
      Fallible.pure_ok_iff] at h₂
    obtain ⟨_, hwait, rfl⟩ := h₂
    rw [last rfl, show c₁.connectionState = .timeWait from hwait]
    exact .single .timeout
  · obtain rfl := Fallible.pure_ok_iff.mp h₂
    rw [last hold₁.usertime]

/-- One operation follows a path of arrows. -/
theorem path_step (hwf : WellFormed c) (hold : TimersHold c) (hmarks : MarksActive c)
    (hc : c.step op = .ok (c', out)) : Path c.finWaits op c.connectionState c'.connectionState := by
  cases opStep_of_ok hc with
  | callConnect hc =>
      cases connectStep_of_ok hc with
      | refused => exact .refl
      | connecting hs hsyn =>
          rw [hsyn.state]
          exact .single (.connect hs)
  | callSend hc =>
      cases (sendStep_of_ok hc).2 with
      | refused | delayed | queued => exact .refl
      | @sent q _ _ _ _ _ hq _ hsend =>
          obtain ⟨-, hkept, hopen⟩ := BlobQueue.writeBytes_spec hq
          have hfin : q.fin = false := hkept.trans (hopen.resolve_left (sendStep_of_ok hc).1)
          rw [(sendAck_spec hsend).state, if_neg]
          · exact .refl
          · intro hsends
            exact absurd ((sendsFin_iff.mp hsends).2.1.symm.trans hfin) (by decide)
  | callRecv hc =>
      cases recvStep_of_ok hc with
      | refused | ended | early | waiting | read | full => exact .refl
      | drained hs =>
          rw [stateSet_connectionState, hs]
          exact Path.reduced (.single .readEnd)
  | callShutdown hc =>
      cases shutdownStep_of_ok hc with
      | refused | delayed => exact .refl
      | cleared hs => exact .single (.cancel (.inl rfl) hs)
      | early hs =>
          rw [entered_connectionState, hs]
          exact .single .earlyShutdown
      | @active cc _ _ hs _ _ _ hsend =>
          have hpath : Path c.finWaits (.callShutdown : Op Time) _ _ := path_sendAck (by
            rw [withQueue_connectionState, entered_connectionState]
            rfl) hsend (.inl rfl)
          rw [withQueue_connectionState, entered_connectionState] at hpath
          rw [hs]
          exact Relation.ReflTransGen.head .closeActive hpath
      | passive hs _ _ _ hsend =>
          exact path_sendAck (c := c.marked) (by rw [withQueue_connectionState, hs]; rfl) hsend
            (.inl rfl)
  | callClose hc =>
      have closing (c₀ : Connection Addr Time) (ca : Bool) (hest : ∃ t r cc ca₀,
          c₀.connectionState = .established t r cc ca₀ ∧ ca = (ca₀ || decide (r = .opened))) :
          Path c.finWaits (.callClose : Op Time) c₀.connectionState
            (c₀.closing ca).connectionState := by
        obtain ⟨t, r, cc, ca₀, hst, rfl⟩ := hest
        rw [closing_connectionState, hst]
        exact Path.reduced (.single .closeCalled)
      cases closeStep_of_ok hc with
      | refused | delayed => exact .refl
      | cleared hs => exact .single (.cancel (.inr rfl) hs)
      | @early c₁ _ hs =>
          rw [hs]
          change Path _ _ _ (c₁.entered (.established .fin .opened true true)).connectionState
          rw [entered_connectionState]
          exact .single .earlyClose
      | @opened r cc ca c₁ _ hs _ _ hsend =>
          have hpath : Path c.finWaits (.callClose : Op Time) _ _ := path_sendAck (c := c.marked)
            (by rw [withQueue_connectionState, hs]; rfl) hsend (.inr (.inl rfl))
          refine hpath.trans (closing c₁ _ ?_)
          have hstate := (sendAck_spec hsend).state
          rw [withQueue_connectionState, hs] at hstate
          split at hstate
          · exact ⟨_, _, _, _, hstate, rfl⟩
          · exact ⟨_, _, _, _, hstate, rfl⟩
      | ended hs => exact closing c _ ⟨_, _, _, _, hs, rfl⟩
  | callAbort hc =>
      cases abortStep_of_ok hc with
      | refused => exact .refl
      | cleared | reset => exact .single .abort
  | setOptions => exact .refl
  | onSegment hc => exact path_onSegment hwf hmarks hc
  | onTimeTick hc => exact path_onTimeTick hold hc

theorem MarksActive.step (h : MarksActive c) (hwf : WellFormed c) (hwf' : WellFormed c')
    (hc : c.step op = .ok (c', out)) : MarksActive c' := by
  cases hsync : c'.connectionState.synced with
  | false => exact .of_unmarked (hwf'.early hsync).1
  | true =>
      by_cases hop : op = .callConnect
      · subst hop
        cases opStep_of_ok hc with
        | callConnect hc =>
            cases connectStep_of_ok hc with
            | refused => exact h
            | connecting _ hsyn =>
                rw [hsyn.state] at hsync
                cases hsync
      intro hfin hpassive
      rcases follows_step hop hc with ⟨-, hst'⟩ | hfollows
      · rw [hst'] at hsync
        cases hsync
      · obtain ⟨hwas, hkept, -⟩ := hfollows hpassive
        rcases heard_of_marks hwf hc hpassive hfin with hmark | hheard
        · exact hkept (h hmark hwas)
        · exact hkept hheard

theorem Reachable.marksActive (h : Reachable c) : MarksActive c := by
  refine Transition.ReachableUnder.invariant (P := MarksActive) ?_ ?_ h
  · intro c hinit
    refine .of_unmarked ?_
    rw [((Reachable.wellFormed (.init hinit)).idle hinit.fresh.2.2).1]
    rfl
  · rintro c op c' hreach hp - ⟨out, hc⟩
    exact hp.step (Reachable.wellFormed hreach)
      (Reachable.wellFormed (Reachable.next hreach hc)) hc

/-- Every operation of every run follows the arrows. -/
theorem path_of_reachable (h : Reachable c) (hc : c.step op = .ok (c', out)) :
    Path c.finWaits op c.connectionState c'.connectionState :=
  path_step (Reachable.wellFormed h) (Reachable.timersHold h) (Reachable.marksActive h) hc

end Pieces

end Connection

instance : Fintype ChannelState where
  elems := {.opened, .fin, .closed}
  complete s := by cases s <;> decide

instance : Fintype ConnectionState where
  elems := {.listen, .synSent, .synReceived, .timeWait, .reset, .closed} ∪
    (Finset.univ : Finset (ChannelState × ChannelState × Bool × Bool)).image
      fun p => .established p.1 p.2.1 p.2.2.1 p.2.2.2
  complete s := by cases s <;> simp

namespace ConnectionState

/-- The states a connection is in between two operations: the peer that may
still send waits for an end that we began only if we took the active part, and
a finished connection is reduced. -/
def Visited : ConnectionState → Prop
  | .established t r cc ca => (r = .opened → t ≠ .opened ∨ cc = true → ca = true) ∧
      ¬ (t = .closed ∧ r = .closed ∧ cc = true)
  | _ => True

instance : DecidablePred Visited
  | .established _ _ _ _ => inferInstanceAs (Decidable (_ ∧ _))
  | .listen | .synSent | .synReceived | .timeWait | .reset | .closed => .isTrue trivial

/-- Operations that take a listening connection to an open state. -/
def route (t r : ChannelState) (closeCalled closeActive : Bool) : List (Op Nat) :=
  let window := if t = .opened then 0#16 else 4096#16
  let close := if closeCalled then .callClose else .callShutdown
  let read := if r = .closed then [.callRecv 1] else []
  [.onSegment ⟨0#32, 0#32, 4096#16, .syn, []⟩, .onSegment ⟨1#32, 1#32, window, .ack, []⟩] ++
    match closeActive, t, r with
    | false, .opened, .opened => []
    | false, .opened, _ =>
        .onSegment ⟨1#32, 1#32, window, .fin ||| .ack, []⟩ :: read ++
          if closeCalled then [.callClose] else []
    | false, .fin, _ => [.onSegment ⟨1#32, 1#32, window, .fin ||| .ack, []⟩, close] ++ read
    | false, .closed, _ => [.onSegment ⟨1#32, 1#32, window, .fin ||| .ack, []⟩, close,
        .onSegment ⟨2#32, 2#32, window, .ack, []⟩] ++ read
    | true, .opened, .opened => [close]
    | true, .opened, _ =>
        [.callShutdown, .onSegment ⟨1#32, 1#32, window, .fin ||| .ack, []⟩] ++ read ++
          if closeCalled then [.callClose] else []
    | true, .fin, .opened => [close]
    | true, .fin, _ => [close, .onSegment ⟨1#32, 1#32, window, .fin ||| .ack, []⟩] ++ read
    | true, .closed, .opened => [close, .onSegment ⟨1#32, 2#32, window, .ack, []⟩]
    | true, .closed, _ => [close, .onSegment ⟨1#32, 2#32, window, .fin ||| .ack, []⟩] ++ read

end ConnectionState

namespace Connection

open ConnectionState

section Visits

variable {Addr Time : Type} [UserTime Time] {c : Connection Addr Time}

theorem Reachable.visited (h : Reachable c) : c.connectionState.Visited := by
  cases hst : c.connectionState with
  | established t r cc ca =>
      have hwf := Reachable.wellFormed h
      refine ⟨?_, ?_⟩
      · rintro rfl hbegun
        by_contra hca
        rw [Bool.not_eq_true] at hca
        subst hca
        -- The FIN is written or waits, so the queue is marked.
        have hmark : c.tx.tx.fin = true := by
          rcases hbegun with ht | rfl
          · refine hwf.wroteFin ?_
            rw [hst]
            cases t with
            | opened => exact absurd rfl ht
            | fin | closed => rfl
          · cases t with
            | opened => exact hwf.closePending (by rw [hst]; rfl)
            | fin | closed => exact hwf.wroteFin (by rw [hst]; rfl)
        exact Reachable.marksActive h hmark (by rw [hst]; rfl) (by rw [hst]; rfl)
      · rintro ⟨rfl, rfl, rfl⟩
        exact Reachable.settles h ca hst
  | listen | synSent | synReceived | timeWait | reset | closed => trivial

end Visits

/-- A computed run of a listening connection visits a state. -/
theorem visits (s : ConnectionState) (ops : List (Op Nat))
    (h : (Transition.run (fun _ _ => True) next (listening () .default zeroUser) ops).any
      (fun c => decide (c.connectionState = s)) = true) :
    ∃ c : Connection Unit Nat, Reachable c ∧ c.connectionState = s :=
  Transition.exists_reachableUnder step_of_next (initial_listening () .default zeroUser) ops h

/-- Between two operations a connection is in one of thirty-five of the
forty-two states, and every one of them is visited by some run. -/
theorem states_visited :
    (∀ (Addr Time : Type) [UserTime Time] (c : Connection Addr Time), Reachable c →
      c.connectionState.Visited) ∧
    (∀ s : ConnectionState, s.Visited →
      ∃ c : Connection Unit Nat, Reachable c ∧ c.connectionState = s) ∧
    Fintype.card ConnectionState = 42 ∧ Fintype.card { s : ConnectionState // s.Visited } = 35 := by
  refine ⟨fun Addr Time _ c h => Reachable.visited h, fun s hs => ?_, by decide, by decide⟩
  cases s with
  | listen => exact visits _ [] (by decide)
  | closed => exact visits _ [.callAbort] (by decide)
  | synSent => exact visits _ [.callAbort, .callConnect] (by decide)
  | synReceived => exact visits _ [.onSegment ⟨0#32, 0#32, 4096#16, .syn, []⟩] (by decide)
  | reset =>
      exact visits _ (route .opened .opened false false ++
        [.onSegment ⟨1#32, 0#32, 0#16, .rst, []⟩]) (by decide)
  | timeWait => exact visits _ (route .closed .fin true true ++ [.callRecv 1]) (by decide)
  | established t r cc ca =>
      refine visits _ (route t r cc ca) ?_
      revert hs
      cases t <;> cases r <;> cases cc <;> cases ca <;> decide

end Connection

end TcpState
