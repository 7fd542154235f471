import TcpState.Connection.CallPanic
import TcpState.Connection.CloseActive

/-!
# Closes that wait for room, and the end of the stream

A close whose FIN finds no room in the send window waits with an open send
channel. No close waits behind a receive state as long as every close behind it
finds room; then reads behind the FIN of the peer always return.
-/

namespace TcpState

namespace ConnectionState

/-- A close waits to send its FIN, behind a receive state in `R`. -/
def PendingIn (R : ChannelState → Prop) (s : ConnectionState) : Prop :=
  s.closePending = true ∧ R s.rx

variable {R : ChannelState → Prop} {s : ConnectionState}

theorem not_pendingIn_of_false (h : s.closePending = false) : ¬ s.PendingIn R :=
  fun hp => Bool.false_ne_true (h.symm.trans hp.1)

theorem not_pendingIn_withFin (s : ConnectionState) : ¬ s.withFin.PendingIn R :=
  not_pendingIn_of_false (by cases s <;> rfl)

theorem not_pendingIn_reduced (h : ¬ s.PendingIn R) : ¬ s.reduced.PendingIn R := by
  unfold reduced
  split
  · exact not_pendingIn_of_false rfl
  · exact not_pendingIn_of_false rfl
  · exact h

/-- A checked transition with the close called has left the open send channel. -/
theorem closePending_of_valid {t r t' r' : ChannelState} {cc ca ca' : Bool}
    (hv : (established t r cc ca).ValidTransition (established t' r' cc ca')) :
    (established t' r' cc ca').closePending = false := by
  obtain ⟨-, -, -, -, hfin⟩ := hv
  cases cc with
  | false => cases t' <;> rfl
  | true =>
      cases t' with
      | opened => exact absurd (hfin rfl) (by decide)
      | fin | closed => rfl

end ConnectionState

namespace Connection

open ConnectionState Fallible

variable {Addr Time : Type} [UserTime Time] {R : ChannelState → Prop}
  {c c₁ c' : Connection Addr Time} {seg : SegmentMeta}

/-- A close behind a receive state in `R` finds room for its FIN. -/
def ClosesWithRoom (R : ChannelState → Prop) (c : Connection Addr Time) : Op Time → Prop
  | .callClose => c.connectionState.isEstablished = true → R c.connectionState.rx →
      c.connectionState.tx = .opened → c.OutputDone → c.tx.spaceAvailable ≠ 0#32
  | _ => True

instance [DecidablePred R] (c : Connection Addr Time) : DecidablePred (c.ClosesWithRoom R)
  | .callClose => inferInstanceAs (Decidable (_ → _))
  | .callConnect | .callSend _ | .callRecv _ | .callShutdown | .callAbort | .setOptions _
  | .onSegment _ | .onTimeTick _ => .isTrue trivial

section Pending

theorem sendAck_not_pendingIn (hp : ¬ c.connectionState.PendingIn R)
    (h : c.sendAck = .ok c') : ¬ c'.connectionState.PendingIn R := by
  rw [(sendAck_spec h).state]
  split
  · exact not_pendingIn_withFin _
  · exact hp

/-- The FIN of the peer is refused while a close waits. -/
theorem onFin_not_pending {isNew : Bool} (h : c.onFin isNew = .ok c') :
    c'.connectionState.closePending = false := by
  unfold onFin at h
  split at h
  case h_1 hst | h_2 hst | h_3 hst | h_7 hst =>
    obtain rfl := Fallible.pure_ok_iff.mp h
    first | rw [triggerEvent_connectionState, hst] | rw [hst]
    rfl
  case h_4 hst =>
    split at h
    all_goals
      obtain rfl := Fallible.pure_ok_iff.mp h
      exact congrArg closePending hst
  case h_5 hst =>
    obtain ⟨-, -, rfl⟩ := setState_ok_iff.mp h
    rw [stateSet_connectionState]
    rfl
  case h_6 t r cc ca hst =>
    obtain ⟨hv, -, rfl⟩ := setState_ok_iff.mp h
    rw [triggerEvent_connectionState, hst] at hv
    rw [stateSet_connectionState]
    refine Bool.eq_false_iff.mpr fun hp => ?_
    exact not_pendingIn_reduced (R := fun _ => True)
      (not_pendingIn_of_false (closePending_of_valid hv)) ⟨hp, trivial⟩

theorem onFinAcked_not_pendingIn (hp : ¬ c.connectionState.PendingIn R) {ackn : SeqN}
    (h : c.onFinAcked ackn = .ok c') : ¬ c'.connectionState.PendingIn R := by
  rcases onFinAcked_ok_iff.mp h with ⟨r, cc, ca, hst, -, -, -, rfl⟩ | ⟨-, rfl⟩
  · rw [stateSet_connectionState]
    exact not_pendingIn_reduced (not_pendingIn_of_false rfl)
  · exact hp

theorem Takes.not_pendingIn (hp : ¬ c.connectionState.PendingIn R)
    (h : c.Takes seg c₁) : ¬ c₁.connectionState.PendingIn R := by
  rw [h.acknowledged.frame.1, opened_connectionState]
  split
  · exact not_pendingIn_of_false rfl
  · exact hp

theorem onAccepted_not_pendingIn (hp : ¬ c.connectionState.PendingIn R)
    (h : c.onAccepted seg = .ok c') : ¬ c'.connectionState.PendingIn R := by
  have fin {c₁ c₂ : Connection Addr Time} {isNew : Bool}
      (hp₁ : ¬ c₁.connectionState.PendingIn R)
      (hfin : (if seg.hasFin then c₁.onFin isNew else .ok c₁) = .ok c₂) :
      ¬ c₂.connectionState.PendingIn R := by
    split at hfin
    · exact not_pendingIn_of_false (onFin_not_pending hfin)
    · obtain rfl := Except.ok.inj hfin
      exact hp₁
  cases acceptedStep_of_ok h with
  | unacknowledged _ hfin => exact fin hp hfin
  | invalid => exact hp
  | discarded _ _ h₁ h₂ =>
      have hp₂ := onFinAcked_not_pendingIn (h₁.not_pendingIn hp) h₂
      split <;> exact hp₂
  | @stored _ c₂ _ _ rx _ _ h₁ h₂ _ _ h₃ hfin =>
      have hp₂ := onFinAcked_not_pendingIn (h₁.not_pendingIn hp) h₂
      exact fin (sendAck_not_pendingIn (c := { c₂ with rx := rx }) hp₂ h₃) hfin

theorem onSegment_not_pendingIn (hp : ¬ c.connectionState.PendingIn R)
    (h : c.onSegment seg = .ok c') : ¬ c'.connectionState.PendingIn R := by
  unfold Connection.onSegment at h
  split at h
  case h_1 | h_2 =>
    simp only [Fallible.bind_ok_iff] at h
    obtain ⟨resp, -, h⟩ := h
    split at h
    all_goals
      obtain rfl := Fallible.pure_ok_iff.mp h
      exact hp
  case h_3 =>
    cases listened_of_ok h with
    | ignored => exact hp
    | refused => exact hp
    | answered _ _ _ _ hc =>
        rw [hc.state]
        exact not_pendingIn_of_false rfl
  case h_4 =>
    cases synSentStep_of_ok h with
    | ignored => exact hp
    | refused => exact hp
    | reset => exact not_pendingIn_of_false rfl
    | waiting => exact hp
    | opened _ _ _ _ _ hc =>
        refine sendAck_not_pendingIn ?_ hc
        rw [entered_connectionState]
        exact not_pendingIn_of_false rfl
  case h_5 | h_6 | h_7 =>
    cases synchronizedStep_iff.mp h with
    | dropped => exact hp
    | rejected => exact hp
    | reset _ _ hrst =>
        unfold Connection.onRst at hrst
        split at hrst
        · obtain ⟨-, -, rfl⟩ := setState_ok_iff.mp hrst
          rw [stateSet_connectionState]
          exact not_pendingIn_of_false rfl
        · obtain ⟨-, -, rfl⟩ := setState_ok_iff.mp hrst
          rw [stateSet_connectionState]
          exact not_pendingIn_of_false rfl
        · cases hrst
    | syn _ _ _ hsyn =>
        obtain ⟨-, -, rfl⟩ := setState_ok_iff.mp hsyn
        rw [stateSet_connectionState]
        exact not_pendingIn_of_false rfl
    | accepted _ _ _ hacc => exact onAccepted_not_pendingIn (c := c.windowed seg) hp hacc

/-- A close waits only if its own call found no room for the FIN. -/
theorem step_not_pendingIn (hp : ¬ c.connectionState.PendingIn R) {op : Op Time}
    {out : Output} (hroom : c.ClosesWithRoom R op) (hc : c.step op = .ok (c', out)) :
    ¬ c'.connectionState.PendingIn R := by
  cases opStep_of_ok hc with
  | callConnect hc =>
      cases connectStep_of_ok hc with
      | refused => exact hp
      | connecting _ hsyn =>
          rw [hsyn.state]
          exact not_pendingIn_of_false rfl
  | callSend hc =>
      cases (sendStep_of_ok hc).2 with
      | refused => exact hp
      | delayed => exact hp
      | queued => exact hp
      | @sent q _ _ _ _ _ _ _ hsend => exact sendAck_not_pendingIn (c := c.withQueue q) hp hsend
  | callRecv hc =>
      cases recvStep_of_ok hc with
      | refused => exact hp
      | ended => exact hp
      | early => exact hp
      | waiting => exact hp
      | read => exact hp
      | full => exact hp
      | @drained t cc ca _ _ hs _ _ hv =>
          rw [stateSet_connectionState]
          rw [hs] at hv
          exact not_pendingIn_reduced (not_pendingIn_of_false (closePending_of_valid hv))
  | callShutdown hc =>
      cases shutdownStep_of_ok hc with
      | refused => exact hp
      | cleared => exact not_pendingIn_of_false rfl
      | delayed => exact hp
      | early =>
          rw [entered_connectionState]
          exact not_pendingIn_of_false rfl
      | @active cc ca _ hs hcc _ _ hsend =>
          refine sendAck_not_pendingIn
            (c := (c.entered (.established .opened .opened cc true)).marked) ?_ hsend
          rw [withQueue_connectionState, entered_connectionState, hcc]
          exact not_pendingIn_of_false rfl
      | passive _ _ _ _ hsend => exact sendAck_not_pendingIn (c := c.marked) hp hsend
  | callClose hc =>
      cases closeStep_of_ok hc with
      | refused => exact hp
      | cleared => exact not_pendingIn_of_false rfl
      | delayed => exact hp
      | @early c₁ =>
          refine not_pendingIn_of_false ?_
          change (c₁.entered (.established .fin .opened true true)).connectionState.closePending =
            false
          rw [entered_connectionState]
          rfl
      | @opened r _ ca c₁ _ hs hempty hw hsend =>
          have hstate := (sendAck_spec hsend).state
          rw [withQueue_connectionState, hs] at hstate
          rw [closing_connectionState]
          refine not_pendingIn_reduced ?_
          split at hstate
          · rw [hstate]
            exact not_pendingIn_of_false rfl
          · rename_i hwaits
            -- Without room the receive state is not in `R`.
            have hzero : c.tx.spaceAvailable = 0#32 :=
              Classical.byContradiction fun hroom =>
                hwaits ((marked_sendsFin_iff hs hempty).mpr hroom)
            rw [hstate]
            rintro ⟨-, hr⟩
            exact hroom (by rw [hs]; rfl) (by rw [hs]; exact hr) (by rw [hs]; rfl) ⟨hempty, hw⟩
              hzero
      | @ended t r _ ca _ hs ht =>
          rw [closing_connectionState, hs]
          refine not_pendingIn_reduced (not_pendingIn_of_false ?_)
          cases t with
          | opened => exact absurd rfl ht
          | fin | closed => rfl
  | callAbort hc =>
      cases abortStep_of_ok hc with
      | refused => exact hp
      | cleared => exact not_pendingIn_of_false rfl
      | reset => exact not_pendingIn_of_false rfl
  | setOptions => exact hp
  | @onSegment seg _ hc => exact onSegment_not_pendingIn hp hc
  | onTimeTick hc =>
      cases tickStep_of_ok hc with
      | kept hstate => rwa [hstate]
      | cleared => exact not_pendingIn_of_false rfl

theorem not_pendingIn_of_reachable (h : ReachableUnder (ClosesWithRoom R) c) :
    ¬ c.connectionState.PendingIn R := by
  refine Transition.ReachableUnder.invariant
    (P := fun c => ¬ c.connectionState.PendingIn R) ?_ ?_ h
  · intro c hinit
    have hidle := hinit.fresh.2.2
    refine not_pendingIn_of_false ?_
    cases hst : c.connectionState <;> first | rfl | (rw [hst] at hidle; cases hidle)
  · rintro c op c' - hp hroom ⟨out, hc⟩
    exact step_not_pendingIn hp hroom hc

end Pending

section EndOfStream

/-- The FIN of the peer acknowledges, and a close behind it finds room for ours. -/
def EndsOrderly (c : Connection Addr Time) (op : Op Time) : Prop :=
  c.FinAcknowledges op ∧ c.ClosesWithRoom (· = .fin) op

instance (c : Connection Addr Time) (op : Op Time) : Decidable (c.EndsOrderly op) :=
  inferInstanceAs (Decidable (_ ∧ _))

/-- While every FIN that closes the receive state acknowledges, and every close
behind it finds room, that state and the stored FIN agree; reads behind the FIN
return for every buffer but the empty one, and no segment adds data. -/
theorem endOfStream_consistent (h : ReachableUnder EndsOrderly c)
    (hst : c.connectionState.isEstablished = true) :
    (c.connectionState.rx = .fin ∨ c.connectionState.rx = .closed ↔ c.rx.buffer.fin = true) ∧
      (c.connectionState.rx = .fin → ∀ bufferLen,
        (∃ c' data, c.callRecv bufferLen = .ok (c', .ok data)) ↔ bufferLen ≠ 0) ∧
      (c.connectionState.rx = .fin ∨ c.connectionState.rx = .closed → ∀ seg c',
        c.onSegment seg = .ok c' →
          c'.rx.bytes = c.rx.bytes ∨ c'.connectionState.idle = true) := by
  have hwf : WellFormed c := Reachable.wellFormed h.reachable
  have hs : Peered c := by
    obtain ⟨t, r, cc, ca, hst⟩ := ConnectionState.isEstablished_iff.mp hst
    exact .inl (by rw [hst]; rfl)
  have hmarked : c.connectionState.rx = .fin ∨ c.connectionState.rx = .closed ↔
      c.rx.buffer.fin = true := by
    have hiff : c.connectionState.rx ≠ .opened ↔ c.rx.buffer.fin = true :=
      endMarked (h.mono fun _ _ hop => hop.1) hs
    rw [← hiff]
    cases c.connectionState.rx <;> simp
  refine ⟨hmarked, fun hfin bufferLen => ?_, fun hend seg c' hc => ?_⟩
  · rw [callRecv_fin_succeeds_iff hwf hst hfin (hmarked.mp (.inl hfin)) bufferLen]
    refine and_iff_left fun hp => ?_
    exact not_pendingIn_of_reachable (R := (· = .fin)) (h.mono fun _ _ hop => hop.2) ⟨hp.1, hfin⟩
  · cases hwf.rxEffect_onSegment hc with
    | kept _ hrx => exact .inl (by rw [hrx])
    | cleared _ hidle => exact .inr hidle
    | answered hlisten => rw [hlisten] at hst; cases hst
    | synAcked hsent => rw [hsent] at hst; cases hst
    | stored _ _ hrx =>
        have hdata := (RxBuffer.write_succeeds_iff.mp ⟨_, hrx⟩).2.resolve_right
          (by rw [hmarked.mp hend]; decide)
        left
        rw [(RxBuffer.write_spec hrx).1, hdata, List.append_nil]
    | finOnly _ _ _ _ _ _ _ _ hrx => exact .inl (by rw [hrx])

/-- After the peer's FIN and our close, with the last data read in part. -/
theorem endOfStream_consistent_fin : ∃ c : Connection Unit Nat,
    c.connectionState.rx = .fin ∧ c.rx.buffer.fin = true ∧
      ∃ c' data, c.callRecv 2 = .ok (c', .ok data) := by
  obtain ⟨c, hreach, hst, hfin⟩ : ∃ c : Connection Unit Nat,
      ReachableUnder EndsOrderly c ∧ c.connectionState.isEstablished = true ∧
        c.connectionState.rx = .fin :=
    Transition.exists_reachableUnder step_of_next (initial_listening () .default zeroUser)
      [.onSegment ⟨100#32, 0#32, 1000#16, .syn, []⟩,
       .onSegment ⟨101#32, 1#32, 1000#16, .ack, [1, 2]⟩,
       .onSegment ⟨103#32, 1#32, 1000#16, .fin ||| .ack, []⟩, .callClose, .callRecv 1] (by decide)
  obtain ⟨hmarked, hreads, -⟩ := endOfStream_consistent hreach hst
  exact ⟨c, hfin, hmarked.mp (.inl hfin), (hreads hfin 2).mpr (by decide)⟩

/-- A FIN without an acknowledgement declares the end without storing it. -/
theorem endOfStream_unmarked : ¬ ∀ c : Connection Unit Nat, Reachable c →
    c.connectionState.isEstablished = true →
      (c.connectionState.rx = .fin ∨ c.connectionState.rx = .closed ↔
        c.rx.buffer.fin = true) := by
  intro hall
  obtain ⟨c, hreach, hst, hfin, hmark⟩ : ∃ c : Connection Unit Nat, Reachable c ∧
      c.connectionState.isEstablished = true ∧ c.connectionState.rx = .fin ∧
        c.rx.buffer.fin = false :=
    Transition.exists_reachableUnder step_of_next (initial_listening () .default zeroUser)
      [.onSegment ⟨100#32, 0#32, 1000#16, .syn, []⟩,
       .onSegment ⟨101#32, 1#32, 1000#16, .ack, []⟩,
       .onSegment ⟨101#32, 1#32, 1000#16, .fin, []⟩] (by decide)
  have hiff := hall c hreach hst
  rw [hmark] at hiff
  exact absurd (hiff.mp (.inl hfin)) (by decide)

end EndOfStream

end Connection

end TcpState
