import TcpState.Connection.CleanEnd
import TcpState.Connection.TxEffect

/-!
# Which side closes first

A connection is passive as long as `close_active` is not set. No operation
takes the flag back, a queue is marked without setting it only after the FIN
of the peer, and only a passive connection that has marked its queue goes from
Established directly to Closed.
-/

namespace TcpState

namespace ConnectionState

/-- `close_active` is not set. -/
def passive : ConnectionState → Bool
  | .synSent | .synReceived | .established _ _ _ false => true
  | _ => false

theorem not_passive_of_idle {s : ConnectionState} (h : s.idle = true) : s.passive = false := by
  cases s <;> first | rfl | cases h

theorem not_gone_of_passive {s : ConnectionState} (h : s.passive = true) : s.gone = false := by
  cases s <;> first | rfl | cases h

/-- The state `set_state` settles in. -/
def reduced : ConnectionState → ConnectionState
  | .established .closed .closed true true => .timeWait
  | .established .closed .closed true false => .closed
  | s => s

/-- A passive state comes from a passive one, and leaves the read channel open
or not as it was, except for the FIN of the peer. -/
def Follows (heard : Prop) (s s' : ConnectionState) : Prop :=
  s'.passive = true → s.passive = true ∧ (s.rx ≠ .opened → s'.rx ≠ .opened) ∧
    (s'.rx ≠ .opened → s.rx ≠ .opened ∨ heard)

variable {heard : Prop} {s s₁ s' : ConnectionState}

namespace Follows

theorem refl (s : ConnectionState) : Follows heard s s := fun h => ⟨h, id, .inl⟩

theorem of_eq (h : s' = s) : Follows heard s s' := by
  rw [h]
  exact refl s

theorem trans (h₁ : Follows heard s s₁) (h₂ : Follows heard s₁ s') : Follows heard s s' := by
  intro hp
  obtain ⟨hp₁, hkept₂, hheard₂⟩ := h₂ hp
  obtain ⟨hp₀, hkept₁, hheard₁⟩ := h₁ hp₁
  refine ⟨hp₀, fun hr => hkept₂ (hkept₁ hr), fun hr => ?_⟩
  rcases hheard₂ hr with hr₁ | hfin
  · exact hheard₁ hr₁
  · exact .inr hfin

/-- A state without the two closing flags is not passive. -/
theorem of_not_passive (h : s'.passive = false) : Follows heard s s' := fun hp =>
  absurd (h.symm.trans hp) Bool.false_ne_true

theorem reduced (h : Follows heard s s') : Follows heard s s'.reduced := by
  unfold ConnectionState.reduced
  split
  · exact of_not_passive rfl
  · exact of_not_passive rfl
  · exact h

/-- Between open states the flag is only set and the read channel only closed. -/
theorem established {t r cc ca t' r' cc' ca'} (hca : ca = true → ca' = true)
    (hr : r ≠ .opened → r' ≠ .opened) (hheard : r' ≠ .opened → r ≠ .opened ∨ heard) :
    Follows heard (.established t r cc ca) (.established t' r' cc' ca') := by
  intro hp
  cases ca with
  | false => exact ⟨rfl, hr, hheard⟩
  | true =>
      rw [hca rfl] at hp
      cases hp

/-- A handshake ends passive or actively closed. -/
theorem opening {t' r' cc' ca'} (hs : s.opening = true) (hheard : r' ≠ .opened → heard) :
    Follows heard s (.established t' r' cc' ca') := by
  intro _
  cases s with
  | synSent => exact ⟨rfl, fun h => absurd rfl h, fun h => .inr (hheard h)⟩
  | synReceived => exact ⟨rfl, fun h => absurd rfl h, fun h => .inr (hheard h)⟩
  | _ => cases hs

end Follows

end ConnectionState

/-- The operations that may clear a connection without the close reduction. -/
def Op.clears {Time : Type} : Op Time → Bool
  | .callAbort | .onTimeTick _ => true
  | _ => false

namespace Connection

open ConnectionState

variable {Addr Time : Type} [UserTime Time] {heard : Prop} {c c₁ c' : Connection Addr Time}
  {seg : SegmentMeta}

@[simp] theorem stateSet_connectionState (c : Connection Addr Time) (s : ConnectionState) :
    (c.stateSet s).connectionState = s.reduced := by
  unfold stateSet reduced
  split <;> simp

theorem closing_connectionState (c : Connection Addr Time) (ca : Bool) :
    (c.closing ca).connectionState =
      (ConnectionState.established c.connectionState.tx c.connectionState.rx true ca).reduced := by
  unfold closing
  split
  · exact stateSet_connectionState c _
  · exact stateSet_connectionState c _

/-- `send_ack` only records that a FIN was sent. -/
theorem follows_sendAck (hidle : c.connectionState.idle = false) (h : c.sendAck = .ok c') :
    Follows heard c.connectionState c'.connectionState := by
  rw [(sendAck_spec h).state]
  split
  · rename_i hfin
    have hwrote := (sendsFin_iff.mp hfin).2.2
    cases hst : c.connectionState with
    | established t r cc ca => exact .established id id .inl
    | synSent => exact .opening rfl fun h => absurd rfl h
    | synReceived => exact .opening rfl fun h => absurd rfl h
    | timeWait => rw [hst] at hwrote; cases hwrote
    | listen => rw [hst] at hidle; cases hidle
    | reset => rw [hst] at hidle; cases hidle
    | closed => rw [hst] at hidle; cases hidle
  · exact .refl _

theorem sendAck_not_closed (hs : c.Peered) (h : c.sendAck = .ok c') :
    c'.connectionState ≠ .closed :=
  (AckSent.rxState (sendAck_spec h) hs).1.not_closed

theorem follows_onFin {isNew : Bool} (h : c.onFin isNew = .ok c') :
    Follows True c.connectionState c'.connectionState := by
  unfold onFin at h
  split at h
  case h_1 | h_2 | h_3 =>
    obtain rfl := Fallible.pure_ok_iff.mp h
    exact .refl _
  case h_4 =>
    split at h
    all_goals
      obtain rfl := Fallible.pure_ok_iff.mp h
      exact .refl _
  case h_5 hst =>
    obtain ⟨-, -, rfl⟩ := setState_ok_iff.mp h
    rw [stateSet_connectionState, hst]
    exact .opening rfl fun _ => trivial
  case h_6 hst =>
    obtain ⟨-, -, rfl⟩ := setState_ok_iff.mp h
    rw [stateSet_connectionState, hst]
    exact (Follows.established id (fun _ => by decide) fun _ => .inr trivial).reduced
  case h_7 =>
    obtain rfl := Fallible.pure_ok_iff.mp h
    exact .refl _

theorem follows_onFinAcked {ackn : SeqN} (h : c.onFinAcked ackn = .ok c') :
    Follows heard c.connectionState c'.connectionState := by
  rcases onFinAcked_ok_iff.mp h with ⟨r, cc, ca, hst, -, -, -, rfl⟩ | ⟨-, rfl⟩
  · rw [stateSet_connectionState, hst]
    exact (Follows.established id id .inl).reduced
  · exact .refl _

theorem Takes.follows (h : c.Takes seg c₁) :
    Follows heard c.connectionState c₁.connectionState := by
  rw [h.acknowledged.frame.1, opened_connectionState]
  split
  · rename_i hst
    rw [hst]
    exact .opening rfl fun h => absurd rfl h
  · exact .refl _

/-- The FIN of a segment is all that closes the read channel. -/
theorem follows_fin {isNew : Bool}
    (h : (if seg.hasFin then c.onFin isNew else .ok c) = .ok c') :
    Follows (seg.hasFin = true) c.connectionState c'.connectionState := by
  split at h
  · rename_i hfin
    intro hp
    obtain ⟨hwas, hkept, hheard⟩ := follows_onFin h hp
    exact ⟨hwas, hkept, fun hr => (hheard hr).imp_right fun _ => hfin⟩
  · obtain rfl := Except.ok.inj h
    exact .refl _

theorem follows_onAccepted (hs : c.Peered) (h : c.onAccepted seg = .ok c') :
    Follows (seg.hasFin = true) c.connectionState c'.connectionState := by
  cases acceptedStep_of_ok h with
  | unacknowledged _ hfin => exact follows_fin hfin
  | invalid => exact .refl _
  | discarded _ _ h₁ h₂ =>
      have h : Follows (seg.hasFin = true) c.connectionState _ :=
        h₁.follows.trans (follows_onFinAcked h₂)
      split <;> exact h
  | @stored _ c₂ c₃ _ rx _ _ h₁ h₂ _ _ h₃ hfin =>
      rcases onFinAcked_peered (h₁.peered hs).1 h₂ with ⟨-, hs₂, -⟩ | ⟨-, rfl⟩
      · have hsend : Follows (seg.hasFin = true) c₂.connectionState c₃.connectionState :=
          follows_sendAck (c := { c₂ with rx := rx }) hs₂.not_idle h₃
        exact ((h₁.follows.trans (follows_onFinAcked h₂)).trans hsend).trans (follows_fin hfin)
      · exact absurd h₃ (sendAck_closed rfl)

/-- An incoming segment keeps a passive connection, or opens a listening one. -/
theorem follows_onSegment (h : c.onSegment seg = .ok c') :
    c.connectionState = .listen ∧ c'.connectionState = .synReceived ∨
      Follows (seg.hasFin = true) c.connectionState c'.connectionState := by
  unfold Connection.onSegment at h
  split at h
  case h_1 | h_2 =>
    simp only [Fallible.bind_ok_iff] at h
    obtain ⟨resp, -, h⟩ := h
    right
    split at h
    all_goals
      obtain rfl := Fallible.pure_ok_iff.mp h
      exact .refl _
  case h_3 hst =>
    cases listened_of_ok h with
    | ignored => exact .inr (.refl _)
    | refused => exact .inr (.refl _)
    | answered _ _ _ _ hc => exact .inl ⟨hst, hc.state⟩
  case h_4 hst =>
    right
    cases synSentStep_of_ok h with
    | ignored => exact .refl _
    | refused => exact .refl _
    | reset => exact .of_not_passive rfl
    | waiting => exact .refl _
    | opened _ _ _ _ _ hc =>
        have hidle : ((c.synAcked seg).entered .fullyOpen).connectionState.idle = false := by
          rw [entered_connectionState]
          rfl
        refine Follows.trans ?_ (follows_sendAck hidle hc)
        rw [entered_connectionState, hst]
        exact .opening rfl fun h => absurd rfl h
  case h_5 hst | h_6 hst | h_7 hst =>
    have hs : c.Peered := by simp [Peered, hst, ConnectionState.synced]
    right
    cases synchronizedStep_iff.mp h with
    | dropped => exact .refl _
    | rejected => exact .refl _
    | reset _ _ hrst => exact .of_not_passive (not_passive_of_idle (onRst_spec hrst).idle)
    | syn _ _ _ hsyn => exact .of_not_passive (not_passive_of_idle (onSyn_spec hsyn).idle)
    | accepted _ _ _ hacc =>
        exact follows_onAccepted (c := c.windowed seg) hs hacc

/-- No operation but `call_connect` takes `close_active` back. -/
theorem follows_step {op : Op Time} {out : Output} (hop : op ≠ .callConnect)
    (hc : c.step op = .ok (c', out)) :
    c.connectionState = .listen ∧ c'.connectionState = .synReceived ∨
      Follows (∃ seg, op = .onSegment seg ∧ seg.hasFin = true) c.connectionState
        c'.connectionState := by
  cases opStep_of_ok hc with
  | callConnect => exact absurd rfl hop
  | callSend hc =>
      right
      cases (sendStep_of_ok hc).2 with
      | refused => exact .refl _
      | delayed => exact .refl _
      | queued => exact .refl _
      | @sent q _ _ _ _ hs _ _ hsend =>
          have hidle : (c.withQueue q).connectionState.idle = false := by
            rw [withQueue_connectionState, hs]
            rfl
          exact follows_sendAck (c := c.withQueue q) hidle hsend
  | callRecv hc =>
      right
      cases recvStep_of_ok hc with
      | refused => exact .refl _
      | ended => exact .refl _
      | early => exact .refl _
      | waiting => exact .refl _
      | read => exact .refl _
      | full => exact .refl _
      | drained hs =>
          rw [stateSet_connectionState, hs]
          exact (Follows.established id (fun _ => by decide) fun _ => .inl (by decide)).reduced
  | callShutdown hc =>
      right
      cases shutdownStep_of_ok hc with
      | refused => exact .refl _
      | cleared => exact .of_not_passive rfl
      | delayed => exact .refl _
      | early =>
          rw [entered_connectionState]
          exact .of_not_passive rfl
      | @active cc ca _ hs _ _ _ hsend =>
          have hidle :
              (c.entered (.established .opened .opened cc true)).marked.connectionState.idle
                = false := by
            rw [withQueue_connectionState, entered_connectionState]
            rfl
          refine Follows.trans ?_ (follows_sendAck hidle hsend)
          rw [withQueue_connectionState, entered_connectionState]
          exact .of_not_passive rfl
      | passive hs _ _ _ hsend =>
          have hidle : c.marked.connectionState.idle = false := by
            rw [withQueue_connectionState, hs]
            rfl
          exact follows_sendAck (c := c.marked) hidle hsend
  | callClose hc =>
      right
      cases closeStep_of_ok hc with
      | refused => exact .refl _
      | cleared => exact .of_not_passive rfl
      | delayed => exact .refl _
      | @early c₁ =>
          change Follows _ _ (c₁.entered (.established .fin .opened true true)).connectionState
          rw [entered_connectionState]
          exact .of_not_passive rfl
      | opened hs _ _ hsend =>
          have hs' : c.marked.Peered := .inl (by rw [withQueue_connectionState, hs]; rfl)
          have hrx := (AckSent.rxState (sendAck_spec hsend) hs').2
          rw [withQueue_connectionState, hs] at hrx
          rw [closing_connectionState, hs, hrx]
          exact (Follows.established (fun h => by rw [h]; rfl) id .inl).reduced
      | ended hs =>
          rw [closing_connectionState, hs]
          exact (Follows.established (fun h => by rw [h]; rfl) id .inl).reduced
  | callAbort hc =>
      right
      cases abortStep_of_ok hc with
      | refused => exact .refl _
      | cleared => exact .of_not_passive rfl
      | reset => exact .of_not_passive rfl
  | setOptions => exact .inr (.refl _)
  | @onSegment seg _ hc =>
      refine (follows_onSegment hc).imp_right fun h hp => ?_
      obtain ⟨hwas, hkept, hheard⟩ := h hp
      exact ⟨hwas, hkept, fun hr => (hheard hr).imp_right fun hfin => ⟨seg, rfl, hfin⟩⟩
  | onTimeTick hc =>
      right
      cases tickStep_of_ok hc with
      | kept hstate => exact .of_eq hstate
      | cleared => exact .of_not_passive rfl

omit [UserTime Time] in
/-- Only closing the send channel marks the output queue. -/
theorem TxEffect.marks_fin {op : Op Time} {out : Output} (effect : TxEffect c op out c')
    (hfin : c'.tx.tx.fin = true) :
    c.tx.tx.fin = true ∨ op = .callShutdown ∨ op = .callClose := by
  cases effect with
  | kept _ htx =>
      rw [htx.queue] at hfin
      exact .inl hfin
  | cleared _ _ _ htx =>
      rw [htx] at hfin
      cases hfin
  | connecting _ _ hc =>
      rw [hc.tx, TxBuffer.onSend_tx] at hfin
      exact .inl hfin
  | answered _ _ _ hc =>
      rw [hc.tx, TxBuffer.onSend_tx] at hfin
      exact .inl hfin
  | queued _ _ hq htx =>
      rw [htx] at hfin
      exact .inl ((BlobQueue.writeBytes_spec hq).2.1.symm.trans hfin)
  | appended _ _ _ _ hq _ h =>
      rw [h.fin] at hfin
      exact .inl ((BlobQueue.writeBytes_spec hq).2.1.symm.trans hfin)
  | marked hop => exact .inr hop
  | acked _ _ _ _ htx =>
      rw [htx] at hfin
      exact .inl hfin
  | stored _ _ htx _ _ _ h =>
      rw [h.fin, htx] at hfin
      exact .inl hfin
  | synAcked => exact .inl hfin
  | opened _ _ _ _ _ _ h =>
      rw [h.fin, entered_tx] at hfin
      exact .inl hfin

/-- A connection that stays passive marks its queue only after the FIN of the
peer. -/
theorem heard_of_marks (hwf : WellFormed c) {op : Op Time} {out : Output}
    (hc : c.step op = .ok (c', out)) (hpassive : c'.connectionState.passive = true)
    (hfin : c'.tx.tx.fin = true) : c.tx.tx.fin = true ∨ c.connectionState.rx ≠ .opened := by
  rcases (hwf.txEffect hc).marks_fin hfin with hwas | rfl | rfl
  · exact .inl hwas
  · cases opStep_of_ok hc with
    | callShutdown hc =>
        cases shutdownStep_of_ok hc with
        | refused => exact .inl hfin
        | cleared => cases hfin
        | delayed => exact .inl hfin
        | early =>
            rw [entered_connectionState] at hpassive
            cases hpassive
        | @active cc _ _ _ _ _ _ hsend =>
            have hfollows : Follows True _ _ := follows_sendAck
              (by rw [withQueue_connectionState, entered_connectionState]; rfl) hsend
            obtain ⟨hwas, -⟩ := hfollows hpassive
            rw [withQueue_connectionState, entered_connectionState] at hwas
            cases hwas
        | passive hs hr =>
            rw [hs]
            exact .inr hr
  · cases opStep_of_ok hc with
    | callClose hc =>
        cases closeStep_of_ok hc with
        | refused => exact .inl hfin
        | cleared => cases hfin
        | delayed => exact .inl hfin
        | @early c₁ =>
            change (c₁.entered (.established .fin .opened true true)).connectionState.passive = true
              at hpassive
            rw [entered_connectionState] at hpassive
            cases hpassive
        | @opened rx cc ca c₁ _ hs =>
            right
            rw [hs]
            rintro hr
            change rx = .opened at hr
            have hstate :
                (c₁.closing (ca || decide (rx = .opened))).connectionState.passive = false := by
              rw [closing_connectionState, hr]
              cases ca <;> cases c₁.connectionState.tx <;> cases c₁.connectionState.rx <;> rfl
            exact absurd (hstate.symm.trans hpassive) Bool.false_ne_true
        | @ended tx _ _ _ _ hs ht =>
            refine .inl (hwf.wroteFin ?_)
            rw [hs]
            cases tx with
            | opened => exact absurd rfl ht
            | fin => rfl
            | closed => rfl

/-- The close reduction takes the connection from Established to Closed. Only
`call_abort` and the timers clear an established connection without it. -/
def ClosesDirectly (c : Connection Addr Time) (op : Op Time) (c' : Connection Addr Time) : Prop :=
  c.connectionState.isEstablished = true ∧ c'.connectionState = .closed ∧ op.clears = false

instance (c : Connection Addr Time) (op : Op Time) (c' : Connection Addr Time) :
    Decidable (c.ClosesDirectly op c') := by
  unfold ClosesDirectly
  infer_instance

theorem reduced_eq_closed_iff {s : ConnectionState} :
    s.reduced = .closed ↔ s = .established .closed .closed true false ∨ s = .closed := by
  unfold reduced
  split <;> simp_all

/-- Only a passive connection that has sent its FIN closes directly. -/
theorem ClosesDirectly.passive {op : Op Time} {out : Output} (h : c.ClosesDirectly op c')
    (hop : op ≠ .callConnect) (hc : c.step op = .ok (c', out)) :
    c.connectionState.passive = true ∧ c.connectionState.wroteFin = true := by
  obtain ⟨hest, hclosed, hclears⟩ := h
  have hpeer : c.Peered := .inl (synced_of_isEstablished hest)
  cases opStep_of_ok hc with
  | callConnect => exact absurd rfl hop
  | callAbort | onTimeTick => cases hclears
  | setOptions => exact absurd hclosed hpeer.not_closed
  | callSend hc =>
      cases (sendStep_of_ok hc).2 with
      | refused => exact absurd hclosed hpeer.not_closed
      | delayed => exact absurd hclosed hpeer.not_closed
      | queued => exact absurd hclosed hpeer.not_closed
      | @sent q _ _ _ _ _ _ _ hsend =>
          exact absurd hclosed (sendAck_not_closed (c := c.withQueue q) hpeer hsend)
  | callRecv hc =>
      cases recvStep_of_ok hc with
      | refused => exact absurd hclosed hpeer.not_closed
      | ended => exact absurd hclosed hpeer.not_closed
      | early => exact absurd hclosed hpeer.not_closed
      | waiting => exact absurd hclosed hpeer.not_closed
      | read => exact absurd hclosed hpeer.not_closed
      | full => exact absurd hclosed hpeer.not_closed
      | drained hs =>
          rw [stateSet_connectionState, reduced_eq_closed_iff] at hclosed
          rcases hclosed with h | h
          · obtain ⟨rfl, -, rfl, rfl⟩ := established.inj h
            rw [hs]
            exact ⟨rfl, rfl⟩
          · cases h
  | callShutdown hc =>
      cases shutdownStep_of_ok hc with
      | refused => exact absurd hclosed hpeer.not_closed
      | cleared hs => rcases hs with hs | hs <;> rw [hs] at hest <;> cases hest
      | delayed => exact absurd hclosed hpeer.not_closed
      | early hs => rw [hs] at hest; cases hest
      | active _ _ _ _ hsend =>
          refine absurd hclosed (sendAck_not_closed (.inl ?_) hsend)
          rw [withQueue_connectionState, entered_connectionState]
          rfl
      | passive _ _ _ _ hsend =>
          exact absurd hclosed (sendAck_not_closed (c := c.marked) hpeer hsend)
  | callClose hc =>
      cases closeStep_of_ok hc with
      | refused => exact absurd hclosed hpeer.not_closed
      | cleared hs => rcases hs with hs | hs <;> rw [hs] at hest <;> cases hest
      | delayed => exact absurd hclosed hpeer.not_closed
      | early hs => rw [hs] at hest; cases hest
      | opened hs _ _ hsend =>
          have hstate := (sendAck_spec hsend).state
          rw [closing_connectionState, reduced_eq_closed_iff] at hclosed
          rcases hclosed with h | h
          · obtain ⟨htx, -⟩ := established.inj h
            rw [withQueue_connectionState, hs] at hstate
            rw [hstate] at htx
            split at htx <;> cases htx
          · cases h
      | ended hs =>
          rw [closing_connectionState, reduced_eq_closed_iff, hs] at hclosed
          rcases hclosed with h | h
          · obtain ⟨rfl, -, -, hca⟩ := established.inj h
            obtain ⟨rfl, -⟩ := Bool.or_eq_false_iff.mp hca
            rw [hs]
            exact ⟨rfl, rfl⟩
          · cases h
  | @onSegment seg _ hc =>
      obtain ⟨-, -, -, -, -, -, c₁, c₂, h₁, h₂, hst₂⟩ := reachesClose_of_closed hpeer hc hclosed
      have hs₁ := (h₁.peered (c := c.windowed seg) hpeer).1
      rcases onFinAcked_peered hs₁ h₂ with ⟨-, hs₂, -⟩ | ⟨⟨hst₁, -⟩, -⟩
      · exact absurd hst₂ hs₂.not_closed
      · rw [h₁.acknowledged.frame.1, opened_connectionState, if_neg] at hst₁
        · rw [← windowed_connectionState c seg, hst₁]
          exact ⟨rfl, rfl⟩
        · intro hrec
          rw [windowed_connectionState] at hrec
          rw [hrec] at hest
          cases hest

end Connection

end TcpState
