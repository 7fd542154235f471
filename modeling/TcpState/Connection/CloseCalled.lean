import TcpState.Connection.CloseActive

/-!
# The close that was called

`close_called` is set by `call_close` alone, and it stays until the connection
is cleared. `set_state` never leaves a connection that was closed in both
directions after such a call.
-/

namespace TcpState

/-- A call that returned without refusing or asking to retry. -/
def Output.granted : Output → Bool
  | .call (.ok ()) | .call (.error (.continueAfter _)) => true
  | _ => false

namespace ConnectionState

/-- The application has closed the connection, which has not been cleared. -/
def closes : ConnectionState → Bool
  | .established _ _ closeCalled _ => closeCalled
  | .timeWait => true
  | _ => false

theorem not_idle_of_closes {s : ConnectionState} (h : s.closes = true) : s.idle = false := by
  cases s with
  | listen => cases h
  | reset => cases h
  | closed => cases h
  | _ => rfl

theorem not_gone_of_closes {s : ConnectionState} (h : s.closes = true) : s.gone = false :=
  not_gone_of_not_idle (not_idle_of_closes h)

/-- Not closed in both directions after a close: `set_state` reduces such a state. -/
def Settles (s : ConnectionState) : Prop := ∀ ca, s ≠ .established .closed .closed true ca

variable {s s₁ s' : ConnectionState}

theorem settles_reduced (s : ConnectionState) : s.reduced.Settles := by
  intro ca h
  unfold reduced at h
  split at h
  · cases h
  · cases h
  · rename_i ht hc
    cases ca with
    | true => exact ht h
    | false => exact hc h

theorem Settles.reduced_eq (h : s.Settles) : s.reduced = s := by
  unfold reduced
  split
  · exact absurd rfl (h true)
  · exact absurd rfl (h false)
  · rfl

theorem settles_of_open {t r : ChannelState} {cc ca : Bool}
    (h : t ≠ .closed ∨ r ≠ .closed ∨ cc = false) : (established t r cc ca).Settles := by
  rintro ca' ⟨⟩
  simp at h

theorem settles_of_gone (h : s.gone = true) : s.Settles := by
  rintro ca rfl
  cases h

/-- A step among the states keeps `close_called` until the connection is
cleared, and ends in a state that is not reduced. -/
structure KeepsClose (s s' : ConnectionState) : Prop where
  settles : s.Settles → s'.Settles
  gone : s.gone = true → s'.gone = true
  closes : s'.gone = true ∨ s'.closes = s.closes

namespace KeepsClose

theorem refl (s : ConnectionState) : KeepsClose s s := ⟨id, id, .inr rfl⟩

theorem of_eq (h : s' = s) : KeepsClose s s' := by
  rw [h]
  exact refl s

theorem trans (h₁ : KeepsClose s s₁) (h₂ : KeepsClose s₁ s') : KeepsClose s s' := by
  refine ⟨fun h => h₂.settles (h₁.settles h), fun h => h₂.gone (h₁.gone h), ?_⟩
  rcases h₂.closes with hgone | heq
  · exact .inl hgone
  · rcases h₁.closes with hgone₁ | heq₁
    · exact .inl (h₂.gone hgone₁)
    · exact .inr (heq.trans heq₁)

theorem of_gone (h : s'.gone = true) : KeepsClose s s' :=
  ⟨fun _ => settles_of_gone h, fun _ => h, .inl h⟩

/-- A state change between states that are not cleared. -/
theorem of_closes (s' : ConnectionState) (hs : s.gone = false) (h : s'.closes = s.closes) :
    KeepsClose s s'.reduced := by
  refine ⟨fun _ => settles_reduced s', fun hgone => absurd (hs.symm.trans hgone) (by decide), ?_⟩
  unfold reduced
  split
  · exact .inr h
  · exact .inl rfl
  · exact .inr h

end KeepsClose

end ConnectionState

namespace Connection

open ConnectionState

variable {Addr Time : Type} [UserTime Time] {c c₁ c' : Connection Addr Time}
  {seg : SegmentMeta}

/-- `send_ack` only records that a FIN was sent. -/
theorem keepsClose_sendAck (hidle : c.connectionState.idle = false) (h : c.sendAck = .ok c') :
    KeepsClose c.connectionState c'.connectionState := by
  rw [(sendAck_spec h).state]
  split
  · rename_i hfin
    have hwrote := (sendsFin_iff.mp hfin).2.2
    have hsettles : c.connectionState.withFin.Settles := by
      cases c.connectionState <;> exact settles_of_open (.inl (by decide))
    rw [← hsettles.reduced_eq]
    refine .of_closes _ (not_gone_of_not_idle hidle) ?_
    cases hst : c.connectionState with
    | established t r cc ca => rfl
    | synSent => rfl
    | synReceived => rfl
    | timeWait => rw [hst] at hwrote; cases hwrote
    | listen => rw [hst] at hidle; cases hidle
    | reset => rw [hst] at hidle; cases hidle
    | closed => rw [hst] at hidle; cases hidle
  · exact .refl _

theorem keepsClose_onFin {isNew : Bool} (h : c.onFin isNew = .ok c') :
    KeepsClose c.connectionState c'.connectionState := by
  unfold onFin at h
  split at h
  case h_1 | h_2 | h_3 =>
    obtain rfl := Fallible.pure_ok_iff.mp h
    exact .refl _
  case h_4 =>
    split at h
    all_goals
      obtain rfl := Fallible.pure_ok_iff.mp h
      exact .refl _
  case h_5 hst | h_6 hst =>
    obtain ⟨-, -, rfl⟩ := setState_ok_iff.mp h
    rw [stateSet_connectionState, hst]
    exact .of_closes _ rfl rfl
  case h_7 =>
    obtain rfl := Fallible.pure_ok_iff.mp h
    exact .refl _

theorem keepsClose_onFinAcked {ackn : SeqN} (h : c.onFinAcked ackn = .ok c') :
    KeepsClose c.connectionState c'.connectionState := by
  rcases onFinAcked_ok_iff.mp h with ⟨r, cc, ca, hst, -, -, -, rfl⟩ | ⟨-, rfl⟩
  · rw [stateSet_connectionState, hst]
    exact .of_closes _ rfl rfl
  · exact .refl _

theorem Takes.keepsClose (h : c.Takes seg c₁) :
    KeepsClose c.connectionState c₁.connectionState := by
  rw [h.acknowledged.frame.1, opened_connectionState]
  split
  · rename_i hst
    rw [hst]
    exact .of_closes .fullyOpen rfl rfl
  · exact .refl _

theorem keepsClose_fin {isNew : Bool}
    (h : (if seg.hasFin then c.onFin isNew else .ok c) = .ok c') :
    KeepsClose c.connectionState c'.connectionState := by
  split at h
  · exact keepsClose_onFin h
  · obtain rfl := Except.ok.inj h
    exact .refl _

theorem keepsClose_onAccepted (hs : c.Peered) (h : c.onAccepted seg = .ok c') :
    KeepsClose c.connectionState c'.connectionState := by
  cases acceptedStep_of_ok h with
  | unacknowledged _ hfin => exact keepsClose_fin hfin
  | invalid => exact .refl _
  | discarded _ _ h₁ h₂ =>
      have h := h₁.keepsClose.trans (keepsClose_onFinAcked h₂)
      split <;> exact h
  | @stored _ c₂ c₃ _ rx _ _ h₁ h₂ _ _ h₃ hfin =>
      rcases onFinAcked_peered (h₁.peered hs).1 h₂ with ⟨-, hs₂, -⟩ | ⟨-, rfl⟩
      · have hsend : KeepsClose c₂.connectionState c₃.connectionState :=
          keepsClose_sendAck (c := { c₂ with rx := rx }) hs₂.not_idle h₃
        exact ((h₁.keepsClose.trans (keepsClose_onFinAcked h₂)).trans hsend).trans
          (keepsClose_fin hfin)
      · exact absurd h₃ (sendAck_closed rfl)

theorem keepsClose_onSegment (h : c.onSegment seg = .ok c') :
    KeepsClose c.connectionState c'.connectionState := by
  -- A wiped connection is reset, or listens again after an early RST.
  have wiped {new : List SegmentMeta} (hw : Wiped (c.windowed seg) c' new) :
      KeepsClose c.connectionState c'.connectionState := by
    rcases hw.state with hst | ⟨hrec, hst, -⟩
    · exact .of_gone (by rw [hst]; rfl)
    · rw [windowed_connectionState] at hrec
      rw [hrec, hst]
      exact .of_closes .listen rfl rfl
  unfold Connection.onSegment at h
  split at h
  case h_1 | h_2 =>
    simp only [Fallible.bind_ok_iff] at h
    obtain ⟨resp, -, h⟩ := h
    split at h
    all_goals
      obtain rfl := Fallible.pure_ok_iff.mp h
      exact .refl _
  case h_3 hst =>
    cases listened_of_ok h with
    | ignored => exact .refl _
    | refused => exact .refl _
    | answered _ _ _ _ hc =>
        rw [hst, hc.state]
        exact .of_closes .synReceived rfl rfl
  case h_4 hst =>
    cases synSentStep_of_ok h with
    | ignored => exact .refl _
    | refused => exact .refl _
    | reset => exact .of_gone rfl
    | waiting => exact .refl _
    | opened _ _ _ _ _ hc =>
        have hidle : ((c.synAcked seg).entered .fullyOpen).connectionState.idle = false := by
          rw [entered_connectionState]
          rfl
        refine KeepsClose.trans ?_ (keepsClose_sendAck hidle hc)
        rw [entered_connectionState, hst]
        exact .of_closes .fullyOpen rfl rfl
  case h_5 hst | h_6 hst | h_7 hst =>
    have hs : c.Peered := by simp [Peered, hst, ConnectionState.synced]
    cases synchronizedStep_iff.mp h with
    | dropped => exact .refl _
    | rejected => exact .refl _
    | reset _ _ hrst => exact wiped (onRst_spec hrst)
    | syn _ _ _ hsyn => exact wiped (onSyn_spec hsyn)
    | accepted _ _ _ hacc => exact keepsClose_onAccepted (c := c.windowed seg) hs hacc

theorem keepsClose_callShutdown {r : Except Error Unit} (h : c.callShutdown = .ok (c', r)) :
    KeepsClose c.connectionState c'.connectionState := by
  cases shutdownStep_of_ok h with
  | refused => exact .refl _
  | cleared => exact .of_gone rfl
  | delayed => exact .refl _
  | early hs =>
      rw [entered_connectionState, hs]
      exact .of_closes (.established .fin .opened false true) rfl rfl
  | @active cc ca _ hs _ _ _ hsend =>
      have hidle :
          (c.entered (.established .opened .opened cc true)).marked.connectionState.idle
            = false := by
        rw [withQueue_connectionState, entered_connectionState]
        rfl
      refine KeepsClose.trans ?_ (keepsClose_sendAck hidle hsend)
      rw [withQueue_connectionState, entered_connectionState, hs]
      exact .of_closes (.established .opened .opened cc true) rfl rfl
  | passive hs _ _ _ hsend =>
      have hidle : c.marked.connectionState.idle = false := by
        rw [withQueue_connectionState, hs]
        rfl
      exact keepsClose_sendAck (c := c.marked) hidle hsend

/-- No operation but `call_close` changes `close_called`, other than by
clearing or opening the connection. -/
theorem keepsClose_step {op : Op Time} {out : Output} (hconnect : op ≠ .callConnect)
    (hclose : op ≠ .callClose) (hc : c.step op = .ok (c', out)) :
    KeepsClose c.connectionState c'.connectionState := by
  cases opStep_of_ok hc with
  | callConnect => exact absurd rfl hconnect
  | callClose => exact absurd rfl hclose
  | callSend hc =>
      cases (sendStep_of_ok hc).2 with
      | refused => exact .refl _
      | delayed => exact .refl _
      | queued => exact .refl _
      | @sent q _ _ _ _ hs _ _ hsend =>
          have hidle : (c.withQueue q).connectionState.idle = false := by
            rw [withQueue_connectionState, hs]
            rfl
          exact keepsClose_sendAck (c := c.withQueue q) hidle hsend
  | callRecv hc =>
      cases recvStep_of_ok hc with
      | refused => exact .refl _
      | ended => exact .refl _
      | early => exact .refl _
      | waiting => exact .refl _
      | read => exact .refl _
      | full => exact .refl _
      | drained hs =>
          rw [stateSet_connectionState, hs]
          exact .of_closes _ rfl rfl
  | callShutdown hc => exact keepsClose_callShutdown hc
  | callAbort hc =>
      cases abortStep_of_ok hc with
      | refused => exact .refl _
      | cleared => exact .of_gone rfl
      | reset => exact .of_gone rfl
  | setOptions => exact .refl _
  | onSegment hc => exact keepsClose_onSegment hc
  | onTimeTick hc =>
      cases tickStep_of_ok hc with
      | kept hstate => exact .of_eq hstate
      | cleared => exact .of_gone rfl

/-- What `call_close` leaves: a close that was recorded is no longer refused. -/
theorem callClose_closes {r : Except Error Unit} (h : c.callClose = .ok (c', r)) :
    (c.connectionState.Settles → c'.connectionState.Settles) ∧
      ((c' = c ∨ c' = c.suspend .txQueueEmpty) ∨ c'.connectionState.gone = true ∨
        c'.connectionState.closes = true ∧ Output.granted (.call r) = true) := by
  have finish {c₀ : Connection Addr Time} {ca : Bool} (hc : c₀.finishClose ca = .ok (c', r)) :
      (c.connectionState.Settles → c'.connectionState.Settles) ∧
        ((c' = c ∨ c' = c.suspend .txQueueEmpty) ∨ c'.connectionState.gone = true ∨
          c'.connectionState.closes = true ∧ Output.granted (.call r) = true) := by
    have hgranted : Output.granted (.call r) = true := by
      simp only [finishClose, Fallible.bind_ok_iff] at hc
      obtain ⟨_, -, hc⟩ := hc
      split at hc
      · obtain ⟨-, rfl⟩ := Prod.mk.inj (Fallible.pure_ok_iff.mp hc)
        rfl
      · obtain ⟨-, -, rfl⟩ := continueAfter_ok_iff.mp hc
        rfl
    obtain ⟨-, rfl⟩ := finishClose_of_ok hc
    rw [closing_connectionState]
    refine ⟨fun _ => settles_reduced _, .inr ?_⟩
    unfold reduced
    split
    · exact .inr ⟨rfl, hgranted⟩
    · exact .inl rfl
    · exact .inr ⟨rfl, hgranted⟩
  unfold callClose at h
  split at h
  case h_1 | h_2 | h_3 =>
    obtain ⟨rfl, rfl⟩ := Prod.mk.inj (Fallible.pure_ok_iff.mp h)
    exact ⟨id, .inl (.inl rfl)⟩
  case h_4 | h_5 =>
    obtain ⟨rfl, rfl⟩ := Prod.mk.inj (Fallible.pure_ok_iff.mp h)
    exact ⟨fun _ => settles_of_gone rfl, .inr (.inl rfl)⟩
  case h_6 =>
    split at h
    · obtain ⟨-, rfl, rfl⟩ := retryAfter_ok_iff.mp h
      exact ⟨id, .inl (.inr rfl)⟩
    · simp only [Fallible.bind_ok_iff, setState_ok_iff, continueAfter_ok_iff] at h
      obtain ⟨c₁, -, _, ⟨-, -, rfl⟩, -, rfl, rfl⟩ := h
      have hstate : ((c₁.stateSet (.established .fin .opened true true)).suspend
          .bothClosed).connectionState = .established .fin .opened true true :=
        stateSet_connectionState c₁ _
      rw [hstate]
      exact ⟨fun _ => settles_of_open (.inl (by decide)), .inr (.inr ⟨rfl, rfl⟩)⟩
  case h_7 =>
    dsimp only at h
    split at h
    case h_1 =>
      split at h
      · obtain ⟨-, rfl, rfl⟩ := retryAfter_ok_iff.mp h
        exact ⟨id, .inl (.inr rfl)⟩
      · simp only [Fallible.bind_ok_iff] at h
        obtain ⟨_, -, h⟩ := h
        exact finish h
    case h_2 | h_3 => exact finish h

/-- Between operations no connection is closed in both directions after
`call_close` without having been reduced. -/
theorem Reachable.settles (h : Reachable c) : c.connectionState.Settles := by
  refine Transition.Reachable.invariant (P := fun c => c.connectionState.Settles) ?_ ?_ h
  · intro c hinit ca hst
    have hidle := hinit.fresh.2.2
    rw [hst] at hidle
    cases hidle
  · rintro c op c' hs ⟨out, hc⟩
    by_cases hconnect : op = .callConnect
    · subst hconnect
      cases opStep_of_ok hc with
      | callConnect hc =>
          cases connectStep_of_ok hc with
          | refused => exact hs
          | connecting _ hsent =>
              rw [hsent.state]
              exact nofun
    by_cases hclose : op = .callClose
    · subst hclose
      cases opStep_of_ok hc with
      | callClose hc => exact (callClose_closes hc).1 hs
    exact (keepsClose_step hconnect hclose hc).settles hs

/-- A close is recorded only by an accepted call of `call_close`. -/
theorem closes_of_step {op : Op Time} {out : Output} (hc : c.step op = .ok (c', out))
    (hcloses : c'.connectionState.closes = true) :
    c.connectionState.closes = true ∨ op = .callClose ∧ out.granted = true := by
  have not_gone := not_gone_of_closes hcloses
  by_cases hconnect : op = .callConnect
  · subst hconnect
    cases opStep_of_ok hc with
    | callConnect hc =>
        cases connectStep_of_ok hc with
        | refused => exact .inl hcloses
        | connecting _ hsent =>
            rw [hsent.state] at hcloses
            cases hcloses
  by_cases hclose : op = .callClose
  · subst hclose
    cases opStep_of_ok hc with
    | callClose hc =>
        rcases (callClose_closes hc).2 with (rfl | rfl) | hgone | ⟨-, hgranted⟩
        · exact .inl hcloses
        · exact .inl hcloses
        · exact absurd (not_gone.symm.trans hgone) Bool.false_ne_true
        · exact .inr ⟨rfl, hgranted⟩
  rcases (keepsClose_step hconnect hclose hc).closes with hgone | heq
  · exact absurd (not_gone.symm.trans hgone) Bool.false_ne_true
  · exact .inl (heq.symm.trans hcloses)

end Connection

end TcpState
