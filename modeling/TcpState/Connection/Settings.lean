import TcpState.Connection.CallSteps
import TcpState.Connection.Exact

/-!
# What the application has set

The remote address and the options belong to the application: no call, segment
or tick of a connection changes them.
-/

namespace TcpState

namespace Connection

variable {Addr Time : Type} (c : Connection Addr Time) {c' : Connection Addr Time}

/-- The fields only the application writes. -/
def settings (c : Connection Addr Time) : Addr × SocketOptions := (c.remote, c.options)

theorem settings_triggerEvent (f : WaitUntil → Bool) (r : Except Error Unit) :
    (c.triggerEvent f r).settings = c.settings := rfl

theorem settings_entered (state : ConnectionState) :
    (c.entered state).settings = c.settings := by
  have step (p : Prop) [Decidable p] (c : Connection Addr Time) (f : WaitUntil → Bool) :
      (if p then c.triggerEvent f (.ok ()) else c).settings = c.settings := by
    split <;> rfl
  unfold entered
  cases state with
  | established t r cc ca => simp only [step, settings_triggerEvent]; rfl
  | _ => exact step _ _ _

theorem settings_opened : c.opened.settings = c.settings := by
  unfold opened
  split
  · exact settings_entered c _
  · rfl

theorem settings_drained (q : BlobQueue) : (c.drained q).settings = c.settings := by
  unfold drained
  split <;> rfl

theorem settings_taken (q : BlobQueue) : (c.taken q).settings = c.settings := by
  unfold taken
  split
  · exact (settings_entered _ _).trans (settings_drained c q)
  · exact settings_drained c q

variable [UserTime Time]

theorem settings_stateSet (state : ConnectionState) :
    (c.stateSet state).settings = c.settings := by
  unfold stateSet
  split
  · exact (settings_entered _ _).trans (settings_entered c _)
  · exact settings_entered c _
  · exact settings_entered c _

theorem settings_emit (seg : SegmentMeta) : (c.emit seg).settings = c.settings := by
  unfold emit
  dsimp only
  split
  · rfl
  · split <;> rfl

theorem settings_closing (closeActive : Bool) :
    (c.closing closeActive).settings = c.settings := by
  unfold closing
  dsimp only
  split
  · exact settings_stateSet c _
  · exact settings_stateSet c _

variable {c}

theorem settings_setState {state : ConnectionState} (hc : c.setState state = .ok c') :
    c'.settings = c.settings := by
  obtain ⟨-, -, rfl⟩ := setState_ok_iff.mp hc
  exact settings_stateSet c _

theorem settings_sendAck (hc : c.sendAck = .ok c') : c'.settings = c.settings := by
  obtain ⟨q, -, -, rfl⟩ := sendAck_eq hc
  exact (settings_emit _ _).trans (settings_taken c q)

theorem settings_takes {seg : SegmentMeta} (hc : c.Takes seg c') : c'.settings = c.settings := by
  unfold Takes at hc
  split at hc
  · simp only [onNewAck, Fallible.bind_ok_iff, Fallible.pure_ok_iff] at hc
    obtain ⟨w, -, rfl⟩ := hc
    split
    · exact settings_opened c
    · exact settings_opened c
  · obtain rfl := Except.ok.inj hc
    exact settings_opened c

theorem settings_onFinAcked {ackn : SeqN} (hc : c.onFinAcked ackn = .ok c') :
    c'.settings = c.settings := by
  rcases onFinAcked_ok_iff.mp hc with ⟨r, cc, ca, -, -, -, -, rfl⟩ | ⟨-, rfl⟩
  · exact settings_stateSet c _
  · rfl

theorem settings_onFin {isNew : Bool} (hc : c.onFin isNew = .ok c') :
    c'.settings = c.settings := by
  unfold onFin at hc
  split at hc
  case h_1 | h_2 | h_3 | h_7 =>
    obtain rfl := Fallible.pure_ok_iff.mp hc
    rfl
  case h_4 =>
    split at hc
    · obtain rfl := Fallible.pure_ok_iff.mp hc
      rfl
    · obtain rfl := Fallible.pure_ok_iff.mp hc
      rfl
  case h_5 | h_6 =>
    obtain ⟨-, -, rfl⟩ := setState_ok_iff.mp hc
    exact settings_stateSet _ _

theorem settings_onAccepted {seg : SegmentMeta} (hc : c.onAccepted seg = .ok c') :
    c'.settings = c.settings := by
  have ends {c₀ : Connection Addr Time} {isNew : Bool}
      (hfin : (if seg.hasFin then c₀.onFin isNew else .ok c₀) = .ok c') :
      c'.settings = c₀.settings := by
    split at hfin
    · exact settings_onFin hfin
    · obtain rfl := Except.ok.inj hfin
      rfl
  cases acceptedStep_of_ok hc with
  | unacknowledged _ hfin => exact ends hfin
  | invalid => rfl
  | discarded _ _ h₁ h₂ =>
      have h := (settings_onFinAcked h₂).trans (settings_takes h₁)
      split
      · exact h
      · exact h
  | @stored c₁ c₂ c₃ _ rx _ _ h₁ h₂ _ _ h₃ hfin =>
      calc c'.settings = c₃.settings := ends hfin
        _ = c₂.settings := settings_sendAck (c := { c₂ with rx := rx }) h₃
        _ = c₁.settings := settings_onFinAcked h₂
        _ = c.settings := settings_takes h₁

theorem settings_onSegmentListen {seg : SegmentMeta} (hc : c.onSegmentListen seg = .ok c') :
    c'.settings = c.settings := by
  unfold onSegmentListen at hc
  split at hc
  · obtain rfl := Fallible.pure_ok_iff.mp hc
    rfl
  split at hc
  · obtain rfl := Fallible.pure_ok_iff.mp hc
    rfl
  split at hc
  · obtain rfl := Fallible.pure_ok_iff.mp hc
    rfl
  simp only [Fallible.bind_ok_iff, Fallible.pure_ok_iff] at hc
  obtain ⟨_, -, c₁, h₁, rfl⟩ := hc
  have hset := settings_setState h₁
  exact hset

theorem settings_onSegment {seg : SegmentMeta} (hc : c.onSegment seg = .ok c') :
    c'.settings = c.settings := by
  have sync (hc : c.onSegmentSynchronized seg = .ok c') : c'.settings = c.settings := by
    cases synchronizedStep_iff.mp hc with
    | dropped => rfl
    | rejected => rfl
    | reset _ _ hrst =>
        unfold onRst at hrst
        split at hrst
        · obtain ⟨-, -, rfl⟩ := setState_ok_iff.mp hrst
          exact settings_stateSet _ _
        · obtain ⟨-, -, rfl⟩ := setState_ok_iff.mp hrst
          exact settings_stateSet _ _
        · cases hrst
    | syn _ _ _ hsyn =>
        obtain ⟨-, -, rfl⟩ := setState_ok_iff.mp hsyn
        exact settings_stateSet _ _
    | accepted _ _ _ hacc =>
        have haccepted := settings_onAccepted hacc
        exact haccepted
  unfold Connection.onSegment at hc
  split at hc
  case h_1 | h_2 =>
    simp only [Fallible.bind_ok_iff] at hc
    obtain ⟨resp, -, hc⟩ := hc
    cases resp with
    | none | some =>
        obtain rfl := Fallible.pure_ok_iff.mp hc
        rfl
  case h_3 => exact settings_onSegmentListen hc
  case h_4 =>
    cases synSentStep_of_ok hc with
    | ignored | refused | reset | waiting => rfl
    | opened _ _ _ _ _ hsend => exact (settings_sendAck hsend).trans (settings_entered _ _)
  case h_5 | h_6 | h_7 => exact sync hc

theorem settings_onTimerReTx (hc : c.onTimerReTx = .ok c') : c'.settings = c.settings := by
  unfold onTimerReTx at hc
  split at hc
  case h_1 | h_2 | h_3 | h_4 =>
    split at hc
    · obtain rfl := Fallible.pure_ok_iff.mp hc
      rfl
    · simp only [Fallible.bind_ok_iff, Fallible.pure_ok_iff] at hc
      obtain ⟨_, -, _, -, rfl⟩ := hc
      rfl
  case h_5 =>
    obtain rfl := Fallible.pure_ok_iff.mp hc
    rfl
  case h_6 | h_7 => cases hc

theorem settings_onTimeTick {time : Time} (hc : c.onTimeTick time = .ok c') :
    c'.settings = c.settings := by
  simp only [onTimeTick, Fallible.bind_ok_iff] at hc
  obtain ⟨c₁, h₁, c₂, h₂, hc⟩ := hc
  have hretx : c₁.settings = c.settings := by
    split at h₁
    · have hresent := settings_onTimerReTx h₁
      exact hresent
    · obtain rfl := Fallible.pure_ok_iff.mp h₁
      rfl
  have hwait : c₂.settings = c₁.settings := by
    split at h₂
    · simp only [onTimerTimewait, Fallible.bind_ok_iff, Fallible.pure_ok_iff] at h₂
      obtain ⟨_, -, rfl⟩ := h₂
      rfl
    · obtain rfl := Fallible.pure_ok_iff.mp h₂
      rfl
  split at hc
  · obtain rfl := Fallible.pure_ok_iff.mp hc
    exact hwait.trans hretx
  · obtain rfl := Fallible.pure_ok_iff.mp hc
    exact hwait.trans hretx

section Calls

variable {α : Type}

omit [UserTime Time] in
theorem settings_pure {c₀ : Connection Addr Time} {r r' : Except Error α}
    (hc : (pure (c₀, r) : Res (Connection Addr Time × Except Error α)) = .ok (c', r'))
    (h₀ : c₀.settings = c.settings) : c'.settings = c.settings := by
  obtain ⟨rfl, -⟩ := Prod.mk.inj (Fallible.pure_ok_iff.mp hc)
  exact h₀

omit [UserTime Time] in
theorem settings_retryAfter {w : WaitUntil} {r : Except Error α}
    (hc : c.retryAfter w = .ok (c', r)) : c'.settings = c.settings := by
  obtain ⟨-, rfl, -⟩ := retryAfter_ok_iff.mp hc
  rfl

omit [UserTime Time] in
theorem settings_continueAfter {c₀ : Connection Addr Time} {w : WaitUntil} {r : Except Error α}
    (hc : c₀.continueAfter w = .ok (c', r)) (h₀ : c₀.settings = c.settings) :
    c'.settings = c.settings := by
  obtain ⟨-, rfl, -⟩ := continueAfter_ok_iff.mp hc
  exact h₀

variable {r : Except Error Unit}

theorem settings_callConnect (hc : c.callConnect = .ok (c', r)) : c'.settings = c.settings := by
  unfold callConnect at hc
  split at hc
  case h_1 | h_2 =>
    obtain ⟨c₁, h₁, hc⟩ := Fallible.bind_ok_iff.mp hc
    have hset := settings_setState h₁
    exact settings_continueAfter hc hset
  case h_3 => exact settings_pure hc rfl

theorem settings_callSend {inputData : List UInt8} (hc : c.callSend inputData = .ok (c', r)) :
    c'.settings = c.settings := by
  obtain ⟨_, -, hc⟩ := Fallible.bind_ok_iff.mp hc
  split at hc
  case h_1 | h_2 | h_3 | h_4 => exact settings_pure hc rfl
  case h_5 | h_6 =>
    obtain ⟨q, -, hc⟩ := Fallible.bind_ok_iff.mp hc
    exact settings_continueAfter hc rfl
  case h_7 =>
    simp only [Fallible.bind_ok_iff] at hc
    obtain ⟨_, -, q, -, hc⟩ := hc
    split at hc
    · obtain ⟨c₁, hsend, hc⟩ := Fallible.bind_ok_iff.mp hc
      exact settings_pure hc (settings_sendAck (c := c.withQueue q) hsend)
    · exact settings_pure hc rfl

theorem settings_callRecv {bufferLen : Nat} {r : Except Error (List UInt8)}
    (hc : c.callRecv bufferLen = .ok (c', r)) : c'.settings = c.settings := by
  unfold callRecv at hc
  split at hc
  case h_1 | h_2 | h_3 => exact settings_pure hc rfl
  case h_4 | h_5 | h_6 => exact settings_retryAfter hc
  case h_7 =>
    split at hc
    case h_1 => exact settings_pure hc rfl
    case h_2 =>
      split at hc
      · obtain ⟨⟨rx, data⟩, -, hc⟩ := Fallible.bind_ok_iff.mp hc
        exact settings_pure hc rfl
      · exact settings_retryAfter hc
    case h_3 =>
      obtain ⟨⟨rx, data⟩, -, hc⟩ := Fallible.bind_ok_iff.mp hc
      dsimp only at hc
      split at hc
      · obtain ⟨c₁, h₁, hc⟩ := Fallible.bind_ok_iff.mp hc
        exact settings_pure hc (settings_setState (c := { c with rx := rx }) h₁)
      · exact settings_pure hc rfl

theorem settings_callShutdown (hc : c.callShutdown = .ok (c', r)) : c'.settings = c.settings := by
  unfold callShutdown at hc
  split at hc
  case h_1 | h_2 | h_3 => exact settings_pure hc rfl
  case h_4 | h_5 => exact settings_pure hc rfl
  case h_6 =>
    split at hc
    · exact settings_retryAfter hc
    · simp only [Fallible.bind_ok_iff] at hc
      obtain ⟨c₁, hsend, c₂, hset, hc⟩ := hc
      have hsent := settings_sendAck hsend
      exact settings_pure hc ((settings_setState hset).trans hsent)
  case h_7 =>
    split at hc
    case h_1 | h_2 => exact settings_pure hc rfl
    case h_3 =>
      split at hc
      · exact settings_retryAfter hc
      · simp only [Fallible.bind_ok_iff] at hc
        obtain ⟨c₁, hactive, c₂, hsend, hc⟩ := hc
        have h₁ : c₁.settings = c.settings := by
          split at hactive
          · exact settings_setState hactive
          · obtain rfl := Fallible.pure_ok_iff.mp hactive
            rfl
        have hsent := settings_sendAck hsend
        exact settings_pure hc (hsent.trans h₁)

theorem settings_callClose (hc : c.callClose = .ok (c', r)) : c'.settings = c.settings := by
  have finish {c₀ : Connection Addr Time} {closeActive : Bool}
      (hc : c₀.finishClose closeActive = .ok (c', r)) : c'.settings = c₀.settings := by
    obtain ⟨-, rfl⟩ := finishClose_of_ok hc
    exact settings_closing c₀ _
  unfold callClose at hc
  split at hc
  case h_1 | h_2 | h_3 => exact settings_pure hc rfl
  case h_4 | h_5 => exact settings_pure hc rfl
  case h_6 =>
    split at hc
    · exact settings_retryAfter hc
    · simp only [Fallible.bind_ok_iff] at hc
      obtain ⟨c₁, hsend, c₂, hset, hc⟩ := hc
      have hsent := settings_sendAck hsend
      exact settings_continueAfter hc ((settings_setState hset).trans hsent)
  case h_7 =>
    dsimp only at hc
    split at hc
    case h_1 =>
      split at hc
      · exact settings_retryAfter hc
      · obtain ⟨c₁, hsend, hc⟩ := Fallible.bind_ok_iff.mp hc
        have hsent := settings_sendAck hsend
        exact (finish hc).trans hsent
    case h_2 | h_3 => exact finish hc

omit [UserTime Time] in
theorem settings_callAbort (hc : c.callAbort = .ok (c', r)) : c'.settings = c.settings := by
  unfold callAbort at hc
  split at hc
  case h_1 | h_2 => exact settings_pure hc rfl
  case h_3 | h_4 | h_5 | h_6 | h_7 => exact settings_pure hc rfl

end Calls

/-- Only the application changes the address and the options. -/
theorem settings_step {op : Op Time} {out : Output} (hc : c.step op = .ok (c', out)) :
    c'.settings = c.settings ∨ ∃ options, op = .setOptions options ∧
      c' = { c with options := options } := by
  cases opStep_of_ok hc with
  | callConnect hc => exact .inl (settings_callConnect hc)
  | callSend hc => exact .inl (settings_callSend hc)
  | callRecv hc => exact .inl (settings_callRecv hc)
  | callShutdown hc => exact .inl (settings_callShutdown hc)
  | callClose hc => exact .inl (settings_callClose hc)
  | callAbort hc => exact .inl (settings_callAbort hc)
  | setOptions => exact .inr ⟨_, rfl, rfl⟩
  | onSegment hc => exact .inl (settings_onSegment hc)
  | onTimeTick hc => exact .inl (settings_onTimeTick hc)

end Connection

end TcpState
