import TcpState.Connection.Waiting
import TcpState.Connection.Watch

/-!
# When a local call panics

Each call is checked against the invariant as `on_segment` is. `CallPanics`
collects the arguments, the exhausted cookie counter and the states left
behind by a FIN that found no room.
-/

namespace TcpState

open Fallible

/-- The operations of the local application. -/
def Op.isCall {Time : Type} : Op Time → Bool
  | .onSegment _ | .onTimeTick _ => false
  | _ => true

/-- A read needs room for a byte, and a short one the stored FIN. -/
theorem RxBuffer.readBytes_succeeds_iff {rx : RxBuffer} (hdone : rx.done = false)
    (limit : Nat) : Succeeds (rx.readBytes limit) ↔
      limit ≠ 0 ∧ (rx.availableBytes < limit → rx.buffer.fin = true) := by
  rw [RxBuffer.availableBytes_eq]
  constructor
  · rintro ⟨⟨rx', data⟩, hread⟩
    obtain ⟨hdata, -, -, -, -, -, -, hfin⟩ := RxBuffer.readBytes_spec hread
    refine ⟨RxBuffer.readBytes_limit hread, fun hlen => hfin ?_⟩
    rw [hdata, List.length_take]
    omega
  · rintro ⟨hlimit, hend⟩
    obtain ⟨rx', data, hread⟩ := RxBuffer.readBytes_succeeds hdone hlimit hend
    exact ⟨_, hread⟩

/-- Packing a result does not fail. -/
theorem succeeds_bind_pure {α β : Type} {x : Res α} {f : α → β} :
    Succeeds (x >>= fun r => (pure (f r) : Res β)) ↔ Succeeds x := by
  rw [succeeds_bind]
  exact ⟨fun ⟨a, h, _⟩ => ⟨a, h⟩, fun ⟨a, h⟩ => ⟨a, h, succeeds_pure _⟩⟩

namespace Connection

variable {Addr Time : Type}

section Condition

variable (c : Connection Addr Time)

/-- The cookie counter has a next value. -/
def HasCookie : Prop := c.events.nextCookie + 1 < 2 ^ 64

instance : Decidable c.HasCookie := inferInstanceAs (Decidable (_ < _))

/-- Nothing is queued and nobody waits to send: a FIN may be queued now. -/
def OutputDone : Prop := c.tx.tx.bytes = [] ∧ c.noSenders

instance : Decidable c.OutputDone := inferInstanceAs (Decidable (_ ∧ _))

/-- A call of `call_send` that panics: without data, or once a FIN is queued. -/
def SendPanics (inputData : List UInt8) : Prop :=
  inputData = [] ∨ c.connectionState.opening = true ∧ ¬ c.HasCookie ∨
    c.connectionState.isEstablished = true ∧ c.tx.tx.fin = true

/-- A call of `call_recv` that panics: without room for a byte, or behind a FIN
that was not stored or that cannot be recorded. -/
def RecvPanics (bufferLen : Nat) : Prop :=
  match c.connectionState with
  | .listen | .synSent | .synReceived => ¬ c.HasCookie
  | .established _ .opened _ _ =>
      bufferLen = 0 ∨ c.rx.availableBytes < bufferLen ∧ ¬ c.HasCookie
  | .established _ .fin _ _ =>
      bufferLen = 0 ∨ c.rx.availableBytes < bufferLen ∧
        (c.rx.buffer.fin = false ∨ c.connectionState.closePending = true)
  | _ => False

/-- A call of `call_shutdown` that panics: after a close whose FIN waits. -/
def ShutdownPanics : Prop :=
  match c.connectionState with
  | .synReceived => ¬ c.noSenders ∧ ¬ c.HasCookie
  | .established .opened rxState closeCalled _ =>
      ¬ c.OutputDone ∧ ¬ c.HasCookie ∨ c.OutputDone ∧ rxState = .opened ∧ closeCalled = true
  | _ => False

/-- A call of `call_close` that panics: after a close whose FIN still waits. -/
def ClosePanics : Prop :=
  match c.connectionState with
  | .synReceived => ¬ c.HasCookie
  | .established .opened _ closeCalled _ =>
      ¬ c.HasCookie ∨ c.OutputDone ∧ closeCalled = true ∧ c.tx.spaceAvailable = 0#32
  | .established .closed .closed _ _ => False
  | .established _ _ _ _ => ¬ c.HasCookie
  | _ => False

instance (inputData : List UInt8) : Decidable (c.SendPanics inputData) :=
  inferInstanceAs (Decidable (_ ∨ _))

instance (bufferLen : Nat) : Decidable (c.RecvPanics bufferLen) := by
  unfold RecvPanics
  rcases c with ⟨_, _ | _ | _ | ⟨_, _ | _ | _⟩⟩ <;> infer_instance

instance : Decidable c.ShutdownPanics := by
  unfold ShutdownPanics
  rcases c with ⟨_, _ | _ | _ | ⟨_ | _ | _⟩⟩ <;> infer_instance

instance : Decidable c.ClosePanics := by
  unfold ClosePanics
  rcases c with ⟨_, _ | _ | _ | ⟨_ | _ | _, _ | _ | _⟩⟩ <;> infer_instance

/-- Every local call that panics in a reachable connection. -/
def CallPanics : Op Time → Prop
  | .callConnect => c.connectionState.gone = true ∧ ¬ c.HasCookie
  | .callSend inputData => c.SendPanics inputData
  | .callRecv bufferLen => c.RecvPanics bufferLen
  | .callShutdown => c.ShutdownPanics
  | .callClose => c.ClosePanics
  | _ => False

instance : DecidablePred c.CallPanics
  | .callConnect => inferInstanceAs (Decidable (_ ∧ _))
  | .callSend inputData => inferInstanceAs (Decidable (c.SendPanics inputData))
  | .callRecv bufferLen => inferInstanceAs (Decidable (c.RecvPanics bufferLen))
  | .callShutdown => inferInstanceAs (Decidable c.ShutdownPanics)
  | .callClose => inferInstanceAs (Decidable c.ClosePanics)
  | .callAbort | .setOptions _ | .onSegment _ | .onTimeTick _ => .isFalse id

end Condition

variable {c : Connection Addr Time}

theorem retryAfter_succeeds_iff {α : Type} {w : WaitUntil} :
    Succeeds (c.retryAfter w : Res (Connection Addr Time × Except Error α)) ↔ c.HasCookie := by
  constructor
  · rintro ⟨⟨c', r⟩, h⟩
    exact (retryAfter_ok_iff.mp h).1
  · intro h
    exact ⟨_, retryAfter_ok_iff.mpr ⟨h, rfl, rfl⟩⟩

theorem continueAfter_succeeds_iff {α : Type} {w : WaitUntil} :
    Succeeds (c.continueAfter w : Res (Connection Addr Time × Except Error α)) ↔
      c.HasCookie := by
  constructor
  · rintro ⟨⟨c', r⟩, h⟩
    exact (continueAfter_ok_iff.mp h).1
  · intro h
    exact ⟨_, continueAfter_ok_iff.mpr ⟨h, rfl, rfl⟩⟩

theorem outputDone_iff : c.OutputDone ↔
    ¬ (c.tx.tx.availableBytes ≠ 0 ∨ c.events.anySuspended WaitUntil.isAcknowledged = true) := by
  rw [OutputDone, BlobQueue.availableBytes_eq, ne_eq, List.length_eq_zero_iff, not_or, not_not,
    Bool.not_eq_true]

variable [UserTime Time]

theorem setState_succeeds_iff {state : ConnectionState} : Succeeds (c.setState state) ↔
    c.connectionState.ValidTransition state ∧ state ≠ .closed := by
  constructor
  · rintro ⟨c', hc⟩
    obtain ⟨hv, hne, -⟩ := setState_ok_iff.mp hc
    exact ⟨hv, hne⟩
  · rintro ⟨hv, hne⟩
    exact ⟨_, setState_eq_ok hv hne⟩

omit [UserTime Time] in
/-- Resuming waiters leaves the counter alone. -/
theorem Resumes.hasCookie_iff {c' : Connection Addr Time} (r : Resumes c c') :
    c'.HasCookie ↔ c.HasCookie := by
  rw [HasCookie, HasCookie, r.counter]

theorem callConnect_succeeds_iff :
    Succeeds c.callConnect ↔ ¬ (c.connectionState.gone = true ∧ ¬ c.HasCookie) := by
  unfold callConnect
  cases hst : c.connectionState with
  | closed | reset =>
      have hv : c.connectionState.ValidTransition .synSent := by
        rw [hst]
        trivial
      simp only [← hst, setState_eq_ok hv (by decide), ok_bind, continueAfter_succeeds_iff]
      simp only [hst, ConnectionState.gone, true_and, not_not]
      rfl
  | _ => simp [ConnectionState.gone]

/-- An open connection whose FIN is not on the wire sends whatever is queued. -/
theorem queued_sends {r : ChannelState} {cc ca : Bool}
    (hst : c.connectionState = .established .opened r cc ca) (q : BlobQueue) :
    ∃ c', (c.withQueue q).sendAck = .ok c' := by
  rw [sendAck_succeeds_iff, withQueue_connectionState, hst]
  refine ⟨?_, ?_, fun _ => ⟨?_, ?_⟩⟩
  all_goals
    intro h
    cases h

omit [UserTime Time] in
/-- A FIN queued behind nothing leaves exactly when the window has room. -/
theorem marked_sendsFin_iff {r : ChannelState} {cc ca : Bool}
    (hst : c.connectionState = .established .opened r cc ca) (hempty : c.tx.tx.bytes = []) :
    c.marked.sendsFin = true ↔ c.tx.spaceAvailable ≠ 0#32 := by
  have hbytes : c.marked.tx.tx.bytes = [] := hempty
  have hlimit : c.marked.outLimit = min maxSegmentSize c.tx.spaceAvailable.toNat := rfl
  rw [sendsFin_iff, withQueue_connectionState, hst, hbytes, hlimit, ne_eq, ← BitVec.toNat_inj]
  simp only [List.length_nil, maxSegmentSize, BitVec.toNat_ofNat, ConnectionState.wroteFin]
  constructor
  · rintro ⟨hlt, -⟩
    omega
  · intro hne
    exact ⟨by omega, rfl, trivial⟩

/-- During the handshake the marked queue is sent, with or without its FIN. -/
theorem marked_sends_early (hst : c.connectionState = .synReceived) (closeCalled : Bool) :
    ∃ c₁, c.marked.sendAck = .ok c₁ ∧
      c₁.connectionState.ValidTransition (.established .fin .opened closeCalled true) := by
  obtain ⟨c₁, hsend⟩ : ∃ c₁, c.marked.sendAck = .ok c₁ := by
    rw [sendAck_succeeds_iff, withQueue_connectionState, hst]
    refine ⟨?_, ?_, fun _ => ⟨?_, ?_⟩⟩
    all_goals
      intro h
      cases h
  refine ⟨c₁, hsend, ?_⟩
  rw [(sendAck_spec hsend).state, withQueue_connectionState, hst]
  split
  · exact ⟨by decide, by decide, Bool.false_le _, by decide, fun h => by cases h⟩
  · trivial

/-- The end of `call_close`: the transition has to be valid, and the call waits
unless both directions are closed. -/
theorem finishClose_succeeds_iff (closeActive : Bool) : Succeeds (c.finishClose closeActive) ↔
    c.connectionState.ValidTransition
        (.established c.connectionState.tx c.connectionState.rx true closeActive) ∧
      (c.connectionState.tx = .closed ∧ c.connectionState.rx = .closed ∨ c.HasCookie) := by
  have hcookie (state : ConnectionState) : (c.stateSet state).HasCookie ↔ c.HasCookie :=
    (Resumes.stateSet c state).hasCookie_iff
  simp only [finishClose, succeeds_bind, setState_ok_iff]
  constructor
  · rintro ⟨_, ⟨hv, -, rfl⟩, hrest⟩
    refine ⟨hv, ?_⟩
    split at hrest
    · rename_i hboth
      exact .inl hboth
    · exact .inr ((hcookie _).mp (continueAfter_succeeds_iff.mp hrest))
  · rintro ⟨hv, hwait⟩
    refine ⟨_, ⟨hv, by simp, rfl⟩, ?_⟩
    split
    · exact succeeds_pure _
    · rename_i hboth
      exact continueAfter_succeeds_iff.mpr ((hcookie _).mpr (hwait.resolve_left hboth))

namespace WellFormed

theorem callSend_succeeds_iff (h : WellFormed c) (inputData : List UInt8) :
    Succeeds (c.callSend inputData) ↔ ¬ c.SendPanics inputData := by
  have hwrite (hdata : inputData ≠ []) :
      (∃ q, c.tx.tx.writeBytes inputData = .ok q) ↔ c.tx.tx.fin = false := by
    rw [BlobQueue.writeBytes_succeeds_iff, or_iff_right hdata]
  simp only [Connection.callSend, assert, succeeds_bind, ensure_eq_ok, SendPanics, exists_const]
  by_cases hdata : inputData = []
  · simp [hdata]
  simp only [hdata, ne_eq, not_false_eq_true, true_and, false_or]
  cases hst : c.connectionState with
  | synSent | synReceived =>
      obtain ⟨q, hq⟩ := (hwrite hdata).mpr (h.early (by rw [hst]; rfl)).1
      simp only [succeeds_bind, hq, Except.ok.injEq, exists_eq_left', continueAfter_succeeds_iff,
        ConnectionState.opening, ConnectionState.isEstablished, true_and, Bool.false_eq_true,
        false_and, or_false, not_not]
      rfl
  | established t r cc ca =>
      simp only [ConnectionState.opening, ConnectionState.isEstablished, Bool.false_eq_true,
        false_and, true_and, false_or, Bool.not_eq_true, ← hwrite hdata, debugAssert,
        succeeds_bind, ensure_eq_ok, exists_const]
      constructor
      · rintro ⟨-, q, hq, -⟩
        exact ⟨q, hq⟩
      · rintro ⟨q, hq⟩
        have hfin : c.tx.tx.fin = false := (hwrite hdata).mp ⟨q, hq⟩
        have ht : t = .opened := by
          by_contra hne
          have hwrote := h.wroteFin (by rw [hst]; cases t <;> first | rfl | exact absurd rfl hne)
          exact absurd (hfin.symm.trans hwrote) (by decide)
        refine ⟨ht, q, hq, ?_⟩
        split
        · obtain ⟨c', hsend⟩ := queued_sends (ht ▸ hst) q
          rw [← hst, succeeds_bind]
          exact ⟨c', hsend, succeeds_pure _⟩
        · exact succeeds_pure _
  | _ => simp [ConnectionState.opening, ConnectionState.isEstablished]

theorem callRecv_succeeds_iff (h : WellFormed c) (bufferLen : Nat) :
    Succeeds (c.callRecv bufferLen) ↔ ¬ c.RecvPanics bufferLen := by
  unfold Connection.callRecv RecvPanics
  cases hst : c.connectionState with
  | listen | synSent | synReceived => simp only [retryAfter_succeeds_iff, not_not]
  | established t r cc ca =>
      cases r with
      | closed => simp
      | opened =>
          have hread := RxBuffer.readBytes_succeeds_iff (h.readable (by rw [hst]; rfl)) bufferLen
          dsimp only
          split
          · rename_i hlen
            simp only [succeeds_bind, succeeds_pure, and_true, not_lt.mpr hlen, false_and,
              or_false, false_imp_iff] at hread ⊢
            exact hread
          · rename_i hlen
            have hne : bufferLen ≠ 0 := by omega
            simp only [retryAfter_succeeds_iff, hne, not_le.mp hlen, true_and, false_or, not_not]
      | fin =>
          have hread := RxBuffer.readBytes_succeeds_iff (h.readable (by rw [hst]; rfl)) bufferLen
          have hvalid : c.connectionState.ValidTransition (.established t .closed cc ca) ↔
              c.connectionState.closePending = false := by
            rw [hst]
            cases t <;> cases cc <;>
              simp [ConnectionState.ValidTransition, ConnectionState.closePending] <;> decide
          have hlength {rx : RxBuffer} {data : List UInt8}
              (hr : c.rx.readBytes bufferLen = .ok (rx, data)) :
              data.length < bufferLen ↔ c.rx.availableBytes < bufferLen := by
            rw [(RxBuffer.readBytes_spec hr).1, List.length_take, RxBuffer.availableBytes_eq]
            omega
          dsimp only
          simp only [← hst, not_or, not_and, Bool.not_eq_false, Bool.not_eq_true, succeeds_bind,
            Prod.exists]
          constructor
          · rintro ⟨rx, data, hr, hrest⟩
            obtain ⟨hne, hfin⟩ := hread.mp ⟨_, hr⟩
            refine ⟨hne, fun hlen => ⟨hfin hlen, ?_⟩⟩
            rw [if_pos ((hlength hr).mpr hlen), succeeds_bind] at hrest
            obtain ⟨c', hc', -⟩ := hrest
            exact hvalid.mp (setState_ok_iff.mp hc').1
          · rintro ⟨hne, hend⟩
            obtain ⟨⟨rx, data⟩, hr⟩ := hread.mpr ⟨hne, fun hlen => (hend hlen).1⟩
            refine ⟨rx, data, hr, ?_⟩
            split
            · rename_i hlen
              have hv := hvalid.mpr (hend ((hlength hr).mp hlen)).2
              obtain ⟨c', hc'⟩ := (setState_succeeds_iff (c := { c with rx := rx })).mpr
                ⟨hv, by simp⟩
              exact succeeds_bind.mpr ⟨c', hc', succeeds_pure _⟩
            · exact succeeds_pure _
  | _ => simp

end WellFormed

theorem callShutdown_succeeds_iff :
    Succeeds c.callShutdown ↔ ¬ c.ShutdownPanics := by
  unfold Connection.callShutdown ShutdownPanics
  cases hst : c.connectionState with
  | synReceived =>
      dsimp only
      split
      · rename_i hw
        have hno : ¬ c.noSenders := fun hno => absurd (hno.symm.trans hw) Bool.false_ne_true
        simp only [retryAfter_succeeds_iff, hno, not_false_eq_true, true_and, not_not]
      · rename_i hw
        have hno : c.noSenders := Bool.eq_false_iff.mpr hw
        obtain ⟨c₁, hsend, hv⟩ := marked_sends_early hst false
        rw [← hst]
        refine iff_of_true (succeeds_bind.mpr ⟨c₁, hsend, succeeds_bind.mpr ?_⟩)
          fun hpanic => hpanic.1 hno
        exact ⟨_, setState_eq_ok hv (by decide), succeeds_pure _⟩
  | established t r cc ca =>
      cases t with
      | opened =>
          dsimp only
          split
          · rename_i hbusy
            have hno : ¬ c.OutputDone := fun hdone => outputDone_iff.mp hdone hbusy
            simp only [retryAfter_succeeds_iff, hno, not_false_eq_true, true_and, false_and,
              or_false, not_not]
          · rename_i hbusy
            have hdone : c.OutputDone := outputDone_iff.mpr hbusy
            simp only [hdone, not_true_eq_false, false_and, true_and, false_or, not_and,
              Bool.not_eq_true]
            rw [succeeds_bind]
            constructor
            · rintro ⟨c₀, h₀, -⟩ hr
              rw [if_pos hr] at h₀
              have hv := (setState_ok_iff.mp h₀).1
              rw [hst] at hv
              cases cc with
              | false => rfl
              | true => exact absurd (hv.2.2.2.2 rfl) (by decide)
            · intro hcc
              have hopen : ∃ c₀ : Connection Addr Time, (if r = .opened then
                  c.setState (.established .opened r cc true) else pure c) = .ok c₀ ∧
                    ∃ ca', c₀.connectionState = .established .opened r cc ca' := by
                split
                · rename_i hr
                  have hv : c.connectionState.ValidTransition (.established .opened r cc true) := by
                    rw [hst]
                    refine ⟨Nat.le_refl _, Nat.le_refl _, le_refl _, Bool.le_true _, fun h => ?_⟩
                    exact absurd ((hcc hr).symm.trans h) Bool.false_ne_true
                  refine ⟨_, setState_eq_ok hv (by simp), true, ?_⟩
                  rw [stateSet_eq_entered _ (.inl (by decide)), entered_connectionState]
                · exact ⟨c, rfl, ca, hst⟩
              obtain ⟨c₀, h₀, ca', hst₀⟩ := hopen
              obtain ⟨c₁, hsend⟩ := queued_sends hst₀ c₀.tx.tx.markFin
              exact ⟨c₀, h₀, succeeds_bind.mpr ⟨c₁, hsend, succeeds_pure _⟩⟩
      | fin | closed => simp
  | _ => simp

theorem callClose_succeeds_iff :
    Succeeds c.callClose ↔ ¬ c.ClosePanics := by
  unfold Connection.callClose ClosePanics
  cases hst : c.connectionState with
  | synReceived =>
      dsimp only
      split
      · simp only [retryAfter_succeeds_iff, not_not]
      · obtain ⟨c₁, hsend, hv⟩ := marked_sends_early hst true
        have hcookie : (c₁.stateSet (.established .fin .opened true true)).HasCookie ↔
            c.HasCookie :=
          ((Resumes.sendAck hsend).trans (Resumes.stateSet _ _)).hasCookie_iff
        rw [← hst, not_not, ← hcookie, succeeds_bind]
        constructor
        · rintro ⟨_, hsend', hrest⟩
          obtain rfl := Except.ok.inj (hsend.symm.trans hsend')
          obtain ⟨_, hset, hrest⟩ := succeeds_bind.mp hrest
          obtain ⟨-, -, rfl⟩ := setState_ok_iff.mp hset
          exact continueAfter_succeeds_iff.mp hrest
        · intro hc
          refine ⟨c₁, hsend, succeeds_bind.mpr ⟨_, setState_eq_ok hv (by decide), ?_⟩⟩
          exact continueAfter_succeeds_iff.mpr hc
  | established t r cc ca =>
      have ended (ht : t ≠ .opened) (ca' : Bool) (hca : ca ≤ ca') :
          c.connectionState.ValidTransition
            (.established c.connectionState.tx c.connectionState.rx true ca') := by
        rw [hst]
        refine ⟨Nat.le_refl _, Nat.le_refl _, Bool.le_true _, hca, fun _ => ?_⟩
        cases t with
        | opened => exact absurd rfl ht
        | fin => exact Nat.le_refl 1
        | closed => exact Nat.le_succ 1
      have hactive : ca ≤ (ca || decide (r = .opened)) := Bool.left_le_or _ _
      cases t with
      | opened =>
          dsimp only
          split
          · rename_i hbusy
            have hno : ¬ c.OutputDone := fun hdone => outputDone_iff.mp hdone hbusy
            simp only [retryAfter_succeeds_iff, hno, false_and, or_false, not_not]
          · rename_i hbusy
            have hdone : c.OutputDone := outputDone_iff.mpr hbusy
            obtain ⟨c₁, hsend⟩ := queued_sends hst c.tx.tx.markFin
            have hcookie : c₁.HasCookie ↔ c.HasCookie := (Resumes.sendAck hsend).hasCookie_iff
            have hfinish := finishClose_succeeds_iff (c := c₁) (ca || decide (r = .opened))
            have hiff : Succeeds (c₁.finishClose (ca || decide (r = .opened))) ↔
                (cc = true → c.tx.spaceAvailable ≠ 0#32) ∧ c.HasCookie := by
              rw [hfinish, hcookie, ← marked_sendsFin_iff hst hdone.1]
              have hstate := (sendAck_spec hsend).state
              rw [withQueue_connectionState, hst] at hstate
              rw [hstate]
              split
              · rename_i hfin
                simp only [hfin, ConnectionState.withFin, ConnectionState.tx, ConnectionState.rx,
                  implies_true, true_and, reduceCtorEq, false_and, false_or, and_iff_right_iff_imp]
                exact fun _ => ⟨Nat.le_refl _, Nat.le_refl _, Bool.le_true _, hactive,
                  fun _ => by decide⟩
              · rename_i hfin
                simp only [hfin, ConnectionState.tx, ConnectionState.rx, reduceCtorEq, false_and,
                  false_or, Bool.false_eq_true, imp_false]
                refine and_congr_left fun _ => ⟨fun hv hcc => ?_, fun hcc => ?_⟩
                · exact absurd (hv.2.2.2.2 hcc) (by decide)
                · exact ⟨Nat.le_refl _, Nat.le_refl _, Bool.le_true _, hactive,
                    fun h => absurd h hcc⟩
            rw [← hst, succeeds_bind]
            constructor
            · rintro ⟨c₂, hsend', hrest⟩ hpanic
              obtain rfl := Except.ok.inj (hsend.symm.trans hsend')
              obtain ⟨hroom, hc⟩ := hiff.mp hrest
              rcases hpanic with hno | ⟨-, hcc, hzero⟩
              · exact hno hc
              · exact hroom hcc hzero
            · intro hpanic
              obtain ⟨hc, hroom⟩ := not_or.mp hpanic
              exact ⟨c₁, hsend, hiff.mpr
                ⟨fun hcc hzero => hroom ⟨hdone, hcc, hzero⟩, not_not.mp hc⟩⟩
      | fin =>
          dsimp only
          rw [finishClose_succeeds_iff]
          simp only [ended (by decide) _ hactive, true_and]
          simp [hst, ConnectionState.tx]
      | closed =>
          dsimp only
          rw [finishClose_succeeds_iff]
          simp only [ended (by decide) _ hactive, true_and]
          cases r <;> simp [hst, ConnectionState.tx, ConnectionState.rx]
  | _ => simp

omit [UserTime Time] in
theorem callAbort_succeeds : Succeeds c.callAbort := by
  unfold callAbort
  split <;> exact succeeds_pure _

/-- A call of `call_shutdown` that returned without an error. -/
def acceptsShutdown : Op Time → Output → Bool
  | .callShutdown, .call (.ok ()) => true
  | _, _ => false

/-- Whether a shutdown was accepted since the connection was last cleared. -/
def shutdowns (Addr Time : Type) [UserTime Time] : Watch Addr Time Bool where
  start := false
  note b _ op out c' :=
    if c'.connectionState.idle then false else b || acceptsShutdown op out

/-- An accepted shutdown marks the queue, or there is nothing left to shut down. -/
theorem shutdown_marks {c' : Connection Addr Time} (h : c.callShutdown = .ok (c', .ok ())) :
    c'.connectionState.idle = true ∨ c'.tx.tx.fin = true := by
  cases shutdownStep_of_ok h with
  | cleared => exact .inl rfl
  | early _ _ hsend =>
      rw [entered_tx, (sendAck_spec hsend).fin]
      exact .inr rfl
  | active _ _ _ _ hsend | passive _ _ _ _ hsend =>
      rw [(sendAck_spec hsend).fin]
      exact .inr rfl

/-- One operation keeps the marker of an accepted shutdown. -/
theorem shutdown_kept {op : Op Time} {out : Output} {c' : Connection Addr Time} {b : Bool}
    (hreach : Reachable c) (h : b = true → c.tx.tx.fin = true) (hc : c.step op = .ok (c', out))
    (hb : (shutdowns Addr Time).note b c op out c' = true) : c'.tx.tx.fin = true := by
  have hwf := hreach.wellFormed
  simp only [shutdowns] at hb
  split at hb
  · cases hb
  rename_i hlive
  rcases Bool.or_eq_true_iff.mp hb with hb | hb
  · have hfin := h hb
    have hop : op ≠ .callConnect ∨ c' = c := by
      by_cases hconnect : op = .callConnect
      · subst hconnect
        cases opStep_of_ok hc with
        | callConnect hc =>
            cases connectStep_of_ok hc with
            | refused => exact .inr rfl
            | connecting hs =>
                have hearly := (hwf.early (by rcases hs with hs | hs <;> rw [hs] <;> rfl)).1
                exact absurd (hearly.symm.trans hfin) Bool.false_ne_true
      · exact .inl hconnect
    rcases hop with hop | rfl
    · refine ((hwf.txEffect hc).fin_kept hwf hop hfin).resolve_left fun hgone => ?_
      exact hlive (ConnectionState.idle_of_gone hgone)
    · exact hfin
  · unfold acceptsShutdown at hb
    split at hb
    · cases opStep_of_ok hc with
      | callShutdown hc => exact (shutdown_marks hc).resolve_left hlive
    · cases hb

theorem marked_of_shutdown {b : Bool} (h : (shutdowns Addr Time).Reachable c b)
    (hb : b = true) : c.tx.tx.fin = true := by
  refine h.invariant (P := fun c b => b = true → c.tx.tx.fin = true) ?_ ?_ hb
  · exact fun c _ hb => by cases hb
  · intro c b op out c' hreach hp hc hb
    exact shutdown_kept hreach hp hc hb

/-- A local call returns exactly when it is not one of those listed. -/
theorem step_succeeds_iff (h : WellFormed c) {op : Op Time} (hop : op.isCall = true) :
    Succeeds (c.step op) ↔ ¬ c.CallPanics op := by
  cases op with
  | onSegment | onTimeTick => cases hop
  | callConnect => exact succeeds_bind_pure.trans callConnect_succeeds_iff
  | callSend inputData => exact succeeds_bind_pure.trans (h.callSend_succeeds_iff inputData)
  | callRecv bufferLen => exact succeeds_bind_pure.trans (h.callRecv_succeeds_iff bufferLen)
  | callShutdown => exact succeeds_bind_pure.trans callShutdown_succeeds_iff
  | callClose => exact succeeds_bind_pure.trans callClose_succeeds_iff
  | callAbort => exact iff_of_true (succeeds_bind_pure.mpr callAbort_succeeds) id
  | setOptions => exact iff_of_true (succeeds_pure _) id

/-- Behind the FIN marker `call_send` returns an error only in TimeWait. -/
theorem callSend_refused_iff (h : WellFormed c) (hfin : c.tx.tx.fin = true)
    (inputData : List UInt8) : (∃ e, c.callSend inputData = .ok (c, .error e)) ↔
      c.connectionState = .timeWait ∧ inputData ≠ [] := by
  have hsync : c.connectionState.synced = true := by
    by_contra hno
    have hearly := (h.early (Bool.eq_false_iff.mpr hno)).1
    exact absurd (hearly.symm.trans hfin) Bool.false_ne_true
  constructor
  · rintro ⟨e, hc⟩
    have hpanic := (h.callSend_succeeds_iff inputData).mp ⟨_, hc⟩
    refine ⟨?_, fun hdata => hpanic (.inl hdata)⟩
    cases hst : c.connectionState with
    | timeWait => rfl
    | established => exact absurd (.inr (.inr ⟨by rw [hst]; rfl, hfin⟩)) hpanic
    | _ => rw [hst] at hsync; cases hsync
  · rintro ⟨hst, hdata⟩
    refine ⟨.connectionClosing, ?_⟩
    rw [callSend, hst, assert, ensure, if_pos hdata]
    rfl

/-- In every reachable state a local call returns exactly when it is not one of
those listed. Once a shutdown was accepted, `call_send` is refused in TimeWait
and panics before. -/
theorem calls_return_iff {b : Bool} (h : (shutdowns Addr Time).Reachable c b) :
    (∀ op : Op Time, op.isCall = true → (Succeeds (c.step op) ↔ ¬ c.CallPanics op)) ∧
      (b = true → ∀ inputData, (∃ e, c.callSend inputData = .ok (c, .error e)) ↔
        c.connectionState = .timeWait ∧ inputData ≠ []) :=
  ⟨fun _ hop => step_succeeds_iff h.conn.wellFormed hop,
    fun hb => callSend_refused_iff h.conn.wellFormed (marked_of_shutdown h hb)⟩

/-- After an accepted shutdown `call_close` returns. -/
theorem calls_return_shutdown : ∃ c : Connection Unit Nat,
    c.connectionState = .established .fin .opened false true ∧
      (Succeeds (c.step .callClose) ↔ ¬ c.CallPanics .callClose) ∧
      ((∃ e, c.callSend [1] = .ok (c, .error e)) ↔
        c.connectionState = .timeWait ∧ [(1 : UInt8)] ≠ []) := by
  obtain ⟨⟨c, b⟩, hreach, hst, hb⟩ : ∃ s : Connection Unit Nat × Bool,
      Transition.Reachable (shutdowns Unit Nat).system s ∧
        s.1.connectionState = .established .fin .opened false true ∧ s.2 = true :=
    Transition.exists_reachableUnder (shutdowns Unit Nat).step_of_next
      ((shutdowns Unit Nat).init_start (initial_listening () .default zeroUser))
      [.onSegment ⟨100#32, 0#32, 4096#16, .syn, []⟩,
       .onSegment ⟨101#32, 1#32, 4096#16, .ack, []⟩, .callShutdown] (by decide)
  have hall := calls_return_iff hreach
  exact ⟨c, hst, hall.1 .callClose rfl, hall.2 hb [1]⟩

/-- A call of `call_send` after the shutdown panics. -/
theorem calls_panic : ¬ ∀ c : Connection Unit Nat, Reachable c → ∀ op : Op Nat,
    op.isCall = true → Succeeds (c.step op) := by
  intro hall
  obtain ⟨c, hreach, hpanic⟩ : ∃ c : Connection Unit Nat, Reachable c ∧
      ¬ Succeeds (c.step (.callSend [1])) :=
    Transition.exists_reachableUnder step_of_next (initial_listening () .default zeroUser)
      [.onSegment ⟨100#32, 0#32, 4096#16, .syn, []⟩,
       .onSegment ⟨101#32, 1#32, 4096#16, .ack, []⟩, .callShutdown] (by decide)
  exact hpanic (hall c hreach _ rfl)

end Connection

end TcpState
