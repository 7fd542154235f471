import TcpState.Connection.Run
import TcpState.Connection.StateChange
import TcpState.Foundation.Agreement
import TcpState.Foundation.Simulation

/-!
# The order in which suspended calls are walked

The suspended calls are a hash set, and each walk over them may take another
order. Two connections that differ in this order, and in the order of the
results told so far, take every step alike.
-/

namespace TcpState

/-- The same calls to the user, but for the order in which one walk over the
suspended calls tells their results. -/
inductive SameCalls {Addr Time : Type} :
    List (Callback Addr Time) → List (Callback Addr Time) → Prop
  | refl (l : List (Callback Addr Time)) : SameCalls l l
  | append {l l' : List (Callback Addr Time)} (h : SameCalls l l') (call : Callback Addr Time) :
      SameCalls (l ++ [call]) (l' ++ [call])
  | results {l l' : List (Callback Addr Time)} (h : SameCalls l l')
      {ws ws' : List (WaitUntil × Cookie)} (hws : ws'.Perm ws) (r : Except Error Unit) :
      SameCalls (l ++ ws.map fun p => .event p.2 r) (l' ++ ws'.map fun p => .event p.2 r)

namespace SameCalls

variable {Addr Time : Type} {l l' : List (Callback Addr Time)}

/-- The segments go out in the same order. -/
theorem segments (h : SameCalls l l') :
    l'.filterMap Callback.segment = l.filterMap Callback.segment := by
  have hnone (ws : List (WaitUntil × Cookie)) (r : Except Error Unit) :
      (ws.map fun p => (Callback.event p.2 r : Callback Addr Time)).filterMap
        Callback.segment = [] := by
    rw [List.filterMap_eq_nil_iff]
    intro call hcall
    obtain ⟨p, -, rfl⟩ := List.mem_map.mp hcall
    rfl
  induction h with
  | refl => rfl
  | append _ _ ih => rw [List.filterMap_append, List.filterMap_append, ih]
  | results _ _ _ ih => rw [List.filterMap_append, List.filterMap_append, ih, hnone, hnone]

end SameCalls

namespace Connection

variable {Addr Time : Type}

/-- The connection with its suspended calls and the calls to the user in other lists. -/
def rearranged (c : Connection Addr Time) (ws : List (WaitUntil × Cookie))
    (calls : List (Callback Addr Time)) : Connection Addr Time :=
  { c with
    events := { c.events with suspended := ws }
    userData := { c.userData with calls := calls } }

/-- The connection whose suspended calls are walked in another order. -/
def walkedAs (c : Connection Addr Time) (ws : List (WaitUntil × Cookie)) : Connection Addr Time :=
  { c with events := { c.events with suspended := ws } }

/-- The same connection up to the order of the suspended calls and of the results told. -/
inductive Rearranged (c : Connection Addr Time) : Connection Addr Time → Prop
  | mk {ws : List (WaitUntil × Cookie)} {calls : List (Callback Addr Time)}
      (hws : ws.Perm c.events.suspended) (hcalls : SameCalls c.userData.calls calls) :
      Rearranged c (c.rearranged ws calls)

namespace Rearranged

variable {c d : Connection Addr Time}

theorem refl (c : Connection Addr Time) : Rearranged c c := .mk (.refl _) (.refl _)

section Fields

theorem connectionState (h : Rearranged c d) : d.connectionState = c.connectionState := by
  cases h; rfl

theorem tx (h : Rearranged c d) : d.tx = c.tx := by cases h; rfl

theorem rx (h : Rearranged c d) : d.rx = c.rx := by cases h; rfl

theorem timers (h : Rearranged c d) : d.timers = c.timers := by cases h; rfl

theorem timings (h : Rearranged c d) : d.timings = c.timings := by cases h; rfl

theorem expBackoff (h : Rearranged c d) : d.expBackoff = c.expBackoff := by cases h; rfl

theorem options (h : Rearranged c d) : d.options = c.options := by cases h; rfl

theorem dupAckCount (h : Rearranged c d) : d.dupAckCount = c.dupAckCount := by cases h; rfl

theorem congestionWindow (h : Rearranged c d) : d.congestionWindow = c.congestionWindow := by
  cases h; rfl

theorem anySuspended (h : Rearranged c d) (f : WaitUntil → Bool) :
    d.events.anySuspended f = c.events.anySuspended f := by
  cases h with
  | mk hws => exact hws.any_eq

theorem sent (h : Rearranged c d) : d.userData.sent = c.userData.sent := by
  cases h with
  | mk hws hcalls => exact hcalls.segments

end Fields

section Updates

/-- The two may be put in any order before the step. -/
theorem reorder (h : Rearranged c d) {ws ws' : List (WaitUntil × Cookie)}
    (hws : ws.Perm c.events.suspended) (hws' : ws'.Perm d.events.suspended) :
    Rearranged (c.walkedAs ws) (d.walkedAs ws') := by
  cases h with
  | mk hperm hsame =>
      exact .mk (c := c.walkedAs ws) ((hws'.trans hperm).trans hws.symm) hsame

/-- A change that looks neither at the suspended calls nor at what was told. -/
theorem map (h : Rearranged c d) {g : Connection Addr Time → Connection Addr Time}
    (hg : ∀ ws calls, g (c.rearranged ws calls) = (g c).rearranged ws calls)
    (hws : (g c).events.suspended = c.events.suspended)
    (hcalls : (g c).userData.calls = c.userData.calls) : Rearranged (g c) (g d) := by
  cases h with
  | mk hperm hsame =>
      rw [hg]
      exact .mk (hws ▸ hperm) (hcalls ▸ hsame)

theorem withTx (h : Rearranged c d) (tx : TxBuffer) :
    Rearranged { c with tx := tx } { d with tx := tx } :=
  h.map (g := fun c => { c with tx := tx }) (fun _ _ => rfl) rfl rfl

theorem marked (h : Rearranged c d) :
    Rearranged { c with tx := { c.tx with tx := c.tx.tx.markFin } }
      { d with tx := { d.tx with tx := d.tx.tx.markFin } } := by
  rw [h.tx]
  exact h.withTx _

theorem withRx (h : Rearranged c d) (rx : RxBuffer) :
    Rearranged { c with rx := rx } { d with rx := rx } :=
  h.map (g := fun c => { c with rx := rx }) (fun _ _ => rfl) rfl rfl

theorem withTimers (h : Rearranged c d) (timers : Timers Time) :
    Rearranged { c with timers := timers } { d with timers := timers } :=
  h.map (g := fun c => { c with timers := timers }) (fun _ _ => rfl) rfl rfl

theorem withState (h : Rearranged c d) (state : ConnectionState) :
    Rearranged { c with connectionState := state } { d with connectionState := state } :=
  h.map (g := fun c => { c with connectionState := state }) (fun _ _ => rfl) rfl rfl

theorem send (h : Rearranged c d) (seg : SegmentMeta) : Rearranged (c.send seg) (d.send seg) := by
  cases h with
  | mk hws hcalls => exact .mk (c := c.send seg) hws (hcalls.append _)

theorem calls_foldl_event (u : UserData Addr Time) (ws : List (WaitUntil × Cookie))
    (r : Except Error Unit) : ws.foldl (fun u p => u.event p.2 r) u =
      { u with calls := u.calls ++ ws.map fun p => .event p.2 r } := by
  induction ws generalizing u with
  | nil => rw [List.foldl_nil, List.map_nil, List.append_nil]
  | cons w ws ih =>
      rw [List.foldl_cons, ih, UserData.event, List.map_cons, List.append_assoc]
      rfl

theorem sendBare (h : Rearranged c d) (ackn : SeqN) (flags : SegmentFlags) :
    Rearranged (c.send (c.bareSegment ackn flags)) (d.send (d.bareSegment ackn flags)) := by
  have hsame : d.bareSegment ackn flags = c.bareSegment ackn flags := by
    unfold bareSegment
    rw [h.tx, h.rx]
  rw [hsame]
  exact h.send _

theorem triggerEvent (h : Rearranged c d) (f : WaitUntil → Bool) (r : Except Error Unit) :
    Rearranged (c.triggerEvent f r) (d.triggerEvent f r) := by
  have hcalls (c : Connection Addr Time) : c.triggerEvent f r = c.rearranged
      (c.events.suspended.filter fun p => !f p.1)
      (c.userData.calls ++ (c.events.suspended.filter fun p => f p.1).map
        fun p => .event p.2 r) := by
    rw [Connection.triggerEvent, calls_foldl_event]
    rfl
  cases h with
  | mk hws hsame =>
      rw [hcalls, hcalls]
      exact .mk (hws.filter _) (hsame.results (hws.filter _) r)

variable [UserTime Time]

theorem setTimerReTx (h : Rearranged c d) (duration : Duration) :
    Rearranged (c.setTimerReTx duration) (d.setTimerReTx duration) := by
  cases h with
  | mk hws hcalls => exact .mk (c := c.setTimerReTx duration) hws (hcalls.append _)

theorem setTimerTimewait (h : Rearranged c d) (duration : Duration) :
    Rearranged (c.setTimerTimewait duration) (d.setTimerTimewait duration) := by
  cases h with
  | mk hws hcalls => exact .mk (c := c.setTimerTimewait duration) hws (hcalls.append _)

omit [UserTime Time] in
theorem clear (h : Rearranged c d) : Rearranged c.clear d.clear := by
  refine triggerEvent ?_ _ _
  cases h with
  | mk hws hcalls => exact .mk (c := { c with
    connectionState := .closed
    dupAckCount := 0#8
    congestionWindow := initialWindowSize
    expBackoff := 1
    rx := .default
    tx := .default
    timings := .default
    timers := .default }) hws hcalls

omit [UserTime Time] in
theorem reset (h : Rearranged c d) : Rearranged c.reset d.reset := h.clear.withState .reset

omit [UserTime Time] in
theorem clearReTxRange (h : Rearranged c d) (stop : SeqN) :
    Rearranged (c.clearReTxRange stop) (d.clearReTxRange stop) :=
  (h.triggerEvent _ _).map (g := fun c => { c with tx := { c.tx with
    reTx := c.tx.reTx.dropWhile fun head => head.seqnAfter.lte stop } }) (fun _ _ => rfl) rfl rfl

omit [UserTime Time] in
theorem triggerIf (h : Rearranged c d) (p : Prop) [Decidable p] (f : WaitUntil → Bool)
    (r : Except Error Unit) :
    Rearranged (if p then c.triggerEvent f r else c) (if p then d.triggerEvent f r else d) := by
  split
  · exact h.triggerEvent f r
  · exact h

end Updates

end Rearranged

section Steps

open Fallible (Agree)

variable {c d : Connection Addr Time} {α : Type}

/-- The same value with a connection in another order. -/
def RearrangedWith (p q : Connection Addr Time × α) : Prop := Rearranged p.1 q.1 ∧ q.2 = p.2

namespace Rearranged

theorem settle (h : Rearranged c d) (state : ConnectionState) :
    Agree Rearranged (c.settle state) (d.settle state) := by
  unfold Connection.settle
  rw [h.connectionState]
  refine .bind_same _ fun _ => .bind_same _ fun b => ?_
  have h₁ := (h.withState state).triggerIf (b = true) (· == .txQueueEmpty) (.ok ())
  cases state with
  | established txState rxState _ _ =>
      have h₂ := h₁.triggerEvent (· == .established) (.ok ())
      have h₃ := h₂.triggerIf (txState = .closed) (· == .txClosed) (.ok ())
      have h₄ := h₃.triggerIf (rxState = .closed) (· == .rxClosed) (.ok ())
      exact .pure (h₄.triggerIf (txState = .closed ∧ rxState = .closed) (· == .bothClosed) (.ok ()))
  | _ => exact .pure h₁

theorem suspend (h : Rearranged c d) (w : WaitUntil) :
    Rearranged (c.suspend w) (d.suspend w) := by
  cases h with
  | mk hws hcalls => exact .mk (c := c.suspend w) (hws.append_right _) hcalls

theorem nextCookie (h : Rearranged c d) : d.events.nextCookie = c.events.nextCookie := by
  cases h; rfl

theorem retryAfter (h : Rearranged c d) (w : WaitUntil) :
    Agree RearrangedWith (c.retryAfter w : Res (Connection Addr Time × Except Error α))
      (d.retryAfter w) := by
  have hnext := h.nextCookie
  by_cases hroom : c.events.nextCookie + 1 < 2 ^ 64
  · rw [retryAfter_ok_iff.mpr ⟨hroom, rfl, rfl⟩,
      retryAfter_ok_iff.mpr ⟨hnext.symm ▸ hroom, rfl, rfl⟩]
    exact .ok ⟨h.suspend w, by rw [hnext]⟩
  · unfold Connection.retryAfter Events.returnRetryAfter Events.newCookie
    rw [if_neg hroom, if_neg (hnext.symm ▸ hroom)]
    exact .error _

theorem continueAfter (h : Rearranged c d) (w : WaitUntil) :
    Agree RearrangedWith (c.continueAfter w : Res (Connection Addr Time × Except Error α))
      (d.continueAfter w) := by
  have hnext := h.nextCookie
  by_cases hroom : c.events.nextCookie + 1 < 2 ^ 64
  · rw [continueAfter_ok_iff.mpr ⟨hroom, rfl, rfl⟩,
      continueAfter_ok_iff.mpr ⟨hnext.symm ▸ hroom, rfl, rfl⟩]
    exact .ok ⟨h.suspend w, by rw [hnext]⟩
  · unfold Connection.continueAfter Events.returnContinueAfter Events.newCookie
    rw [if_neg hroom, if_neg (hnext.symm ▸ hroom)]
    exact .error _

theorem takeOutput (h : Rearranged c d) (limit : Nat) :
    Agree RearrangedWith (c.takeOutput limit) (d.takeOutput limit) := by
  unfold Connection.takeOutput
  rw [h.tx]
  refine .ite (fun _ => .pure ⟨h, rfl⟩) fun _ => ?_
  refine .bind_same _ fun p => ?_
  have h₁ := h.withTx { c.tx with tx := p.1 }
  have hany := h₁.anySuspended WaitUntil.isAcknowledged
  dsimp only at hany ⊢
  rw [hany]
  exact .pure ⟨h₁.triggerIf _ _ _, rfl⟩

variable [UserTime Time]

theorem setState (h : Rearranged c d) (state : ConnectionState) :
    Agree Rearranged (c.setState state) (d.setState state) := by
  unfold Connection.setState
  refine (h.settle state).bind fun c₁ d₁ h₁ => ?_
  split
  · refine (h₁.settle .timeWait).bind fun c₂ d₂ h₂ => ?_
    exact .pure ((h₂.withTimers .default).setTimerTimewait _)
  · exact .pure h₁.clear
  · exact .pure h₁

theorem takeFin (h : Rearranged c d) (txFin : Bool) :
    Agree RearrangedWith (c.takeFin txFin) (d.takeFin txFin) := by
  unfold Connection.takeFin
  rw [h.connectionState]
  refine .bind_same _ fun finSent => .ite (fun _ => ?_) fun _ => .pure ⟨h, rfl⟩
  refine .bind_same _ fun closeCalled => .bind_same _ fun closeActive => ?_
  exact (h.setState _).bind fun c₁ d₁ h₁ => .pure ⟨h₁, rfl⟩

theorem rearm (h : Rearranged c d) : Rearranged (c.setTimerReTx c.timings.rto)
    (d.setTimerReTx d.timings.rto) := by
  rw [h.timings]
  exact h.setTimerReTx _

theorem emit (h : Rearranged c d) (seg : SegmentMeta) : Rearranged (c.emit seg) (d.emit seg) := by
  unfold Connection.emit
  rw [h.tx]
  split
  · exact h
  · have h₁ := (h.withTx (c.tx.onSend seg)).send seg
    dsimp only
    split
    · exact h₁.rearm
    · exact h₁

theorem sendAck (h : Rearranged c d) : Agree Rearranged c.sendAck d.sendAck := by
  unfold Connection.sendAck
  rw [h.tx]
  refine (h.takeOutput _).bind ?_
  rintro ⟨c₁, data, fin⟩ ⟨d₁, _⟩ ⟨h₁, rfl⟩
  change Rearranged c₁ d₁ at h₁
  dsimp only
  rw [h₁.connectionState]
  refine .bind_same _ fun finSent => .bind_same _ fun _ => ?_
  refine (h₁.takeFin fin).bind ?_
  rintro ⟨c₂, flags⟩ ⟨d₂, _⟩ ⟨h₂, rfl⟩
  change Rearranged c₂ d₂ at h₂
  dsimp only
  rw [h₂.tx, h₂.rx]
  exact .pure (h₂.emit _)

section Calls

theorem callConnect (h : Rearranged c d) :
    Agree RearrangedWith c.callConnect d.callConnect := by
  unfold Connection.callConnect
  rw [h.connectionState]
  cases c.connectionState with
  | closed | reset =>
      refine (h.setState .synSent).bind fun c₁ d₁ h₁ => ?_
      cases h₁ with
      | mk hws hcalls =>
          refine continueAfter ?_ .established
          exact .mk hws ((hcalls.append _).append _)
  | _ => exact .pure ⟨h, rfl⟩

theorem callSend (h : Rearranged c d) (inputData : List UInt8) :
    Agree RearrangedWith (c.callSend inputData) (d.callSend inputData) := by
  unfold Connection.callSend
  refine .bind_same _ fun _ => ?_
  rw [h.connectionState]
  generalize c.connectionState = s
  have hs := h.withState s
  cases s with
  | synSent | synReceived =>
      rw [h.tx]
      refine .bind_same _ fun tx => continueAfter ?_ _
      exact hs.withTx _
  | established txState rxState closeCalled closeActive =>
      refine .bind_same _ fun _ => ?_
      rw [h.tx]
      refine .bind_same _ fun tx => ?_
      dsimp only
      rw [show d.options.nagleDelay = c.options.nagleDelay from congrArg _ h.options]
      have h₁ := hs.withTx { c.tx with tx := tx }
      refine .ite (fun _ => ?_) fun _ => .pure ⟨h₁, rfl⟩
      exact h₁.sendAck.bind fun c₂ d₂ h₂ => .pure ⟨h₂, rfl⟩
  | _ => exact .pure ⟨h, rfl⟩

theorem callRecv (h : Rearranged c d) (bufferLen : Nat) :
    Agree RearrangedWith (c.callRecv bufferLen) (d.callRecv bufferLen) := by
  unfold Connection.callRecv
  rw [h.connectionState]
  generalize c.connectionState = s
  have hs := h.withState s
  cases s with
  | listen | synSent | synReceived => exact h.retryAfter _
  | established txState rxState closeCalled closeActive =>
      rw [h.rx]
      cases rxState with
      | closed => exact .pure ⟨h, rfl⟩
      | opened =>
          refine .ite (fun _ => ?_) fun _ => h.retryAfter _
          exact .bind_same _ fun p => .pure ⟨hs.withRx _, rfl⟩
      | fin =>
          refine .bind_same _ fun p => .ite (fun _ => ?_) fun _ => .pure ⟨hs.withRx _, rfl⟩
          exact ((hs.withRx _).setState _).bind fun c₁ d₁ h₁ => .pure ⟨h₁, rfl⟩
  | _ => exact .pure ⟨h, rfl⟩

theorem callShutdown (h : Rearranged c d) :
    Agree RearrangedWith c.callShutdown d.callShutdown := by
  unfold Connection.callShutdown
  rw [h.connectionState]
  generalize c.connectionState = s
  have hs := h.withState s
  cases s with
  | listen | synSent => exact .pure ⟨(h.triggerEvent _ _).clear, rfl⟩
  | synReceived =>
      rw [h.anySuspended, h.tx]
      refine .ite (fun _ => h.retryAfter _) fun _ => ?_
      refine (hs.withTx _).sendAck.bind fun c₁ d₁ h₁ => ?_
      exact (h₁.setState _).bind fun c₂ d₂ h₂ => .pure ⟨h₂, rfl⟩
  | established txState rxState closeCalled closeActive =>
      cases txState with
      | closed | fin => exact .pure ⟨h, rfl⟩
      | opened =>
          rw [h.anySuspended, h.tx]
          refine .ite (fun _ => h.retryAfter _) fun _ => ?_
          refine Agree.bind (.ite (fun _ => h.setState _) fun _ => .pure h) fun c₁ d₁ h₁ => ?_
          exact h₁.marked.sendAck.bind fun c₂ d₂ h₂ => .pure ⟨h₂, rfl⟩
  | _ => exact .pure ⟨h, rfl⟩

theorem finishClose (h : Rearranged c d) (closeActive : Bool) :
    Agree RearrangedWith (c.finishClose closeActive) (d.finishClose closeActive) := by
  unfold Connection.finishClose
  rw [h.connectionState]
  refine (h.setState _).bind fun c₁ d₁ h₁ => ?_
  exact .ite (fun _ => .pure ⟨h₁, rfl⟩) fun _ => h₁.continueAfter _

theorem callClose (h : Rearranged c d) : Agree RearrangedWith c.callClose d.callClose := by
  unfold Connection.callClose
  rw [h.connectionState]
  generalize c.connectionState = s
  have hs := h.withState s
  cases s with
  | listen | synSent => exact .pure ⟨(h.triggerEvent _ _).clear, rfl⟩
  | synReceived =>
      rw [h.anySuspended, h.tx]
      refine .ite (fun _ => h.retryAfter _) fun _ => ?_
      refine (hs.withTx _).sendAck.bind fun c₁ d₁ h₁ => ?_
      exact (h₁.setState _).bind fun c₂ d₂ h₂ => h₂.continueAfter _
  | established txState rxState closeCalled closeActive =>
      cases txState with
      | closed | fin => exact h.finishClose _
      | opened =>
          rw [h.anySuspended, h.tx]
          refine .ite (fun _ => h.retryAfter _) fun _ => ?_
          exact (hs.withTx _).sendAck.bind fun c₁ d₁ h₁ => h₁.finishClose _
  | _ => exact .pure ⟨h, rfl⟩

omit [UserTime Time] in
theorem callAbort (h : Rearranged c d) : Agree RearrangedWith c.callAbort d.callAbort := by
  unfold Connection.callAbort
  rw [h.connectionState]
  generalize c.connectionState = s
  have hs := h.withState s
  cases s with
  | listen | synSent => exact .pure ⟨(h.triggerEvent _ _).clear, rfl⟩
  | synReceived | established => exact .pure ⟨((h.sendBare _ _).triggerEvent _ _).clear, rfl⟩
  | timeWait => exact .pure ⟨h.clear, rfl⟩
  | closed | reset => exact .pure ⟨h, rfl⟩

end Calls

section Segments

theorem onSegmentListen (h : Rearranged c d) (seg : SegmentMeta) :
    Agree Rearranged (c.onSegmentListen seg) (d.onSegmentListen seg) := by
  unfold Connection.onSegmentListen
  refine .ite (fun _ => .pure h) fun _ => .ite (fun _ => .pure (h.send _)) fun _ => ?_
  refine .ite (fun _ => .pure h) fun _ => .bind_same _ fun _ => ?_
  refine (setState ?_ _).bind fun c₁ d₁ h₁ => .pure ?_
  · cases h with
    | mk hws hcalls => exact .mk hws hcalls
  · rw [h₁.tx, h₁.rx]
    exact (h₁.rearm.map (g := fun c => { c with tx := c.tx.onSend _ })
      (fun _ _ => rfl) rfl rfl).send _

/-- The end of the handshake, once our SYN is acknowledged. -/
theorem openIfAcked (h : Rearranged c d) :
    Agree Rearranged
      (if c.tx.unack = c.tx.initSeqn + 1#32 then do
        let c ← c.setState .fullyOpen
        c.sendAck
      else return c)
      (if d.tx.unack = d.tx.initSeqn + 1#32 then do
        let d ← d.setState .fullyOpen
        d.sendAck
      else return d) := by
  rw [h.tx]
  refine .ite (fun _ => ?_) fun _ => .pure h
  exact (h.setState _).bind fun c₁ d₁ h₁ => h₁.sendAck

theorem onSegmentSynSent (h : Rearranged c d) (seg : SegmentMeta) :
    Agree Rearranged (c.onSegmentSynSent seg) (d.onSegmentSynSent seg) := by
  have h₁ := h.map (g := fun c => { c with rx := c.rx.init seg.seqn }) (fun _ _ => rfl) rfl rfl
  have h₂ := (h₁.clearReTxRange seg.ackn).map (g := fun c => { c with
    tx := { c.tx with unack := seg.ackn, window := seg.window } }) (fun _ _ => rfl) rfl rfl
  have hrange : d.tx.unack = c.tx.unack ∧ d.tx.next = c.tx.next := by
    rw [h.tx]
    exact ⟨rfl, rfl⟩
  unfold Connection.onSegmentSynSent
  rw [hrange.1, hrange.2, show d.rx.currWindow = c.rx.currWindow from congrArg _ h.rx]
  refine .ite (fun _ => .pure (h.send _)) fun _ => .ite (fun _ => .pure h.reset) fun _ => ?_
  exact .ite (fun _ => h₂.openIfAcked) fun _ => .pure h

theorem onRst (h : Rearranged c d) : Agree Rearranged c.onRst d.onRst := by
  unfold Connection.onRst
  rw [h.connectionState]
  cases c.connectionState with
  | synReceived => exact h.clear.setState _
  | established => exact (h.triggerEvent _ _).clear.setState _
  | _ => exact .error _

theorem onSyn (h : Rearranged c d) : Agree Rearranged c.onSyn d.onSyn := by
  unfold Connection.onSyn
  exact ((h.triggerEvent _ _).sendBare _ _).clear.setState _

omit [UserTime Time] in
theorem nextCongestionWindow (h : Rearranged c d) (seg : SegmentMeta) :
    d.nextCongestionWindow seg = c.nextCongestionWindow seg := by
  unfold Connection.nextCongestionWindow
  rw [h.dupAckCount, h.congestionWindow]

/-- The timer after an acknowledgement, by what is left to send again. -/
theorem rearmUnlessEmpty (h : Rearranged c d) :
    Rearranged (if c.tx.reTx.isEmpty then { c with timers := { c.timers with reTx := none } }
        else c.setTimerReTx c.timings.rto)
      (if d.tx.reTx.isEmpty then { d with timers := { d.timers with reTx := none } }
        else d.setTimerReTx d.timings.rto) := by
  rw [show d.tx.reTx.isEmpty = c.tx.reTx.isEmpty by rw [h.tx], h.timers]
  split
  · exact h.withTimers _
  · exact h.rearm

omit [UserTime Time] in
/-- Readers are resumed by what is stored. -/
theorem resumeReaders (h : Rearranged c d) :
    Rearranged
      (c.triggerEvent (fun w => match w with
        | .recv count => decide (count.toNat ≤ c.rx.availableBytes)
        | _ => false) (.ok ()))
      (d.triggerEvent (fun w => match w with
        | .recv count => decide (count.toNat ≤ d.rx.availableBytes)
        | _ => false) (.ok ())) := by
  rw [h.rx]
  exact h.triggerEvent _ _

theorem onNewAck (h : Rearranged c d) (seg : SegmentMeta) :
    Agree Rearranged (c.onNewAck seg) (d.onNewAck seg) := by
  unfold Connection.onNewAck
  rw [h.nextCongestionWindow]
  refine .bind_same _ fun congestionWindow => .pure (triggerEvent (rearmUnlessEmpty ?_) _ _)
  have h₁ := h.map (g := fun c => { c with
    congestionWindow := congestionWindow
    tx := { c.tx with window := minU16 seg.window congestionWindow } }) (fun _ _ => rfl) rfl rfl
  have h₂ := h₁.resumeReaders.clearReTxRange seg.ackn
  exact h₂.map (g := fun c => { c with tx := { c.tx with unack := seg.ackn }, expBackoff := 1 })
    (fun _ _ => rfl) rfl rfl

theorem onFinAcked (h : Rearranged c d) (ackn : SeqN) :
    Agree Rearranged (c.onFinAcked ackn) (d.onFinAcked ackn) := by
  unfold Connection.onFinAcked
  rw [h.connectionState, h.tx]
  split
  · refine .ite (fun _ => ?_) fun _ => .pure h
    exact .bind_same _ fun _ => .bind_same _ fun _ => h.setState _
  · exact .pure h

theorem storeData (h : Rearranged c d) (seg : SegmentMeta) :
    Agree RearrangedWith (c.storeData seg) (d.storeData seg) := by
  unfold Connection.storeData
  rw [h.rx]
  refine .ite (fun _ => ?_) fun _ => .ite (fun _ => .pure ⟨h.sendBare _ _, rfl⟩)
    fun _ => .pure ⟨h, rfl⟩
  exact .bind_same _ fun rx => (h.withRx rx).sendAck.bind fun c₁ d₁ h₁ => .pure ⟨h₁, rfl⟩

theorem onAck (h : Rearranged c d) (seg : SegmentMeta) :
    Agree RearrangedWith (c.onAck seg) (d.onAck seg) := by
  unfold Connection.onAck
  rw [h.tx, h.connectionState]
  refine .ite (fun _ => ?_) fun _ => .pure ⟨h, rfl⟩
  refine Agree.bind (.ite (fun _ => h.setState _) fun _ => .pure h) fun c₁ d₁ h₁ => ?_
  rw [h₁.tx]
  refine Agree.bind (.ite (fun _ => h₁.onNewAck seg) fun _ => .pure h₁) fun c₂ d₂ h₂ => ?_
  exact (h₂.onFinAcked _).bind fun c₃ d₃ h₃ => h₃.storeData seg

theorem onFin (h : Rearranged c d) (isNonOrderedAck : Bool) :
    Agree Rearranged (c.onFin isNonOrderedAck) (d.onFin isNonOrderedAck) := by
  unfold Connection.onFin
  rw [h.connectionState]
  cases c.connectionState with
  | closed | listen | synSent => exact .pure h
  | timeWait =>
      refine .ite (fun _ => .pure ?_) fun _ => .pure h
      exact ((h.triggerEvent _ _).withTimers .default).setTimerTimewait _
  | synReceived | established => exact (h.triggerEvent _ _).setState _
  | reset => exact .pure (h.triggerEvent _ _)

theorem onAccepted (h : Rearranged c d) (seg : SegmentMeta) :
    Agree Rearranged (c.onAccepted seg) (d.onAccepted seg) := by
  unfold Connection.onAccepted
  rw [h.tx]
  have hack : Agree RearrangedWith
      (if seg.flags.contains .ack then c.onAck seg else return (c, true))
      (if seg.flags.contains .ack then d.onAck seg else return (d, true)) :=
    .ite (fun _ => h.onAck seg) fun _ => .pure ⟨h, rfl⟩
  refine hack.bind ?_
  rintro ⟨c₁, proceed⟩ ⟨d₁, _⟩ ⟨h₁, rfl⟩
  exact .ite (fun _ => Rearranged.onFin h₁ _) fun _ => .pure h₁

theorem onSegmentSynchronized (h : Rearranged c d) (seg : SegmentMeta) :
    Agree Rearranged (c.onSegmentSynchronized seg) (d.onSegmentSynchronized seg) := by
  have hcheck : d.checkSegmentSeqOk seg = c.checkSegmentSeqOk seg := by
    unfold checkSegmentSeqOk
    rw [h.rx]
  unfold Connection.onSegmentSynchronized
  rw [hcheck, show d.rx.ackd = c.rx.ackd from congrArg _ h.rx]
  refine .ite (fun _ => ?_) fun _ => ?_
  · exact .ite (fun _ => .pure (h.sendBare _ _)) fun _ => .pure h
  · have h₁ := h.map (g := fun c => { c with
      tx := { c.tx with window := minU16 seg.window c.congestionWindow } }) (fun _ _ => rfl) rfl rfl
    exact .ite (fun _ => h₁.onRst) fun _ => .ite (fun _ => h₁.onSyn) fun _ => h₁.onAccepted seg

theorem onSegment (h : Rearranged c d) (seg : SegmentMeta) :
    Agree Rearranged (c.onSegment seg) (d.onSegment seg) := by
  unfold Connection.onSegment
  rw [h.connectionState]
  cases c.connectionState with
  | closed | reset =>
      refine .bind_same _ fun resp => ?_
      cases resp with
      | some resp => exact .pure (h.send resp)
      | none => exact .pure h
  | listen => exact h.onSegmentListen seg
  | synSent => exact h.onSegmentSynSent seg
  | timeWait | synReceived | established => exact h.onSegmentSynchronized seg

end Segments

section Ticks

/-- The timer after a segment sent again. -/
theorem backOff (h : Rearranged c d) :
    Agree Rearranged
      (do
        let duration ← Duration.add c.timings.rto (Duration.fromSecs c.expBackoff)
        return c.setTimerReTx duration)
      (do
        let duration ← Duration.add d.timings.rto (Duration.fromSecs d.expBackoff)
        return d.setTimerReTx duration) := by
  rw [h.timings, h.expBackoff]
  exact .bind_same _ fun duration => .pure (h.setTimerReTx duration)

/-- The oldest segment is sent again. -/
theorem sendOldest (h : Rearranged c d) :
    Agree Rearranged
      (match c.tx.reTx with
      | [] => return c
      | seg :: _ => do
          let expBackoff ← doubleBackoff c.expBackoff
          let c := { c with expBackoff := expBackoff }
          let c := c.send seg
          let duration ← Duration.add c.timings.rto (Duration.fromSecs c.expBackoff)
          return c.setTimerReTx duration)
      (match d.tx.reTx with
      | [] => return d
      | seg :: _ => do
          let expBackoff ← doubleBackoff d.expBackoff
          let d := { d with expBackoff := expBackoff }
          let d := d.send seg
          let duration ← Duration.add d.timings.rto (Duration.fromSecs d.expBackoff)
          return d.setTimerReTx duration) := by
  rw [show d.tx.reTx = c.tx.reTx by rw [h.tx], h.expBackoff]
  cases c.tx.reTx with
  | nil => exact .pure h
  | cons seg rest =>
      refine .bind_same _ fun expBackoff => ?_
      have h₁ := h.map (g := fun c => { c with expBackoff := expBackoff })
        (fun _ _ => rfl) rfl rfl
      exact (h₁.send seg).backOff

theorem onTimerReTx (h : Rearranged c d) : Agree Rearranged c.onTimerReTx d.onTimerReTx := by
  have hsend := h.sendOldest
  cases h with
  | mk hws hcalls =>
      obtain ⟨_, s, _⟩ := c
      cases s with
      | listen | synSent | synReceived | established => exact hsend
      | reset => exact .pure (.mk hws hcalls)
      | timeWait | closed => exact .error _

omit [UserTime Time] in
theorem onTimerTimewait (h : Rearranged c d) :
    Agree Rearranged c.onTimerTimewait d.onTimerTimewait := by
  unfold Connection.onTimerTimewait
  rw [h.connectionState]
  exact .bind_same _ fun _ => .pure h.clear

theorem onTimeTick (h : Rearranged c d) (time : Time) :
    Agree Rearranged (c.onTimeTick time) (d.onTimeTick time) := by
  unfold Connection.onTimeTick
  rw [h.timers]
  refine Agree.bind (.ite (fun _ => (h.withTimers _).onTimerReTx) fun _ => .pure h)
    fun c₁ d₁ h₁ => ?_
  rw [h₁.timers]
  refine Agree.bind (.ite (fun _ => (h₁.withTimers _).onTimerTimewait) fun _ => .pure h₁)
    fun c₂ d₂ h₂ => ?_
  rw [h₂.timers]
  refine .ite (fun _ => .pure ?_) fun _ => .pure h₂
  exact ((h₂.withTimers _).triggerEvent _ _).clear

end Ticks

/-- The same result, and connections that differ in order only. -/
theorem step (h : Rearranged c d) (op : Op Time) :
    Agree RearrangedWith (c.step op) (d.step op) := by
  cases op with
  | callConnect => exact h.callConnect.bind fun _ _ hr => .pure ⟨hr.1, congrArg Output.call hr.2⟩
  | callSend inputData =>
      exact (h.callSend inputData).bind fun _ _ hr => .pure ⟨hr.1, congrArg Output.call hr.2⟩
  | callRecv bufferLen =>
      exact (h.callRecv bufferLen).bind fun _ _ hr => .pure ⟨hr.1, congrArg Output.recv hr.2⟩
  | callShutdown => exact h.callShutdown.bind fun _ _ hr => .pure ⟨hr.1, congrArg Output.call hr.2⟩
  | callClose => exact h.callClose.bind fun _ _ hr => .pure ⟨hr.1, congrArg Output.call hr.2⟩
  | callAbort => exact h.callAbort.bind fun _ _ hr => .pure ⟨hr.1, congrArg Output.call hr.2⟩
  | setOptions options =>
      exact .pure
        ⟨h.map (g := fun c => { c with options := options }) (fun _ _ => rfl) rfl rfl, rfl⟩
  | onSegment seg => exact (h.onSegment seg).bind fun _ _ hr => .pure ⟨hr, rfl⟩
  | onTimeTick time => exact (h.onTimeTick time).bind fun _ _ hr => .pure ⟨hr, rfl⟩

end Rearranged

end Steps

section Runs

variable [UserTime Time] {c c' d' : Connection Addr Time}

/-- The runs in which the suspended calls are in any order at each step. The
walks of one operation pick disjoint sets of them, and nothing is suspended
before the last walk, so one order for the operation is one for each walk. -/
def anyOrder (Addr Time : Type) [UserTime Time] :
    Transition.System (Connection Addr Time) (Op Time × Output) where
  init := Initial
  step c act c' := ∃ ws, ws.Perm c.events.suspended ∧ (c.walkedAs ws).step act.1 = .ok (c', act.2)

/-- What a connection returns and sends, and what it tells each suspended
call, does not depend on the order in which the suspended calls are walked. -/
theorem order_unobservable {acts acts' : List (Op Time × Output)}
    (run : Transition.Steps (anyOrder Addr Time) c acts c')
    (run' : Transition.Steps (anyOrder Addr Time) c acts' d')
    (hops : acts'.map Prod.fst = acts.map Prod.fst) :
    acts' = acts ∧ d'.userData.sent = c'.userData.sent ∧ Rearranged c' d' ∧
      ∀ (op : Op Time) (ws ws' : List (WaitUntil × Cookie)) (e : Panic),
        ws.Perm c'.events.suspended → ws'.Perm d'.events.suspended →
        ((d'.walkedAs ws').step op = .error e ↔ (c'.walkedAs ws).step op = .error e) := by
  have hstep (c d : Connection Addr Time) (act act' : Op Time × Output)
      (c' d' : Connection Addr Time) (h : Rearranged c d) (hop : act'.1 = act.1)
      (hc : (anyOrder Addr Time).step c act c') (hd : (anyOrder Addr Time).step d act' d') :
      act' = act ∧ Rearranged c' d' := by
    obtain ⟨ws, hws, hc⟩ := hc
    obtain ⟨ws', hws', hd⟩ := hd
    have hagree := (h.reorder hws hws').step act.1
    rw [hc, ← hop, hd] at hagree
    cases hagree with
    | ok hr => exact ⟨Prod.ext hop hr.2, hr.1⟩
  obtain ⟨hacts, hr⟩ := run.lockstep hstep run' hops (.refl c)
  refine ⟨hacts, hr.sent, hr, fun op ws ws' e hws hws' => ?_⟩
  exact ((hr.reorder hws hws').step op).error_iff.symm

/-- Two waiting reads are aborted in either order. -/
theorem order_unobservable_abort : ∃ c c' d' : Connection Unit Nat,
    c.events.suspended = [(.recv 1#32, 0), (.recv 2#32, 1)] ∧
      c'.userData.calls = [.event 0 (.error .connectionReset),
        .event 1 (.error .connectionReset)] ∧
      d'.userData.calls = [.event 1 (.error .connectionReset),
        .event 0 (.error .connectionReset)] ∧ Rearranged c' d' := by
  let c : Connection Unit Nat := { new () ⟨[], fun _ => 0#32, fun _ => 0⟩ with
    connectionState := .synSent, events := ⟨[(.recv 1#32, 0), (.recv 2#32, 1)], 2⟩ }
  have hrun (ws : List (WaitUntil × Cookie)) (hws : ws.Perm c.events.suspended)
      (c' : Connection Unit Nat) (hc : (c.walkedAs ws).callAbort = .ok (c', .ok ())) :
      Transition.Steps (anyOrder Unit Nat) c [(.callAbort, .call (.ok ()))] c' :=
    .single ⟨ws, hws, by simp only [step, hc]; rfl⟩
  have hsame := order_unobservable (hrun _ (.refl _) _ rfl)
    (hrun [(.recv 2#32, 1), (.recv 1#32, 0)] (.swap _ _ _) _ rfl) rfl
  exact ⟨c, _, _, rfl, rfl, rfl, hsame.2.2.1⟩

end Runs

end Connection

end TcpState
