import TcpState.Connection.Resume
import TcpState.Connection.TxEffect
import TcpState.Connection.Watch

/-!
# Every suspended call is resumed once

Cookies are counted up, so the cookies of a run are the numbers below the
counter. Each of them is either suspended or has been resumed, and where
nothing more can be waited for nothing is suspended.
-/

namespace TcpState

/-- The states in which every call has been answered. -/
def ConnectionState.settled : ConnectionState → Bool
  | .timeWait | .closed | .reset => true
  | _ => false

theorem ConnectionState.not_settled_of_isEstablished {s : ConnectionState}
    (h : s.isEstablished = true) : s.settled = false := by
  cases s <;> first | rfl | cases h

namespace Connection

variable {Addr Time : Type} {c c₀ c₁ c' : Connection Addr Time}

theorem Resumes.noSenders (r : Resumes c c') (h : c.noSenders) : c'.noSenders := by
  unfold Connection.noSenders at h ⊢
  by_contra hany
  obtain ⟨p, hp, hack⟩ := Events.anySuspended_iff.mp (by simpa using hany)
  have := Events.anySuspended_iff.mpr ⟨p, r.suspended.subset hp, hack⟩
  rw [h] at this
  cases this

/-- Without an open read side and suspended senders nobody waits for data. -/
theorem WellFormed.noDataWaiters (h : WellFormed c) (hread : c.connectionState.readOpen = false)
    (hno : c.noSenders) (p : WaitUntil × Cookie) : p ∉ c.dataWaiters := by
  intro hp
  rcases (mem_dataWaiters.mp hp).2 with hrecv | hack
  · have := h.readers ⟨p, hp, hrecv⟩
    rw [hread] at this
    cases this
  · have := Events.anySuspended_iff.mpr ⟨p, (mem_dataWaiters.mp hp).1, hack⟩
    rw [hno] at this
    cases this

/-- No sender waits once the FIN is queued, and nobody waits in the end. -/
structure Waits (c : Connection Addr Time) : Prop where
  senders : c.tx.tx.fin = true → c.noSenders
  settled : c.connectionState.settled = true → c.events.suspended = []

/-- A step resumes calls and then suspends at most one. -/
inductive EventStep (c : Connection Addr Time) : Option Cookie → Connection Addr Time → Prop
  | resumed {c' : Connection Addr Time} (h : Resumes c c')
      (hset : c'.connectionState.settled = true →
        c.connectionState.settled = true ∨ c'.events.suspended = []) : EventStep c none c'
  | suspended {c₀ : Connection Addr Time} {w : WaitUntil} (h : Resumes c c₀)
      (hset : c₀.connectionState.settled = false)
      (hw : w.isAcknowledged = true → c₀.tx.tx.fin = false) :
      EventStep c (some c₀.events.nextCookie) (c₀.suspend w)

/-- The queue is marked only while no sender waits. -/
theorem TxEffect.marks {op : Op Time} {out : Output} (effect : TxEffect c op out c')
    (hwf : WellFormed c) (hfin : c'.tx.tx.fin = true) : c.tx.tx.fin = true ∨ c.noSenders := by
  have idle_fin (hidle : c.connectionState.idle = true) : c.tx.tx.fin = false := by
    rw [(hwf.idle hidle).1]
    rfl
  cases effect with
  | kept _ htx =>
      rw [htx.queue] at hfin
      exact .inl hfin
  | cleared _ _ _ htx =>
      rw [htx] at hfin
      cases hfin
  | connecting hs _ ha =>
      rw [ha.tx, TxBuffer.onSend_tx] at hfin
      exact .inl hfin
  | answered _ _ _ ha =>
      rw [ha.tx, TxBuffer.onSend_tx] at hfin
      exact .inl hfin
  | queued _ _ hq htx =>
      rw [htx] at hfin
      exact .inl ((BlobQueue.writeBytes_spec hq).2.1.symm.trans hfin)
  | appended _ _ _ _ hq _ ht =>
      rw [ht.fin] at hfin
      exact .inl ((BlobQueue.writeBytes_spec hq).2.1.symm.trans hfin)
  | marked _ _ _ _ hw => exact .inr hw
  | acked _ _ _ _ htx =>
      rw [htx] at hfin
      exact .inl hfin
  | stored _ _ htx _ _ _ ht =>
      rw [ht.fin, htx] at hfin
      exact .inl hfin
  | synAcked => exact .inl hfin
  | opened _ _ _ _ _ _ ht =>
      rw [ht.fin, entered_tx] at hfin
      exact .inl hfin

/-- Every step keeps the waiters as they should be. -/
theorem EventStep.waits {k : Option Cookie} (h : EventStep c k c') (hw : Waits c)
    (hmarks : c'.tx.tx.fin = true → c.tx.tx.fin = true ∨ c.noSenders) : Waits c' := by
  cases h with
  | resumed r hset =>
      refine ⟨fun hfin => r.noSenders ((hmarks hfin).elim hw.senders id), fun hs => ?_⟩
      exact (hset hs).elim (fun hwas => r.nil (hw.settled hwas)) id
  | @suspended c₀ w r hset hack =>
      refine ⟨fun hfin => ?_, fun hs => absurd (hs.symm.trans hset) (by decide)⟩
      have hno := r.noSenders ((hmarks hfin).elim hw.senders id)
      unfold Connection.noSenders at hno ⊢
      by_contra hany
      obtain ⟨p, hp, hpack⟩ := Events.anySuspended_iff.mp (by simpa using hany)
      rcases List.mem_append.mp hp with hp | hp
      · have := Events.anySuspended_iff.mpr ⟨p, hp, hpack⟩
        rw [hno] at this
        cases this
      · rw [List.mem_singleton.mp hp] at hpack
        have := (hack hpack).symm.trans hfin
        cases this

variable [UserTime Time]

/-- Entering an open state ends in a final one only with both directions
closed, and leaves at most those who wait for data. -/
theorem stateSet_settled {t r : ChannelState} {cc ca : Bool}
    (hset : (c.stateSet (.established t r cc ca)).connectionState.settled = true) :
    t = .closed ∧ r = .closed ∧
      ∀ p ∈ (c.stateSet (.established t r cc ca)).events.suspended, p ∈ c.dataWaiters := by
  unfold Connection.stateSet at hset ⊢
  split at hset
  · rename_i heq
    obtain ⟨rfl, rfl, rfl, rfl⟩ := ConnectionState.established.inj heq
    refine ⟨rfl, rfl, fun p hp => ?_⟩
    have hp : p ∈ ((c.entered (.established .closed .closed true true)).entered
        .timeWait).events.suspended := hp
    rw [entered_suspended, entered_suspended] at hp
    obtain ⟨hmem, hkept⟩ := List.mem_filter.mp (List.mem_filter.mp hp).1
    refine mem_dataWaiters.mpr ⟨hmem, ?_⟩
    cases hw : p.1 <;> rw [hw] at hkept <;>
      simp_all [ConnectionState.releases, ConnectionState.readClosed, WaitUntil.isRecv,
        WaitUntil.isAcknowledged]
  · rename_i heq
    obtain ⟨rfl, rfl, rfl, rfl⟩ := ConnectionState.established.inj heq
    exact ⟨rfl, rfl, by simp⟩
  · rw [entered_connectionState] at hset
    cases hset

/-- A connection whose FIN is queued, with the read side closed, ends without
waiters. -/
theorem suspended_of_stateSet (hwf : WellFormed c) (hno : c.noSenders) {t r : ChannelState}
    {cc ca : Bool} (hread : c.connectionState.readOpen = false)
    (hset : (c.stateSet (.established t r cc ca)).connectionState.settled = true) :
    (c.stateSet (.established t r cc ca)).events.suspended = [] :=
  List.eq_nil_iff_forall_not_mem.mpr fun p hp =>
    hwf.noDataWaiters hread hno p ((stateSet_settled hset).2.2 p hp)

/-- A FIN alone ends nothing. -/
theorem onFin_settled {isNew : Bool} (hc : c.onFin isNew = .ok c')
    (hset : c'.connectionState.settled = true) : c.connectionState.settled = true := by
  unfold Connection.onFin at hc
  split at hc
  case h_1 hst | h_4 hst | h_7 hst =>
    rw [hst]
    rfl
  case h_2 | h_3 =>
    obtain rfl := Fallible.pure_ok_iff.mp hc
    exact hset
  case h_5 | h_6 =>
    obtain ⟨-, -, rfl⟩ := setState_ok_iff.mp hc
    have := (stateSet_settled hset).2.1
    cases this

theorem sendAck_settled (hc : c.sendAck = .ok c') (hset : c'.connectionState.settled = true) :
    c.connectionState.settled = true := by
  rw [(sendAck_spec hc).state] at hset
  split at hset
  · unfold ConnectionState.withFin at hset
    split at hset <;> cases hset
  · exact hset

/-- The acknowledgement of our FIN, with nobody waiting for data any more. -/
theorem onFinAcked_settled (hwf : WellFormed c) (hw : Waits c) {ackn : SeqN}
    (hc : c.onFinAcked ackn = .ok c') (hset : c'.connectionState.settled = true) :
    c'.events.suspended = [] := by
  rcases onFinAcked_ok_iff.mp hc with ⟨r, cc, ca, hst, -, -, -, rfl⟩ | ⟨-, rfl⟩
  · obtain ⟨-, rfl, -⟩ := stateSet_settled hset
    have hfin := hwf.wroteFin (by rw [hst]; rfl)
    exact suspended_of_stateSet hwf (hw.senders hfin) (by rw [hst]; rfl) hset
  · exact hw.settled hset

theorem onAccepted_settled (hwf : WellFormed c) (hw : Waits c) (hs : c.Peered)
    {seg : SegmentMeta} (hc : c.onAccepted seg = .ok c')
    (hset : c'.connectionState.settled = true) :
    c.connectionState.settled = true ∨ c'.events.suspended = [] := by
  have acked {c₁ c₂ : Connection Addr Time} (h₁ : c.Takes seg c₁)
      (h₂ : c₁.onFinAcked seg.ackn = .ok c₂) (hset : c₂.connectionState.settled = true) :
      c₂.events.suspended = [] := by
    have hwf₁ := hwf.acknowledged (opened_synced hs) h₁.acknowledged
    obtain ⟨hstate, -, hqueue, -⟩ := h₁.acknowledged.frame
    have hsame : c₁.connectionState.settled = true → c.connectionState.settled = true := by
      rw [hstate]
      unfold Connection.opened
      split
      · rw [entered_connectionState]
        exact fun h => by cases h
      · exact id
    have hw₁ : Waits c₁ := by
      refine ⟨fun hfin => ?_, fun hs₁ => (Resumes.takes h₁).nil (hw.settled (hsame hs₁))⟩
      rw [hqueue] at hfin
      exact (Resumes.takes h₁).noSenders (hw.senders hfin)
    exact onFinAcked_settled hwf₁ hw₁ h₂ hset
  cases acceptedStep_of_ok hc with
  | unacknowledged _ hfin =>
      split at hfin
      · exact .inl (onFin_settled hfin hset)
      · obtain rfl := Except.ok.inj hfin
        exact .inl hset
  | invalid => exact .inl hset
  | @discarded c₁ c₂ _ _ h₁ h₂ =>
      right
      have hset₂ : c₂.connectionState.settled = true := by
        split at hset <;> exact hset
      have hnil := acked h₁ h₂ hset₂
      split <;> exact hnil
  | @stored c₁ c₂ c₃ _ rx _ _ h₁ h₂ _ _ h₃ hfin =>
      right
      have h₀ : Resumes c₂ c₃ := .from_eq (.sendAck h₃) rfl rfl
      have hnil (hset₃ : c₃.connectionState.settled = true) : c₃.events.suspended = [] := by
        have hset₂ : c₂.connectionState.settled = true :=
          sendAck_settled (c := { c₂ with rx := rx }) h₃ hset₃
        exact h₀.nil (acked h₁ h₂ hset₂)
      split at hfin
      · exact (Resumes.onFin hfin).nil (hnil (onFin_settled hfin hset))
      · obtain rfl := Except.ok.inj hfin
        exact hnil hset

theorem onSegment_settled (hwf : WellFormed c) (hw : Waits c) {seg : SegmentMeta}
    (hc : c.onSegment seg = .ok c') (hset : c'.connectionState.settled = true) :
    c.connectionState.settled = true ∨ c'.events.suspended = [] := by
  have cleared {c₁ : Connection Addr Time} (state : ConnectionState) :
      (c₁.clear.entered state).events.suspended = [] :=
    (Resumes.entered _ _).nil (clear_suspended _)
  have sync (hs : c.Peered) (hc : c.onSegmentSynchronized seg = .ok c') :
      c.connectionState.settled = true ∨ c'.events.suspended = [] := by
    cases synchronizedStep_iff.mp hc with
    | dropped => exact .inl hset
    | rejected => exact .inl hset
    | reset _ _ hrst =>
        unfold Connection.onRst at hrst
        split at hrst
        · obtain ⟨-, -, rfl⟩ := setState_ok_iff.mp hrst
          exact .inr (cleared _)
        · obtain ⟨-, -, rfl⟩ := setState_ok_iff.mp hrst
          exact .inr (cleared _)
        · cases hrst
    | syn _ _ _ hsyn =>
        obtain ⟨-, -, rfl⟩ := setState_ok_iff.mp hsyn
        exact .inr (cleared _)
    | accepted _ _ _ hacc =>
        have hw' : Waits (c.windowed seg) := ⟨hw.senders, hw.settled⟩
        have hs' : (c.windowed seg).Peered := hs
        exact onAccepted_settled (c := c.windowed seg) (hwf.windowed hs.not_idle seg) hw' hs'
          hacc hset
  unfold Connection.onSegment at hc
  split at hc
  case h_1 hst | h_2 hst =>
    left
    rw [hst]
    rfl
  case h_3 hst =>
    cases listened_of_ok hc with
    | ignored => exact .inl hset
    | refused => exact .inl hset
    | answered _ _ _ _ ha =>
        rw [ha.state] at hset
        cases hset
  case h_4 hst =>
    cases synSentStep_of_ok hc with
    | ignored => exact .inl hset
    | refused => exact .inl hset
    | reset => exact .inr (clear_suspended c)
    | waiting => exact .inl hset
    | opened _ _ _ _ _ hsend =>
        have := sendAck_settled hsend hset
        rw [entered_connectionState] at this
        cases this
  case h_5 hst | h_6 hst | h_7 hst =>
    exact sync (by simp [Peered, hst, ConnectionState.synced]) hc

omit [UserTime Time] in
/-- A call that is refused. -/
theorem EventStep.same (c : Connection Addr Time) : EventStep c none c :=
  .resumed (.refl c) .inl

omit [UserTime Time] in
/-- A call that leaves the connection cleared. -/
theorem EventStep.cleared (r : Resumes c c₁) : EventStep c none c₁.clear :=
  .resumed (r.trans (.clear c₁)) fun _ => .inr (clear_suspended c₁)

omit [UserTime Time] in
/-- A call that leaves the connection open. -/
theorem EventStep.open (r : Resumes c c') (hest : c'.connectionState.isEstablished = true) :
    EventStep c none c' :=
  .resumed r fun hset => by
    rw [ConnectionState.not_settled_of_isEstablished hest] at hset
    cases hset

theorem eventStep_callConnect {r : Except Error Unit} (hc : c.callConnect = .ok (c', r)) :
    EventStep c (Output.call r).cookie c' := by
  unfold callConnect at hc
  split at hc
  case h_1 | h_2 =>
    simp only [Fallible.bind_ok_iff, setState_ok_iff, continueAfter_ok_iff,
      stateSet_synSent] at hc
    obtain ⟨c₁, ⟨-, -, hc₁⟩, -, rfl, rfl⟩ := hc
    have h : Resumes c c₁ := hc₁ ▸ .entered c _
    have hstate : c₁.connectionState = .synSent := by rw [hc₁, entered_connectionState]
    refine .suspended (h.trans (.of_eq rfl ?_)) ?_ fun hw => by cases hw
    · simp [Connection.resumed, Connection.send, Connection.setTimerReTx]
    · change c₁.connectionState.settled = false
      rw [hstate]
      rfl
  case h_3 =>
    obtain ⟨rfl, rfl⟩ := Prod.mk.inj (Fallible.pure_ok_iff.mp hc)
    exact .same c

theorem eventStep_callSend (hwf : WellFormed c) {inputData : List UInt8} {r : Except Error Unit}
    (hc : c.callSend inputData = .ok (c', r)) : EventStep c (Output.call r).cookie c' := by
  simp only [callSend, Fallible.bind_ok_iff] at hc
  obtain ⟨_, -, hc⟩ := hc
  split at hc
  case h_1 | h_2 | h_3 | h_4 =>
    obtain ⟨rfl, rfl⟩ := Prod.mk.inj (Fallible.pure_ok_iff.mp hc)
    exact .same c
  case h_5 hst | h_6 hst =>
    simp only [Fallible.bind_ok_iff, continueAfter_ok_iff] at hc
    obtain ⟨q, hq, -, rfl, rfl⟩ := hc
    have h : Resumes c (c.withQueue q) := .of_eq rfl rfl
    refine .suspended h ?_ fun _ => ?_
    · change c.connectionState.settled = false
      rw [hst]
      rfl
    · exact (BlobQueue.writeBytes_spec hq).2.1.trans (hwf.early (by rw [hst]; rfl)).1
  case h_7 hst =>
    simp only [Fallible.bind_ok_iff] at hc
    obtain ⟨_, -, q, -, hc⟩ := hc
    have hest : (c.withQueue q).connectionState.isEstablished = true := by
      rw [withQueue_connectionState, hst]
      rfl
    split at hc
    · simp only [Fallible.bind_ok_iff, Fallible.pure_ok_iff, Prod.mk.injEq] at hc
      obtain ⟨c₁, hsend, rfl, rfl⟩ := hc
      exact .open (.from_eq (.sendAck hsend) rfl rfl) (sendAck_isEstablished hest hsend)
    · obtain ⟨rfl, rfl⟩ := Prod.mk.inj (Fallible.pure_ok_iff.mp hc)
      exact .open (.of_eq rfl rfl) hest

theorem eventStep_callRecv (hwf : WellFormed c) (hw : Waits c) {bufferLen : Nat}
    {r : Except Error (List UInt8)} (hc : c.callRecv bufferLen = .ok (c', r)) :
    EventStep c (Output.recv r).cookie c' := by
  unfold callRecv at hc
  split at hc
  case h_1 | h_2 | h_3 =>
    obtain ⟨rfl, rfl⟩ := Prod.mk.inj (Fallible.pure_ok_iff.mp hc)
    exact .same c
  case h_4 hst | h_5 hst | h_6 hst =>
    obtain ⟨-, rfl, rfl⟩ := retryAfter_ok_iff.mp hc
    exact .suspended (.refl c) (by rw [hst]; rfl) fun hw => by cases hw
  case h_7 t rx cc ca hst =>
    split at hc
    case h_1 =>
      obtain ⟨rfl, rfl⟩ := Prod.mk.inj (Fallible.pure_ok_iff.mp hc)
      exact .same c
    case h_2 =>
      split at hc
      · simp only [Fallible.bind_ok_iff, Prod.exists, Fallible.pure_ok_iff, Prod.mk.injEq] at hc
        obtain ⟨_, _, -, rfl, rfl⟩ := hc
        exact .resumed (.of_eq rfl rfl) .inl
      · obtain ⟨-, rfl, rfl⟩ := retryAfter_ok_iff.mp hc
        exact .suspended (.refl c) (by rw [hst]; rfl) fun hw => by cases hw
    case h_3 =>
      simp only [Fallible.bind_ok_iff, Prod.exists] at hc
      obtain ⟨q, data, -, hc⟩ := hc
      split at hc
      · simp only [Fallible.bind_ok_iff, setState_ok_iff, Fallible.pure_ok_iff,
          Prod.mk.injEq] at hc
        obtain ⟨_, ⟨-, -, rfl⟩, rfl, rfl⟩ := hc
        refine .resumed (.from_eq (.stateSet _ _) rfl rfl) fun hset => ?_
        -- Only a closed write side ends here, and then our FIN was queued.
        obtain ⟨rfl, -, hleft⟩ := stateSet_settled hset
        have hfin := hwf.wroteFin (by rw [hst]; rfl)
        refine .inr (List.eq_nil_iff_forall_not_mem.mpr fun p hp => ?_)
        exact hwf.noDataWaiters (by rw [hst]; rfl) (hw.senders hfin) p (hleft p hp)
      · obtain ⟨rfl, rfl⟩ := Prod.mk.inj (Fallible.pure_ok_iff.mp hc)
        exact .resumed (.of_eq rfl rfl) .inl

/-- The last step of `call_close`. -/
theorem finishClose_eventStep (r₁ : Resumes c c₁) (hwf : WellFormed c₁) (hno : c₁.noSenders)
    {closeActive : Bool} {r : Except Error Unit}
    (hc : c₁.finishClose closeActive = .ok (c', r)) : EventStep c (Output.call r).cookie c' := by
  simp only [finishClose, Fallible.bind_ok_iff, setState_ok_iff] at hc
  obtain ⟨_, ⟨-, -, rfl⟩, hc⟩ := hc
  have h := r₁.trans (.stateSet c₁
    (.established c₁.connectionState.tx c₁.connectionState.rx true closeActive))
  split at hc
  · rename_i hboth
    obtain ⟨rfl, rfl⟩ := Prod.mk.inj (Fallible.pure_ok_iff.mp hc)
    refine .resumed h fun hset => .inr (suspended_of_stateSet hwf hno ?_ hset)
    cases hs : c₁.connectionState <;>
      simp_all [ConnectionState.readOpen, ConnectionState.rx]
  · rename_i hboth
    obtain ⟨-, rfl, rfl⟩ := continueAfter_ok_iff.mp hc
    refine .suspended h ?_ fun hw => by cases hw
    by_contra hset
    obtain ⟨ht, hr, -⟩ := stateSet_settled (eq_true_of_ne_false hset)
    exact hboth ⟨ht, hr⟩

/-- The queue is marked and what it holds is sent. -/
theorem resumes_marked (hc : c.marked.sendAck = .ok c') : Resumes c c' :=
  .from_eq (.sendAck hc) rfl rfl

theorem eventStep_callShutdown {r : Except Error Unit} (hc : c.callShutdown = .ok (c', r)) :
    EventStep c (Output.call r).cookie c' := by
  unfold callShutdown at hc
  split at hc
  case h_1 | h_2 | h_3 =>
    obtain ⟨rfl, rfl⟩ := Prod.mk.inj (Fallible.pure_ok_iff.mp hc)
    exact .same c
  case h_4 | h_5 =>
    obtain ⟨rfl, rfl⟩ := Prod.mk.inj (Fallible.pure_ok_iff.mp hc)
    exact .cleared (.triggerEvent c _ _)
  case h_6 hst =>
    split at hc
    · obtain ⟨-, rfl, rfl⟩ := retryAfter_ok_iff.mp hc
      exact .suspended (.refl c) (by rw [hst]; rfl) fun hw => by cases hw
    · simp only [Fallible.bind_ok_iff, setState_ok_iff, Fallible.pure_ok_iff, Prod.mk.injEq] at hc
      obtain ⟨c₁, hsend, _, ⟨-, -, rfl⟩, rfl, rfl⟩ := hc
      refine .open ((resumes_marked hsend).trans (.stateSet c₁ _)) ?_
      rw [stateSet_eq_entered _ (.inl (by decide)), entered_connectionState]
      rfl
  case h_7 t r cc ca hst =>
    split at hc
    case h_1 | h_2 =>
      obtain ⟨rfl, rfl⟩ := Prod.mk.inj (Fallible.pure_ok_iff.mp hc)
      exact .same c
    case h_3 =>
      split at hc
      · obtain ⟨-, rfl, rfl⟩ := retryAfter_ok_iff.mp hc
        exact .suspended (.refl c) (by rw [hst]; rfl) fun hw => by cases hw
      · simp only [Fallible.bind_ok_iff, Fallible.pure_ok_iff, Prod.mk.injEq] at hc
        obtain ⟨c₁, hactive, c₂, hsend, rfl, rfl⟩ := hc
        have hfirst : Resumes c c₁ ∧ c₁.connectionState.isEstablished = true := by
          split at hactive
          · obtain ⟨-, -, rfl⟩ := setState_ok_iff.mp hactive
            refine ⟨.stateSet c _, ?_⟩
            rw [stateSet_eq_entered _ (.inl (by decide)), entered_connectionState]
            rfl
          · obtain rfl := Fallible.pure_ok_iff.mp hactive
            exact ⟨.refl c, by rw [hst]; rfl⟩
        exact .open (hfirst.1.trans (resumes_marked hsend))
          (sendAck_isEstablished (by exact hfirst.2) hsend)

theorem eventStep_callClose (hwf : WellFormed c) (hw : Waits c) {r : Except Error Unit}
    (hc : c.callClose = .ok (c', r)) : EventStep c (Output.call r).cookie c' := by
  unfold callClose at hc
  split at hc
  case h_1 | h_2 | h_3 =>
    obtain ⟨rfl, rfl⟩ := Prod.mk.inj (Fallible.pure_ok_iff.mp hc)
    exact .same c
  case h_4 | h_5 =>
    obtain ⟨rfl, rfl⟩ := Prod.mk.inj (Fallible.pure_ok_iff.mp hc)
    exact .cleared (.triggerEvent c _ _)
  case h_6 hst =>
    split at hc
    · obtain ⟨-, rfl, rfl⟩ := retryAfter_ok_iff.mp hc
      exact .suspended (.refl c) (by rw [hst]; rfl) fun hw => by cases hw
    · simp only [Fallible.bind_ok_iff, setState_ok_iff, continueAfter_ok_iff] at hc
      obtain ⟨c₁, hsend, _, ⟨-, -, rfl⟩, -, rfl, rfl⟩ := hc
      refine .suspended ((resumes_marked hsend).trans (.stateSet c₁ _)) ?_ fun hw => by cases hw
      rw [stateSet_eq_entered _ (.inl (by decide)), entered_connectionState]
      rfl
  case h_7 t r cc ca hst =>
    dsimp only at hc
    split at hc
    case h_1 =>
      split at hc
      · obtain ⟨-, rfl, rfl⟩ := retryAfter_ok_iff.mp hc
        exact .suspended (.refl c) (by rw [hst]; rfl) fun hw => by cases hw
      · rename_i hbusy
        obtain ⟨hempty, hno⟩ := queue_clear hbusy
        have hsync : c.connectionState.synced = true := by rw [hst]; rfl
        simp only [Fallible.bind_ok_iff] at hc
        obtain ⟨c₁, hsend, hc⟩ := hc
        have hr := resumes_marked hsend
        exact finishClose_eventStep hr ((hwf.withMark hsync hempty).sendAck hsync hsend)
          (hr.noSenders hno) hc
    case h_2 | h_3 =>
      have hfin := hwf.wroteFin (by rw [hst]; rfl)
      exact finishClose_eventStep (.refl c) hwf (hw.senders hfin) hc

omit [UserTime Time] in
theorem eventStep_callAbort {r : Except Error Unit} (hc : c.callAbort = .ok (c', r)) :
    EventStep c (Output.call r).cookie c' := by
  unfold callAbort at hc
  split at hc
  case h_1 | h_2 =>
    obtain ⟨rfl, rfl⟩ := Prod.mk.inj (Fallible.pure_ok_iff.mp hc)
    exact .same c
  case h_3 | h_4 =>
    obtain ⟨rfl, rfl⟩ := Prod.mk.inj (Fallible.pure_ok_iff.mp hc)
    exact .cleared (.triggerEvent c _ _)
  case h_5 | h_6 =>
    obtain ⟨rfl, rfl⟩ := Prod.mk.inj (Fallible.pure_ok_iff.mp hc)
    exact .cleared ((Resumes.send c _).trans (.triggerEvent _ _ _))
  case h_7 =>
    obtain ⟨rfl, rfl⟩ := Prod.mk.inj (Fallible.pure_ok_iff.mp hc)
    exact .cleared (.refl c)

/-- What an operation does to the suspended calls. -/
theorem eventStep (hwf : WellFormed c) (hw : Waits c) {op : Op Time} {out : Output}
    (hc : c.step op = .ok (c', out)) : EventStep c out.cookie c' := by
  cases opStep_of_ok hc with
  | callConnect hc => exact eventStep_callConnect hc
  | callSend hc => exact eventStep_callSend hwf hc
  | callRecv hc => exact eventStep_callRecv hwf hw hc
  | callShutdown hc => exact eventStep_callShutdown hc
  | callClose hc => exact eventStep_callClose hwf hw hc
  | callAbort hc => exact eventStep_callAbort hc
  | setOptions => exact .resumed (.of_eq rfl rfl) .inl
  | onSegment hc => exact .resumed (.onSegment hc) (onSegment_settled hwf hw hc)
  | onTimeTick hc =>
      refine .resumed (.onTimeTick hc) fun hset => ?_
      cases tickStep_of_ok hc with
      | kept hstate => exact .inl (hstate ▸ hset)
      | cleared => exact .inr (clear_suspended _)

theorem Waits.step (hw : Waits c) (hwf : WellFormed c) {op : Op Time} {out : Output}
    (hc : c.step op = .ok (c', out)) : Waits c' :=
  (eventStep hwf hw hc).waits hw ((hwf.txEffect hc).marks hwf)

theorem Initial.events (h : Initial c) : c.events = .new := by
  rcases h with ⟨remote, userData, rfl⟩ | ⟨l, addr, userData, h⟩
  · rfl
  · rw [acceptor_eq] at h
    obtain rfl := Except.ok.inj h
    rfl

theorem Initial.waits (h : Initial c) : Waits c := by
  refine ⟨fun _ => ?_, fun _ => ?_⟩
  · rw [Connection.noSenders, Initial.events h]
    rfl
  · rw [Initial.events h]
    rfl

end Connection

/-- The cookies a run has returned and resumed, oldest first. -/
structure CookieLog where
  returned : List Cookie
  resumed : List Cookie

namespace CookieLog

open Connection

variable {Addr Time : Type} {c c' : Connection Addr Time} {n : CookieLog}

def watch (Addr Time : Type) : Watch Addr Time CookieLog where
  start := ⟨[], []⟩
  note n c _ out c' :=
    ⟨n.returned ++ out.cookie.toList, n.resumed ++ c'.resumed.drop c.resumed.length⟩

/-- The cookies count up, and each is either suspended or resumed. -/
structure Accounts (c : Connection Addr Time) (n : CookieLog) : Prop where
  returned : n.returned = List.range c.events.nextCookie
  perm : (n.resumed ++ c.pending).Perm n.returned

/-- What a step resumes is taken from the suspended cookies. -/
theorem Accounts.resumes (h : Accounts c n) (r : Resumes c c') :
    (n.resumed ++ c'.resumed.drop c.resumed.length ++ c'.pending).Perm n.returned := by
  obtain ⟨new, hnew, hperm⟩ := r.resumed
  rw [hnew, List.drop_left, List.append_assoc]
  exact (hperm.append_left n.resumed).trans h.perm

theorem Accounts.step (h : Accounts c n) {out : Output} (hstep : EventStep c out.cookie c') :
    Accounts c' ⟨n.returned ++ out.cookie.toList,
      n.resumed ++ c'.resumed.drop c.resumed.length⟩ := by
  generalize out.cookie = k at hstep
  cases hstep with
  | resumed r =>
      refine ⟨?_, ?_⟩
      · rw [r.counter, ← h.returned]
        exact List.append_nil _
      · rw [Option.toList_none, List.append_nil]
        exact h.resumes r
  | @suspended c₀ w r =>
      have hcounter : n.returned = List.range c₀.events.nextCookie := by
        rw [h.returned, r.counter]
      refine ⟨?_, ?_⟩
      · change n.returned ++ [c₀.events.nextCookie] = List.range (c₀.events.nextCookie + 1)
        rw [hcounter, List.range_succ]
      · have hpending : (c₀.suspend w).pending = c₀.pending ++ [c₀.events.nextCookie] := by
          simp [pending, suspend]
        rw [hpending, ← List.append_assoc]
        exact (h.resumes r).append_right _

/-- The cookies a step resumes are suspended ones. -/
theorem Accounts.new (h : Accounts c n) {k : Option Cookie} (hstep : EventStep c k c') :
    ∃ new, c'.resumed = c.resumed ++ new ∧ (n.resumed ++ new).Nodup ∧
      ∀ k ∈ new, k ∈ n.returned := by
  have of_resumes {c₀ : Connection Addr Time} (r : Resumes c c₀) :
      ∃ new, c₀.resumed = c.resumed ++ new ∧ (n.resumed ++ new).Nodup ∧
        ∀ k ∈ new, k ∈ n.returned := by
    obtain ⟨new, hnew, -⟩ := r.resumed
    have hperm := h.resumes r
    rw [hnew, List.drop_left] at hperm
    refine ⟨new, hnew, ?_, fun k hk => ?_⟩
    · refine List.Nodup.of_append_left (hperm.nodup_iff.mpr ?_)
      rw [h.returned]
      exact List.nodup_range
    · exact hperm.subset (List.mem_append_left _ (List.mem_append_right _ hk))
  cases hstep with
  | resumed r => exact of_resumes r
  | suspended r =>
      obtain ⟨new, hnew, hrest⟩ := of_resumes r
      exact ⟨new, hnew, hrest⟩

variable [UserTime Time]

theorem accounts_of_reachable (h : (watch Addr Time).Reachable c n) : Accounts c n ∧ Waits c := by
  refine h.invariant (P := fun c n => Accounts c n ∧ Waits c) ?_ ?_
  · intro c hinit
    refine ⟨⟨?_, ?_⟩, Initial.waits hinit⟩
    · rw [Initial.events hinit]
      rfl
    · rw [pending, Initial.events hinit]
      exact .refl _
  · rintro c n op out c' hreach ⟨hacc, hw⟩ hc
    have hwf := Reachable.wellFormed hreach
    exact ⟨hacc.step (eventStep hwf hw hc), hw.step hwf hc⟩

/-- No cookie is returned twice; what is resumed was returned before and is
resumed once; and in TimeWait, Closed and Reset every cookie has been resumed. -/
theorem resumed_once (h : (watch Addr Time).Reachable c n) :
    n.returned.Nodup ∧ n.resumed.Nodup ∧ (∀ k ∈ n.resumed, k ∈ n.returned) ∧
    (c.connectionState.settled = true →
      c.events.suspended = [] ∧ ∀ k ∈ n.returned, k ∈ n.resumed) ∧
    ∀ op out c', c.step op = .ok (c', out) → (∀ k ∈ out.cookie, k ∉ n.returned) ∧
      ∃ new, c'.resumed = c.resumed ++ new ∧ (n.resumed ++ new).Nodup ∧
        ∀ k ∈ new, k ∈ n.returned := by
  obtain ⟨hacc, hw⟩ := accounts_of_reachable h
  have hnodup : n.returned.Nodup := hacc.returned ▸ List.nodup_range
  have hall := hacc.perm.nodup_iff.mpr hnodup
  refine ⟨hnodup, hall.of_append_left, fun k hk => ?_, fun hset => ?_, fun op out c' hc => ?_⟩
  · exact hacc.perm.subset (List.mem_append_left _ hk)
  · have hnil := hw.settled hset
    refine ⟨hnil, fun k hk => ?_⟩
    have := hacc.perm.mem_iff.mpr hk
    rwa [pending, hnil, List.map_nil, List.append_nil] at this
  · have hstep := eventStep (Reachable.wellFormed h.conn) hw hc
    refine ⟨fun k hk => ?_, hacc.new hstep⟩
    have hcount : n.returned ++ out.cookie.toList = List.range c'.events.nextCookie :=
      (hacc.step hstep).returned
    have hnext : (n.returned ++ out.cookie.toList).Nodup := hcount ▸ List.nodup_range
    exact fun hmem => List.disjoint_of_nodup_append hnext hmem (Option.mem_toList.mpr hk)

/-- A call waits in Listen, one for data and one for the close; the run ends in
TimeWait. -/
theorem resumed_once_timeWait : ∃ (c : Connection Unit Nat) (n : CookieLog),
    c.connectionState = .timeWait ∧ n.returned = [0, 1, 2] ∧
    n.returned.Nodup ∧ n.resumed.Nodup ∧ c.events.suspended = [] ∧
    ∀ k ∈ n.returned, k ∈ n.resumed := by
  obtain ⟨⟨c, n⟩, hreach, hst, hreturned⟩ : ∃ s : Connection Unit Nat × CookieLog,
      Transition.Reachable (watch Unit Nat).system s ∧ s.1.connectionState = .timeWait ∧
        s.2.returned = [0, 1, 2] :=
    Transition.exists_reachableUnder (watch Unit Nat).step_of_next
      ((watch Unit Nat).init_start (initial_listening () .default zeroUser))
      [.callRecv 1, .onSegment ⟨100#32, 0#32, 1000#16, .syn, []⟩,
       .onSegment ⟨101#32, 1#32, 1000#16, .ack, []⟩, .callRecv 1, .callClose,
       .onSegment ⟨101#32, 2#32, 1000#16, .ack, []⟩,
       .onSegment ⟨101#32, 2#32, 1000#16, .fin ||| .ack, []⟩, .callRecv 1] (by decide)
  obtain ⟨hnodup, honce, -, hsettled, -⟩ := resumed_once hreach
  obtain ⟨hnil, hall⟩ := hsettled (by rw [hst]; rfl)
  exact ⟨c, n, hst, hreturned, hnodup, honce, hnil, hall⟩

end CookieLog

end TcpState
