import TcpState.Connection.Handshake

/-!
# What an operation does to the receive side

Every operation changes the receive buffer in at most one way. `RxEffect`
names the way, together with the receive state and the suspended readers
after it.
-/

namespace TcpState

namespace Output

/-- The bytes a call handed to the application. -/
def data : Output → List UInt8
  | .recv (.ok data) => data
  | _ => []

theorem none_ne_recv (data : List UInt8) : Output.none ≠ .recv (.ok data) := nofun

theorem call_ne_recv (r : Except Error Unit) (data : List UInt8) :
    Output.call r ≠ .recv (.ok data) := nofun

theorem error_ne_recv (e : Error) (data : List UInt8) :
    Output.recv (.error e) ≠ .recv (.ok data) := nofun

end Output

namespace Connection

variable {Addr Time : Type}

/-- The segment is acceptable, acknowledges and is next in order. -/
structure Stores (c : Connection Addr Time) (seg : SegmentMeta) : Prop where
  check : c.checkSegmentSeqOk seg = true
  noRst : seg.hasRst = false
  noSyn : seg.hasSyn = false
  ack : seg.hasAck = true
  range : seg.ackn.inRangeInclusive c.tx.unack c.tx.next = true
  inOrder : seg.seqn = c.rx.ackd

/-- Every reader suspended after the step was suspended before it. -/
def ReadersFrom (c c' : Connection Addr Time) : Prop :=
  ∀ p ∈ c'.dataWaiters, p.1.isRecv = true → p ∈ c.dataWaiters

def NoReaders (c : Connection Addr Time) : Prop := ∀ p ∈ c.dataWaiters, p.1.isRecv = false

/-- The step stays in one state, or among the states with a peer without
touching the receive state. -/
def RxStateKept (c c' : Connection Addr Time) : Prop :=
  c'.connectionState = c.connectionState ∨
    Peered c ∧ Peered c' ∧ c'.connectionState.rx = c.connectionState.rx

/-- The ways an operation affects the receive side. -/
inductive RxEffect (c : Connection Addr Time) : Op Time → Output → Connection Addr Time → Prop
  | kept {op : Op Time} {out : Output} {c' : Connection Addr Time}
      (hout : ∀ data, out ≠ .recv (.ok data)) (hrx : c'.rx = c.rx) (hstate : RxStateKept c c')
      (hreaders : ReadersFrom c c') : RxEffect c op out c'
  | cleared {op : Op Time} {out : Output} {c' : Connection Addr Time}
      (hout : ∀ data, out ≠ .recv (.ok data)) (hidle : c'.connectionState.idle = true)
      (hrx : c'.rx = .default) (hreaders : NoReaders c') : RxEffect c op out c'
  | connecting {out : Output} {c' : Connection Addr Time}
      (hout : ∀ data, out ≠ .recv (.ok data)) (hidle : c.connectionState.idle = true)
      (hstate : c'.connectionState = .synSent) (hrx : c'.rx = c.rx)
      (hreaders : ReadersFrom c c') : RxEffect c .callConnect out c'
  | answered {seg : SegmentMeta} {c' : Connection Addr Time}
      (hst : c.connectionState = .listen) (hrst : seg.hasRst = false) (hsyn : seg.hasSyn = true)
      (hstate : c'.connectionState = .synReceived) (hrx : c'.rx = c.rx.init seg.seqn)
      (hreaders : ReadersFrom c c') : RxEffect c (.onSegment seg) .none c'
  | synAcked {seg : SegmentMeta} {c' : Connection Addr Time}
      (hst : c.connectionState = .synSent) (hrst : seg.hasRst = false)
      (hack : seg.hasAck = true) (hsyn : seg.hasSyn = true)
      (hrange : seg.ackn.inRangeInclusive c.tx.unack c.tx.next = true)
      (hstate : c'.connectionState = .synSent ∧ seg.ackn ≠ c.tx.initSeqn + 1#32 ∨
        c'.connectionState.isEstablished = true ∧ c'.connectionState.rx = .opened)
      (hrx : c'.rx = c.rx.init seg.seqn)
      (hreaders : ReadersFrom c c') : RxEffect c (.onSegment seg) .none c'
  | stored {seg : SegmentMeta} {c' : Connection Addr Time} (hpeer : Peered c)
      (hs : c.Stores seg) (hrx : c.rx.write seg = .ok c'.rx) (hpeer' : Peered c')
      (hstate : c'.connectionState.rx =
        if seg.hasFin then .fin else c.connectionState.rx)
      (hreaders : ReadersFrom c c') (hwake : seg.hasFin = true → NoReaders c') :
      RxEffect c (.onSegment seg) .none c'
  | finOnly {seg : SegmentMeta} {c' : Connection Addr Time} (hpeer : Peered c)
      (hcheck : c.checkSegmentSeqOk seg = true) (hrst : seg.hasRst = false)
      (hsyn : seg.hasSyn = false) (hack : seg.hasAck = false) (hfin : seg.hasFin = true)
      (hwait : c.connectionState ≠ .timeWait) (hopen : c.connectionState.rx ≠ .closed)
      (hrx : c'.rx = c.rx) (hpeer' : Peered c') (hstate : c'.connectionState.rx = .fin)
      (hreaders : NoReaders c') : RxEffect c (.onSegment seg) .none c'
  | waiting {bufferLen : Nat} {r : Except Error (List UInt8)}
      (hst : c.connectionState.readOpen = true) (hlen : c.rx.availableBytes < bufferLen)
      (hr : ∀ data, r ≠ .ok data) :
      RxEffect c (.callRecv bufferLen) (.recv r)
        (c.suspend (.recv (BitVec.ofNat 32 bufferLen)))
  | ended {bufferLen : Nat} (hst : c.connectionState.isEstablished = true)
      (hrx : c.connectionState.rx = .closed) :
      RxEffect c (.callRecv bufferLen) (.recv (.ok [])) c
  | read {bufferLen : Nat} {data : List UInt8} {rx : RxBuffer} {c' : Connection Addr Time}
      (hst : c.connectionState.isEstablished = true)
      (hread : c.rx.readBytes bufferLen = .ok (rx, data))
      (hlen : bufferLen ≤ data.length) (hstate : c'.connectionState = c.connectionState)
      (hrx : c'.rx = rx) (hreaders : ReadersFrom c c') :
      RxEffect c (.callRecv bufferLen) (.recv (.ok data)) c'
  | drained {bufferLen : Nat} {data : List UInt8} {rx : RxBuffer} {c' : Connection Addr Time}
      (hst : c.connectionState.isEstablished = true) (hfin : c.connectionState.rx = .fin)
      (hread : c.rx.readBytes bufferLen = .ok (rx, data)) (hlen : data.length < bufferLen)
      (hstate : Peered c' ∧ c'.connectionState.rx = .closed ∧ c'.rx = rx ∨
        c'.connectionState.idle = true ∧ c'.rx = .default)
      (hreaders : ReadersFrom c c') :
      RxEffect c (.callRecv bufferLen) (.recv (.ok data)) c'

variable {c c' : Connection Addr Time} {seg : SegmentMeta}

theorem ReadersFrom.of_eq (h : c'.dataWaiters = c.dataWaiters) : ReadersFrom c c' :=
  fun _ hp _ => h ▸ hp

theorem ReadersFrom.trans {c'' : Connection Addr Time} (h : ReadersFrom c c')
    (h' : ReadersFrom c' c'') : ReadersFrom c c'' :=
  fun p hp hr => h p (h' p hp hr) hr

theorem ReadersFrom.suspend {w : WaitUntil} (hw : w.isRecv = false) :
    ReadersFrom c (c.suspend w) := by
  intro p hp hr
  rw [dataWaiters_suspend, List.mem_append] at hp
  rcases hp with hp | hp
  · exact hp
  · split at hp
    · rw [List.mem_singleton.mp hp, hw] at hr
      cases hr
    · cases hp

theorem NoReaders.of_nil (h : c.dataWaiters = []) : NoReaders c := by
  intro p hp
  rw [h] at hp
  cases hp

theorem noReaders_clear (c : Connection Addr Time) : NoReaders c.clear :=
  .of_nil (dataWaiters_clear c)

/-- Waking every reader leaves none. -/
theorem noReaders_triggerEvent {f : WaitUntil → Bool} {r : Except Error Unit}
    (hf : ∀ w : WaitUntil, w.isRecv = true → f w = true) : NoReaders (c.triggerEvent f r) := by
  intro p hp
  by_contra hr
  have hsusp := (mem_dataWaiters.mp hp).1
  rw [triggerEvent_suspended, List.mem_filter, hf p.1 (by simpa using hr)] at hsusp
  simp at hsusp

theorem NoReaders.of_eq (h : NoReaders c) (hw : c'.dataWaiters = c.dataWaiters) :
    NoReaders c' := by
  rw [NoReaders, hw]
  exact h

theorem readClosed_of_rx (hs : Peered c) (hrx : c.connectionState.rx = .closed) :
    c.connectionState.readClosed = true := by
  cases hst : c.connectionState with
  | established t r cc ca =>
      rw [hst] at hrx
      obtain rfl : r = .closed := hrx
      rfl
  | timeWait => rfl
  | synReceived => rw [hst] at hrx; cases hrx
  | _ => rcases hs with hs | hs <;> rw [hst] at hs <;> cases hs

variable [UserTime Time]

/-- Entering an open state touches the receive side only by clearing it. -/
theorem stateSet_rx (c : Connection Addr Time) (t r : ChannelState) (cc ca : Bool) :
    (Peered (c.stateSet (.established t r cc ca)) ∧
      (c.stateSet (.established t r cc ca)).connectionState.rx = r ∧
      (c.stateSet (.established t r cc ca)).rx = c.rx ∧
      (c.stateSet (.established t r cc ca)).dataWaiters = c.dataWaiters) ∨
    ((c.stateSet (.established t r cc ca)).connectionState.idle = true ∧
      (c.stateSet (.established t r cc ca)).rx = .default ∧
      (c.stateSet (.established t r cc ca)).dataWaiters = []) := by
  unfold stateSet
  split
  · rename_i heq
    obtain ⟨rfl, rfl, rfl, rfl⟩ := ConnectionState.established.inj heq
    refine .inl ⟨.inl rfl, rfl, by simp, ?_⟩
    exact (dataWaiters_congr (setTimerTimewait_events _ _)).trans
      ((dataWaiters_entered _ _).trans (dataWaiters_entered c _))
  · exact .inr ⟨rfl, rfl, dataWaiters_clear _⟩
  · exact .inl ⟨.inl (by simp [ConnectionState.synced]), by simp [ConnectionState.rx], by simp,
      by simp⟩

omit [UserTime Time] in
/-- Sending does not touch the receive side. -/
theorem AckSent.rxState (a : AckSent c c') (hs : Peered c) :
    Peered c' ∧ c'.connectionState.rx = c.connectionState.rx := by
  unfold Peered
  rw [a.state]
  cases hfin : c.sendsFin with
  | false => exact ⟨hs, rfl⟩
  | true =>
      have hwrote := (sendsFin_iff.mp hfin).2.2
      cases hst : c.connectionState with
      | established t r cc ca => exact ⟨.inl rfl, rfl⟩
      | synReceived => exact ⟨.inl rfl, rfl⟩
      | timeWait => rw [hst] at hwrote; cases hwrote
      | _ => rcases hs with hs | hs <;> rw [hst] at hs <;> cases hs

omit [UserTime Time] in
theorem Acknowledged.readers {c₁ : Connection Addr Time} (h : Acknowledged c seg c₁) :
    ReadersFrom c c₁ := by
  cases h with
  | repeated => exact .of_eq (opened_dataWaiters c)
  | new _ hc =>
      intro p hp _
      rw [hc.waiters, opened_dataWaiters] at hp
      exact (List.mem_filter.mp hp).1

omit [UserTime Time] in
theorem opened_rxState (hs : Peered c) :
    Peered c.opened ∧ c.opened.connectionState.rx = c.connectionState.rx := by
  refine ⟨.inl (opened_synced hs), ?_⟩
  rw [opened_connectionState]
  split
  · rename_i hst
    rw [hst]
    rfl
  · rfl

/-- The ACK of our FIN leaves the receive side alone, or clears everything. -/
theorem onFinAcked_rx {ackn : SeqN} (hs : Peered c) (hc : c.onFinAcked ackn = .ok c') :
    (Peered c' ∧ c'.connectionState.rx = c.connectionState.rx ∧ c'.rx = c.rx ∧
      c'.dataWaiters = c.dataWaiters) ∨ ∃ c₀ : Connection Addr Time, c' = c₀.clear := by
  rcases onFinAcked_ok_iff.mp hc with ⟨r, cc, ca, hst, -, -, -, rfl⟩ | ⟨-, rfl⟩
  · by_cases hclear : r = .closed ∧ cc = true ∧ ca = false
    · obtain ⟨rfl, rfl, rfl⟩ := hclear
      exact .inr ⟨_, rfl⟩
    · left
      obtain ⟨-, hsync, -⟩ := stateSet_finAcked c hclear
      rcases stateSet_rx c .closed r cc ca with ⟨h₁, h₂, h₃, h₄⟩ | ⟨hidle, -⟩
      · exact ⟨h₁, by rw [h₂, hst]; rfl, h₃, h₄⟩
      · cases hst' : (c.stateSet (.established .closed r cc ca)).connectionState <;>
          simp_all [ConnectionState.idle, ConnectionState.synced]
  · exact .inl ⟨hs, rfl, rfl, rfl⟩

/-- A FIN closes the receive state of an open connection and wakes every
reader; in TimeWait it changes nothing the receive side has. -/
theorem onFin_rx (hs : Peered c) {isNew : Bool} (hc : c.onFin isNew = .ok c') :
    Peered c' ∧ c'.rx = c.rx ∧ ReadersFrom c c' ∧
      (c.connectionState = .timeWait ∧ c'.connectionState = .timeWait ∨
        c.connectionState ≠ .timeWait ∧ c.connectionState.rx ≠ .closed ∧
          c'.connectionState.rx = .fin ∧ NoReaders c') := by
  have hfrom (f : WaitUntil → Bool) (r : Except Error Unit) :
      ReadersFrom c (c.triggerEvent f r) := by
    intro p hp hr
    have hmem := mem_dataWaiters.mp hp
    exact mem_dataWaiters.mpr ⟨(List.mem_filter.mp hmem.1).1, .inl hr⟩
  unfold onFin at hc
  split at hc
  case h_1 hst | h_2 hst | h_3 hst | h_7 hst =>
    rcases hs with hs | hs <;> rw [hst] at hs <;> cases hs
  case h_4 hst =>
    split at hc
    · obtain rfl := Fallible.pure_ok_iff.mp hc
      refine ⟨.inl ?_, rfl, ?_, .inl ⟨hst, hst⟩⟩
      · simp [hst, ConnectionState.synced]
      · exact (hfrom (fun _ => true) (.error .connectionClosing)).trans
          (.of_eq (dataWaiters_congr rfl))
    · obtain rfl := Fallible.pure_ok_iff.mp hc
      exact ⟨hs, rfl, .of_eq rfl, .inl ⟨hst, hst⟩⟩
  case h_5 hst =>
    obtain ⟨-, -, rfl⟩ := setState_ok_iff.mp hc
    rw [stateSet_eq_entered _ (.inl (by decide))]
    refine ⟨.inl (by simp [ConnectionState.synced]), by simp,
      (hfrom _ _).trans (.of_eq (dataWaiters_entered _ _)), .inr ⟨by simp [hst], by simp [hst,
        ConnectionState.rx], by simp [ConnectionState.rx], ?_⟩⟩
    exact (noReaders_triggerEvent fun _ h => h).of_eq (dataWaiters_entered _ _)
  case h_6 t r cc ca hst =>
    obtain ⟨hv, -, rfl⟩ := setState_ok_iff.mp hc
    rw [triggerEvent_connectionState, hst] at hv
    rw [stateSet_eq_entered _ (.inr (.inl (by decide)))]
    refine ⟨.inl (by simp [ConnectionState.synced]), by simp,
      (hfrom _ _).trans (.of_eq (dataWaiters_entered _ _)), .inr ⟨by simp [hst], ?_,
        by simp [ConnectionState.rx], ?_⟩⟩
    · rw [hst]
      rintro rfl
      exact absurd hv.2.1 (by decide)
    · exact (noReaders_triggerEvent fun _ h => h).of_eq (dataWaiters_entered _ _)

omit [UserTime Time] in
/-- The window update comes before all of it and is not seen by it. -/
theorem RxEffect.of_windowed {out : Output}
    (h : RxEffect (c.windowed seg) (.onSegment seg) out c') :
    RxEffect c (.onSegment seg) out c' := by
  cases h with
  | kept hout hrx hstate hreaders => exact .kept hout hrx hstate hreaders
  | cleared hout hidle hrx hreaders => exact .cleared hout hidle hrx hreaders
  | answered hst hrst hsyn hstate hrx hreaders =>
      exact .answered hst hrst hsyn hstate hrx hreaders
  | synAcked hst hrst hack hsyn hrange hstate hrx hreaders =>
      exact .synAcked hst hrst hack hsyn hrange hstate hrx hreaders
  | stored hpeer hs hrx hpeer' hstate hreaders hwake =>
      exact .stored hpeer ⟨hs.check, hs.noRst, hs.noSyn, hs.ack, hs.range, hs.inOrder⟩ hrx
        hpeer' hstate hreaders hwake
  | finOnly hpeer hcheck hrst hsyn hack hfin hwait hopen hrx hpeer' hstate hreaders =>
      exact .finOnly hpeer hcheck hrst hsyn hack hfin hwait hopen hrx hpeer' hstate hreaders

namespace WellFormed

/-- An acceptable segment. -/
theorem rxEffect_onAccepted (h : WellFormed c) (hs : Peered c)
    (hcheck : c.checkSegmentSeqOk seg = true) (hrst : seg.hasRst = false)
    (hsyn : seg.hasSyn = false) (hc : c.onAccepted seg = .ok c') :
    RxEffect c (.onSegment seg) .none c' := by
  simp only [Connection.onAccepted, Fallible.bind_ok_iff, Prod.exists] at hc
  obtain ⟨c₃, proceed, hack, hfin⟩ := hc
  split at hack
  · rename_i hflag
    rcases onAck_ok_iff.mp hack with ⟨hrange, c₁, c₂, h₁, h₂, h₃⟩ | ⟨-, rfl, rfl⟩
    · have hacked := acknowledged_of_ok h₁
      obtain ⟨hstate₁, hrx₁, -⟩ := hacked.frame
      have hopen := opened_rxState hs
      have hs₁ : Peered c₁ := by
        unfold Peered
        rw [hstate₁]
        exact hopen.1
      have hwf₂ := (h.acknowledged (opened_synced hs) hacked).onFinAcked h₂
      rcases onFinAcked_rx hs₁ h₂ with ⟨hs₂, hstate₂, hrx₂, hw₂⟩ | ⟨c₀, rfl⟩
      · have hread₂ : ReadersFrom c c₂ := hacked.readers.trans (.of_eq hw₂)
        have hrxState : c₂.connectionState.rx = c.connectionState.rx := by
          rw [hstate₂, hstate₁, hopen.2]
        rw [hrx₁] at hrx₂
        rcases storeData_ok_iff.mp h₃ with ⟨hseq, rfl, rx, hrx, hsend⟩ | ⟨-, rfl, rfl⟩
        · have a := sendAck_spec hsend
          have hst₃ := AckSent.rxState a hs₂
          rw [hrx₂] at hrx hseq
          have hs₃ : c.Stores seg := ⟨hcheck, hrst, hsyn, hflag, hrange, hseq⟩
          have hread₃ : ReadersFrom c c₃ := hread₂.trans (.of_eq a.waiters)
          split at hfin
          · rename_i hseg
            have hseg : seg.hasFin = true := by simpa using hseg
            obtain ⟨hs', hrx', hread', hcase⟩ := onFin_rx hst₃.1 hfin
            rcases hcase with ⟨htw, -⟩ | ⟨-, -, hstate', hno⟩
            · -- In TimeWait the FIN has been stored before.
              exfalso
              have hclosed : c₂.connectionState.readClosed = true := by
                refine readClosed_of_rx hs₂ (hst₃.2.symm.trans ?_)
                rw [htw]
                rfl
              have hmark := hwf₂.readClosed hclosed
              rw [hrx₂] at hmark
              have hw := (RxBuffer.write_succeeds_iff.mp ⟨rx, hrx⟩).1 hseg
              rw [hmark] at hw
              cases hw.1
            · refine .stored hs hs₃ ?_ hs' ?_ (hread₃.trans hread') fun _ => hno
              · rw [hrx', a.rx]
                exact hrx
              · rw [hstate', if_pos hseg]
          · rename_i hseg
            obtain rfl := Fallible.pure_ok_iff.mp hfin
            have hseg : seg.hasFin = false := by simpa using hseg
            refine .stored hs hs₃ ?_ hst₃.1 ?_ hread₃ ?_
            · rw [a.rx]
              exact hrx
            · rw [hst₃.2, hseg]
              exact hrxState
            · rw [hseg]
              exact fun h => absurd h Bool.false_ne_true
        · obtain rfl := Fallible.pure_ok_iff.mp hfin
          split
          · exact .kept Output.none_ne_recv hrx₂ (.inr ⟨hs, hs₂, hrxState⟩)
              (hread₂.trans (.of_eq (dataWaiters_congr rfl)))
          · exact .kept Output.none_ne_recv hrx₂ (.inr ⟨hs, hs₂, hrxState⟩) hread₂
      · obtain ⟨rfl, -, rfl | rfl⟩ := storeData_clear h₃
        · obtain rfl := Fallible.pure_ok_iff.mp hfin
          exact .cleared Output.none_ne_recv rfl rfl (noReaders_clear c₀)
        · obtain rfl := Fallible.pure_ok_iff.mp hfin
          exact .cleared Output.none_ne_recv rfl rfl
            ((noReaders_clear c₀).of_eq (dataWaiters_congr rfl))
    · obtain rfl := Fallible.pure_ok_iff.mp hfin
      exact .kept Output.none_ne_recv rfl (.inl rfl) (.of_eq rfl)
  · rename_i hflag
    obtain ⟨rfl, rfl⟩ := Prod.mk.inj (Fallible.pure_ok_iff.mp hack)
    split at hfin
    · rename_i hseg
      obtain ⟨hs', hrx', hread', hcase⟩ := onFin_rx hs hfin
      rcases hcase with ⟨htw, htw'⟩ | ⟨hntw, hopen, hstate', hno⟩
      · exact .kept Output.none_ne_recv hrx' (.inl (htw'.trans htw.symm)) hread'
      · exact .finOnly hs hcheck hrst hsyn (by simpa using hflag) (by simpa using hseg) hntw hopen
          hrx' hs' hstate' hno
    · obtain rfl := Fallible.pure_ok_iff.mp hfin
      exact .kept Output.none_ne_recv rfl (.inl rfl) (.of_eq rfl)

theorem rxEffect_onSegment (h : WellFormed c) (hc : c.onSegment seg = .ok c') :
    RxEffect c (.onSegment seg) .none c' := by
  unfold Connection.onSegment at hc
  have sync (hs : Peered c) (hc : c.onSegmentSynchronized seg = .ok c') :
      RxEffect c (.onSegment seg) .none c' := by
    cases synchronizedStep_iff.mp hc with
    | dropped => exact .kept Output.none_ne_recv rfl (.inl rfl) (.of_eq rfl)
    | rejected => exact .kept Output.none_ne_recv rfl (.inl rfl) (.of_eq (dataWaiters_congr rfl))
    | reset _ _ hrst =>
        have hwiped := onRst_spec hrst
        exact .cleared Output.none_ne_recv hwiped.idle hwiped.rx (.of_nil hwiped.waiters)
    | syn _ _ _ hsyn =>
        have hwiped := onSyn_spec hsyn
        exact .cleared Output.none_ne_recv hwiped.idle hwiped.rx (.of_nil hwiped.waiters)
    | accepted hcheck hrst hsyn hacc =>
        have hwindowed := h.windowed hs.not_idle seg
        exact (hwindowed.rxEffect_onAccepted hs hcheck hrst hsyn hacc).of_windowed
  split at hc
  case h_1 hst | h_2 hst =>
    simp only [Fallible.bind_ok_iff] at hc
    obtain ⟨resp, -, hc⟩ := hc
    cases resp with
    | none =>
        obtain rfl := Fallible.pure_ok_iff.mp hc
        exact .kept Output.none_ne_recv rfl (.inl rfl) (.of_eq rfl)
    | some resp =>
        obtain rfl := Fallible.pure_ok_iff.mp hc
        exact .kept Output.none_ne_recv rfl (.inl rfl) (.of_eq (dataWaiters_congr rfl))
  case h_3 hst =>
    cases listened_of_ok hc with
    | ignored => exact .kept Output.none_ne_recv rfl (.inl rfl) (.of_eq rfl)
    | refused => exact .kept Output.none_ne_recv rfl (.inl rfl) (.of_eq (dataWaiters_congr rfl))
    | answered hrst _ hsyn _ ha => exact .answered hst hrst hsyn ha.state ha.rx (.of_eq ha.waiters)
  case h_4 hst =>
    have hfrom : ReadersFrom c (c.synAcked seg) := fun p hp hr =>
      have hmem := mem_dataWaiters.mp hp
      mem_dataWaiters.mpr ⟨(List.mem_filter.mp hmem.1).1, .inl hr⟩
    cases synSentStep_of_ok hc with
    | ignored => exact .kept Output.none_ne_recv rfl (.inl rfl) (.of_eq rfl)
    | refused => exact .kept Output.none_ne_recv rfl (.inl rfl) (.of_eq (dataWaiters_congr rfl))
    | reset => exact .cleared Output.none_ne_recv rfl rfl (.of_nil (dataWaiters_clear c))
    | waiting hrange hrst hack hsyn hne =>
        exact .synAcked hst hrst hack hsyn hrange (.inl ⟨hst, hne⟩) rfl hfrom
    | opened hrange hrst hack hsyn heq hsend =>
        have a := sendAck_spec hsend
        refine .synAcked hst hrst hack hsyn hrange (.inr ⟨?_, ?_⟩) ?_ ?_
        · exact sendAck_isEstablished (by simp; rfl) hsend
        · rw [(AckSent.rxState a (.inl (by simp; rfl))).2]
          simp
          rfl
        · rw [a.rx, entered_rx]
          rfl
        · exact hfrom.trans (.of_eq (a.waiters.trans (dataWaiters_entered _ _)))
  case h_5 hst | h_6 hst | h_7 hst =>
    exact sync (by simp [Peered, hst, ConnectionState.synced]) hc

end WellFormed

theorem rxEffect_callRecv {bufferLen : Nat}
    {r : Except Error (List UInt8)} (hc : c.callRecv bufferLen = .ok (c', r)) :
    RxEffect c (.callRecv bufferLen) (.recv r) c' := by
  cases recvStep_of_ok hc with
  | refused => exact .kept (Output.error_ne_recv _) rfl (.inl rfl) (.of_eq rfl)
  | ended hs => exact .ended (by rw [hs]; rfl) (by rw [hs]; rfl)
  | early => exact .kept (Output.error_ne_recv _) rfl (.inl rfl) (.suspend rfl)
  | waiting hs hlen => exact .waiting (by rw [hs]; rfl) hlen (fun data h => by cases h)
  | read hs hlen hread =>
      refine .read (by rw [hs]; rfl) hread ?_ rfl rfl (.of_eq (dataWaiters_congr rfl))
      rw [(RxBuffer.readBytes_spec hread).1, List.length_take]
      rw [RxBuffer.availableBytes_eq] at hlen
      omega
  | full hs hread hlen =>
      exact .read (by rw [hs]; rfl) hread hlen rfl rfl (.of_eq (dataWaiters_congr rfl))
  | @drained t cc ca rx data hs hread hlen hv =>
      refine .drained (by rw [hs]; rfl) (by rw [hs]; rfl) hread hlen ?_ ?_
      · rcases stateSet_rx { c with rx := rx } t .closed cc ca with ⟨h₁, h₂, h₃, -⟩ | ⟨h₁, h₂, -⟩
        · exact .inl ⟨h₁, h₂, h₃⟩
        · exact .inr ⟨h₁, h₂⟩
      · rcases stateSet_rx { c with rx := rx } t .closed cc ca with ⟨-, -, -, hw⟩ | ⟨-, -, hw⟩
        · exact .of_eq (hw.trans (dataWaiters_congr rfl))
        · exact fun p hp _ => by rw [hw] at hp; cases hp

theorem rxEffect_callConnect {r : Except Error Unit}
    (hc : c.callConnect = .ok (c', r)) : RxEffect c .callConnect (.call r) c' := by
  cases connectStep_of_ok hc with
  | refused => exact .kept (Output.call_ne_recv _) rfl (.inl rfl) (.of_eq rfl)
  | connecting hs ha =>
      refine .connecting (Output.call_ne_recv _) ?_ ha.state ha.rx (.of_eq ha.waiters)
      rcases hs with hs | hs <;> rw [hs] <;> rfl

theorem rxEffect_callSend {inputData : List UInt8} {r : Except Error Unit}
    (hc : c.callSend inputData = .ok (c', r)) : RxEffect c (.callSend inputData) (.call r) c' := by
  cases (sendStep_of_ok hc).2 with
  | refused => exact .kept (Output.call_ne_recv _) rfl (.inl rfl) (.of_eq rfl)
  | delayed => exact .kept (Output.call_ne_recv _) rfl (.inl rfl) (.suspend rfl)
  | queued => exact .kept (Output.call_ne_recv _) rfl (.inl rfl) (.of_eq (dataWaiters_congr rfl))
  | sent hs _ _ hsend =>
      have a := sendAck_spec hsend
      have hpeer : Peered c := .inl (by rw [hs]; rfl)
      have hst := AckSent.rxState a hpeer
      exact .kept (Output.call_ne_recv _) a.rx (.inr ⟨hpeer, hst.1, hst.2⟩)
        (.of_eq (a.waiters.trans (dataWaiters_congr rfl)))

theorem rxEffect_callShutdown {r : Except Error Unit}
    (hc : c.callShutdown = .ok (c', r)) : RxEffect c .callShutdown (.call r) c' := by
  cases shutdownStep_of_ok hc with
  | refused => exact .kept (Output.call_ne_recv _) rfl (.inl rfl) (.of_eq rfl)
  | cleared => exact .cleared (Output.call_ne_recv _) rfl rfl (noReaders_clear _)
  | delayed => exact .kept (Output.call_ne_recv _) rfl (.inl rfl) (.suspend rfl)
  | early hs _ hsend =>
      have a := sendAck_spec hsend
      refine .kept (Output.call_ne_recv _) ?_
        (.inr ⟨.inr hs, .inl (by simp [ConnectionState.synced]), ?_⟩)
        (.of_eq ((dataWaiters_entered _ _).trans (a.waiters.trans (dataWaiters_congr rfl))))
      · rw [entered_rx, a.rx]
        rfl
      · rw [entered_connectionState, hs]
        rfl
  | active hs _ _ _ hsend =>
      have a := sendAck_spec hsend
      have hst := AckSent.rxState a (.inl (by simp [ConnectionState.synced]))
      refine .kept (Output.call_ne_recv _) ?_ (.inr ⟨.inl (by rw [hs]; rfl), hst.1, ?_⟩)
        (.of_eq (a.waiters.trans ((dataWaiters_congr rfl).trans (dataWaiters_entered c _))))
      · rw [a.rx]
        simp
      · rw [hst.2, hs]
        simp [ConnectionState.rx]
  | passive hs _ _ _ hsend =>
      have a := sendAck_spec hsend
      have hpeer : Peered c := .inl (by rw [hs]; rfl)
      have hst := AckSent.rxState a hpeer
      exact .kept (Output.call_ne_recv _) a.rx (.inr ⟨hpeer, hst.1, hst.2⟩)
        (.of_eq (a.waiters.trans (dataWaiters_congr rfl)))

/-- The end of a close keeps the receive side or clears it. -/
theorem rxEffect_closing {c₁ : Connection Addr Time} {closeActive : Bool} {op : Op Time}
    {out : Output} (hout : ∀ data, out ≠ .recv (.ok data)) (hpeer : Peered c)
    (hrx : c₁.rx = c.rx) (hstate : c₁.connectionState.rx = c.connectionState.rx)
    (hreaders : ReadersFrom c c₁) : RxEffect c op out (c₁.closing closeActive) := by
  have hset := stateSet_rx c₁ c₁.connectionState.tx c₁.connectionState.rx true closeActive
  unfold Connection.closing
  dsimp only
  rcases hset with ⟨h₁, h₂, h₃, h₄⟩ | ⟨h₁, h₂, h₃⟩
  · split
    · exact .kept hout (h₃.trans hrx) (.inr ⟨hpeer, h₁, h₂.trans hstate⟩)
        (hreaders.trans (.of_eq h₄))
    · exact .kept hout (h₃.trans hrx) (.inr ⟨hpeer, h₁, h₂.trans hstate⟩)
        ((hreaders.trans (.of_eq h₄)).trans (.suspend rfl))
  · split
    · exact .cleared hout h₁ h₂ (.of_nil h₃)
    · refine .cleared hout h₁ h₂ (.of_nil ?_)
      rw [dataWaiters_suspend, h₃]
      rfl

theorem rxEffect_callClose {r : Except Error Unit}
    (hc : c.callClose = .ok (c', r)) : RxEffect c .callClose (.call r) c' := by
  cases closeStep_of_ok hc with
  | refused => exact .kept (Output.call_ne_recv _) rfl (.inl rfl) (.of_eq rfl)
  | cleared => exact .cleared (Output.call_ne_recv _) rfl rfl (noReaders_clear _)
  | delayed => exact .kept (Output.call_ne_recv _) rfl (.inl rfl) (.suspend rfl)
  | early hs _ _ hsend =>
      have a := sendAck_spec hsend
      refine .kept (Output.call_ne_recv _) ?_ (.inr ⟨.inr hs, .inl ?_, ?_⟩) ?_
      · change (Connection.entered _ _).rx = _
        rw [entered_rx, a.rx]
        rfl
      · change (Connection.entered _ _).connectionState.synced = true
        simp [ConnectionState.synced]
      · change (Connection.entered _ _).connectionState.rx = _
        rw [entered_connectionState, hs]
        rfl
      · exact .trans (.of_eq ((dataWaiters_entered _ _).trans
          (a.waiters.trans (dataWaiters_congr rfl)))) (.suspend rfl)
  | opened hs _ _ hsend _ =>
      have a := sendAck_spec hsend
      have hpeer : Peered c := .inl (by rw [hs]; rfl)
      have hst := AckSent.rxState a hpeer
      exact rxEffect_closing (Output.call_ne_recv _) hpeer a.rx hst.2
        (.of_eq (a.waiters.trans (dataWaiters_congr rfl)))
  | ended hs =>
      have hpeer : Peered c := .inl (by rw [hs]; rfl)
      exact rxEffect_closing (Output.call_ne_recv _) hpeer rfl rfl (.of_eq rfl)

/-- The receive side of one operation. -/
theorem WellFormed.rxEffect (h : WellFormed c) {op : Op Time} {out : Output}
    (hc : c.step op = .ok (c', out)) : RxEffect c op out c' := by
  cases opStep_of_ok hc with
  | callConnect hc => exact rxEffect_callConnect hc
  | callSend hc => exact rxEffect_callSend hc
  | callRecv hc => exact rxEffect_callRecv hc
  | callShutdown hc => exact rxEffect_callShutdown hc
  | callClose hc => exact rxEffect_callClose hc
  | callAbort hc =>
      cases abortStep_of_ok hc with
      | refused => exact .kept (Output.call_ne_recv _) rfl (.inl rfl) (.of_eq rfl)
      | cleared => exact .cleared (Output.call_ne_recv _) rfl rfl (noReaders_clear _)
      | reset => exact .cleared (Output.call_ne_recv _) rfl rfl (noReaders_clear _)
  | setOptions => exact .kept Output.none_ne_recv rfl (.inl rfl) (.of_eq (dataWaiters_congr rfl))
  | onSegment hc => exact h.rxEffect_onSegment hc
  | onTimeTick hc =>
      cases tickStep_of_ok hc with
      | kept hstate _ hrx _ _ hw => exact .kept Output.none_ne_recv hrx (.inl hstate) (.of_eq hw)
      | cleared => exact .cleared Output.none_ne_recv rfl rfl (noReaders_clear _)

end Connection

end TcpState
