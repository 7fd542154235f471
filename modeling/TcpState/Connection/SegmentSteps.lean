import TcpState.Connection.SendAck
import TcpState.Model.Listen

/-!
# The steps of `on_segment`

Each step of the synchronized branch is inverted once: what a successful step
leaves in every field, and which branch of the source it took.
-/

namespace TcpState

theorem addU16_ok_iff {a b r : BitVec 16} :
    addU16 a b = .ok r ↔ a.toNat + b.toNat < 2 ^ 16 ∧ r = a + b := Fallible.ite_ok_iff

namespace Connection

variable {Addr Time : Type}

/-- The connection once an acknowledgement in range has been accepted in
SynReceived: it is open. -/
def opened (c : Connection Addr Time) : Connection Addr Time :=
  if c.connectionState = .synReceived then c.entered .fullyOpen else c

@[simp] theorem opened_tx (c : Connection Addr Time) : c.opened.tx = c.tx := by
  unfold opened
  split <;> simp

@[simp] theorem opened_rx (c : Connection Addr Time) : c.opened.rx = c.rx := by
  unfold opened
  split <;> simp

@[simp] theorem opened_dupAckCount (c : Connection Addr Time) :
    c.opened.dupAckCount = c.dupAckCount := by
  unfold opened
  split <;> simp

@[simp] theorem opened_congestionWindow (c : Connection Addr Time) :
    c.opened.congestionWindow = c.congestionWindow := by
  unfold opened
  split <;> simp

@[simp] theorem opened_sent (c : Connection Addr Time) :
    c.opened.userData.sent = c.userData.sent := by
  unfold opened
  split <;> simp

@[simp] theorem opened_dataWaiters (c : Connection Addr Time) :
    c.opened.dataWaiters = c.dataWaiters := by
  unfold opened
  split <;> simp

theorem opened_connectionState (c : Connection Addr Time) : c.opened.connectionState =
    if c.connectionState = .synReceived then .fullyOpen else c.connectionState := by
  unfold opened
  split <;> simp

variable [UserTime Time]

/-- The waiters a new acknowledgement resumes: readers satisfied by the bytes
already stored, and senders whose bytes it covers. -/
def ackReleases (available : Nat) (ackn : SeqN) : WaitUntil → Bool
  | .recv count => decide (count.toNat ≤ available)
  | .acknowledged seqn => seqn.lte ackn
  | _ => false

omit [UserTime Time] in
theorem triggerEvent_dataWaiters (c : Connection Addr Time) (f : WaitUntil → Bool)
    (r : Except Error Unit) :
    (c.triggerEvent f r).dataWaiters = c.dataWaiters.filter fun p => !f p.1 := by
  simp only [dataWaiters, triggerEvent, List.filter_filter, Bool.and_comm]

/-- The fields after a new acknowledgement has been processed. -/
structure NewAck (c : Connection Addr Time) (seg : SegmentMeta)
    (c' : Connection Addr Time) : Prop where
  congestion : c.nextCongestionWindow seg = .ok c'.congestionWindow
  state : c'.connectionState = c.connectionState
  rx : c'.rx = c.rx
  tx : c'.tx = { c.tx with
    window := minU16 seg.window c'.congestionWindow
    reTx := c.tx.reTx.dropWhile fun head => head.seqnAfter.lte seg.ackn
    unack := seg.ackn }
  dupAckCount : c'.dupAckCount = c.dupAckCount
  waiters : c'.dataWaiters =
    c.dataWaiters.filter fun p => !ackReleases c.rx.availableBytes seg.ackn p.1
  sent : c'.userData.sent = c.userData.sent

theorem onNewAck_ok_iff {c : Connection Addr Time} {seg : SegmentMeta} :
    (∃ c', c.onNewAck seg = .ok c') ↔ ∃ w, c.nextCongestionWindow seg = .ok w := by
  simp only [onNewAck, Fallible.bind_ok_iff, Fallible.pure_ok_iff]
  constructor
  · rintro ⟨_, w, hw, -⟩
    exact ⟨w, hw⟩
  · rintro ⟨w, hw⟩
    exact ⟨_, w, hw, rfl⟩

theorem onNewAck_spec {c c' : Connection Addr Time} {seg : SegmentMeta}
    (h : c.onNewAck seg = .ok c') : NewAck c seg c' := by
  simp only [onNewAck, Fallible.bind_ok_iff, Fallible.pure_ok_iff] at h
  obtain ⟨w, hw, rfl⟩ := h
  -- Re-arming the timer happens between the two triggers and touches neither.
  have hreleased {c₀ c₁ : Connection Addr Time} {f g : WaitUntil → Bool}
      (h₁ : c₁.events = ((c₀.triggerEvent f (.ok ())).triggerEvent g (.ok ())).events)
      (h₀ : c₀.events = c.events)
      (hfg : ∀ w, (f w || g w) = ackReleases c.rx.availableBytes seg.ackn w) :
      (c₁.triggerEvent g (.ok ())).dataWaiters =
        c.dataWaiters.filter fun p => !ackReleases c.rx.availableBytes seg.ackn p.1 := by
    rw [triggerEvent_dataWaiters, dataWaiters_congr h₁, triggerEvent_dataWaiters,
      triggerEvent_dataWaiters, dataWaiters_congr h₀]
    simp only [List.filter_filter, ← hfg]
    apply List.filter_congr
    rintro ⟨w, k⟩ -
    cases f w <;> cases g w <;> rfl
  constructor
  · simp only [triggerEvent_congestionWindow]
    split <;> exact hw
  · simp only [triggerEvent_connectionState]
    split <;> rfl
  · simp only [triggerEvent_rx]
    split <;> rfl
  · simp only [triggerEvent_tx, triggerEvent_congestionWindow]
    split <;> rfl
  · simp only [triggerEvent_dupAckCount]
    split <;> rfl
  · apply hreleased
    · split <;> rfl
    · rfl
    · intro w
      cases w <;> simp [ackReleases]
  · rw [triggerEvent_sent]
    split <;> simp [setTimerReTx]

theorem onFinAcked_ok_iff {c c' : Connection Addr Time} {ackn : SeqN} :
    c.onFinAcked ackn = .ok c' ↔
      (∃ rxState closeCalled closeActive,
        c.connectionState = .established .fin rxState closeCalled closeActive ∧
          ackn = c.tx.next ∧ c.tx.tx.bytes = [] ∧ c.tx.reTx = [] ∧
          c' = c.stateSet (.established .closed rxState closeCalled closeActive)) ∨
      (c.connectionState.tx = .fin → ackn ≠ c.tx.next) ∧ c' = c := by
  unfold onFinAcked
  split
  · rename_i r cc ca hst
    split
    · rename_i hack
      simp only [debugAssert, Fallible.bind_ok_iff, Fallible.ensure_eq_ok, BlobQueue.isEmpty_iff,
        setState_ok_iff, hst]
      constructor
      · rintro ⟨_, hbytes, _, hre, -, -, rfl⟩
        exact .inl ⟨r, cc, ca, rfl, hack, hbytes, hre, rfl⟩
      · rintro (⟨r', cc', ca', heq, -, hbytes, hre, rfl⟩ | ⟨hne, -⟩)
        · obtain ⟨-, rfl, rfl, rfl⟩ := ConnectionState.established.inj heq
          refine ⟨(), hbytes, (), hre, ?_, by simp, rfl⟩
          exact ⟨by decide, Nat.le_refl _, Bool.le_refl cc, Bool.le_refl ca, fun _ => by decide⟩
        · exact absurd hack (hne rfl)
    · rename_i hack
      rw [Fallible.pure_ok_iff]
      constructor
      · rintro rfl
        exact .inr ⟨fun _ => hack, rfl⟩
      · rintro (⟨_, _, _, -, heq, -⟩ | ⟨-, rfl⟩)
        · exact absurd heq hack
        · rfl
  · rename_i hst
    rw [Fallible.pure_ok_iff]
    constructor
    · rintro rfl
      refine .inr ⟨fun htx => ?_, rfl⟩
      cases hs : c.connectionState with
      | established t r cc ca =>
          rw [hs] at htx
          exact absurd (by rw [hs]; cases htx; rfl) (hst r cc ca)
      | _ => rw [hs] at htx; cases htx
    · rintro (⟨r, cc, ca, hs, -⟩ | ⟨-, rfl⟩)
      · exact absurd hs (hst r cc ca)
      · rfl

/-- The three ways a segment is handled once its acknowledgement is: stored
and acknowledged, acknowledged again, or ignored. -/
theorem storeData_ok_iff {c c' : Connection Addr Time} {seg : SegmentMeta} {proceed : Bool} :
    c.storeData seg = .ok (c', proceed) ↔
      (seg.seqn = c.rx.ackd ∧ proceed = true ∧
        ∃ rx, c.rx.write seg = .ok rx ∧ { c with rx := rx }.sendAck = .ok c') ∨
      (seg.seqn ≠ c.rx.ackd ∧ proceed = false ∧
        c' = if seg.seqn.lt c.rx.ackd then c.send (c.bareSegment c.rx.ackd .ack) else c) := by
  unfold storeData
  split
  · rename_i heq
    simp only [Fallible.bind_ok_iff, Fallible.pure_ok_iff, Prod.mk.injEq]
    constructor
    · rintro ⟨rx, hrx, _, hack, rfl, rfl⟩
      exact .inl ⟨heq, rfl, rx, hrx, hack⟩
    · rintro (⟨-, rfl, rx, hrx, hack⟩ | ⟨hne, -⟩)
      · exact ⟨rx, hrx, c', hack, rfl, rfl⟩
      · exact absurd heq hne
  · rename_i hne
    split <;> simp [hne, pure, Except.pure, eq_comm, and_comm]

/-- The connection after the acknowledgement bookkeeping of `onAck`. -/
inductive Acknowledged (c : Connection Addr Time) (seg : SegmentMeta) :
    Connection Addr Time → Prop
  /-- The acknowledgement number was seen before. -/
  | repeated (h : c.tx.unack = seg.ackn) : Acknowledged c seg c.opened
  /-- The acknowledgement number is new. -/
  | new {c' : Connection Addr Time} (h : c.tx.unack ≠ seg.ackn)
      (hc : NewAck c.opened seg c') : Acknowledged c seg c'

theorem onAck_ok_iff {c c' : Connection Addr Time} {seg : SegmentMeta} {proceed : Bool} :
    c.onAck seg = .ok (c', proceed) ↔
      (seg.ackn.inRangeInclusive c.tx.unack c.tx.next = true ∧
        ∃ c₁ c₂, (if c.tx.unack ≠ seg.ackn then c.opened.onNewAck seg else .ok c.opened) = .ok c₁ ∧
          c₁.onFinAcked seg.ackn = .ok c₂ ∧ c₂.storeData seg = .ok (c', proceed)) ∨
      (seg.ackn.inRangeInclusive c.tx.unack c.tx.next = false ∧ c' = c ∧ proceed = false) := by
  have hopen : (if c.connectionState = .synReceived then c.setState .fullyOpen else
      (return c : Res (Connection Addr Time))) = .ok c.opened := by
    unfold opened
    split
    · rename_i hst
      rw [setState_ok_iff, hst]
      exact ⟨trivial, by decide, rfl⟩
    · rfl
  unfold onAck
  split
  · rename_i hrange
    rw [hopen]
    simp only [Fallible.ok_bind, Fallible.bind_ok_iff, opened_tx, hrange]
    constructor
    · rintro ⟨c₁, h₁, c₂, h₂, h₃⟩
      exact .inl ⟨trivial, c₁, c₂, h₁, h₂, h₃⟩
    · rintro (⟨-, c₁, c₂, h₁, h₂, h₃⟩ | ⟨hf, -⟩)
      · exact ⟨c₁, h₁, c₂, h₂, h₃⟩
      · cases hf
  · rename_i hrange
    simp [hrange, pure, Except.pure, eq_comm]

theorem acknowledged_of_ok {c c₁ : Connection Addr Time} {seg : SegmentMeta}
    (h : (if c.tx.unack ≠ seg.ackn then c.opened.onNewAck seg else .ok c.opened) = .ok c₁) :
    Acknowledged c seg c₁ := by
  split at h
  · rename_i hne
    exact .new hne (onNewAck_spec h)
  · rename_i heq
    obtain rfl := Except.ok.inj h
    exact .repeated (not_not.mp heq)

omit [UserTime Time] in
/-- The fields every acknowledgement leaves alone. -/
theorem Acknowledged.frame {c c₁ : Connection Addr Time} {seg : SegmentMeta}
    (h : Acknowledged c seg c₁) :
    c₁.connectionState = c.opened.connectionState ∧ c₁.rx = c.rx ∧ c₁.tx.tx = c.tx.tx ∧
      c₁.tx.next = c.tx.next ∧ c₁.tx.initSeqn = c.tx.initSeqn ∧ c₁.tx.unack = seg.ackn ∧
      c₁.dupAckCount = c.dupAckCount ∧ c₁.userData.sent = c.userData.sent := by
  cases h with
  | repeated h =>
      exact ⟨rfl, by simp, by simp, by simp, by simp, by simpa using h, by simp, by simp⟩
  | new h hc => exact ⟨hc.state, by simp [hc.rx], by simp [hc.tx], by simp [hc.tx], by simp [hc.tx],
      by simp [hc.tx], by simp [hc.dupAckCount], by simp [hc.sent]⟩

/-- The SYN-ACK that answers a SYN. -/
def synReply (c : Connection Addr Time) (seg : SegmentMeta) : SegmentMeta where
  seqn := c.userData.newSeqn.1
  ackn := seg.seqn + 1#32
  window := (c.rx.init seg.seqn).currWindow
  flags := .syn ||| .ack
  data := []

/-- The fields after a SYN has been answered. -/
structure SynAnswered (c : Connection Addr Time) (seg : SegmentMeta)
    (c' : Connection Addr Time) : Prop where
  state : c'.connectionState = .synReceived
  rx : c'.rx = c.rx.init seg.seqn
  tx : c'.tx = { c.tx.init c.userData.newSeqn.1 with window := seg.window }.onSend
    (c.synReply seg)
  dupAckCount : c'.dupAckCount = c.dupAckCount
  congestionWindow : c'.congestionWindow = c.congestionWindow
  waiters : c'.dataWaiters = c.dataWaiters
  sent : c'.userData.sent = c.userData.sent ++ [c.synReply seg]

/-- The branches of Listen. -/
inductive Listened (c : Connection Addr Time) (seg : SegmentMeta) :
    Connection Addr Time → Prop
  | ignored (h : seg.hasRst = true ∨ seg.hasAck = false ∧ seg.hasSyn = false) :
      Listened c seg c
  | refused (hrst : seg.hasRst = false) (hack : seg.hasAck = true) :
      Listened c seg (c.send (ListenSocket.refusal seg))
  | answered {c' : Connection Addr Time} (hrst : seg.hasRst = false)
      (hack : seg.hasAck = false) (hsyn : seg.hasSyn = true) (hdata : seg.data = [])
      (hc : SynAnswered c seg c') : Listened c seg c'

theorem listened_of_ok {c c' : Connection Addr Time} {seg : SegmentMeta}
    (hc : c.onSegmentListen seg = .ok c') : Listened c seg c' := by
  unfold onSegmentListen at hc
  split at hc
  · rename_i hrst
    obtain rfl := Fallible.pure_ok_iff.mp hc
    exact .ignored (.inl hrst)
  rename_i hrst
  split at hc
  · rename_i hack
    obtain rfl := Fallible.pure_ok_iff.mp hc
    exact .refused (by simpa using hrst) hack
  rename_i hack
  split at hc
  · rename_i hsyn
    obtain rfl := Fallible.pure_ok_iff.mp hc
    exact .ignored (.inr ⟨by simpa using hack, by simpa using hsyn⟩)
  rename_i hsyn
  simp only [Fallible.bind_ok_iff, Fallible.pure_ok_iff, setState_ok_iff, assert,
    Fallible.ensure_eq_ok] at hc
  obtain ⟨_, hdata, c₁, ⟨-, -, hc₁⟩, rfl⟩ := hc
  simp only [stateSet_synReceived] at hc₁
  have htx : c₁.tx = { c.tx.init c.userData.newSeqn.1 with window := seg.window } := by
    simp [hc₁]
  have hrx : c₁.rx = c.rx.init seg.seqn := by simp [hc₁]
  refine .answered (by simpa using hrst) (by simpa using hack) (by simpa using hsyn) hdata ?_
  have hreply : (⟨c₁.tx.initSeqn, c₁.rx.ackd, c₁.rx.currWindow, .syn ||| .ack, []⟩ :
      SegmentMeta) = c.synReply seg := by
    rw [htx, hrx]
    rfl
  rw [hreply]
  constructor
  · simp [hc₁]
  · simp [hrx]
  · simp only [send_tx, setTimerReTx_tx, htx]
  · simp [hc₁]
  · simp [hc₁]
  · refine (dataWaiters_congr (c := c₁) rfl).trans ?_
    rw [hc₁, dataWaiters_entered]
    exact dataWaiters_congr rfl
  · simp [hc₁]

/-- The connection after an acceptable SYN-ACK, before the state moves. -/
def synAcked (c : Connection Addr Time) (seg : SegmentMeta) : Connection Addr Time :=
  let c := { c with rx := c.rx.init seg.seqn }.clearReTxRange seg.ackn
  { c with tx := { c.tx with unack := seg.ackn, window := seg.window } }

omit [UserTime Time] in
@[simp] theorem synAcked_sent (c : Connection Addr Time) (seg : SegmentMeta) :
    (c.synAcked seg).userData.sent = c.userData.sent := clearReTxRange_sent _ _

/-- The branches of SynSent. -/
inductive SynSentStep (c : Connection Addr Time) (seg : SegmentMeta) :
    Connection Addr Time → Prop
  | ignored (h : seg.hasRst = false) : SynSentStep c seg c
  | refused (hack : seg.hasAck = true)
      (hrange : seg.ackn.inRangeInclusive c.tx.unack c.tx.next = false) :
      SynSentStep c seg (c.send { seqn := seg.ackn, ackn := .zero, window := c.rx.currWindow,
                                  flags := .rst, data := [] })
  | reset (hrst : seg.hasRst = true) : SynSentStep c seg c.reset
  | waiting (hrange : seg.ackn.inRangeInclusive c.tx.unack c.tx.next = true)
      (hrst : seg.hasRst = false) (hack : seg.hasAck = true) (hsyn : seg.hasSyn = true)
      (hne : seg.ackn ≠ c.tx.initSeqn + 1#32) : SynSentStep c seg (c.synAcked seg)
  | opened {c' : Connection Addr Time}
      (hrange : seg.ackn.inRangeInclusive c.tx.unack c.tx.next = true)
      (hrst : seg.hasRst = false) (hack : seg.hasAck = true) (hsyn : seg.hasSyn = true)
      (heq : seg.ackn = c.tx.initSeqn + 1#32)
      (hc : ((c.synAcked seg).entered .fullyOpen).sendAck = .ok c') : SynSentStep c seg c'

theorem synSentStep_of_ok {c c' : Connection Addr Time} {seg : SegmentMeta}
    (hc : c.onSegmentSynSent seg = .ok c') : SynSentStep c seg c' := by
  unfold onSegmentSynSent at hc
  split at hc
  · rename_i hack
    obtain rfl := Fallible.pure_ok_iff.mp hc
    exact .refused (by simp_all) (by simp_all)
  rename_i hack
  split at hc
  · rename_i hrst
    obtain rfl := Fallible.pure_ok_iff.mp hc
    exact .reset hrst
  rename_i hrst
  split at hc
  · rename_i hflags
    rw [SegmentFlags.contains_union, Bool.and_eq_true] at hflags
    have hrange : seg.ackn.inRangeInclusive c.tx.unack c.tx.next = true := by simp_all
    change (if (c.synAcked seg).tx.unack = (c.synAcked seg).tx.initSeqn + 1#32 then
        ((c.synAcked seg).setState .fullyOpen >>= fun c => c.sendAck)
      else return c.synAcked seg) = .ok c' at hc
    split at hc
    · rename_i heq
      simp only [Fallible.bind_ok_iff, setState_ok_iff] at hc
      obtain ⟨_, ⟨-, -, rfl⟩, hsend⟩ := hc
      exact .opened hrange (by simpa using hrst) hflags.2 hflags.1 heq hsend
    · rename_i hne
      obtain rfl := Fallible.pure_ok_iff.mp hc
      exact .waiting hrange (by simpa using hrst) hflags.2 hflags.1 hne
  · obtain rfl := Fallible.pure_ok_iff.mp hc
    exact .ignored (by simpa using hrst)

/-- The connection with the window of an accepted segment. -/
def windowed (c : Connection Addr Time) (seg : SegmentMeta) : Connection Addr Time :=
  { c with tx := { c.tx with window := minU16 seg.window c.congestionWindow } }

omit [UserTime Time] in
@[simp] theorem windowed_connectionState (c : Connection Addr Time) (seg : SegmentMeta) :
    (c.windowed seg).connectionState = c.connectionState := rfl

/-- What an accepted RST or SYN leaves of a connection, with what it sends. -/
structure Wiped (c : Connection Addr Time) (c' : Connection Addr Time)
    (new : List SegmentMeta) : Prop where
  state : c'.connectionState = .reset ∨
    c.connectionState = .synReceived ∧ c'.connectionState = .listen ∧ new = []
  tx : c'.tx = .default
  rx : c'.rx = .default
  waiters : c'.dataWaiters = []
  sent : c'.userData.sent = c.userData.sent ++ new

omit [UserTime Time] in
theorem Wiped.idle {c c' : Connection Addr Time} {new : List SegmentMeta} (h : Wiped c c' new) :
    c'.connectionState.idle = true := by
  rcases h.state with hst | ⟨-, hst, -⟩
  · rw [hst]
    rfl
  · rw [hst]
    rfl

omit [UserTime Time] in
theorem Wiped.not_closed {c c' : Connection Addr Time} {new : List SegmentMeta}
    (h : Wiped c c' new) : c'.connectionState ≠ .closed := by
  rcases h.state with hst | ⟨-, hst, -⟩
  · rw [hst]
    nofun
  · rw [hst]
    nofun

theorem onRst_spec {c c' : Connection Addr Time} (hc : c.onRst = .ok c') : Wiped c c' [] := by
  unfold onRst at hc
  split at hc
  · rename_i hst
    obtain ⟨-, -, rfl⟩ := setState_ok_iff.mp hc
    exact ⟨.inr ⟨hst, by simp, rfl⟩, by simp, by simp, by simp, by simp⟩
  · obtain ⟨-, -, rfl⟩ := setState_ok_iff.mp hc
    exact ⟨.inl (by simp), by simp, by simp, by simp, by simp⟩
  · cases hc

theorem onSyn_spec {c c' : Connection Addr Time} (hc : c.onSyn = .ok c') :
    Wiped c c' [c.bareSegment .zero .rst] := by
  obtain ⟨-, -, rfl⟩ := setState_ok_iff.mp hc
  refine ⟨.inl (by simp), by simp, by simp, by simp, ?_⟩
  rw [stateSet_reset, entered_sent, clear_sent, send_sent, triggerEvent_sent]
  rfl

/-- The branches of the synchronized states. -/
inductive SynchronizedStep (c : Connection Addr Time) (seg : SegmentMeta) :
    Connection Addr Time → Prop
  | dropped (hcheck : c.checkSegmentSeqOk seg = false) (hrst : seg.hasRst = true) :
      SynchronizedStep c seg c
  | rejected (hcheck : c.checkSegmentSeqOk seg = false) (hrst : seg.hasRst = false) :
      SynchronizedStep c seg (c.send (c.bareSegment c.rx.ackd .ack))
  | reset {c' : Connection Addr Time} (hcheck : c.checkSegmentSeqOk seg = true)
      (hrst : seg.hasRst = true) (hc : (c.windowed seg).onRst = .ok c') :
      SynchronizedStep c seg c'
  | syn {c' : Connection Addr Time} (hcheck : c.checkSegmentSeqOk seg = true)
      (hrst : seg.hasRst = false) (hsyn : seg.hasSyn = true)
      (hc : (c.windowed seg).onSyn = .ok c') : SynchronizedStep c seg c'
  | accepted {c' : Connection Addr Time} (hcheck : c.checkSegmentSeqOk seg = true)
      (hrst : seg.hasRst = false) (hsyn : seg.hasSyn = false)
      (hc : (c.windowed seg).onAccepted seg = .ok c') : SynchronizedStep c seg c'

theorem synchronizedStep_iff {c c' : Connection Addr Time} {seg : SegmentMeta} :
    c.onSegmentSynchronized seg = .ok c' ↔ SynchronizedStep c seg c' := by
  unfold onSegmentSynchronized
  constructor
  · intro hc
    split at hc
    · rename_i hcheck
      split at hc
      · rename_i hrst
        obtain rfl := Fallible.pure_ok_iff.mp hc
        exact .rejected (by simpa using hcheck) (by simpa using hrst)
      · rename_i hrst
        obtain rfl := Fallible.pure_ok_iff.mp hc
        exact .dropped (by simpa using hcheck) (by simpa using hrst)
    rename_i hcheck
    have hcheck : c.checkSegmentSeqOk seg = true := by simpa using hcheck
    dsimp only at hc
    split at hc
    · rename_i hrst
      exact .reset hcheck hrst hc
    rename_i hrst
    split at hc
    · rename_i hsyn
      exact .syn hcheck (by simpa using hrst) hsyn hc
    · rename_i hsyn
      exact .accepted hcheck (by simpa using hrst) (by simpa using hsyn) hc
  · intro hc
    cases hc with
    | dropped hcheck hrst => simp [hcheck, hrst, pure, Except.pure]
    | rejected hcheck hrst => simp [hcheck, hrst, pure, Except.pure]
    | reset hcheck hrst hc => simpa [hcheck, hrst] using! hc
    | syn hcheck hrst hsyn hc => simpa [hcheck, hrst, hsyn] using! hc
    | accepted hcheck hrst hsyn hc => simpa [hcheck, hrst, hsyn] using! hc

end Connection

end TcpState
