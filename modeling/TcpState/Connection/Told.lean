import TcpState.Connection.Forward
import TcpState.Connection.Waiting

/-!
# What suspended calls are told

A call leaves the suspended set with a result. The result is an error, or the
source has one of four reasons for it: a state was entered, bytes can be read,
a segment acknowledges the awaited number, or the output queue is announced as
empty. The places of the last announcement are listed, each with the
connection at that moment.
-/

namespace TcpState

/-- The result a callback hands to a suspended call, if it does. -/
def Callback.answer {Addr Time : Type} : Callback Addr Time → Option (Cookie × Except Error Unit)
  | .event cookie result => some (cookie, result)
  | _ => none

namespace UserData

variable {Addr Time : Type}

/-- The results handed to suspended calls so far, oldest first. -/
def answers (u : UserData Addr Time) : List (Cookie × Except Error Unit) :=
  u.calls.filterMap Callback.answer

@[simp] theorem answers_newSeqn (u : UserData Addr Time) : u.newSeqn.2.answers = u.answers := rfl

@[simp] theorem answers_now (u : UserData Addr Time) : u.now.2.answers = u.answers := rfl

@[simp] theorem answers_send (u : UserData Addr Time) (dst : Addr) (seg : SegmentMeta) :
    (u.send dst seg).answers = u.answers := by
  simp [answers, send, Callback.answer]

@[simp] theorem answers_event (u : UserData Addr Time) (cookie : Cookie)
    (result : Except Error Unit) :
    (u.event cookie result).answers = u.answers ++ [(cookie, result)] := by
  simp [answers, event, Callback.answer]

@[simp] theorem answers_addTimeout (u : UserData Addr Time) (instant : Time) :
    (u.addTimeout instant).answers = u.answers := by
  simp [answers, addTimeout, Callback.answer]

theorem answers_foldl_event (u : UserData Addr Time) (ws : List (WaitUntil × Cookie))
    (r : Except Error Unit) :
    (ws.foldl (fun u p => u.event p.2 r) u).answers = u.answers ++ ws.map fun p => (p.2, r) := by
  induction ws generalizing u with
  | nil => simp
  | cons w ws ih => simp [ih]

end UserData

namespace Connection

variable {Addr Time : Type}

/-- The results handed to suspended calls so far. -/
abbrev answers (c : Connection Addr Time) : List (Cookie × Except Error Unit) :=
  c.userData.answers

section Moments

/-- The connections on which `send_ack` announces an empty output queue: after
an empty read, and on recording a FIN when everything has been read. -/
inductive SendAckAnnounces (c : Connection Addr Time) : Connection Addr Time → Prop
  | read {q : BlobQueue} (hq : q.bytes = c.tx.tx.bytes.drop c.outLimit) (hlimit : c.outLimit ≠ 0)
      (hempty : c.outData = []) (hw : c.noSenders) : SendAckAnnounces c (c.withQueue q)
  | fin {q : BlobQueue} (hq : q.bytes = c.tx.tx.bytes.drop c.outLimit) (hfin : c.sendsFin = true)
      (hread : c.connectionState.withFin.readClosed = true) :
      SendAckAnnounces c { c.drained q with connectionState := c.connectionState.withFin }

/-- The connections on which `set_state` announces an empty output queue. -/
inductive SetStateAnnounces (c : Connection Addr Time) :
    ConnectionState → Connection Addr Time → Prop
  | entered {state : ConnectionState} (hread : state.readClosed = true) :
      SetStateAnnounces c state { c with connectionState := state }
  | wait : SetStateAnnounces c (.established .closed .closed true true)
      { c.entered (.established .closed .closed true true) with connectionState := .timeWait }

variable [UserTime Time]

/-- The connections an operation runs `send_ack` on. -/
inductive RunsSendAck (c : Connection Addr Time) : Op Time → Connection Addr Time → Prop
  | send {inputData : List UInt8} {q : BlobQueue} {r : ChannelState} {cc ca : Bool}
      (hs : c.connectionState = .established .opened r cc ca)
      (hq : c.tx.tx.writeBytes inputData = .ok q) (hnow : c.SendsNow q) :
      RunsSendAck c (.callSend inputData) (c.withQueue q)
  | shutdownEarly (hs : c.connectionState = .synReceived) (hw : c.noSenders) :
      RunsSendAck c .callShutdown c.marked
  | shutdown {c₁ : Connection Addr Time} {r : ChannelState} {cc ca : Bool}
      (hs : c.connectionState = .established .opened r cc ca) (hdone : c.OutputDone)
      (h₁ : (if r = .opened then c.setState (.established .opened r cc true) else .ok c) =
        .ok c₁) : RunsSendAck c .callShutdown c₁.marked
  | close (hs : c.connectionState = .synReceived ∨ c.connectionState.tx = .opened ∧
      c.connectionState.isEstablished = true) (hdone : c.OutputDone) :
      RunsSendAck c .callClose c.marked
  | opened {seg : SegmentMeta} (hs : c.connectionState = .synSent) (hrst : seg.hasRst = false)
      (hack : seg.hasAck = true) (hsyn : seg.hasSyn = true)
      (heq : seg.ackn = c.tx.initSeqn + 1#32) :
      RunsSendAck c (.onSegment seg) ((c.synAcked seg).entered .fullyOpen)
  | stored {c₁ c₂ : Connection Addr Time} {seg : SegmentMeta} {rx : RxBuffer}
      (ha : c.Accepts seg) (hack : seg.hasAck = true)
      (hrange : seg.ackn.inRangeInclusive c.tx.unack c.tx.next = true)
      (h₁ : (c.windowed seg).Takes seg c₁) (h₂ : c₁.onFinAcked seg.ackn = .ok c₂)
      (hseq : seg.seqn = c₂.rx.ackd) (hrx : c₂.rx.write seg = .ok rx) :
      RunsSendAck c (.onSegment seg) { c₂ with rx := rx }

/-- The connections on which an operation announces an empty output queue. The
calls of `set_state` that are missing lead to states with an open read side. -/
inductive Announces (c : Connection Addr Time) : Op Time → Connection Addr Time → Prop
  | sendAck {op : Op Time} {c₁ m : Connection Addr Time} (hrun : c.RunsSendAck op c₁)
      (hm : c₁.SendAckAnnounces m) : Announces c op m
  | readToEnd {bufferLen : Nat} {rx : RxBuffer} {data : List UInt8} {t : ChannelState}
      {cc ca : Bool} {m : Connection Addr Time}
      (hs : c.connectionState = .established t .fin cc ca)
      (hread : c.rx.readBytes bufferLen = .ok (rx, data)) (hlen : data.length < bufferLen)
      (hm : { c with rx := rx }.SetStateAnnounces (.established t .closed cc ca) m) :
      Announces c (.callRecv bufferLen) m
  | close {c₁ m : Connection Addr Time} {t r : ChannelState} {cc ca : Bool}
      (hs : c.connectionState = .established t r cc ca) (hdone : t = .opened → c.OutputDone)
      (h₁ : (if t = .opened then c.marked.sendAck else .ok c) = .ok c₁)
      (hm : c₁.SetStateAnnounces (.established c₁.connectionState.tx c₁.connectionState.rx true
        (ca || decide (r = .opened))) m) : Announces c .callClose m
  | finAcked {c₁ m : Connection Addr Time} {seg : SegmentMeta} {r : ChannelState} {cc ca : Bool}
      (ha : c.Accepts seg) (hack : seg.hasAck = true)
      (hrange : seg.ackn.inRangeInclusive c.tx.unack c.tx.next = true)
      (h₁ : (c.windowed seg).Takes seg c₁) (hs : c₁.connectionState = .established .fin r cc ca)
      (hackn : seg.ackn = c₁.tx.next)
      (hm : c₁.SetStateAnnounces (.established .closed r cc ca) m) :
      Announces c (.onSegment seg) m

/-- An operation reports a sequence number as acknowledged: a SYN-ACK answers
our SYN, or a new acknowledgement is accepted. -/
inductive Reports (c : Connection Addr Time) : Op Time → SeqN → Prop
  | opening {seg : SegmentMeta} {seqn : SeqN} (hs : c.connectionState = .synSent)
      (hrange : seg.ackn.inRangeInclusive c.tx.unack c.tx.next = true) (hrst : seg.hasRst = false)
      (hack : seg.hasAck = true) (hsyn : seg.hasSyn = true) (hlte : seqn.lte seg.ackn = true) :
      Reports c (.onSegment seg) seqn
  | new {seg : SegmentMeta} {seqn : SeqN} (ha : c.Accepts seg) (hack : seg.hasAck = true)
      (hrange : seg.ackn.inRangeInclusive c.tx.unack c.tx.next = true)
      (hne : c.tx.unack ≠ seg.ackn) (hlte : seqn.lte seg.ackn = true) :
      Reports c (.onSegment seg) seqn

end Moments

/-- Why a suspended call is told a result, given the connections that announce
an empty queue and the numbers reported as acknowledged. -/
inductive Reason (announced : Connection Addr Time → Prop) (reported : SeqN → Prop) :
    WaitUntil × Cookie → Except Error Unit → Prop
  | failed {p : WaitUntil × Cookie} {e : Error} : Reason announced reported p (.error e)
  | emptied {m : Connection Addr Time} {k : Cookie} (hm : announced m)
      (hp : (.txQueueEmpty, k) ∈ m.events.suspended) :
      Reason announced reported (.txQueueEmpty, k) (.ok ())
  | acked {seqn : SeqN} {k : Cookie} (hs : reported seqn) :
      Reason announced reported (.acknowledged seqn, k) (.ok ())
  | other {w : WaitUntil} {k : Cookie} (hqueue : w ≠ .txQueueEmpty)
      (hack : w.isAcknowledged = false) : Reason announced reported (w, k) (.ok ())

/-- Nothing is suspended, and what leaves the suspended set is told a result
for one of the reasons. -/
structure Told (announced : Connection Addr Time → Prop) (reported : SeqN → Prop)
    (c c' : Connection Addr Time) : Prop where
  counter : c'.events.nextCookie = c.events.nextCookie
  told : ∃ log : List ((WaitUntil × Cookie) × Except Error Unit),
    c'.answers = c.answers ++ log.map (fun t => (t.1.2, t.2)) ∧
      (log.map Prod.fst ++ c'.events.suspended).Perm c.events.suspended ∧
      ∀ t ∈ log, Reason announced reported t.1 t.2

namespace Told

variable {announced : Connection Addr Time → Prop} {reported : SeqN → Prop}
  {c c₁ c' : Connection Addr Time}

theorem of_eq (hevents : c'.events = c.events) (hanswers : c'.answers = c.answers) :
    Told announced reported c c' where
  counter := by rw [hevents]
  told := ⟨[], by rw [hanswers, List.map_nil, List.append_nil], by rw [hevents]; exact .refl _,
    nofun⟩

theorem refl (c : Connection Addr Time) : Told announced reported c c := of_eq rfl rfl

theorem trans (h₁ : Told announced reported c c₁) (h₂ : Told announced reported c₁ c') :
    Told announced reported c c' := by
  obtain ⟨log₁, hlog₁, hperm₁, hwhy₁⟩ := h₁.told
  obtain ⟨log₂, hlog₂, hperm₂, hwhy₂⟩ := h₂.told
  refine ⟨h₂.counter.trans h₁.counter, log₁ ++ log₂, ?_, ?_, ?_⟩
  · rw [hlog₂, hlog₁, List.map_append, List.append_assoc]
  · rw [List.map_append, List.append_assoc]
    exact (hperm₂.append_left _).trans hperm₁
  · intro t ht
    rcases List.mem_append.mp ht with ht | ht
    · exact hwhy₁ t ht
    · exact hwhy₂ t ht

/-- Only the events and the callbacks before the step matter. -/
theorem from_eq (h : Told announced reported c₁ c') (hevents : c₁.events = c.events)
    (hanswers : c₁.answers = c.answers) : Told announced reported c c' :=
  (of_eq hevents hanswers).trans h

theorem triggerEvent {f : WaitUntil → Bool} {r : Except Error Unit}
    (h : ∀ p ∈ c.events.suspended, f p.1 = true → Reason announced reported p r) :
    Told announced reported c (c.triggerEvent f r) where
  counter := rfl
  told := by
    refine ⟨(c.events.suspended.filter fun p : WaitUntil × Cookie => f p.1).map fun p => (p, r),
      ?_, ?_, ?_⟩
    · rw [List.map_map]
      exact UserData.answers_foldl_event c.userData _ r
    · rw [List.map_map, triggerEvent_suspended]
      change ((c.events.suspended.filter fun p : WaitUntil × Cookie => f p.1).map id ++ _).Perm _
      rw [List.map_id]
      exact List.filter_append_perm (fun p : WaitUntil × Cookie => f p.1) c.events.suspended
    · intro t ht
      obtain ⟨p, hp, rfl⟩ := List.mem_map.mp ht
      obtain ⟨hp, hf⟩ := List.mem_filter.mp hp
      exact h p hp hf

/-- An error needs no reason. -/
theorem fail (c : Connection Addr Time) (f : WaitUntil → Bool) (e : Error) :
    Told announced reported c (c.triggerEvent f (.error e)) :=
  triggerEvent fun _ _ _ => .failed

/-- Waiters of a kind that is about neither the output queue nor acknowledgements. -/
theorem release (c : Connection Addr Time) {f : WaitUntil → Bool}
    (hf : ∀ w, f w = true → w ≠ .txQueueEmpty ∧ w.isAcknowledged = false) :
    Told announced reported c (c.triggerEvent f (.ok ())) :=
  triggerEvent fun p _ hp => .other (hf p.1 hp).1 (hf p.1 hp).2

/-- The waiters for an empty queue, on an announcing connection. -/
theorem announce (hm : announced c) :
    Told announced reported c (c.triggerEvent (· == .txQueueEmpty) (.ok ())) := by
  apply triggerEvent
  rintro ⟨w, k⟩ hp hw
  obtain rfl := eq_of_beq hw
  exact .emptied hm hp

/-- The senders whose number is reported. -/
theorem report {stop : SeqN} (hs : ∀ seqn : SeqN, seqn.lte stop = true → reported seqn) :
    Told announced reported c (c.triggerEvent
      (fun w => match w with
        | .acknowledged seqn => seqn.lte stop
        | _ => false) (.ok ())) := by
  apply triggerEvent
  rintro ⟨w, k⟩ hp hw
  cases w with
  | acknowledged seqn => exact .acked (hs seqn hw)
  | _ => cases hw

theorem send (c : Connection Addr Time) (seg : SegmentMeta) :
    Told announced reported c (c.send seg) :=
  of_eq rfl (UserData.answers_send _ _ _)

theorem clear (c : Connection Addr Time) : Told announced reported c c.clear :=
  from_eq (fail _ _ _) rfl rfl

theorem clearReTxRange {stop : SeqN}
    (hs : ∀ seqn : SeqN, seqn.lte stop = true → reported seqn) :
    Told announced reported c (c.clearReTxRange stop) := by
  unfold Connection.clearReTxRange
  exact (report hs).trans (of_eq rfl rfl)

theorem entered {state : ConnectionState}
    (h : state.readClosed = true → announced { c with connectionState := state }) :
    Told announced reported c (c.entered state) := by
  have released (w : WaitUntil) (hw : w ≠ .txQueueEmpty ∧ w.isAcknowledged = false)
      {c₀ c₁ : Connection Addr Time} (h₀ : Told announced reported c₀ c₁) (p : Prop)
      [Decidable p] :
      Told announced reported c₀ (if p then c₁.triggerEvent (· == w) (.ok ()) else c₁) := by
    split
    · refine h₀.trans (release _ fun w' hw' => ?_)
      obtain rfl := eq_of_beq hw'
      exact hw
    · exact h₀
  have hqueue : Told announced reported c (if state.readClosed = true then
      Connection.triggerEvent { c with connectionState := state } (· == .txQueueEmpty) (.ok ())
      else { c with connectionState := state }) := by
    split
    · rename_i hread
      exact from_eq (announce (h hread)) rfl rfl
    · exact of_eq rfl rfl
  unfold Connection.entered
  cases state with
  | established t r cc ca =>
      have hopen := hqueue.trans (release _ fun w (hw : (w == .established) = true) => by
        obtain rfl := eq_of_beq hw
        exact ⟨nofun, rfl⟩)
      exact released .bothClosed ⟨nofun, rfl⟩ (released .rxClosed ⟨nofun, rfl⟩
        (released .txClosed ⟨nofun, rfl⟩ hopen _) _) _
  | _ => exact hqueue

theorem opened (c : Connection Addr Time) : Told announced reported c c.opened := by
  unfold Connection.opened
  split
  · exact entered nofun
  · exact refl c

theorem taken {q : BlobQueue} (hq : q.bytes = c.tx.tx.bytes.drop c.outLimit)
    (h : ∀ m, c.SendAckAnnounces m → announced m) : Told announced reported c (c.taken q) := by
  have hqueue : Told announced reported c (c.withQueue q) := of_eq rfl rfl
  have hdrained : Told announced reported c (c.drained q) := by
    unfold Connection.drained
    split
    · rename_i hempty
      exact hqueue.trans (announce (h _ (.read hq hempty.1 hempty.2.1 hempty.2.2)))
    · exact hqueue
  unfold Connection.taken
  split
  · rename_i hfin
    exact hdrained.trans (entered fun hread => h _ (.fin hq hfin hread))
  · exact hdrained

variable [UserTime Time]

theorem setTimerReTx (c : Connection Addr Time) (d : Duration) :
    Told announced reported c (c.setTimerReTx d) :=
  of_eq rfl (UserData.answers_addTimeout _ _)

theorem setTimerTimewait (c : Connection Addr Time) (d : Duration) :
    Told announced reported c (c.setTimerTimewait d) :=
  of_eq rfl (UserData.answers_addTimeout _ _)

theorem stateSet {state : ConnectionState} (h : ∀ m, c.SetStateAnnounces state m → announced m) :
    Told announced reported c (c.stateSet state) := by
  have hentered : Told announced reported c (c.entered state) :=
    entered fun hread => h _ (.entered hread)
  unfold Connection.stateSet
  split
  · have hover : Told announced reported c
        ((c.entered (.established .closed .closed true true)).entered .timeWait) :=
      hentered.trans (entered fun _ => h _ .wait)
    exact hover.trans (from_eq (setTimerTimewait _ _) rfl rfl)
  · exact hentered.trans (clear _)
  · exact hentered

theorem emit (c : Connection Addr Time) (seg : SegmentMeta) :
    Told announced reported c (c.emit seg) := by
  unfold Connection.emit
  dsimp only
  split
  · exact refl c
  · have hsent : Told announced reported c ({ c with tx := c.tx.onSend seg }.send seg) :=
      from_eq (send _ _) rfl rfl
    split
    · exact hsent.trans (setTimerReTx _ _)
    · exact hsent

theorem sendAck (hc : c.sendAck = .ok c') (h : ∀ m, c.SendAckAnnounces m → announced m) :
    Told announced reported c c' := by
  obtain ⟨q, hq, -, rfl⟩ := sendAck_eq hc
  exact (taken hq h).trans (emit _ _)

theorem onNewAck {seg : SegmentMeta} (hc : c.onNewAck seg = .ok c')
    (hs : ∀ seqn : SeqN, seqn.lte seg.ackn = true → reported seqn) :
    Told announced reported c c' := by
  simp only [Connection.onNewAck, Fallible.bind_ok_iff, Fallible.pure_ok_iff] at hc
  obtain ⟨w, -, rfl⟩ := hc
  refine .trans ?_ (report hs)
  generalize hacked : Connection.clearReTxRange _ seg.ackn = c₁
  have h : Told announced reported c c₁ := by
    rw [← hacked]
    refine .trans ?_ (clearReTxRange hs)
    refine from_eq (release _ ?_) rfl rfl
    intro w hw
    cases w with
    | recv => exact ⟨WaitUntil.noConfusion, rfl⟩
    | _ => cases hw
  split
  · exact h.trans (of_eq rfl rfl)
  · exact h.trans (from_eq (setTimerReTx _ _) rfl rfl)

theorem takes {seg : SegmentMeta} (hc : c.Takes seg c') (hs : c.tx.unack ≠ seg.ackn →
    ∀ seqn : SeqN, seqn.lte seg.ackn = true → reported seqn) :
    Told announced reported c c' := by
  unfold Takes at hc
  split at hc
  · rename_i hne
    exact (opened c).trans (onNewAck hc (hs hne))
  · obtain rfl := Except.ok.inj hc
    exact opened c

theorem onFinAcked {ackn : SeqN} (hc : c.onFinAcked ackn = .ok c')
    (h : ∀ r cc ca m, c.connectionState = .established .fin r cc ca → ackn = c.tx.next →
      c.SetStateAnnounces (.established .closed r cc ca) m → announced m) :
    Told announced reported c c' := by
  rcases onFinAcked_ok_iff.mp hc with ⟨r, cc, ca, hst, hackn, -, -, rfl⟩ | ⟨-, rfl⟩
  · exact stateSet fun m => h r cc ca m hst hackn
  · exact refl _

/-- The FIN of the peer announces nothing: the read side is not closed by it. -/
theorem onFin {isNew : Bool} (hc : c.onFin isNew = .ok c') : Told announced reported c c' := by
  have hreaders : Told announced reported c (c.triggerEvent WaitUntil.isRecv (.ok ())) := by
    refine release c fun w hw => ?_
    cases w with
    | recv => exact ⟨nofun, rfl⟩
    | _ => cases hw
  have hopen {t : ChannelState} {cc ca : Bool} {c₀ m : Connection Addr Time}
      (hm : c₀.SetStateAnnounces (.established t .fin cc ca) m) : announced m := by
    cases hm with
    | entered hread => cases hread
  unfold Connection.onFin at hc
  split at hc
  case h_1 | h_2 | h_3 =>
    obtain rfl := Fallible.pure_ok_iff.mp hc
    exact refl c
  case h_4 =>
    split at hc
    · obtain rfl := Fallible.pure_ok_iff.mp hc
      exact (fail c (fun _ => true) .connectionClosing).trans
        (from_eq (setTimerTimewait _ _) rfl rfl)
    · obtain rfl := Fallible.pure_ok_iff.mp hc
      exact refl c
  case h_5 | h_6 =>
    obtain ⟨-, -, rfl⟩ := setState_ok_iff.mp hc
    exact hreaders.trans (stateSet fun m => hopen)
  case h_7 =>
    obtain rfl := Fallible.pure_ok_iff.mp hc
    exact hreaders

/-- The reasons of an accepted segment. -/
theorem onAccepted {seg : SegmentMeta} (ha : c.Accepts seg)
    (hc : (c.windowed seg).onAccepted seg = .ok c') :
    Told (c.Announces (.onSegment seg)) (c.Reports (.onSegment seg)) (c.windowed seg) c' := by
  have acked {c₁ c₂ : Connection Addr Time} (hack : seg.hasAck = true)
      (hrange : seg.ackn.inRangeInclusive c.tx.unack c.tx.next = true)
      (h₁ : (c.windowed seg).Takes seg c₁) (h₂ : c₁.onFinAcked seg.ackn = .ok c₂) :
      Told (c.Announces (.onSegment seg)) (c.Reports (.onSegment seg)) (c.windowed seg) c₂ := by
    refine (takes h₁ fun hne seqn hlte => ?_).trans (onFinAcked h₂ fun r cc ca m hst hackn hm => ?_)
    · exact .new ha hack hrange hne hlte
    · exact .finAcked ha hack hrange h₁ hst hackn hm
  cases acceptedStep_of_ok hc with
  | unacknowledged _ hfin =>
      split at hfin
      · exact onFin hfin
      · obtain rfl := Except.ok.inj hfin
        exact refl _
  | invalid => exact refl _
  | discarded hack hrange h₁ h₂ =>
      have h := acked hack hrange h₁ h₂
      split
      · exact h.trans (send _ _)
      · exact h
  | @stored c₁ c₂ c₃ _ rx hack hrange h₁ h₂ hseq hrx h₃ hfin =>
      have hstored : Told (c.Announces (.onSegment seg)) (c.Reports (.onSegment seg)) c₂
          { c₂ with rx := rx } := of_eq rfl rfl
      have h := ((acked hack hrange h₁ h₂).trans hstored).trans
        (sendAck h₃ fun m hm => .sendAck (.stored ha hack hrange h₁ h₂ hseq hrx) hm)
      split at hfin
      · exact h.trans (onFin hfin)
      · obtain rfl := Except.ok.inj hfin
        exact h

theorem onSegmentSynSent {seg : SegmentMeta} (hst : c.connectionState = .synSent)
    (hc : c.onSegmentSynSent seg = .ok c') :
    Told (c.Announces (.onSegment seg)) (c.Reports (.onSegment seg)) c c' := by
  have acked (hrange : seg.ackn.inRangeInclusive c.tx.unack c.tx.next = true)
      (hrst : seg.hasRst = false) (hack : seg.hasAck = true) (hsyn : seg.hasSyn = true) :
      Told (c.Announces (.onSegment seg)) (c.Reports (.onSegment seg)) c (c.synAcked seg) := by
    unfold Connection.synAcked
    generalize hacked : Connection.clearReTxRange _ seg.ackn = c₁
    have h : Told (c.Announces (.onSegment seg)) (c.Reports (.onSegment seg)) c c₁ := by
      rw [← hacked]
      exact from_eq
        (clearReTxRange fun seqn hlte => .opening hst hrange hrst hack hsyn hlte) rfl rfl
    exact h.trans (of_eq rfl rfl)
  cases synSentStep_of_ok hc with
  | ignored => exact refl c
  | refused => exact send c _
  | reset => exact (clear c).trans (of_eq rfl rfl)
  | waiting hrange hrst hack hsyn => exact acked hrange hrst hack hsyn
  | opened hrange hrst hack hsyn heq hsend =>
      have hentered : Told (c.Announces (.onSegment seg)) (c.Reports (.onSegment seg))
          (c.synAcked seg) ((c.synAcked seg).entered .fullyOpen) :=
        entered fun hread => absurd hread Bool.false_ne_true
      refine ((acked hrange hrst hack hsyn).trans hentered).trans (sendAck hsend ?_)
      exact fun m hm => .sendAck (.opened hst hrst hack hsyn heq) hm

theorem onSegmentListen {seg : SegmentMeta} (hc : c.onSegmentListen seg = .ok c') :
    Told announced reported c c' := by
  unfold Connection.onSegmentListen at hc
  split at hc
  · obtain rfl := Fallible.pure_ok_iff.mp hc
    exact refl c
  split at hc
  · obtain rfl := Fallible.pure_ok_iff.mp hc
    exact send c _
  split at hc
  · obtain rfl := Fallible.pure_ok_iff.mp hc
    exact refl c
  simp only [Fallible.bind_ok_iff, Fallible.pure_ok_iff, setState_ok_iff, stateSet_synReceived]
    at hc
  obtain ⟨_, -, c₁, ⟨-, -, hc₁⟩, rfl⟩ := hc
  have h : Told announced reported c c₁ := by
    rw [hc₁]
    exact from_eq (entered fun hread => absurd hread Bool.false_ne_true) rfl rfl
  exact h.trans (of_eq rfl (by simp [Connection.answers, Connection.send, Connection.setTimerReTx]))

theorem onSegment {seg : SegmentMeta} (hc : c.onSegment seg = .ok c') :
    Told (c.Announces (.onSegment seg)) (c.Reports (.onSegment seg)) c c' := by
  have sync (hs : c.Peered) (hc : c.onSegmentSynchronized seg = .ok c') :
      Told (c.Announces (.onSegment seg)) (c.Reports (.onSegment seg)) c c' := by
    have hwindow : Told (c.Announces (.onSegment seg)) (c.Reports (.onSegment seg)) c
        (c.windowed seg) := of_eq rfl rfl
    have cleared (state : ConnectionState) (hidle : state.idle = true)
        (c₀ : Connection Addr Time) : Told (c.Announces (.onSegment seg))
          (c.Reports (.onSegment seg)) c₀ (c₀.clear.stateSet state) := by
      have hopen : state.readClosed = false := by
        cases state <;> first | rfl | cases hidle
      refine (clear c₀).trans (stateSet fun m hm => ?_)
      cases hm with
      | entered hread => exact absurd (hopen.symm.trans hread) Bool.false_ne_true
      | wait => cases hidle
    cases synchronizedStep_iff.mp hc with
    | dropped => exact refl c
    | rejected => exact send c _
    | reset _ _ hrst =>
        unfold Connection.onRst at hrst
        split at hrst
        · obtain ⟨-, -, rfl⟩ := setState_ok_iff.mp hrst
          exact hwindow.trans (cleared _ rfl _)
        · obtain ⟨-, -, rfl⟩ := setState_ok_iff.mp hrst
          exact (hwindow.trans (fail _ _ _)).trans (cleared _ rfl _)
        · cases hrst
    | syn _ _ _ hsyn =>
        obtain ⟨-, -, rfl⟩ := setState_ok_iff.mp hsyn
        exact ((hwindow.trans (fail _ _ _)).trans (send _ _)).trans (cleared _ rfl _)
    | accepted hcheck hrst hsyn hacc =>
        exact hwindow.trans (onAccepted ⟨hs, hcheck, hrst, hsyn⟩ hacc)
  unfold Connection.onSegment at hc
  split at hc
  case h_1 | h_2 =>
    simp only [Fallible.bind_ok_iff] at hc
    obtain ⟨resp, -, hc⟩ := hc
    cases resp with
    | none =>
        obtain rfl := Fallible.pure_ok_iff.mp hc
        exact refl c
    | some resp =>
        obtain rfl := Fallible.pure_ok_iff.mp hc
        exact send c _
  case h_3 => exact onSegmentListen hc
  case h_4 hst => exact onSegmentSynSent hst hc
  case h_5 hst | h_6 hst | h_7 hst => exact sync (by simp [Peered, hst, ConnectionState.synced]) hc

theorem onTimeTick {time : Time} (hc : c.onTimeTick time = .ok c') :
    Told announced reported c c' := by
  have resent {c₀ c₁ : Connection Addr Time} (hc : c₀.onTimerReTx = .ok c₁) :
      Told announced reported c₀ c₁ := by
    unfold Connection.onTimerReTx at hc
    split at hc
    case h_1 | h_2 | h_3 | h_4 =>
      split at hc
      · obtain rfl := Fallible.pure_ok_iff.mp hc
        exact refl c₀
      · simp only [Fallible.bind_ok_iff, Fallible.pure_ok_iff] at hc
        obtain ⟨_, -, _, -, rfl⟩ := hc
        refine .trans ?_ (setTimerReTx _ _)
        exact from_eq (send _ _) rfl rfl
    case h_5 =>
      obtain rfl := Fallible.pure_ok_iff.mp hc
      exact refl c₀
    case h_6 | h_7 => cases hc
  simp only [Connection.onTimeTick, Fallible.bind_ok_iff] at hc
  obtain ⟨c₁, h₁, c₂, h₂, hc⟩ := hc
  have htold₁ : Told announced reported c c₁ := by
    split at h₁
    · exact from_eq (resent h₁) rfl rfl
    · obtain rfl := Fallible.pure_ok_iff.mp h₁
      exact refl c
  have htold₂ : Told announced reported c₁ c₂ := by
    split at h₂
    · simp only [onTimerTimewait, Fallible.bind_ok_iff, Fallible.pure_ok_iff] at h₂
      obtain ⟨_, -, rfl⟩ := h₂
      exact from_eq (clear _) rfl rfl
    · obtain rfl := Fallible.pure_ok_iff.mp h₂
      exact refl c₁
  have h := htold₁.trans htold₂
  split at hc
  · obtain rfl := Fallible.pure_ok_iff.mp hc
    refine h.trans (.trans ?_ (clear _))
    exact from_eq (fail _ _ _) rfl rfl
  · obtain rfl := Fallible.pure_ok_iff.mp hc
    exact h

end Told

end Connection

end TcpState
