import TcpState.Connection.TimersHold
import TcpState.Listener.Ledger

/-!
# Connection attempts in the queue

An attempt to connect is known by the address it comes from and the number of
its SYN. The client sends the SYN again until it is answered, and the listening
socket keeps what it admits in the order of arrival.
-/

namespace TcpState

/-- The connection attempt of a SYN. -/
def attempt {Addr : Type} (p : Addr × SegmentMeta) : Addr × SeqN := (p.1, p.2.seqn)

theorem nodup_attempt_concat {Addr : Type} {ps : List (Addr × SegmentMeta)}
    {p : Addr × SegmentMeta} : ((ps ++ [p]).map attempt).Nodup ↔
      attempt p ∉ ps.map attempt ∧ (ps.map attempt).Nodup := by
  rw [List.map_append, List.map_singleton, ← List.concat_eq_append, List.nodup_concat]

namespace ListenSocket

variable {Addr Time : Type} {l : ListenSocket Addr Time} {seg : SegmentMeta}

/-- `on_segment` puts the segment in the queue. -/
def Admits (l : ListenSocket Addr Time) (seg : SegmentMeta) : Prop :=
  seg.hasRst = false ∧ seg.hasAck = false ∧ seg.hasSyn = true ∧ l.isOpen = true ∧
    l.queue.length < l.backlog

instance (l : ListenSocket Addr Time) (seg : SegmentMeta) : Decidable (l.Admits seg) := by
  unfold Admits
  infer_instance

theorem queue_onSegment (l : ListenSocket Addr Time) (addr : Addr) (seg : SegmentMeta) :
    (l.onSegment addr seg).queue =
      if l.Admits seg then l.queue ++ [(addr, seg)] else l.queue := by
  have harrived := l.arrived addr seg
  generalize l.onSegment addr seg = l' at harrived
  cases harrived with
  | ignored h =>
      rw [if_neg]
      rintro ⟨hrst, -, hsyn, -⟩
      rcases h with h | ⟨-, -, h⟩
      · exact Bool.false_ne_true (hrst.symm.trans h)
      · exact Bool.false_ne_true (h.symm.trans hsyn)
  | refused _ h =>
      rw [if_neg]
      rintro ⟨-, hack, -, hopen, -⟩
      rcases h with h | h
      · exact Bool.false_ne_true (hack.symm.trans h)
      · exact Bool.false_ne_true (h.symm.trans hopen)
  | full _ _ _ _ hfull =>
      rw [if_neg]
      exact fun hadmits => absurd hadmits.2.2.2.2 (Nat.not_lt.mpr hfull)
  | queued hrst hack hsyn hopen hroom => rw [if_pos ⟨hrst, hack, hsyn, hopen, hroom⟩]
  | woke hrst hack hsyn hopen hroom => rw [if_pos ⟨hrst, hack, hsyn, hopen, hroom⟩]

end ListenSocket

namespace Ledger

variable {Addr Time : Type} {s s' : Ledger Addr Time} {v : Visit Addr Time}

/-- What a step does to the queue. -/
inductive QueueStep (s : Ledger Addr Time) (v : Visit Addr Time) (s' : Ledger Addr Time) : Prop
  | admitted {addr : Addr} {seg : SegmentMeta} (hv : v = .onSegment addr seg)
      (hadmits : s.socket.Admits seg)
      (hqueue : s'.socket.queue = s.socket.queue ++ [(addr, seg)])
      (hqueued : s'.queued = s.queued ++ [(addr, seg)])
  | accepted {p : Addr × SegmentMeta} (hqueue : s.socket.queue = p :: s'.socket.queue)
      (hqueued : s'.queued = s.queued)
  | emptied (hqueue : s'.socket.queue = []) (hqueued : s'.queued = s.queued)
  | kept (hqueue : s'.socket.queue = s.socket.queue) (hqueued : s'.queued = s.queued)

theorem queueStep_onSegment (s : Ledger Addr Time) (addr : Addr) (seg : SegmentMeta) :
    QueueStep s (.onSegment addr seg) (s.afterSegment addr seg) := by
  have hqueue := s.socket.queue_onSegment addr seg
  split at hqueue
  · rename_i hadmits
    refine .admitted rfl hadmits hqueue ?_
    change s.queued ++ (s.socket.onSegment addr seg).queue.drop _ = _
    rw [hqueue, List.drop_left]
  · refine .kept hqueue ?_
    change s.queued ++ (s.socket.onSegment addr seg).queue.drop _ = _
    rw [hqueue, List.drop_length, List.append_nil]

/-- The attempts whose SYN waits in the queue. -/
def waiting (s : Ledger Addr Time) : List (Addr × SeqN) := s.socket.queue.map attempt

/-- The attempts `call_accept` has answered, in the order of the calls. -/
def answered (s : Ledger Addr Time) : List (Addr × SeqN) :=
  (s.queued.take s.returned.length).map attempt

/-- No SYN arrives again while it waits in the queue. -/
def Unrepeated (s : Ledger Addr Time) : Visit Addr Time → Prop
  | .onSegment addr seg => s.socket.Admits seg → (addr, seg.seqn) ∉ s.waiting
  | _ => True

/-- No SYN arrives again after it has been accepted. -/
def Unanswered (s : Ledger Addr Time) : Visit Addr Time → Prop
  | .onSegment addr seg => s.socket.Admits seg → (addr, seg.seqn) ∉ s.answered
  | _ => True

instance [DecidableEq Addr] (s : Ledger Addr Time) (v : Visit Addr Time) :
    Decidable (s.Unrepeated v) := by
  cases v <;> (unfold Unrepeated; infer_instance)

instance [DecidableEq Addr] (s : Ledger Addr Time) (v : Visit Addr Time) :
    Decidable (s.Unanswered v) := by
  cases v <;> (unfold Unanswered; infer_instance)

/-- A SYN that is not queued yet is all the queue needs to stay free of
repetitions. -/
theorem nodup_waiting_onSegment (h : s.waiting.Nodup) (addr : Addr) (seg : SegmentMeta) :
    (s.afterSegment addr seg).waiting.Nodup ↔ s.Unrepeated (.onSegment addr seg) := by
  have hqueue := s.socket.queue_onSegment addr seg
  change ((s.socket.onSegment addr seg).queue.map attempt).Nodup ↔
    (s.socket.Admits seg → (addr, seg.seqn) ∉ s.waiting)
  split at hqueue
  · rename_i hadmits
    rw [hqueue, nodup_attempt_concat]
    exact ⟨fun hnodup _ => hnodup.1, fun hnew => ⟨hnew hadmits, h⟩⟩
  · rename_i hrejects
    rw [hqueue]
    exact ⟨fun _ hadmits => absurd hadmits hrejects, fun _ => h⟩

theorem QueueStep.nodup_waiting (h : s.waiting.Nodup) (hnew : s.Unrepeated v)
    (hstep : QueueStep s v s') : s'.waiting.Nodup := by
  unfold waiting at h ⊢
  cases hstep with
  | admitted hv hadmits hqueue =>
      subst hv
      rw [hqueue, nodup_attempt_concat]
      exact ⟨hnew hadmits, h⟩
  | accepted hqueue =>
      rw [hqueue, List.map_cons] at h
      exact (List.nodup_cons.mp h).2
  | emptied hqueue =>
      rw [hqueue]
      exact List.nodup_nil
  | kept hqueue =>
      rw [hqueue]
      exact h

variable [UserTime Time]

theorem queueStep (hs : Step s v s') : QueueStep s v s' := by
  cases hs with
  | onSegment addr seg => exact queueStep_onSegment s addr seg
  | callAccept _ hr =>
      cases ListenSocket.accepted_of_ok hr with
      | closed => exact .kept rfl rfl
      | popped _ hqueue => exact .accepted hqueue rfl
      | suspended => exact .kept rfl rfl
  | callClose => exact .emptied s.socket.callClose_spec.1 rfl
  | reorder => exact .kept rfl rfl

/-- The accepted segments are the first of those that entered the queue. -/
theorem Balanced.taken (h : s.Balanced) : ∃ drained,
    s.queued = s.queued.take s.returned.length ++ drained ++ s.socket.queue ∧
      List.Forall₂ (Opens s.socket.options) (s.queued.take s.returned.length) s.returned ∧
        (s.closed = false → drained = []) := by
  obtain ⟨taken, drained, hqueued, hreturned, hrefusals⟩ := h.fate
  have htake : s.queued.take s.returned.length = taken := by
    rw [hqueued, ← hreturned.length_eq, List.append_assoc, List.take_left]
  rw [htake]
  exact ⟨drained, hqueued, hreturned, fun hlive => h.undrained hlive hrefusals⟩

/-- An open socket has accepted or still holds whatever entered its queue. -/
theorem Balanced.attempts_eq (h : s.Balanced) (hopen : s.socket.isOpen = true) :
    s.queued.map attempt = s.answered ++ s.waiting := by
  obtain ⟨drained, hqueued, -, hnone⟩ := h.taken
  rw [hnone (h.live hopen), List.append_nil] at hqueued
  rw [answered, waiting, ← List.map_append, ← hqueued]

theorem Balanced.attempts_sublist (h : s.Balanced) :
    (s.answered ++ s.waiting).Sublist (s.queued.map attempt) := by
  obtain ⟨drained, hqueued, -, -⟩ := h.taken
  rw [answered, waiting, ← List.map_append]
  refine List.Sublist.map attempt ?_
  conv_rhs => rw [hqueued]
  exact (List.sublist_append_left _ _).append_right _

/-- Each attempt enters the queue at most once. -/
theorem nodup_queued (hrun : Transition.ReachableUnder (system Addr Time)
    (fun s v => Unrepeated s v ∧ Unanswered s v) s) : (s.queued.map attempt).Nodup := by
  refine Transition.ReachableUnder.invariant (P := fun s => (s.queued.map attempt).Nodup)
    ?_ ?_ hrun
  · rintro s ⟨backlog, userData, rfl⟩
    exact List.nodup_nil
  · intro s v s' run h hallowed hs
    cases queueStep hs with
    | admitted hv hadmits hqueue hqueued =>
        subst hv
        rw [hqueued, nodup_attempt_concat]
        refine ⟨?_, h⟩
        rw [(balanced_of_reachable run).attempts_eq hadmits.2.2.2.1, List.mem_append, not_or]
        exact ⟨hallowed.2 hadmits, hallowed.1 hadmits⟩
    | accepted _ hqueued => rwa [hqueued]
    | emptied _ hqueued => rwa [hqueued]
    | kept _ hqueued => rwa [hqueued]

/-- While no queued SYN arrives again, no attempt has two places in the queue,
and a SYN that arrives keeps it so exactly if it is not queued yet. When no
accepted SYN arrives again either, an attempt has at most one connection. -/
theorem one_connection_per_syn
    (run : Transition.ReachableUnder (system Addr Time) Unrepeated s) :
    s.waiting.Nodup ∧
    (∀ addr seg, (s.afterSegment addr seg).waiting.Nodup ↔ s.Unrepeated (.onSegment addr seg)) ∧
    (Transition.ReachableUnder (system Addr Time) (fun s v => Unrepeated s v ∧ Unanswered s v) s →
      List.Forall₂ (Opens s.socket.options) (s.queued.take s.returned.length) s.returned ∧
        (s.answered ++ s.waiting).Nodup) := by
  have hwaiting : s.waiting.Nodup := by
    refine Transition.ReachableUnder.invariant (P := fun s => s.waiting.Nodup) ?_ ?_ run
    · rintro s ⟨backlog, userData, rfl⟩
      exact List.nodup_nil
    · intro s v s' _ h hallowed hs
      exact (queueStep hs).nodup_waiting h hallowed
  have hbalanced := balanced_of_reachable run.reachable
  refine ⟨hwaiting, nodup_waiting_onSegment hwaiting, fun hrun => ⟨?_, ?_⟩⟩
  · obtain ⟨-, -, hreturned, -⟩ := hbalanced.taken
    exact hreturned
  · exact (nodup_queued hrun).sublist hbalanced.attempts_sublist

theorem initial_start (backlog : Nat) (userData : UserData Addr Time) :
    (system Addr Time).init (start backlog userData) := ⟨backlog, userData, rfl⟩

/-- The state after a visit, if it does not panic. -/
def next (s : Ledger Addr Time) : Visit Addr Time → Option (Ledger Addr Time)
  | .onSegment addr seg => some (s.afterSegment addr seg)
  | .callAccept retrying makeUserData =>
      if ∀ cookie ∈ retrying, cookie ∈ s.woken then
        match s.socket.callAccept makeUserData with
        | .ok (socket, r) => some (s.afterAccept retrying socket r)
        | .error _ => none
      else none
  | .callClose => some s.afterClose
  | .reorder _ => none

theorem step_of_next (s : Ledger Addr Time) (v : Visit Addr Time) (s' : Ledger Addr Time)
    (h : s.next v = some s') : Step s v s' := by
  unfold next at h
  split at h
  · obtain rfl := Option.some.inj h
    exact .onSegment _ _
  · split at h
    · rename_i hretry
      split at h
      · rename_i hr
        obtain rfl := Option.some.inj h
        exact .callAccept hretry hr
      · cases h
    · cases h
  · obtain rfl := Option.some.inj h
    exact .callClose
  · cases h

/-- A SYN from the address `true`. -/
def arrival (n : Nat) : Visit Bool Nat :=
  .onSegment true ⟨BitVec.ofNat 32 n, 0#32, 1000#16, .syn, []⟩

def user : UserData Bool Nat := ⟨[], fun _ => 0#32, fun _ => 0⟩

def accepting : Visit Bool Nat := .callAccept none fun _ => user

/-- Two attempts of one client, one of them accepted. -/
theorem one_connection_per_syn_two : ∃ s : Ledger Bool Nat,
    s.answered = [(true, 100#32)] ∧ s.waiting = [(true, 200#32)] ∧
      (s.answered ++ s.waiting).Nodup := by
  obtain ⟨s, hrun, hanswered, hwaiting⟩ : ∃ s : Ledger Bool Nat,
      Transition.ReachableUnder (system Bool Nat) (fun s v => Unrepeated s v ∧ Unanswered s v) s ∧
        s.answered = [(true, 100#32)] ∧ s.waiting = [(true, 200#32)] :=
    Transition.exists_reachableUnder step_of_next
      (initial_start 2 user) [arrival 100, arrival 200, accepting]
      (by decide)
  exact ⟨s, hanswered, hwaiting,
    ((one_connection_per_syn (hrun.mono fun _ _ h => h.1)).2.2 hrun).2⟩

/-- A SYN that is sent again before the first accept takes two places, and two
accepts make two connections of it. -/
theorem two_connections_per_syn :
    (¬ ∀ s : Ledger Bool Nat,
      Transition.ReachableUnder (system Bool Nat) Unanswered s → s.waiting.Nodup) ∧
    ¬ ∀ s : Ledger Bool Nat,
      Transition.ReachableUnder (system Bool Nat) Unanswered s → s.answered.Nodup := by
  constructor
  · intro hall
    obtain ⟨s, hrun, hwaiting⟩ : ∃ s : Ledger Bool Nat,
        Transition.ReachableUnder (system Bool Nat) Unanswered s ∧ ¬ s.waiting.Nodup :=
      Transition.exists_reachableUnder step_of_next
        (initial_start 2 user) [arrival 100, arrival 100] (by decide)
    exact hwaiting (hall s hrun)
  · intro hall
    obtain ⟨s, hrun, hanswered⟩ : ∃ s : Ledger Bool Nat,
        Transition.ReachableUnder (system Bool Nat) Unanswered s ∧ ¬ s.answered.Nodup :=
      Transition.exists_reachableUnder step_of_next
        (initial_start 2 user)
        [arrival 100, arrival 100, accepting, accepting] (by decide)
    exact hanswered (hall s hrun)

/-- What waits in the queue asks for a connection. -/
theorem asks_of_queued (run : Reachable s) {p : Addr × SegmentMeta} (hp : p ∈ s.socket.queue) :
    p.2.hasRst = false ∧ p.2.hasAck = false ∧ p.2.hasSyn = true := by
  refine Transition.ReachableUnder.invariant (P := fun s => ∀ p ∈ s.socket.queue,
    p.2.hasRst = false ∧ p.2.hasAck = false ∧ p.2.hasSyn = true) ?_ ?_ run p hp
  · rintro s ⟨backlog, userData, rfl⟩ p hp
    cases hp
  · intro s v s' _ h _ hs p hp
    cases queueStep hs with
    | admitted _ hadmits hqueue =>
        rw [hqueue, List.mem_append, List.mem_singleton] at hp
        rcases hp with hp | rfl
        · exact h p hp
        · exact ⟨hadmits.1, hadmits.2.1, hadmits.2.2.1⟩
    | accepted hqueue => exact h p (hqueue ▸ List.mem_cons_of_mem _ hp)
    | emptied hqueue =>
        rw [hqueue] at hp
        cases hp
    | kept hqueue => exact h p (hqueue ▸ hp)

/-- The connection has answered a SYN. The user data is the one it was made
with. -/
structure Greets (userData : UserData Addr Time) (seg : SegmentMeta) (c : Connection Addr Time) :
    Prop where
  state : c.connectionState = .synReceived
  ackd : c.rx.ackd = seg.seqn + 1#32
  initSeqn : c.tx.initSeqn = userData.newSeqn.1
  unack : c.tx.unack = c.tx.initSeqn
  sent : ∃ reply : SegmentMeta, c.userData.sent = userData.sent ++ [reply] ∧
    reply.flags = .syn ||| .ack ∧ reply.seqn = c.tx.initSeqn ∧ reply.ackn = seg.seqn + 1#32 ∧
      c.tx.reTx = [reply]
  armed : c.timers.reTx.isSome = true

theorem greets_listening {addr : Addr} {options : SocketOptions} {userData : UserData Addr Time}
    {seg : SegmentMeta} {c : Connection Addr Time}
    (hc : (Connection.listening addr options userData).onSegment seg = .ok c)
    (hanswered : (Connection.listening addr options userData).SynAnswered seg c) :
    Greets userData seg c := by
  have hreach : Connection.Reachable c :=
    Connection.Reachable.next (.init (Connection.initial_listening addr options userData))
      (Connection.step_onSegment.mpr ⟨hc, rfl⟩)
  have hsize : ((Connection.listening addr options userData).synReply seg).seqSize ≠ 0#32 := by
    rw [seqSize_of_syn (.inr rfl) rfl]
    decide
  have hre : c.tx.reTx = [(Connection.listening addr options userData).synReply seg] := by
    rw [hanswered.tx, TxBuffer.onSend_reTx, if_neg hsize]
    rfl
  have hunack : c.tx.unack = userData.newSeqn.1 := by
    rw [hanswered.tx, TxBuffer.onSend_unack]
    rfl
  have hinit : c.tx.initSeqn = userData.newSeqn.1 := by
    rw [hanswered.tx, TxBuffer.onSend_initSeqn]
    rfl
  constructor
  · exact hanswered.state
  · rw [hanswered.rx]
    rfl
  · exact hinit
  · exact hunack.trans hinit.symm
  · exact ⟨_, hanswered.sent, rfl, hinit.symm, rfl, hre⟩
  · exact (Connection.Reachable.timersHold hreach).armed (by rw [hre]; exact List.cons_ne_nil _ _)

/-- The accept that takes a SYN from the queue returns a connection that has
answered it, exactly if the SYN carries no data. -/
theorem accepts_queued_iff (run : Reachable s) {p : Addr × SegmentMeta}
    {queue : List (Addr × SegmentMeta)} (hqueue : s.socket.queue = p :: queue)
    (makeUserData : ListenSocket Addr Time → UserData Addr Time) :
    (∃ c, s.socket.callAccept makeUserData =
        .ok ({ s.socket with queue := queue }, .ok (p.1, c)) ∧
      Greets (makeUserData { s.socket with queue := queue }) p.2 c) ↔ p.2.data = [] := by
  obtain ⟨addr, seg⟩ := p
  obtain ⟨hrst, hack, hsyn⟩ := asks_of_queued run (hqueue ▸ List.mem_cons_self)
  have hbalanced := balanced_of_reachable run
  have hopen : s.socket.isOpen = true := by
    rw [hbalanced.isOpen, Bool.not_eq_true']
    by_contra hclosed
    have hnil := (hbalanced.emptied (by simpa using hclosed)).1
    exact List.cons_ne_nil _ _ (hqueue.symm.trans hnil)
  -- the connection is made for the segment and gets it at once
  have answers {l : ListenSocket Addr Time} {c : Connection Addr Time}
      (hr : s.socket.callAccept makeUserData = .ok (l, .ok (addr, c))) : seg.data = [] ∧
        Greets (makeUserData { s.socket with queue := queue }) seg c := by
    cases ListenSocket.accepted_of_ok hr with
    | popped _ hqueue' hc =>
        obtain ⟨hhead, rfl⟩ := List.cons.inj (hqueue'.symm.trans hqueue)
        obtain rfl := (Prod.mk.inj hhead).2
        cases Connection.listened_of_ok hc with
        | ignored h =>
            rcases h with h | ⟨-, h⟩
            · exact absurd (hrst.symm.trans h) Bool.false_ne_true
            · exact absurd (h.symm.trans hsyn) Bool.false_ne_true
        | refused _ h => exact absurd (hack.symm.trans h) Bool.false_ne_true
        | answered _ _ _ hdata hanswered => exact ⟨hdata, greets_listening hc hanswered⟩
  constructor
  · rintro ⟨c, hr, -⟩
    exact (answers hr).1
  · intro hdata
    obtain ⟨c, hr⟩ := callAccept_returns makeUserData hopen hqueue hdata
    exact ⟨c, hr, (answers hr).2⟩

/-- A SYN with every other flag that is not ACK or RST, and without data. -/
theorem accepts_queued_iff_flags : ∃ (s : Ledger Bool Nat) (seg : SegmentMeta)
    (queue : List (Bool × SegmentMeta)), seg.hasSyn = true ∧ seg.hasFin = true ∧
      s.socket.queue = (true, seg) :: queue ∧
        ∃ c, s.socket.callAccept (fun _ => user) =
          .ok ({ s.socket with queue := queue }, .ok (true, c)) ∧ Greets user seg c := by
  let seg : SegmentMeta := ⟨100#32, 0#32, 1000#16, .syn ||| .fin, []⟩
  have run : Reachable ((start 2 user).afterSegment true seg) :=
    (Transition.Reachable.init (initial_start 2 user)).step (.onSegment true seg)
  have hqueue : ((start 2 user).afterSegment true seg).socket.queue = [(true, seg)] := by
    decide
  exact ⟨_, seg, [], by decide, by decide, hqueue,
    (accepts_queued_iff run hqueue fun _ => user).mpr rfl⟩

/-- A SYN with one byte of data stops the thread that accepts it. -/
theorem queued_data_panics : ¬ ∀ s : Ledger Bool Nat, Reachable s →
    ∀ p queue, s.socket.queue = p :: queue →
      ∃ c, s.socket.callAccept (fun _ => user) =
        .ok ({ s.socket with queue := queue }, .ok (p.1, c)) := by
  intro hall
  obtain ⟨s, hrun, hqueue, hpanics⟩ : ∃ s : Ledger Bool Nat, Reachable s ∧
      s.socket.queue = [(true, ⟨100#32, 0#32, 1000#16, .syn, [7]⟩)] ∧
        (s.socket.callAccept fun _ => user).isOk = false :=
    Transition.exists_reachableUnder step_of_next (initial_start 2 user)
      [.onSegment true ⟨100#32, 0#32, 1000#16, .syn, [7]⟩] (by decide)
  obtain ⟨c, hc⟩ := hall s hrun _ _ hqueue
  rw [hc] at hpanics
  cases hpanics

end Ledger

end TcpState
