import TcpState.Connection.SegmentPanic
import TcpState.Listener.Steps

/-!
# A listening socket and its account

Next to a listening socket an account is kept of what entered the queue, what
`call_accept` returned, what `call_close` sent, and which accepts have been
resumed and are still to retry. The account only reads what an operation
changed or returned.
-/

namespace TcpState

structure Ledger (Addr Time : Type) where
  socket : ListenSocket Addr Time
  /-- The segments that entered the queue, in the order of arrival. -/
  queued : List (Addr × SegmentMeta)
  /-- The connections `call_accept` returned, in the order of the calls. -/
  returned : List (Addr × Connection Addr Time)
  /-- The segments `call_close` sent, in order. -/
  refusals : List (Addr × SegmentMeta)
  /-- The accepts resumed to retry that have not retried yet. -/
  woken : List Cookie
  /-- `call_close` has been called. -/
  closed : Bool

/-- What can be done to a listening socket. -/
inductive Visit (Addr Time : Type)
  | onSegment (addr : Addr) (seg : SegmentMeta)
  /-- A new caller, or a resumed one that retries. -/
  | callAccept (retrying : Option Cookie)
      (makeUserData : ListenSocket Addr Time → UserData Addr Time)
  | callClose
  /-- The hash set of suspended accepts may be walked in any order. -/
  | reorder (suspended : List (Unit × Cookie))

namespace Ledger

variable {Addr Time : Type}

/-- A socket as `call_listen` makes it. -/
def start (backlog : Nat) (userData : UserData Addr Time) : Ledger Addr Time where
  socket := .callListen backlog userData
  queued := []
  returned := []
  refusals := []
  woken := []
  closed := false

def afterSegment (s : Ledger Addr Time) (addr : Addr) (seg : SegmentMeta) : Ledger Addr Time :=
  let socket := s.socket.onSegment addr seg
  { s with
    socket := socket
    queued := s.queued ++ socket.queue.drop s.socket.queue.length
    woken := s.woken ++ socket.userData.awakened.drop s.socket.userData.awakened.length }

def afterAccept (s : Ledger Addr Time) (retrying : Option Cookie) (socket : ListenSocket Addr Time)
    (r : Except Error (Addr × Connection Addr Time)) : Ledger Addr Time :=
  { s with
    socket := socket
    returned := s.returned ++ r.toOption.toList
    woken := retrying.elim s.woken fun cookie => s.woken.erase cookie }

def afterClose (s : Ledger Addr Time) : Ledger Addr Time :=
  { s with
    socket := s.socket.callClose
    refusals := s.refusals ++
      s.socket.callClose.userData.outgoing.drop s.socket.userData.outgoing.length
    closed := true }

def afterReorder (s : Ledger Addr Time) (suspended : List (Unit × Cookie)) : Ledger Addr Time :=
  { s with socket := { s.socket with events := { s.socket.events with suspended := suspended } } }

variable [UserTime Time]

inductive Step (s : Ledger Addr Time) : Visit Addr Time → Ledger Addr Time → Prop
  | onSegment (addr : Addr) (seg : SegmentMeta) :
      Step s (.onSegment addr seg) (s.afterSegment addr seg)
  | callAccept {retrying : Option Cookie} {mk : ListenSocket Addr Time → UserData Addr Time}
      {socket : ListenSocket Addr Time} {r : Except Error (Addr × Connection Addr Time)}
      (hretry : ∀ cookie ∈ retrying, cookie ∈ s.woken)
      (hr : s.socket.callAccept mk = .ok (socket, r)) :
      Step s (.callAccept retrying mk) (s.afterAccept retrying socket r)
  | callClose : Step s .callClose s.afterClose
  | reorder {suspended : List (Unit × Cookie)} (h : suspended.Perm s.socket.events.suspended) :
      Step s (.reorder suspended) (s.afterReorder suspended)

/-- The runs of one listening socket. A panic ends the run. -/
def system (Addr Time : Type) [UserTime Time] :
    Transition.System (Ledger Addr Time) (Visit Addr Time) where
  init s := ∃ backlog userData, s = start backlog userData
  step := Step

abbrev Reachable (s : Ledger Addr Time) : Prop := Transition.Reachable (system Addr Time) s

/-- The connection is what a queued segment opens. -/
def Opens (options : SocketOptions) (p : Addr × SegmentMeta) (r : Addr × Connection Addr Time) :
    Prop :=
  r.1 = p.1 ∧ ∃ userData, (Connection.listening p.1 options userData).onSegment p.2 = .ok r.2

/-- What has become of every segment that entered the queue. -/
structure Balanced (s : Ledger Addr Time) : Prop where
  bounded : s.socket.queue.length ≤ s.socket.backlog
  /-- In the order of arrival: returned, refused by `call_close`, still queued. -/
  fate : ∃ taken drained, s.queued = taken ++ drained ++ s.socket.queue ∧
    List.Forall₂ (Opens s.socket.options) taken s.returned ∧
      s.refusals = drained.map fun p => (p.1, ListenSocket.refusal p.2)
  isOpen : s.socket.isOpen = !s.closed
  unrefused : s.closed = false → s.refusals = []
  emptied : s.closed = true → s.socket.queue = [] ∧ s.socket.events.suspended = []

theorem balanced_start (backlog : Nat) (userData : UserData Addr Time) :
    Balanced (start backlog userData) where
  bounded := Nat.zero_le _
  fate := ⟨[], [], rfl, .nil, rfl⟩
  isOpen := rfl
  unrefused := fun _ => rfl
  emptied := fun h => by cases h

variable {s s' : Ledger Addr Time}

theorem Balanced.live (h : s.Balanced) (hopen : s.socket.isOpen = true) : s.closed = false := by
  have hclosed := h.isOpen
  rw [hopen] at hclosed
  simpa using hclosed.symm

/-- Before `call_close` no queued segment has been refused. -/
theorem Balanced.undrained (h : s.Balanced) (hlive : s.closed = false)
    {drained : List (Addr × SegmentMeta)}
    (hrefusals : s.refusals = drained.map fun p => (p.1, ListenSocket.refusal p.2)) :
    drained = [] := by
  have hnone := h.unrefused hlive
  rw [hrefusals] at hnone
  exact List.map_eq_nil_iff.mp hnone

/-- An arrival that adds to the queue within its bound keeps the account. -/
theorem Balanced.arrives (h : s.Balanced) {addr : Addr} {seg : SegmentMeta}
    {l : ListenSocket Addr Time} {new : List (Addr × SegmentMeta)}
    (hl : s.socket.onSegment addr seg = l) (hqueue : l.queue = s.socket.queue ++ new)
    (hopt : l.options = s.socket.options) (hopen : l.isOpen = s.socket.isOpen)
    (hbounded : l.queue.length ≤ l.backlog)
    (hemptied : s.closed = true → l.queue = [] ∧ l.events.suspended = []) :
    (s.afterSegment addr seg).Balanced := by
  obtain ⟨taken, drained, hqueued, hreturned, hrefusals⟩ := h.fate
  constructor
  · change (s.socket.onSegment addr seg).queue.length ≤ (s.socket.onSegment addr seg).backlog
    rw [hl]
    exact hbounded
  · refine ⟨taken, drained, ?_, ?_, hrefusals⟩
    · change s.queued ++ (s.socket.onSegment addr seg).queue.drop _ =
        _ ++ (s.socket.onSegment addr seg).queue
      rw [hl, hqueue, List.drop_left, hqueued, List.append_assoc (taken ++ drained)]
    · change List.Forall₂ (Opens (s.socket.onSegment addr seg).options) taken s.returned
      rw [hl, hopt]
      exact hreturned
  · change (s.socket.onSegment addr seg).isOpen = !s.closed
    rw [hl, hopen, h.isOpen]
  · exact h.unrefused
  · change s.closed = true → (s.socket.onSegment addr seg).queue = [] ∧
      (s.socket.onSegment addr seg).events.suspended = []
    rw [hl]
    exact hemptied

theorem Balanced.onSegment (h : s.Balanced) (addr : Addr) (seg : SegmentMeta) :
    (s.afterSegment addr seg).Balanced := by
  have entered {l : ListenSocket Addr Time} (hl : s.socket.onSegment addr seg = l)
      (hopen : s.socket.isOpen = true) (hroom : s.socket.queue.length < s.socket.backlog)
      (hqueue : l.queue = s.socket.queue ++ [(addr, seg)]) (hback : l.backlog = s.socket.backlog)
      (hopt : l.options = s.socket.options) (hopen' : l.isOpen = s.socket.isOpen) :
      (s.afterSegment addr seg).Balanced := by
    refine h.arrives hl hqueue hopt hopen' ?_ fun hclosed => ?_
    · rw [hqueue, hback, List.length_append]
      exact hroom
    · exact absurd ((h.live hopen).symm.trans hclosed) Bool.false_ne_true
  have kept {l : ListenSocket Addr Time} (hl : s.socket.onSegment addr seg = l)
      (hqueue : l.queue = s.socket.queue) (hback : l.backlog = s.socket.backlog)
      (hopt : l.options = s.socket.options) (hopen' : l.isOpen = s.socket.isOpen)
      (hevents : l.events = s.socket.events) : (s.afterSegment addr seg).Balanced := by
    refine h.arrives hl (hqueue.trans (List.append_nil _).symm) hopt hopen' ?_ ?_
    · rw [hqueue, hback]
      exact h.bounded
    · rw [hqueue, hevents]
      exact h.emptied
  have harrived := s.socket.arrived addr seg
  generalize hl : s.socket.onSegment addr seg = l at harrived
  cases harrived with
  | ignored => exact kept hl rfl rfl rfl rfl rfl
  | refused => exact kept hl rfl rfl rfl rfl rfl
  | full => exact kept hl rfl rfl rfl rfl rfl
  | queued _ _ _ hopen hroom => exact entered hl hopen hroom rfl rfl rfl rfl
  | woke _ _ _ hopen hroom => exact entered hl hopen hroom rfl rfl rfl rfl

theorem Balanced.callAccept (h : s.Balanced) {retrying : Option Cookie}
    {mk : ListenSocket Addr Time → UserData Addr Time} {socket : ListenSocket Addr Time}
    {r : Except Error (Addr × Connection Addr Time)}
    (hr : s.socket.callAccept mk = .ok (socket, r)) :
    (s.afterAccept retrying socket r).Balanced := by
  obtain ⟨taken, drained, hqueued, hreturned, hrefusals⟩ := h.fate
  cases ListenSocket.accepted_of_ok hr with
  | closed =>
      refine ⟨h.bounded, ⟨taken, drained, hqueued, ?_, hrefusals⟩, h.isOpen, h.unrefused, h.emptied⟩
      change List.Forall₂ (Opens s.socket.options) taken (s.returned ++ [])
      rw [List.append_nil]
      exact hreturned
  | @popped hopen addr seg queue c hqueue hc =>
      have hlive := h.live hopen
      obtain rfl := h.undrained hlive hrefusals
      constructor
      · have := h.bounded
        rw [hqueue] at this
        exact Nat.le_of_succ_le this
      · refine ⟨taken ++ [(addr, seg)], [], ?_, ?_, hrefusals⟩
        · change s.queued = taken ++ [(addr, seg)] ++ [] ++ queue
          rw [hqueued, hqueue]
          simp
        · exact List.rel_append hreturned (.cons ⟨rfl, _, hc⟩ .nil)
      · exact h.isOpen
      · exact h.unrefused
      · intro hclosed
        exact absurd (hlive.symm.trans hclosed) Bool.false_ne_true
  | suspended hopen hqueue =>
      refine ⟨h.bounded, ⟨taken, drained, hqueued, ?_, hrefusals⟩, h.isOpen, h.unrefused, ?_⟩
      · change List.Forall₂ (Opens s.socket.options) taken (s.returned ++ [])
        rw [List.append_nil]
        exact hreturned
      · intro hclosed
        exact absurd ((h.live hopen).symm.trans hclosed) Bool.false_ne_true

theorem Balanced.callClose (h : s.Balanced) : s.afterClose.Balanced := by
  obtain ⟨taken, drained, hqueued, hreturned, hrefusals⟩ := h.fate
  obtain ⟨hqueue, hopen, hsuspended, hback, -, hout⟩ := s.socket.callClose_spec
  constructor
  · change s.socket.callClose.queue.length ≤ _
    rw [hqueue]
    exact Nat.zero_le _
  · refine ⟨taken, drained ++ s.socket.queue, ?_, hreturned, ?_⟩
    · change s.queued = _ ++ s.socket.callClose.queue
      rw [hqueue, hqueued, List.append_nil, List.append_assoc]
    · change s.refusals ++ s.socket.callClose.userData.outgoing.drop _ = _
      rw [hout, List.drop_left, hrefusals, List.map_append]
  · exact hopen
  · intro hopen
    cases hopen
  · intro _
    exact ⟨hqueue, hsuspended⟩

theorem Balanced.reorder (h : s.Balanced) {suspended : List (Unit × Cookie)}
    (hperm : suspended.Perm s.socket.events.suspended) : (s.afterReorder suspended).Balanced where
  bounded := h.bounded
  fate := h.fate
  isOpen := h.isOpen
  unrefused := h.unrefused
  emptied := fun hclosed => by
    obtain ⟨hqueue, hsuspended⟩ := h.emptied hclosed
    rw [hsuspended] at hperm
    exact ⟨hqueue, hperm.eq_nil⟩

theorem Balanced.step {v : Visit Addr Time} (h : s.Balanced) (hs : Step s v s') : s'.Balanced := by
  cases hs with
  | onSegment addr seg => exact h.onSegment addr seg
  | callAccept _ hr => exact h.callAccept hr
  | callClose => exact h.callClose
  | reorder hperm => exact h.reorder hperm

theorem balanced_of_reachable (run : Reachable s) : s.Balanced := by
  refine Transition.Reachable.invariant (P := Balanced) ?_ (fun s v s' h hs => h.step hs) run
  rintro s ⟨backlog, userData, rfl⟩
  exact balanced_start backlog userData

theorem rst_backlogRefusal (seg : SegmentMeta) :
    (ListenSocket.backlogRefusal seg).hasRst = true := by
  change (SegmentFlags.ack ||| SegmentFlags.rst).contains .rst = true
  decide

omit [UserTime Time] in
/-- A SYN that finds the socket open is queued or refused. -/
theorem queued_or_refused (l : ListenSocket Addr Time) (addr : Addr) {seg : SegmentMeta}
    (hopen : l.isOpen = true) (hsyn : seg.hasSyn = true) (hrst : seg.hasRst = false)
    (hack : seg.hasAck = false) :
    ((l.onSegment addr seg).queue = l.queue ++ [(addr, seg)] ∧
      (l.onSegment addr seg).userData.outgoing = l.userData.outgoing) ∨
    ((l.onSegment addr seg).queue = l.queue ∧ ∃ answer : SegmentMeta, answer.hasRst = true ∧
      (l.onSegment addr seg).userData.outgoing = l.userData.outgoing ++ [(addr, answer)]) := by
  have harrived := l.arrived addr seg
  generalize l.onSegment addr seg = l' at harrived
  cases harrived with
  | ignored h =>
      rcases h with h | ⟨-, -, h⟩
      · exact absurd (hrst.symm.trans h) Bool.false_ne_true
      · exact absurd (h.symm.trans hsyn) Bool.false_ne_true
  | refused _ h =>
      rcases h with h | h
      · exact absurd (hack.symm.trans h) Bool.false_ne_true
      · exact absurd (h.symm.trans hopen) Bool.false_ne_true
  | full => exact .inr ⟨rfl, ListenSocket.backlogRefusal seg, rst_backlogRefusal seg, by simp⟩
  | queued => exact .inl ⟨rfl, rfl⟩
  | woke => exact .inl ⟨rfl, by simp⟩

/-- A queued SYN without data is answered by the connection made for it. -/
theorem callAccept_returns {l : ListenSocket Addr Time} {p : Addr × SegmentMeta}
    {queue : List (Addr × SegmentMeta)} (mk : ListenSocket Addr Time → UserData Addr Time)
    (hopen : l.isOpen = true) (hqueue : l.queue = p :: queue) (hdata : p.2.data = []) :
    ∃ c, l.callAccept mk = .ok ({ l with queue := queue }, .ok (p.1, c)) := by
  have hanswers : Fallible.Succeeds ((Connection.listening p.1 l.options
      (mk { l with queue := queue })).onSegmentListen p.2) :=
    (Connection.onSegmentListen_succeeds_iff rfl).mpr fun h => h.2.2.2 hdata
  obtain ⟨c, hc⟩ := hanswers
  refine ⟨c, ?_⟩
  have hseg : (Connection.listening p.1 l.options (mk { l with queue := queue })).onSegment p.2 =
      .ok c := hc
  simp only [ListenSocket.callAccept, hopen, hqueue, Connection.acceptor_eq, Fallible.ok_bind]
  rw [hopen] at hseg
  rw [hseg]
  rfl

/-- What the socket does with the segments and callers to come. -/
structure Attends (s : Ledger Addr Time) : Prop where
  arrivals : s.closed = false → ∀ (addr : Addr) (seg : SegmentMeta), seg.hasSyn = true →
    seg.hasRst = false → seg.hasAck = false →
    ((s.socket.onSegment addr seg).queue = s.socket.queue ++ [(addr, seg)] ∧
      (s.socket.onSegment addr seg).userData.outgoing = s.socket.userData.outgoing) ∨
    ((s.socket.onSegment addr seg).queue = s.socket.queue ∧
      ∃ answer : SegmentMeta, answer.hasRst = true ∧
        (s.socket.onSegment addr seg).userData.outgoing =
          s.socket.userData.outgoing ++ [(addr, answer)])
  accepts : s.closed = false → ∀ (mk : ListenSocket Addr Time → UserData Addr Time)
    (p : Addr × SegmentMeta) (queue : List (Addr × SegmentMeta)), s.socket.queue = p :: queue →
    p.2.data = [] →
      ∃ c, s.socket.callAccept mk = .ok ({ s.socket with queue := queue }, .ok (p.1, c))
  ends : s.closed = true → ∀ mk : ListenSocket Addr Time → UserData Addr Time,
    s.socket.callAccept mk = .ok (s.socket, .error .connectionClosing)

/-- Every segment that enters the queue has one fate, in the order of arrival,
and a closed socket stays empty and refuses every accept. -/
theorem accounts (run : Reachable s) : s.Balanced ∧ s.Attends := by
  have hbalanced := balanced_of_reachable run
  have hopen := hbalanced.isOpen
  refine ⟨hbalanced, ⟨fun hlive addr seg => ?_, fun hlive mk p queue => ?_, fun hclosed mk => ?_⟩⟩
  · rw [hlive] at hopen
    exact queued_or_refused s.socket addr hopen
  · rw [hlive] at hopen
    exact callAccept_returns mk hopen
  · rw [hclosed] at hopen
    unfold ListenSocket.callAccept
    rw [hopen]
    rfl

/-- One SYN is returned by an accept and the next one is refused by `call_close`. -/
theorem accounts_two : ∃ s : Ledger Unit Nat, s.queued.length = 2 ∧ s.returned.length = 1 ∧
    s.refusals = [((), ⟨9#32, 0#32, 0#16, .rst, []⟩)] ∧ s.Balanced ∧ s.Attends := by
  let user : UserData Unit Nat := ⟨[], fun _ => 0#32, fun _ => 0⟩
  let syn : SegmentMeta := ⟨100#32, 9#32, 1000#16, .syn, []⟩
  let listens : Ledger Unit Nat := start 2 user
  let queued := (listens.afterSegment () syn).afterSegment () syn
  have hinit : Reachable listens := .init ⟨2, user, rfl⟩
  have hqueued : Reachable queued := (hinit.step (.onSegment () syn)).step (.onSegment () syn)
  obtain ⟨c, hc⟩ : ∃ c, queued.socket.callAccept (fun _ => user) =
      .ok ({ queued.socket with queue := [((), syn)] }, .ok ((), c)) :=
    @callAccept_returns _ _ _ queued.socket ((), syn) [((), syn)] _
      (by decide) (by decide) rfl
  have hreturned : Reachable (queued.afterAccept none _ _) :=
    hqueued.step (.callAccept (by simp) hc)
  refine ⟨_, ?_, rfl, ?_, accounts (hreturned.step .callClose)⟩
  · change queued.queued.length = 2
    decide
  · change { queued.socket with queue := [((), syn)] }.callClose.userData.outgoing.drop
      queued.socket.userData.outgoing.length = [((), ⟨9#32, 0#32, 0#16, .rst, []⟩)]
    decide

/-- A sleeping accept comes with no more queued segments than accepts that are
still to retry. -/
def Awake (s : Ledger Addr Time) : Prop :=
  s.socket.events.suspended ≠ [] → s.socket.queue.length ≤ s.woken.length

theorem Awake.step {v : Visit Addr Time} (hb : s.Balanced) (h : s.Awake) (hs : Step s v s') :
    s'.Awake := by
  cases hs with
  | onSegment addr seg =>
      have harrived := s.socket.arrived addr seg
      unfold Awake at h ⊢
      unfold afterSegment
      generalize s.socket.onSegment addr seg = l at harrived
      cases harrived with
      | ignored => simpa using h
      | refused => simpa using h
      | full => simpa using h
      | queued _ _ _ _ _ hnone => exact fun hsome => absurd hnone hsome
      | woke _ _ _ _ _ hsome =>
          -- one accept is resumed for one more queued segment
          have hle := h (by rw [hsome]; exact List.cons_ne_nil _ _)
          intro _
          simp [Except.isOk, Except.toBool]
          omega
  | @callAccept retrying mk socket r hretry hr =>
      have hwoken : s.woken.length ≤ (s.afterAccept retrying socket r).woken.length + 1 := by
        cases retrying with
        | none => exact Nat.le_succ _
        | some cookie =>
            change s.woken.length ≤ (s.woken.erase cookie).length + 1
            rw [List.length_erase_of_mem (hretry cookie rfl)]
            omega
      cases ListenSocket.accepted_of_ok hr with
      | closed hclosed =>
          have hopen := hb.isOpen
          rw [hclosed] at hopen
          intro hsome
          exact absurd (hb.emptied (by simpa using hopen.symm)).2 hsome
      | popped _ hqueue =>
          intro hsome
          have hle := h hsome
          rw [hqueue, List.length_cons] at hle
          exact Nat.le_of_succ_le_succ (Nat.le_trans hle hwoken)
      | suspended _ hqueue =>
          intro _
          change s.socket.queue.length ≤ _
          rw [hqueue]
          exact Nat.zero_le _
  | callClose =>
      intro hsome
      exact absurd s.socket.callClose_spec.2.2.1 hsome
  | reorder hperm =>
      intro hsome
      refine h fun hnone => hsome ?_
      rw [hnone] at hperm
      exact hperm.eq_nil

/-- No accept sleeps beside a queued connection nobody has been woken for. -/
theorem no_lost_wakeup (run : Reachable s) (hsleeps : s.socket.events.suspended ≠ []) :
    s.socket.queue.length ≤ s.woken.length := by
  have hawake : s.Awake := by
    refine Transition.ReachableUnder.invariant (P := Awake) ?_ ?_ run
    · rintro s ⟨backlog, userData, rfl⟩ hsome
      exact absurd rfl hsome
    · intro s v s' run h _ hs
      exact h.step (balanced_of_reachable run) hs
  exact hawake hsleeps

/-- Of two sleeping accepts one is woken for the SYN that arrives. -/
theorem no_lost_wakeup_two : ∃ s : Ledger Unit Nat, s.socket.events.suspended ≠ [] ∧
    s.socket.queue.length = 1 ∧ s.woken = [0] ∧ s.socket.queue.length ≤ s.woken.length := by
  let user : UserData Unit Nat := ⟨[], fun _ => 0#32, fun _ => 0⟩
  let mk : ListenSocket Unit Nat → UserData Unit Nat := fun _ => user
  let listens : Ledger Unit Nat := start 2 user
  have hinit : Reachable listens := .init ⟨2, user, rfl⟩
  have hfirst : listens.socket.callAccept mk =
      .ok ({ listens.socket with events := ⟨[((), 0)], 1⟩ }, .error (.retryAfter 0)) := rfl
  have hone : Reachable (listens.afterAccept none _ _) :=
    hinit.step (.callAccept (by simp) hfirst)
  have hsecond : { listens.socket with events := ⟨[((), 0)], 1⟩ }.callAccept mk =
      .ok ({ listens.socket with events := ⟨[((), 0), ((), 1)], 2⟩ }, .error (.retryAfter 1)) := rfl
  have htwo : Reachable ((listens.afterAccept none _ _).afterAccept none _ _) :=
    hone.step (.callAccept (by simp) hsecond)
  have hsleeps := htwo.step (.onSegment () ⟨100#32, 0#32, 1000#16, .syn, []⟩)
  exact ⟨_, List.cons_ne_nil _ _, rfl, rfl, no_lost_wakeup hsleeps (List.cons_ne_nil _ _)⟩

end Ledger

end TcpState
