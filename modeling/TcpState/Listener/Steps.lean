import TcpState.Connection.Run

/-!
# What an operation does to a listening socket

One case for each way through `on_segment` and `call_accept`, and what
`call_close` leaves, with the callbacks each of them makes.
-/

namespace TcpState

/-- The cookie of an accept that a callback resumes to retry. -/
def Callback.awaken {Addr Time : Type} : Callback Addr Time → Option Cookie
  | .event cookie (.ok _) => some cookie
  | _ => none

/-- The destination and the segment a callback sends. -/
def Callback.outgoing {Addr Time : Type} : Callback Addr Time → Option (Addr × SegmentMeta)
  | .send dst seg => some (dst, seg)
  | _ => none

namespace UserData

variable {Addr Time : Type}

/-- The cookies resumed to retry, oldest first. -/
def awakened (u : UserData Addr Time) : List Cookie := u.calls.filterMap Callback.awaken

/-- The segments sent so far and where to, oldest first. -/
def outgoing (u : UserData Addr Time) : List (Addr × SegmentMeta) :=
  u.calls.filterMap Callback.outgoing

variable (u : UserData Addr Time) (dst : Addr) (seg : SegmentMeta) (cookie : Cookie)

@[simp] theorem awakened_send : (u.send dst seg).awakened = u.awakened := by
  simp [awakened, send, Callback.awaken]

@[simp] theorem awakened_event (r : Except Error Unit) : (u.event cookie r).awakened =
    u.awakened ++ if r.isOk then [cookie] else [] := by
  cases r <;> simp [awakened, event, Callback.awaken, Except.isOk, Except.toBool]

@[simp] theorem outgoing_send : (u.send dst seg).outgoing = u.outgoing ++ [(dst, seg)] := by
  simp [outgoing, send, Callback.outgoing]

@[simp] theorem outgoing_event (r : Except Error Unit) :
    (u.event cookie r).outgoing = u.outgoing := by
  simp [outgoing, event, Callback.outgoing]

/-- Resuming with an error wakes nobody to retry and sends nothing. -/
theorem foldl_refuse (ws : List (Unit × Cookie)) (e : Error) :
    (ws.foldl (fun u p => u.event p.2 (.error e)) u).awakened = u.awakened ∧
      (ws.foldl (fun u p => u.event p.2 (.error e)) u).outgoing = u.outgoing := by
  induction ws generalizing u with
  | nil => exact ⟨rfl, rfl⟩
  | cons w ws ih =>
      obtain ⟨hawakened, houtgoing⟩ := ih (u.event w.2 (.error e))
      rw [List.foldl_cons, hawakened, houtgoing]
      simp [Except.isOk, Except.toBool]

theorem foldl_send (queue : List (Addr × SegmentMeta)) (answer : SegmentMeta → SegmentMeta) :
    (queue.foldl (fun u p => u.send p.1 (answer p.2)) u).awakened = u.awakened ∧
      (queue.foldl (fun u p => u.send p.1 (answer p.2)) u).outgoing =
        u.outgoing ++ queue.map fun p => (p.1, answer p.2) := by
  induction queue generalizing u with
  | nil => simp
  | cons p queue ih =>
      obtain ⟨hawakened, houtgoing⟩ := ih (u.send p.1 (answer p.2))
      rw [List.foldl_cons, hawakened, houtgoing]
      simp

end UserData

namespace ListenSocket

variable {Addr Time : Type} {l l' : ListenSocket Addr Time} {addr : Addr} {seg : SegmentMeta}

/-- What `on_segment` does to a listening socket. -/
inductive Arrived (l : ListenSocket Addr Time) (addr : Addr) (seg : SegmentMeta) :
    ListenSocket Addr Time → Prop
  | ignored (h : seg.hasRst = true ∨ l.isOpen = true ∧ seg.hasAck = false ∧ seg.hasSyn = false) :
      Arrived l addr seg l
  | refused (hrst : seg.hasRst = false) (h : seg.hasAck = true ∨ l.isOpen = false) :
      Arrived l addr seg { l with userData := l.userData.send addr (refusal seg) }
  | full (hrst : seg.hasRst = false) (hack : seg.hasAck = false) (hsyn : seg.hasSyn = true)
      (hopen : l.isOpen = true) (hfull : l.backlog ≤ l.queue.length) :
      Arrived l addr seg { l with userData := l.userData.send addr (backlogRefusal seg) }
  | queued (hrst : seg.hasRst = false) (hack : seg.hasAck = false) (hsyn : seg.hasSyn = true)
      (hopen : l.isOpen = true) (hroom : l.queue.length < l.backlog)
      (hnone : l.events.suspended = []) :
      Arrived l addr seg { l with queue := l.queue ++ [(addr, seg)] }
  | woke (hrst : seg.hasRst = false) (hack : seg.hasAck = false) (hsyn : seg.hasSyn = true)
      (hopen : l.isOpen = true) (hroom : l.queue.length < l.backlog) {cookie : Cookie}
      {suspended : List (Unit × Cookie)} (hsome : l.events.suspended = ((), cookie) :: suspended) :
      Arrived l addr seg { l with
        queue := l.queue ++ [(addr, seg)]
        events := { l.events with suspended := suspended }
        userData := l.userData.event cookie (.ok ()) }

theorem arrived (l : ListenSocket Addr Time) (addr : Addr) (seg : SegmentMeta) :
    Arrived l addr seg (l.onSegment addr seg) := by
  unfold onSegment
  split
  · rename_i hrst
    exact .ignored (.inl hrst)
  rename_i hrst
  have hrst : seg.hasRst = false := by simpa using hrst
  split
  · rename_i h
    exact .refused hrst (by simpa using h)
  rename_i h
  obtain ⟨hack, hopen⟩ : seg.hasAck = false ∧ l.isOpen = true := by simpa using h
  split
  · rename_i hsyn
    exact .ignored (.inr ⟨hopen, hack, by simpa using hsyn⟩)
  rename_i hsyn
  have hsyn : seg.hasSyn = true := by simpa using hsyn
  split
  · rename_i hfull
    exact .full hrst hack hsyn hopen hfull
  rename_i hroom
  have hroom : l.queue.length < l.backlog := Nat.lt_of_not_le hroom
  dsimp only
  split
  · rename_i hnone
    exact .queued hrst hack hsyn hopen hroom hnone
  · rename_i cookie suspended hsome
    exact .woke hrst hack hsyn hopen hroom hsome

/-- After `call_close` nothing is queued or suspended, and every queued
segment has been refused. -/
theorem callClose_spec (l : ListenSocket Addr Time) :
    l.callClose.queue = [] ∧ l.callClose.isOpen = false ∧ l.callClose.events.suspended = [] ∧
      l.callClose.backlog = l.backlog ∧
      l.callClose.userData.awakened = l.userData.awakened ∧
      l.callClose.userData.outgoing =
        l.userData.outgoing ++ l.queue.map fun p => (p.1, refusal p.2) := by
  obtain ⟨hsent, hout⟩ := UserData.foldl_send
    (l.events.suspended.foldl (fun u p => u.event p.2 (.error .listenClosed)) l.userData)
    l.queue refusal
  obtain ⟨hevent, hout'⟩ := l.userData.foldl_refuse l.events.suspended .listenClosed
  exact ⟨rfl, rfl, rfl, rfl, hsent.trans hevent, hout.trans (by rw [hout'])⟩

variable [UserTime Time]

/-- What `call_accept` does to a listening socket. -/
inductive Accepted (l : ListenSocket Addr Time)
    (mk : ListenSocket Addr Time → UserData Addr Time) : ListenSocket Addr Time →
      Except Error (Addr × Connection Addr Time) → Prop
  | closed (hclosed : l.isOpen = false) : Accepted l mk l (.error .connectionClosing)
  | popped (hopen : l.isOpen = true) {addr : Addr} {seg : SegmentMeta}
      {queue : List (Addr × SegmentMeta)} {c : Connection Addr Time}
      (hqueue : l.queue = (addr, seg) :: queue)
      (hc : (Connection.listening addr l.options (mk { l with queue := queue })).onSegment seg =
        .ok c) : Accepted l mk { l with queue := queue } (.ok (addr, c))
  | suspended (hopen : l.isOpen = true) (hqueue : l.queue = []) :
      Accepted l mk { l with events :=
        ⟨l.events.suspended ++ [((), l.events.nextCookie)], l.events.nextCookie + 1⟩ }
        (.error (.retryAfter l.events.nextCookie))

theorem accepted_of_ok {mk : ListenSocket Addr Time → UserData Addr Time}
    {r : Except Error (Addr × Connection Addr Time)} (h : l.callAccept mk = .ok (l', r)) :
    Accepted l mk l' r := by
  unfold callAccept at h
  split at h
  · rename_i hclosed
    obtain ⟨rfl, rfl⟩ := Prod.mk.inj (Fallible.pure_ok_iff.mp h)
    exact .closed (by simpa using hclosed)
  rename_i hopen
  have hopen : l.isOpen = true := by simpa using hopen
  split at h
  · rename_i addr seg queue hqueue
    simp only [Fallible.bind_ok_iff, Fallible.pure_ok_iff, Prod.mk.injEq] at h
    obtain ⟨c₀, h₀, c, hc, rfl, rfl⟩ := h
    rw [Connection.acceptor_eq] at h₀
    obtain rfl := Except.ok.inj h₀
    exact .popped hopen hqueue hc
  · rename_i hqueue
    simp only [Fallible.bind_ok_iff, Fallible.pure_ok_iff, Prod.mk.injEq, Prod.exists,
      Events.returnRetryAfter_ok_iff] at h
    obtain ⟨_, _, ⟨-, rfl, rfl⟩, rfl, rfl⟩ := h
    exact .suspended hopen hqueue

end ListenSocket

end TcpState
