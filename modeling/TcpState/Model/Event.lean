import TcpState.Model.Result
import TcpState.Model.Segment

/-!
# Suspended calls and the user's callbacks

A blocking call leaves a waiter with a fresh cookie. The user data is known
to the library only through its callbacks, so it is modelled by the calls made
to it, together with the answers it gives to `new_seqn` and to the clock.
-/

namespace TcpState

inductive WaitUntil
  /-- Wait until connection has been established. -/
  | established
  /-- No data in tx buffer and no queued tx calls. -/
  | txQueueEmpty
  /-- Tx side of buffer is closed (FIN ACK'd). -/
  | txClosed
  /-- Rx side of buffer is closed (FIN ACK'd). -/
  | rxClosed
  /-- Both tx and rx sides of buffer are closed (FINs ACK'd). -/
  | bothClosed
  /-- Wait until a receive buffer has enough data. -/
  | recv (count : BitVec 32)
  /-- Wait until a segment is sent and acknowledged. -/
  | acknowledged (seqn : SeqN)
deriving DecidableEq, Repr

namespace WaitUntil

def isRecv : WaitUntil → Bool
  | recv _ => true
  | _ => false

def isAcknowledged : WaitUntil → Bool
  | acknowledged _ => true
  | _ => false

end WaitUntil

/-- The suspended set is kept as a list in the order of suspension. Its
members are distinct because every cookie is fresh. -/
structure Events (Event : Type) where
  suspended : List (Event × Cookie)
  nextCookie : Cookie
deriving DecidableEq, Repr

namespace Events

variable {Event α : Type}

def new : Events Event := ⟨[], 0⟩

/-- The counter is a checked 64-bit number. -/
def newCookie (e : Events Event) : Res (Cookie × Events Event) :=
  if e.nextCookie + 1 < 2 ^ 64 then
    .ok (e.nextCookie, { e with nextCookie := e.nextCookie + 1 })
  else .error .overflow

def returnRetryAfter (e : Events Event) (until_ : Event) :
    Res (Events Event × Except Error α) := do
  let (cookie, e) ← e.newCookie
  return ({ e with suspended := e.suspended ++ [(until_, cookie)] }, .error (.retryAfter cookie))

def returnContinueAfter (e : Events Event) (until_ : Event) :
    Res (Events Event × Except Error α) := do
  let (cookie, e) ← e.newCookie
  return ({ e with suspended := e.suspended ++ [(until_, cookie)] },
    .error (.continueAfter cookie))

def anySuspended (e : Events Event) (f : Event → Bool) : Bool :=
  e.suspended.any fun p => f p.1

theorem returnRetryAfter_ok_iff {e e' : Events Event} {w : Event} {r : Except Error α} :
    e.returnRetryAfter w = .ok (e', r) ↔ e.nextCookie + 1 < 2 ^ 64 ∧
      e' = ⟨e.suspended ++ [(w, e.nextCookie)], e.nextCookie + 1⟩ ∧
      r = .error (.retryAfter e.nextCookie) := by
  rw [returnRetryAfter, newCookie]
  split
  · rename_i h
    rw [Fallible.ok_bind, Fallible.pure_ok_iff, Prod.mk.injEq]
    exact ⟨fun ⟨he, hr⟩ => ⟨h, he.symm, hr.symm⟩, fun ⟨_, he, hr⟩ => ⟨he.symm, hr.symm⟩⟩
  · rename_i h
    exact ⟨nofun, fun ⟨hlt, _⟩ => absurd hlt h⟩

theorem returnContinueAfter_ok_iff {e e' : Events Event} {w : Event} {r : Except Error α} :
    e.returnContinueAfter w = .ok (e', r) ↔ e.nextCookie + 1 < 2 ^ 64 ∧
      e' = ⟨e.suspended ++ [(w, e.nextCookie)], e.nextCookie + 1⟩ ∧
      r = .error (.continueAfter e.nextCookie) := by
  rw [returnContinueAfter, newCookie]
  split
  · rename_i h
    rw [Fallible.ok_bind, Fallible.pure_ok_iff, Prod.mk.injEq]
    exact ⟨fun ⟨he, hr⟩ => ⟨h, he.symm, hr.symm⟩, fun ⟨_, he, hr⟩ => ⟨he.symm, hr.symm⟩⟩
  · rename_i h
    exact ⟨nofun, fun ⟨hlt, _⟩ => absurd hlt h⟩

theorem anySuspended_iff {e : Events Event} {f : Event → Bool} :
    e.anySuspended f = true ↔ ∃ p ∈ e.suspended, f p.1 = true := by
  simp [anySuspended]

end Events

/-- A call of the library to its user. -/
inductive Callback (Addr Time : Type)
  | send (dst : Addr) (seg : SegmentMeta)
  | event (cookie : Cookie) (result : Except Error Unit)
  | addTimeout (instant : Time)

/-- The segment a callback puts on the wire, if it does. -/
def Callback.segment {Addr Time : Type} : Callback Addr Time → Option SegmentMeta
  | .send _ seg => some seg
  | _ => none

/-- The user of the library: the callbacks made so far, oldest first, and the
answers still to come from `new_seqn` and from `UserTime::now`. -/
structure UserData (Addr Time : Type) where
  calls : List (Callback Addr Time)
  seqns : Nat → SeqN
  clock : Nat → Time

namespace UserData

variable {Addr Time : Type}

def newSeqn (u : UserData Addr Time) : SeqN × UserData Addr Time :=
  (u.seqns 0, { u with seqns := fun n => u.seqns (n + 1) })

def now (u : UserData Addr Time) : Time × UserData Addr Time :=
  (u.clock 0, { u with clock := fun n => u.clock (n + 1) })

def send (u : UserData Addr Time) (dst : Addr) (seg : SegmentMeta) : UserData Addr Time :=
  { u with calls := u.calls ++ [.send dst seg] }

def event (u : UserData Addr Time) (cookie : Cookie) (result : Except Error Unit) :
    UserData Addr Time :=
  { u with calls := u.calls ++ [.event cookie result] }

def addTimeout (u : UserData Addr Time) (instant : Time) : UserData Addr Time :=
  { u with calls := u.calls ++ [.addTimeout instant] }

/-- The segments sent so far, oldest first. -/
def sent (u : UserData Addr Time) : List SegmentMeta := u.calls.filterMap Callback.segment

@[simp] theorem sent_newSeqn (u : UserData Addr Time) : u.newSeqn.2.sent = u.sent := rfl

@[simp] theorem sent_now (u : UserData Addr Time) : u.now.2.sent = u.sent := rfl

@[simp] theorem sent_send (u : UserData Addr Time) (dst : Addr) (seg : SegmentMeta) :
    (u.send dst seg).sent = u.sent ++ [seg] := by
  simp [sent, send, Callback.segment]

@[simp] theorem sent_event (u : UserData Addr Time) (cookie : Cookie)
    (result : Except Error Unit) : (u.event cookie result).sent = u.sent := by
  simp [sent, event, Callback.segment]

@[simp] theorem sent_addTimeout (u : UserData Addr Time) (instant : Time) :
    (u.addTimeout instant).sent = u.sent := by
  simp [sent, addTimeout, Callback.segment]

end UserData

end TcpState
